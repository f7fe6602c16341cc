import ReactDpdk.Core.MbufReaderBounds
import ReactDpdk.Tcp.ContextEdits

/-! The checks that a frame meets in `handleTcpRx`. They compare lengths that
the segments claim, so they say little about the bytes that are really there. -/
namespace Nginz

/-- A frame passes every check up to the destination port. -/
structure PassesChecks (junk : RxJunk) (listen : TcpControlBlock) (frame : List RteMbuf)
    (iphdr : BytePtr) : Prop where
  etherFits : etherHdrSize.toNat ≤ (RteMbufReader.new frame).size
  ipFits : 20 ≤ (ipReader frame).size
  ipAt : (ipReader frame).getRawBuffer = some iphdr
  isTcp : ipNextProtoId iphdr = 6
  dataOffset : tcpHeaderNumDefaultWord32 ≤ (tcpFront junk frame iphdr).2.dataOffset
  port : (parsedFrame junk frame iphdr).header.dport.toUInt64 = listen.clientId &&& 0xFFFF

variable {junk : RxJunk} {listen : TcpControlBlock} {frame : List RteMbuf} {iphdr : BytePtr}
  {parsed : ParsedFrame}

/-- The frames that are not dropped early are those that pass the checks. -/
theorem parseFrame_eq_some_iff : parseFrame junk listen frame = some parsed ↔
    ∃ iphdr, PassesChecks junk listen frame iphdr ∧ parsed = parsedFrame junk frame iphdr := by
  unfold parseFrame
  constructor
  · intro h
    split at h
    · cases h
    · rename_i hEther
      split at h
      · cases h
      · rename_i hIp
        split at h
        · cases h
        · rename_i iphdr hAt
          split at h
          · cases h
          · rename_i hTcp
            split at h
            · cases h
            · rename_i hOffset
              split at h
              · cases h
              · rename_i hPort
                exact ⟨iphdr, ⟨not_lt.mp hEther, not_lt.mp hIp, hAt, not_not.mp hTcp,
                  UInt8.not_lt.mp hOffset, not_not.mp hPort⟩, (Option.some.inj h).symm⟩
  · rintro ⟨iphdr, h, rfl⟩
    rw [if_neg (not_lt.mpr h.etherFits), if_neg (not_lt.mpr h.ipFits), h.ipAt]
    dsimp only
    rw [if_neg (not_not.mpr h.isTcp), if_neg (UInt8.not_lt.mpr h.dataOffset),
      if_neg (not_not.mpr h.port)]

theorem parseFrame_of_passes (h : PassesChecks junk listen frame iphdr) :
    parseFrame junk listen frame = some (parsedFrame junk frame iphdr) :=
  parseFrame_eq_some_iff.mpr ⟨iphdr, h, rfl⟩

theorem parseFrame_none (h : ¬ ∃ iphdr, PassesChecks junk listen frame iphdr) :
    parseFrame junk listen frame = none := by
  cases hParse : parseFrame junk listen frame with
  | none => rfl
  | some parsed =>
      obtain ⟨iphdr, hPass, _⟩ := parseFrame_eq_some_iff.mp hParse
      exact absurd ⟨iphdr, hPass⟩ h

section Reads
open RteMbufReader
variable {a : RteMbuf} {rest : List RteMbuf} {offset count : Nat} {reader : RteMbufReader}

/-- The bytes of the TCP header that are read where a segment claims a length. -/
def tcpSpan (pktLen : Nat) : Nat := 12 + 2 * wordSpan pktLen

theorem progress_readTcpFront (h : Progress a rest offset count reader)
    (hSize : 2 ≤ a.pktLen.toNat) (locals : Indeterminate) (header : TcpSegmentHeader) :
    Progress a rest offset (count + (6 + 2 * wordSpan a.pktLen.toNat))
      (readTcpFront locals header reader).1 := by
  have hPorts := (h.readU16 hSize locals header.sport).readU16 hSize locals header.dport
  have hWords := (hPorts.readU32 hSize locals header.seqno).readU32 hSize locals header.ackno
  have hLeft := hWords.readU16 hSize locals 0
  have hCount : count + 2 + 2 + wordSpan a.pktLen.toNat + wordSpan a.pktLen.toNat + 2 =
      count + (6 + 2 * wordSpan a.pktLen.toNat) := by omega
  exact hCount ▸ hLeft

theorem progress_readTcpBack (h : Progress a rest offset count reader)
    (hSize : 2 ≤ a.pktLen.toNat) (locals : Indeterminate) (headerLen : UInt8)
    (header : TcpSegmentHeader) :
    (∀ ptr ∈ (readTcpBack locals headerLen header reader).1.reads, ptr.Inside) ↔
      offset + (count + 6) ≤ a.dataLen.toNat := by
  have hWindow :=
    (h.readU16 hSize locals header.suppWindowSize).readU16 hSize locals header.checksum
  exact (hWindow.readU16 hSize locals header.uptr).inside_iff

theorem reads_readTcpFront_subset (reader : RteMbufReader) (locals : Indeterminate)
    (header : TcpSegmentHeader) : reader.reads ⊆ (readTcpFront locals header reader).1.reads := by
  have hPorts := List.Subset.trans (reads_readU16_subset reader locals header.sport)
    (reads_readU16_subset _ locals header.dport)
  have hWords := List.Subset.trans (List.Subset.trans hPorts
    (reads_readU32_subset _ locals header.seqno)) (reads_readU32_subset _ locals header.ackno)
  exact List.Subset.trans hWords (reads_readU16_subset _ locals 0)

theorem reads_readTcpBack_subset (reader : RteMbufReader) (locals : Indeterminate)
    (headerLen : UInt8) (header : TcpSegmentHeader) :
    reader.reads ⊆ (readTcpBack locals headerLen header reader).1.reads := by
  have hWindow := List.Subset.trans (reads_readU16_subset reader locals header.suppWindowSize)
    (reads_readU16_subset _ locals header.checksum)
  exact List.Subset.trans hWindow (reads_readU16_subset _ locals header.uptr)

/-- Nothing that was read is forgotten. -/
theorem reads_parsedFrame_subset (junk : RxJunk) (frame : List RteMbuf) (iphdr : BytePtr) :
    (tcpReader frame iphdr).reads ⊆ (parsedFrame junk frame iphdr).reader.reads := by
  have hFront : (tcpReader frame iphdr).reads ⊆ (tcpFront junk frame iphdr).1.reads :=
    reads_readTcpFront_subset (tcpReader frame iphdr) junk.locals
      { junk.header with ipHeader := readIpHeader iphdr }
  have hBack : (tcpFront junk frame iphdr).1.reads ⊆ (parsedFrame junk frame iphdr).reader.reads :=
    reads_readTcpBack_subset (tcpFront junk frame iphdr).1 junk.locals (ipHeaderLen iphdr)
      (tcpFront junk frame iphdr).2
  exact List.Subset.trans hFront hBack

/-- Where the reader believes its input exhausted, the data offset is zero. -/
theorem dataOffset_of_short (h : reader.size < 2) (locals : Indeterminate)
    (header : TcpSegmentHeader) : (readTcpFront locals header reader).2.dataOffset = 0 := by
  simp only [readTcpFront, readU16_short h, readU32_short (by omega : reader.size < 4)]
  decide

theorem PassesChecks.size_ge (h : PassesChecks junk listen frame iphdr) :
    2 ≤ (tcpReader frame iphdr).size := by
  by_contra hShort
  have hZero := dataOffset_of_short (not_le.mp hShort) junk.locals
    { junk.header with ipHeader := readIpHeader iphdr }
  have hOffset := h.dataOffset
  rw [tcpFront, hZero] at hOffset
  exact absurd hOffset (by decide)

theorem ipReader_valid (frame : List RteMbuf) : (ipReader frame).itr.Valid :=
  (new_valid frame).skip etherHdrSize

theorem tcpReader_valid (frame : List RteMbuf) (iphdr : BytePtr) :
    (tcpReader frame iphdr).itr.Valid := (ipReader_valid frame).skip _

/-- The bytes read through `iphdr` are data exactly when the fixed part of the
IPv4 header lies in one segment. -/
theorem ipHeaderReads_inside_iff (h : (ipReader frame).getRawBuffer = some iphdr) :
    (∀ ptr ∈ ipHeaderReads iphdr, ptr.Inside) ↔ 20 ≤ (ipReader frame).room := by
  rw [RteMbufReader.getRawBuffer, RteMbufIterator.getRawBuffer] at h
  split at h
  · cases h
  · obtain ⟨a, hHead, rfl⟩ := Option.map_eq_some_iff.mp h
    obtain ⟨rest, hChain⟩ := List.head?_eq_some_iff.mp hHead
    simp only [ipHeaderReads, List.map_cons, List.map_nil, List.forall_mem_cons, BytePtr.add,
      BytePtr.Inside, List.not_mem_nil, false_imp_iff, implies_true, and_true, room, hChain]
    omega

/-- The reader at the start of the TCP header, in its segment. -/
theorem PassesChecks.tcpReader_at (h : PassesChecks junk listen frame iphdr) :
    ∃ a rest offset, (tcpReader frame iphdr).itr = { m := a :: rest, offset := offset } ∧
      offset ≤ a.dataLen.toNat ∧ 2 ≤ a.pktLen.toNat := by
  have hSize := h.size_ge
  rcases (tcpReader_valid frame iphdr).cases with hEnd | ⟨a, rest, offset, hItr, hOffset⟩
  · simp [RteMbufReader.size, RteMbufIterator.size, hEnd] at hSize
  · rw [size_at hItr] at hSize
    exact ⟨a, rest, offset, hItr, hOffset, hSize⟩

/-- Every byte that fills the header is data of its segment exactly when the
fixed part of each of the two headers lies in the segment where it starts. -/
theorem PassesChecks.inside_iff (h : PassesChecks junk listen frame iphdr) :
    (∀ ptr ∈ (parsedFrame junk frame iphdr).reader.reads, ptr.Inside) ↔
      20 ≤ (ipReader frame).room ∧
        tcpSpan (tcpReader frame iphdr).size ≤ (tcpReader frame iphdr).room := by
  obtain ⟨a, rest, offset, hItr, hOffset, hSize⟩ := h.tcpReader_at
  have hReads : (tcpReader frame iphdr).reads = ipHeaderReads iphdr := rfl
  have hSpan : tcpSpan a.pktLen.toNat ≤ a.dataLen.toNat - offset ↔
      offset + tcpSpan a.pktLen.toNat ≤ a.dataLen.toNat := by
    rw [tcpSpan]
    omega
  rw [← ipHeaderReads_inside_iff h.ipAt, size_at hItr, room, hItr]
  dsimp only
  rw [hSpan]
  have hGo (hIp : ∀ ptr ∈ ipHeaderReads iphdr, ptr.Inside) :
      (∀ ptr ∈ (parsedFrame junk frame iphdr).reader.reads, ptr.Inside) ↔
        offset + tcpSpan a.pktLen.toNat ≤ a.dataLen.toNat := by
    have hStart : Progress a rest offset 0 (tcpReader frame iphdr) :=
      Or.inl ⟨hOffset, hItr, hReads ▸ hIp⟩
    have hFront := progress_readTcpFront hStart hSize junk.locals
      { junk.header with ipHeader := readIpHeader iphdr }
    have hCount : 0 + (6 + 2 * wordSpan a.pktLen.toNat) + 6 = tcpSpan a.pktLen.toNat := by
      rw [tcpSpan]
      omega
    rw [← hCount]
    exact progress_readTcpBack hFront hSize junk.locals (ipHeaderLen iphdr) _
  constructor
  · intro hAll
    have hIp : ∀ ptr ∈ ipHeaderReads iphdr, ptr.Inside := fun ptr hPtr =>
      hAll ptr (reads_parsedFrame_subset junk frame iphdr (hReads ▸ hPtr))
    exact ⟨hIp, (hGo hIp).mp hAll⟩
  · rintro ⟨hIp, hFits⟩
    exact (hGo hIp).mpr hFits

end Reads

namespace TcpImpl
variable {ctx : TcpImpl}

/-- `handleTcpRx` invokes a callback of the state machine with this parse. -/
def Invokes (ctx : TcpImpl) (junk : RxJunk) (frame : List RteMbuf) (parsed : ParsedFrame) : Prop :=
  parseFrame junk ctx.listen frame = some parsed ∧
    ∃ tcb index, ctx.dispatch parsed.header.clientId = some (tcb, index) ∧ index ≠ .max

/-- The block of a known client has a state of the enumeration. -/
def StateInRange (ctx : TcpImpl) (clientId : UInt64) : Prop :=
  ∀ p key tcb, ctx.tcbTable.find clientId = some p → ctx.tcbTable.cells p = some (key, tcb) →
    tcb.state ≠ .max

/-- A frame that passes the checks reaches a callback unless its client hangs. -/
theorem invokes_iff (h : PassesChecks junk ctx.listen frame iphdr) :
    ctx.Invokes junk frame parsed ↔ parsed = parsedFrame junk frame iphdr ∧
      ctx.StateInRange (parsedFrame junk frame iphdr).header.clientId := by
  rw [Invokes, parseFrame_of_passes h, Option.some.injEq, eq_comm]
  refine and_congr_right ?_
  rintro rfl
  rcases ctx.dispatch_cases (parsedFrame junk frame iphdr).header.clientId with
    ⟨hNone, hDispatch⟩ | ⟨p, tcb, hFind, hCell, _, hDispatch⟩
  · simp [StateInRange, hNone, hDispatch]
  · constructor
    · rintro ⟨ref, index, hSame, hIndex⟩ q key block hq hBlock
      cases hFind.symm.trans hq
      cases hCell.symm.trans hBlock
      cases hDispatch.symm.trans hSame
      exact hIndex
    · intro hRange
      exact ⟨.slot p, tcb.state, hDispatch, hRange p _ tcb hFind hCell⟩

/-- Otherwise the client has a block, and a segment finds it out of range. -/
theorem hanging_block {clientId : UInt64} (hRange : ¬ ctx.StateInRange clientId) :
    ∃ p tcb, ctx.tcbTable.cells p = some (clientId, tcb) ∧ tcb.state = .max ∧
      ctx.block (.slot p) = some tcb ∧ ctx.dispatch clientId = some (.slot p, .max) := by
  rcases ctx.dispatch_cases clientId with ⟨hNone, _⟩ | ⟨p, tcb, hFind, hCell, hBlock, hDispatch⟩
  · simp [StateInRange, hNone] at hRange
  · have hState : tcb.state = .max := by
      by_contra hNe
      refine hRange fun q key block hq hAt => ?_
      cases hFind.symm.trans hq
      cases hCell.symm.trans hAt
      exact hNe
    exact ⟨p, tcb, hCell, hState, hBlock, hState ▸ hDispatch⟩

end TcpImpl

end Nginz
