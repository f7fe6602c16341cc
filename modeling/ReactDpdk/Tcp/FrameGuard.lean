import ReactDpdk.Tcp.HeaderPlaces

/-! What keeps truncated and malformed frames from the state machine, and what does
not. A frame is guarded if it is complete, its headers lie in place, and every field
of its header is filled from them; the checks of `handleTcpRx` ask for less. -/
namespace Nginz
open Segments RteMbuf

section Accepts
variable {junk : RxJunk} {listen : TcpControlBlock} {frame : List RteMbuf} {iphdr : BytePtr}

/-- What the checks come to where no read of the TCP header is left out: lengths that
segments claim, one byte of memory behind the place of the IPv4 header, and three of
the bytes that the reads take. -/
structure Accepts (listen : TcpControlBlock) (frame : List RteMbuf) : Prop where
  etherClaim : 14 ≤ claimAt frame 0
  ipClaim : 20 ≤ claimAt frame 14
  isTcp : memoryAt frame 14 9 = 6
  dataOffset : 5 ≤ (TcpFrame.byte (headerBytes frame) 12 >>> 4).toNat
  port : (TcpFrame.half (headerBytes frame) 2).toUInt64 = listen.clientId &&& 0xFFFF

theorem dport_front (hFront : FrontClaimed frame)
    (hAt : (ipReader frame).getRawBuffer = some iphdr)
    (hMore : 13 ≤ (visited frame (tcpPlace frame)).length) :
    (parsedFrame junk frame iphdr).header.dport = TcpFrame.half (headerBytes frame) 2 :=
  (hFront.ahead hAt).dport (by omega) junk.locals
    { junk.header with ipHeader := readIpHeader iphdr }

theorem passesChecks_iff_accepts (hFront : FrontClaimed frame) :
    (∃ iphdr, PassesChecks junk listen frame iphdr) ↔ Accepts listen frame := by
  have hEther : (RteMbufReader.new frame).size = claimAt frame 0 :=
    size_standing (new_standing frame)
  have hIp : (ipReader frame).size = claimAt frame 14 := size_standing (ipReader_standing frame)
  have hProtocol {iphdr : BytePtr} (hAt : (ipReader frame).getRawBuffer = some iphdr) :
      ipNextProtoId iphdr = memoryAt frame 14 9 :=
    memory_standing (ipReader_standing frame) hAt 9
  constructor
  · rintro ⟨iphdr, h⟩
    have hOffset := h.dataOffset
    rw [dataOffset_front hFront h.ipAt, UInt8.le_iff_toNat_le] at hOffset
    constructor
    case etherClaim => exact hEther ▸ h.etherFits
    case ipClaim => exact hIp ▸ h.ipFits
    case isTcp => exact hProtocol h.ipAt ▸ h.isTcp
    case dataOffset => exact hOffset
    case port =>
      rw [← dport_front hFront h.ipAt (length_of_dataOffset hOffset)]
      exact h.port
  · intro h
    have hClaim := h.ipClaim
    have hSome : 0 < (ipReader frame).size := by omega
    obtain ⟨iphdr, hAt⟩ := RteMbufReader.exists_getRawBuffer hSome
    refine ⟨iphdr, ?_⟩
    constructor
    case etherFits => exact hEther ▸ h.etherClaim
    case ipFits => exact hIp ▸ h.ipClaim
    case ipAt => exact hAt
    case isTcp => exact (hProtocol hAt).trans h.isTcp
    case dataOffset =>
      rw [dataOffset_front hFront hAt, UInt8.le_iff_toNat_le]
      exact h.dataOffset
    case port =>
      rw [dport_front hFront hAt (length_of_dataOffset h.dataOffset)]
      exact h.port

end Accepts

section Places
variable {junk : RxJunk} {listen : TcpControlBlock} {frame : List RteMbuf} {iphdr : BytePtr}

/-- The fixed parts of both headers are data of the segments in which they start,
and the second of these claims enough for the typed reads. -/
structure HeadersInPlace (frame : List RteMbuf) : Prop where
  ip : 20 ≤ roomAt frame 14
  tcp : 20 ≤ roomAt frame (TcpFrame.tcpStart (chainBytes frame))
  claim : 4 ≤ claimAt frame (TcpFrame.tcpStart (chainBytes frame))

/-- Then the code looks for the TCP header where it is. -/
theorem tcpPlace_eq (hAt : (ipReader frame).getRawBuffer = some iphdr)
    (hIp : 20 ≤ (ipReader frame).room) :
    tcpPlace frame = TcpFrame.tcpStart (chainBytes frame) := by
  have hFirst : (iphdr.add 0).read = TcpFrame.byte (chainBytes frame) 14 :=
    read_iphdr hAt (by omega)
  rw [memory_standing (ipReader_standing frame) hAt 0] at hFirst
  rw [tcpPlace, hFirst]
  rfl

theorem headersInPlace_iff (hAt : (ipReader frame).getRawBuffer = some iphdr) :
    HeadersInPlace frame ↔ 20 ≤ (ipReader frame).room ∧ 20 ≤ (tcpReader frame iphdr).room ∧
      4 ≤ (tcpReader frame iphdr).size := by
  have hRoom := room_standing (ipReader_standing frame)
  have hTcp := tcpReader_standing hAt
  rw [room_standing hTcp, size_standing hTcp]
  constructor
  · intro h
    have hIp : 20 ≤ (ipReader frame).room := hRoom ▸ h.ip
    rw [tcpPlace_eq hAt hIp]
    exact ⟨hIp, h.tcp, h.claim⟩
  · rintro ⟨hIp, hPlace⟩
    rw [tcpPlace_eq hAt hIp] at hPlace
    exact ⟨hRoom ▸ hIp, hPlace.1, hPlace.2⟩

/-- Headers in place are read to their end without leaving the segment. -/
theorem HeadersInPlace.frontClaimed (h : HeadersInPlace frame)
    (hAt : (ipReader frame).getRawBuffer = some iphdr) : FrontClaimed frame := by
  obtain ⟨_, hRoom, hSize⟩ := (headersInPlace_iff hAt).mp h
  obtain ⟨a, tail, offset, hItr, hSum⟩ :=
    RteMbufReader.at_of_room (tcpReader_valid frame iphdr) (by omega)
  rw [RteMbufReader.size_at hItr] at hSize
  intro ptr hMem
  rw [visited, ← tcpReader_standing hAt, hItr, RteMbufIterator.ahead, RteMbufIterator.slots,
    List.take_append_of_le_length (by simp; omega)] at hMem
  obtain ⟨k, _, rfl⟩ := List.mem_map.mp (List.mem_of_mem_take hMem)
  exact hSize

section Checks
variable (h : PassesChecks junk listen frame iphdr) (hIp : 20 ≤ (ipReader frame).room)
  (hTcp : 20 ≤ (tcpReader frame iphdr).room) (hClaim : 4 ≤ (tcpReader frame iphdr).size)
include h hIp hTcp hClaim

theorem PassesChecks.dataOffset_inPlace : 5 ≤ TcpFrame.dataOffset (chainBytes frame) := by
  have hHeader := header_inPlace h.ipAt hIp hTcp hClaim junk
  have hOffset : (tcpFront junk frame iphdr).2.dataOffset =
      TcpFrame.byte (chainBytes frame) (TcpFrame.tcpStart (chainBytes frame) + 12) >>> 4 :=
    congrArg TcpSegmentHeader.dataOffset hHeader
  have hChecked := h.dataOffset
  rw [hOffset, UInt8.le_iff_toNat_le] at hChecked
  exact hChecked

/-- Then the checks do not depend on uninitialised memory. -/
theorem PassesChecks.of_inPlace (other : RxJunk) : PassesChecks other listen frame iphdr := by
  have hSame : (parsedFrame other frame iphdr).header = (parsedFrame junk frame iphdr).header := by
    rw [header_inPlace h.ipAt hIp hTcp hClaim, header_inPlace h.ipAt hIp hTcp hClaim]
  have hWords : (parsedFrame other frame iphdr).header.dataOffset =
      (parsedFrame junk frame iphdr).header.dataOffset := congrArg TcpSegmentHeader.dataOffset hSame
  have hOffset : (tcpFront other frame iphdr).2.dataOffset =
      (tcpFront junk frame iphdr).2.dataOffset := hWords
  constructor
  case etherFits => exact h.etherFits
  case ipFits => exact h.ipFits
  case ipAt => exact h.ipAt
  case isTcp => exact h.isTcp
  case dataOffset =>
    rw [hOffset]
    exact h.dataOffset
  case port =>
    rw [hSame]
    exact h.port

end Checks

end Places

namespace TcpImpl
variable {ctx : TcpImpl} {env : TcpTimerEnv} {junk : RxJunk} {frame : List RteMbuf}
  {iphdr : BytePtr} {parsed : ParsedFrame}

/-- What should hold of a frame. It reaches a callback only if it is complete, the
bytes that fill the header are data of its segments, and no field of the header is
left as uninitialised memory had it; otherwise the table stays. -/
structure FrameGuarded (ctx : TcpImpl) (env : TcpTimerEnv) (junk : RxJunk) (frame : List RteMbuf) :
    Prop where
  complete : ∀ parsed, ctx.Invokes junk frame parsed → TcpFrame.Complete (chainBytes frame)
  inside : ∀ parsed, ctx.Invokes junk frame parsed → ∀ ptr ∈ parsed.reader.reads, ptr.Inside
  filled : ∀ parsed, ctx.Invokes junk frame parsed → ∀ other : RxJunk,
    (parseFrame other ctx.listen frame).map ParsedFrame.header = some parsed.header
  dropped : (∀ parsed, ¬ ctx.Invokes junk frame parsed) →
    ∃ ctx', ctx.handleTcpRx env junk frame = some ctx' ∧ ctx'.tcbTable = ctx.tcbTable

/-- The condition on the lengths, the bytes and the table: the lengths in the headers
are legal and within the data, both headers lie in place, and the client of the frame
does not hang. -/
structure FrameFits (ctx : TcpImpl) (frame : List RteMbuf) : Prop where
  ihl_ge : 5 ≤ TcpFrame.ihl (chainBytes frame)
  fits : TcpFrame.tcpStart (chainBytes frame) + 4 * TcpFrame.dataOffset (chainBytes frame) ≤
    (chainBytes frame).length
  inPlace : HeadersInPlace frame
  state : ctx.StateInRange
    (makeClientId (TcpFrame.saddr (chainBytes frame)) (TcpFrame.sport (chainBytes frame)))

/-- A frame that the checks drop leaves the table as it is. -/
theorem frameGuarded_of_dropped (h : ¬ ∃ iphdr, PassesChecks junk ctx.listen frame iphdr) :
    ctx.FrameGuarded env junk frame := by
  have hDropped := parseFrame_none h
  have hNever (parsed : ParsedFrame) : ¬ ctx.Invokes junk frame parsed := by
    intro hInvokes
    cases hDropped.symm.trans hInvokes.1
  constructor
  case complete => exact fun parsed hInvokes => absurd hInvokes (hNever parsed)
  case inside => exact fun parsed hInvokes => absurd hInvokes (hNever parsed)
  case filled => exact fun parsed hInvokes => absurd hInvokes (hNever parsed)
  case dropped =>
    intro _
    exact ⟨ctx, by simp [handleTcpRx, hDropped], rfl⟩

/-- Where a segment claims two or three bytes, the numbers keep what uninitialised
memory holds. -/
theorem claim_of_filled (h : PassesChecks junk ctx.listen frame iphdr)
    (hInside : ∀ ptr ∈ (parsedFrame junk frame iphdr).reader.reads, ptr.Inside)
    (hFilled : ∀ other : RxJunk, (parseFrame other ctx.listen frame).map ParsedFrame.header =
      some (parsedFrame junk frame iphdr).header) : 4 ≤ (tcpReader frame iphdr).size := by
  by_contra hShort
  obtain ⟨a, rest, offset, hItr, hOffset, hSize⟩ := h.tcpReader_at
  rw [RteMbufReader.size_at hItr] at hShort
  let ports := (((tcpReader frame iphdr).readU16 junk.locals junk.header.sport).1.readU16
    junk.locals junk.header.dport).1
  have hStart : RteMbufReader.Progress a rest offset 0 (tcpReader frame iphdr) :=
    Or.inl ⟨hOffset, hItr, fun ptr hPtr =>
      hInside ptr (reads_parsedFrame_subset junk frame iphdr hPtr)⟩
  have hPorts : RteMbufReader.Progress a rest offset 4 ports :=
    (hStart.readU16 hSize junk.locals junk.header.sport).readU16 hSize junk.locals
      junk.header.dport
  have hStays : ports.size < 4 := by
    have hFront : ports.reads ⊆ (tcpFront junk frame iphdr).1.reads :=
      List.Subset.trans (List.Subset.trans
        (RteMbufReader.reads_readU32_subset ports junk.locals junk.header.seqno)
        (RteMbufReader.reads_readU32_subset _ junk.locals junk.header.ackno))
        (RteMbufReader.reads_readU16_subset _ junk.locals 0)
    have hParsed : ports.reads ⊆ (parsedFrame junk frame iphdr).reader.reads :=
      List.Subset.trans hFront (reads_readTcpBack_subset _ junk.locals (ipHeaderLen iphdr) _)
    rcases hPorts with ⟨_, hThere, _⟩ | ⟨_, ptr, hMem, hOutside⟩
    · rw [RteMbufReader.size_at hThere]
      omega
    · exact absurd (hInside ptr (hParsed hMem)) hOutside
  have hKeeps (seqno : UInt32) : (parsedFrame
      { junk with header := { junk.header with seqno := seqno } } frame iphdr).header.seqno =
        seqno :=
    congrArg Prod.snd (RteMbufReader.readU32_short hStays junk.locals seqno)
  have hOther := hFilled { junk with header := { junk.header with seqno := junk.header.seqno + 1 } }
  obtain ⟨parsed, hParse, hHeader⟩ := Option.map_eq_some_iff.mp hOther
  obtain ⟨other, hPass, rfl⟩ := parseFrame_eq_some_iff.mp hParse
  obtain rfl : other = iphdr := Option.some.inj (hPass.ipAt.symm.trans h.ipAt)
  have hSame := (hKeeps (junk.header.seqno + 1)).symm.trans
    ((congrArg TcpSegmentHeader.seqno hHeader).trans (hKeeps junk.header.seqno))
  have hBound := junk.header.seqno.toNat_lt
  have hNext := congrArg UInt32.toNat hSame
  rw [UInt32.toNat_add, UInt32.toNat_one] at hNext
  omega

/-- The hanging branch writes the block of the client. -/
theorem setBlock_hang_ne {p : Fin maxTcpClient} {key : UInt64} {tcb : TcpControlBlock}
    (hCell : ctx.tcbTable.cells p = some (key, tcb)) (hState : tcb.state = .max) :
    (ctx.setBlock (.slot p) (tcb.changeState env .exceptionHang)).tcbTable ≠ ctx.tcbTable := by
  intro hSame
  have hWritten : (ctx.setBlock (.slot p) (tcb.changeState env .exceptionHang)).tcbTable.cells p =
      some (key, tcb.changeState env .exceptionHang) := by
    simp [setBlock, hCell]
  rw [hSame, hCell] at hWritten
  have hBlock : tcb = tcb.changeState env .exceptionHang :=
    (Prod.mk.inj (Option.some.inj hWritten)).2
  rw [hBlock, TcpControlBlock.state_changeState] at hState
  cases hState

/-- A client that hangs has its block changed by every frame that passes. -/
theorem handleTcpRx_hang (h : PassesChecks junk ctx.listen frame iphdr) {ctx' : TcpImpl}
    (hRange : ¬ ctx.StateInRange (parsedFrame junk frame iphdr).header.clientId)
    (hStep : ctx.handleTcpRx env junk frame = some ctx') : ctx'.tcbTable ≠ ctx.tcbTable := by
  simp only [handleTcpRx, parseFrame_of_passes h, segment, Option.bind_eq_bind] at hStep
  obtain ⟨p, tcb, hCell, hState, hBlock, hDispatch⟩ := hanging_block hRange
  simp only [hDispatch, Option.bind_some, if_true, hBlock, Option.some.injEq] at hStep
  exact hStep ▸ setBlock_hang_ne hCell hState


theorem frameGuarded_iff_of_passes (h : PassesChecks junk ctx.listen frame iphdr) :
    ctx.FrameGuarded env junk frame ↔ ctx.FrameFits frame := by
  constructor
  · intro hGuarded
    have hRange : ctx.StateInRange (parsedFrame junk frame iphdr).header.clientId := by
      by_contra hHang
      obtain ⟨ctx', hStep, hSame⟩ := hGuarded.dropped fun _ hInvokes =>
        hHang ((invokes_iff h).mp hInvokes).2
      exact handleTcpRx_hang h hHang hStep hSame
    have hInvokes := (invokes_iff h).mpr ⟨rfl, hRange⟩
    have hComplete := hGuarded.complete _ hInvokes
    have hInside := hGuarded.inside _ hInvokes
    have hClaim := claim_of_filled h hInside (hGuarded.filled _ hInvokes)
    obtain ⟨hIp, hTcp⟩ := h.inside_iff.mp hInside
    rw [tcpSpan, RteMbufReader.wordSpan, if_pos hClaim] at hTcp
    have hHeader := header_inPlace h.ipAt hIp hTcp hClaim junk
    constructor
    case ihl_ge => exact hComplete.ihl_ge
    case fits => exact hComplete.fits
    case inPlace => exact (headersInPlace_iff h.ipAt).mpr ⟨hIp, hTcp, hClaim⟩
    case state =>
      rw [hHeader] at hRange
      exact hRange
  · intro hFits
    obtain ⟨hIp, hTcp, hClaim⟩ := (headersInPlace_iff h.ipAt).mp hFits.inPlace
    have hHeader := header_inPlace h.ipAt hIp hTcp hClaim
    have hRange : ctx.StateInRange (parsedFrame junk frame iphdr).header.clientId := by
      rw [hHeader]
      exact hFits.state
    have hParsed (parsed : ParsedFrame) (hInvokes : ctx.Invokes junk frame parsed) :
        parsed = parsedFrame junk frame iphdr := ((invokes_iff h).mp hInvokes).1
    constructor
    case complete =>
      intro _ _
      exact ⟨hFits.ihl_ge, h.dataOffset_inPlace hIp hTcp hClaim, hFits.fits⟩
    case inside =>
      intro parsed hInvokes
      rw [hParsed parsed hInvokes, h.inside_iff, tcpSpan, RteMbufReader.wordSpan, if_pos hClaim]
      exact ⟨hIp, hTcp⟩
    case filled =>
      intro parsed hInvokes other
      rw [hParsed parsed hInvokes, parseFrame_of_passes (h.of_inPlace hIp hTcp hClaim other),
        Option.map_some, hHeader, hHeader]
    case dropped =>
      intro hNever
      exact absurd ((invokes_iff h).mpr ⟨rfl, hRange⟩) (hNever _)

/-- For every chain of segments, every table and every content of uninitialised
memory. Where no read of the TCP header is left out, truncated and malformed frames
are kept from the state machine exactly when a frame which the checks accept, by its
claimed lengths and four bytes, also fits. A frame out of which some read is left
never fits, so there the checks themselves have to reject it. -/
theorem frameGuarded_iff_frameFits (ctx : TcpImpl) (env : TcpTimerEnv) (junk : RxJunk)
    (frame : List RteMbuf) :
    (FrontClaimed frame →
      (ctx.FrameGuarded env junk frame ↔ (Accepts ctx.listen frame → ctx.FrameFits frame))) ∧
    (¬ FrontClaimed frame →
      (ctx.FrameGuarded env junk frame ↔ ∀ iphdr, ¬ PassesChecks junk ctx.listen frame iphdr)) := by
  have hGeneral : ctx.FrameGuarded env junk frame ↔
      ((∃ iphdr, PassesChecks junk ctx.listen frame iphdr) → ctx.FrameFits frame) := by
    by_cases hPass : ∃ iphdr, PassesChecks junk ctx.listen frame iphdr
    · obtain ⟨iphdr, h⟩ := hPass
      rw [frameGuarded_iff_of_passes h]
      exact ⟨fun hFits _ => hFits, fun hFits => hFits ⟨iphdr, h⟩⟩
    · exact ⟨fun _ hSome => absurd hSome hPass, fun _ => frameGuarded_of_dropped hPass⟩
  constructor
  · intro hFront
    rw [hGeneral, passesChecks_iff_accepts hFront]
  · intro hFront
    rw [hGeneral]
    constructor
    · intro hFits iphdr h
      exact hFront ((hFits ⟨iphdr, h⟩).inPlace.frontClaimed h.ipAt)
    · rintro hNone ⟨iphdr, h⟩
      exact absurd h (hNone iphdr)

/-- A frame that ends in the middle of its TCP header, behind the flags. -/
def truncatedFrame : List RteMbuf :=
  (sampleFrame 2 100).map fun segment => { segment with dataLen := 48, pktLen := 48 }

/-- It is handed to the LISTEN callback all the same. -/
theorem truncated_frame_is_dispatched :
    ¬ ∀ (ctx : TcpImpl) (env : TcpTimerEnv) (junk : RxJunk) (frame : List RteMbuf),
      ctx.FrameGuarded env junk frame := by
  intro hAll
  have hSome : (parseFrame .zero init.listen truncatedFrame).isSome := by decide
  obtain ⟨parsed, hParsed⟩ := Option.isSome_iff_exists.mp hSome
  have hInvokes : init.Invokes .zero truncatedFrame parsed :=
    ⟨hParsed, .listen, .listen, rfl, by decide⟩
  have hComplete := (hAll init (fun _ _ => true) .zero truncatedFrame).complete _ hInvokes
  exact absurd hComplete (by decide)


end TcpImpl

end Nginz
