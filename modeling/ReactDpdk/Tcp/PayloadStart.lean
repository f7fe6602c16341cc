import ReactDpdk.Tcp.HeaderDecoding

/-! Where the payload of a complete frame starts: where the reader stands once
all headers are read, and what `total_header_bytes` says of it. -/
namespace Nginz
open RteMbufReader

/-- The byte behind the TCP header with its options. -/
def payloadStart (frame : List UInt8) : Nat :=
  TcpFrame.tcpStart frame + 4 * TcpFrame.dataOffset frame

/-- The reader stands on a byte of the segment, or has left it where that byte
would be the one behind the data. -/
def StartsAt (a : RteMbuf) (start : Nat) (reader : RteMbufReader) : Prop :=
  (reader.itr.m = [a] ∧ reader.itr.offset = start) ∨
  (reader.itr.m = [] ∧ start = a.dataLen.toNat)

/-- Reader and header agree with the layout on where the payload starts. -/
structure PayloadStartAgrees (a : RteMbuf) (parsed : ParsedFrame) : Prop where
  reader : StartsAt a (payloadStart a.bytes) parsed.reader
  header : parsed.header.totalHeaderBytes.toNat = payloadStart a.bytes

section Position
variable {a : RteMbuf} {offset : Nat} {reader : RteMbufReader}

/-- A skip inside the data, or to their end. A skip of nothing stays where it is,
any other leaves the segment at its end. -/
theorem StandsAt.startsAt_skip (h : StandsAt a [] offset reader) {inc : UInt32}
    (hIn : offset + inc.toNat ≤ a.dataLen.toNat) :
    StartsAt a (offset + inc.toNat) (reader.skip inc) := by
  rcases Nat.lt_or_eq_of_le hIn with hInside | hEnd
  · have hThere := h.skip hInside
    exact Or.inl ⟨by rw [hThere.itr], by rw [hThere.itr]⟩
  · by_cases hZero : inc = 0
    · have hStays : (reader.skip inc).itr = { m := [a], offset := offset } := by
        simp [RteMbufReader.skip, RteMbufIterator.skip, h.itr, RteMbufIterator.skipLoop, hZero]
      rw [StartsAt, hStays, hZero]
      exact Or.inl ⟨rfl, rfl⟩
    · have hLeaves : (reader.skip inc).itr.m = [] := by
        have hOver : ¬ offset + inc.toNat < a.dataLen.toNat := by omega
        simp [RteMbufReader.skip, RteMbufIterator.skip, h.itr, RteMbufIterator.skipLoop, hZero,
          hOver]
      exact Or.inr ⟨hLeaves, hEnd⟩

/-- The reads behind the data offset, and the skip of the options. -/
theorem startsAt_readTcpBack (h : StandsAt a [] offset reader) {header : TcpSegmentHeader}
    (hIn : offset + 6 + (optionBytes header.dataOffset).toNat ≤ a.dataLen.toNat)
    (locals : Indeterminate) (headerLen : UInt8) :
    StartsAt a (offset + 6 + (optionBytes header.dataOffset).toNat)
      (readTcpBack locals headerLen header reader).1 := by
  have hChecksum := (h.readU16 (by omega) locals header.suppWindowSize).1
  have hUptr := (hChecksum.readU16 (by omega) locals header.checksum).1
  have hOptions := (hUptr.readU16 (by omega) locals header.uptr).1
  exact hOptions.startsAt_skip hIn

end Position

section Frames
variable {a : RteMbuf} {junk : RxJunk} {listen : TcpControlBlock} {parsed : ParsedFrame}

/-- An accepted frame is read from where the reader stood on its IPv4 header. -/
theorem parsed_of_accepted (hLen : a.pktLen.toNat = a.dataLen.toNat)
    (hComplete : TcpFrame.Complete a.bytes) (hAccepts : parseFrame junk listen [a] = some parsed) :
    parsed = parsedFrame junk [a] (ipAt a) := by
  obtain ⟨iphdr, hPass, rfl⟩ := parseFrame_eq_some_iff.mp hAccepts
  rw [Option.some.inj (hPass.ipAt.symm.trans (getRawBuffer_complete hLen hComplete))]

theorem startsAt_parsedFrame (hLen : a.pktLen.toNat = a.dataLen.toNat)
    (hComplete : TcpFrame.Complete a.bytes) (junk : RxJunk) :
    StartsAt a (payloadStart a.bytes) (parsedFrame junk [a] (ipAt a)).reader := by
  obtain ⟨hStart, hRoom⟩ := complete_room hComplete
  have hFits := hComplete.fits
  have hWords := hComplete.dataOffset_ge
  rw [RteMbuf.bytes_length] at hFits
  obtain ⟨hAt, hFront⟩ := readTcpFront_at (standsAt_tcpReader hLen hComplete) (by omega)
    junk.locals { junk.header with ipHeader := readIpHeader (ipAt a) }
  have hOffset : (tcpFront junk [a] (ipAt a)).2.dataOffset =
      TcpFrame.byte a.bytes (TcpFrame.tcpStart a.bytes + 12) >>> 4 := by
    rw [tcpFront, hFront]
  have hOptions : (optionBytes (tcpFront junk [a] (ipAt a)).2.dataOffset).toNat =
      4 * TcpFrame.dataOffset a.bytes - 20 := by
    rw [hOffset]
    exact optionBytes_toNat hComplete.dataOffset_ge
  have hSum : TcpFrame.tcpStart a.bytes + 14 + 6 +
      (optionBytes (tcpFront junk [a] (ipAt a)).2.dataOffset).toNat =
        payloadStart a.bytes := by
    rw [hOptions, payloadStart]
    omega
  have hFrontAt : StandsAt a [] (TcpFrame.tcpStart a.bytes + 14) (tcpFront junk [a] (ipAt a)).1 :=
    hAt
  have hEnd : TcpFrame.tcpStart a.bytes + 14 + 6 +
      (optionBytes (tcpFront junk [a] (ipAt a)).2.dataOffset).toNat ≤ a.dataLen.toNat := by
    rw [hSum]
    exact hFits
  have hBack := startsAt_readTcpBack hFrontAt hEnd junk.locals (ipHeaderLen (ipAt a))
  rw [hSum] at hBack
  exact hBack

/-- The sum of the lengths leaves out the fixed part of the TCP header. -/
theorem totalHeaderBytes_parsedFrame (hLen : a.pktLen.toNat = a.dataLen.toNat)
    (hComplete : TcpFrame.Complete a.bytes) (junk : RxJunk) :
    (parsedFrame junk [a] (ipAt a)).header.totalHeaderBytes.toNat + 20 =
      payloadStart a.bytes := by
  obtain ⟨hStart, hRoom⟩ := complete_room hComplete
  have hIp := ipHeaderLen_ipAt (by omega : 14 < a.dataLen.toNat)
  have hOptions := (parsedFrame_decodes hLen hComplete junk).numOptionBytes
  have hEther : etherHdrSize.toNat = 14 := rfl
  have hIhl : TcpFrame.ihl a.bytes ≤ 15 := by
    rw [TcpFrame.ihl, UInt8.toNat_and]
    exact Nat.and_le_right
  have hWords : TcpFrame.dataOffset a.bytes < 256 := UInt8.toNat_lt _
  have hLeast := hComplete.dataOffset_ge
  have hTotal : (parsedFrame junk [a] (ipAt a)).header.totalHeaderBytes =
      etherHdrSize + (ipHeaderLen (ipAt a)).toUInt32 +
        (parsedFrame junk [a] (ipAt a)).header.numOptionBytes := rfl
  rw [hTotal, UInt32.toNat_add, UInt32.toNat_add, hIp, hOptions, hEther, payloadStart,
    TcpFrame.tcpStart]
  omega

/-- For every complete frame of one segment that is accepted: the reader stands
where the payload starts, but `total_header_bytes` is twenty bytes short of it, since
it counts the options of the TCP header and not its fixed part. -/
theorem payload_start_disagrees (hLen : a.pktLen.toNat = a.dataLen.toNat)
    (hComplete : TcpFrame.Complete a.bytes) (hAccepts : parseFrame junk listen [a] = some parsed) :
    ¬ PayloadStartAgrees a parsed ∧ StartsAt a (payloadStart a.bytes) parsed.reader ∧
      parsed.header.totalHeaderBytes.toNat + 20 = payloadStart a.bytes := by
  obtain rfl := parsed_of_accepted hLen hComplete hAccepts
  have hTotal := totalHeaderBytes_parsedFrame hLen hComplete junk
  refine ⟨?_, startsAt_parsedFrame hLen hComplete junk, hTotal⟩
  intro hAgrees
  have hSame := hAgrees.header
  omega

/-- The frame of a SYN, without options and payload. -/
def synSegment : RteMbuf := .ofBytes (TcpFrame.segment 0x0A000001 7 8000 100 2)

theorem payload_start_disagrees_syn : ∃ parsed,
    parseFrame .zero TcpImpl.init.listen [synSegment] = some parsed ∧
      parsed.header.totalHeaderBytes.toNat + 20 = 54 := by
  have hSome : (parseFrame .zero TcpImpl.init.listen [synSegment]).isSome := by decide
  obtain ⟨parsed, hParsed⟩ := Option.isSome_iff_exists.mp hSome
  have hStart : payloadStart synSegment.bytes = 54 := by decide
  obtain ⟨_, _, hTotal⟩ := payload_start_disagrees (by decide) (by decide) hParsed
  exact ⟨parsed, hParsed, hTotal.trans hStart⟩

theorem syn_header_is_too_short :
    ¬ ∀ (junk : RxJunk) (listen : TcpControlBlock) (a : RteMbuf) (parsed : ParsedFrame),
      a.pktLen.toNat = a.dataLen.toNat → TcpFrame.Complete a.bytes →
      parseFrame junk listen [a] = some parsed → PayloadStartAgrees a parsed := by
  intro hAll
  have hSome : (parseFrame .zero TcpImpl.init.listen [synSegment]).isSome := by decide
  obtain ⟨parsed, hParsed⟩ := Option.isSome_iff_exists.mp hSome
  have hAgrees := hAll .zero TcpImpl.init.listen synSegment parsed (by decide) (by decide) hParsed
  have hHeader := hAgrees.header
  obtain rfl := parsed_of_accepted (by decide) (by decide) hParsed
  have hLen : synSegment.pktLen.toNat = synSegment.dataLen.toNat := by decide
  have hTotal := totalHeaderBytes_parsedFrame hLen (by decide) .zero
  omega

end Frames

end Nginz
