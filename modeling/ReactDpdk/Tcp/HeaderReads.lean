import ReactDpdk.General.TcpPacket
import ReactDpdk.Core.TypedReads
import ReactDpdk.Tcp.FrameChecks

/-! The reads of `handleTcpRx` that stay inside a segment. Where both headers lie in
place, whatever the segments, the header that is read is a function of the bytes of
the frame. -/
namespace Nginz
open RteMbuf

/-- Inside the data, the layout sees the memory of the segment. -/
theorem RteMbuf.byte_bytes {a : RteMbuf} {i : Nat} (h : i < a.dataLen.toNat) :
    TcpFrame.byte a.bytes i = a.byteAt i := by
  simp [TcpFrame.byte, bytes, h]

section Reads
open RteMbufReader
variable {a : RteMbuf} {tail : List RteMbuf} {offset : Nat} {reader : RteMbufReader}

/-- The reader stands in a segment, with those behind it, that claims enough for
every typed read of a header. -/
structure StandsAt (a : RteMbuf) (tail : List RteMbuf) (offset : Nat) (reader : RteMbufReader) :
    Prop where
  itr : reader.itr = { m := a :: tail, offset := offset }
  claim : 4 ≤ a.pktLen.toNat

theorem StandsAt.size (h : StandsAt a tail offset reader) : reader.size = a.pktLen.toNat :=
  size_at h.itr

theorem StandsAt.room (h : StandsAt a tail offset reader) :
    reader.room = a.dataLen.toNat - offset := by
  rw [RteMbufReader.room, h.itr]

theorem StandsAt.getRawBuffer (h : StandsAt a tail offset reader) :
    reader.getRawBuffer = some { segment := a, offset := offset } := by
  have hClaim := h.claim
  exact getRawBuffer_at h.itr (by omega)

/-- The bytes from the position on are those of the segment, then the others. -/
theorem StandsAt.rest (h : StandsAt a tail offset reader) :
    reader.itr.rest = (a.bytes ++ RteMbuf.chainBytes tail).drop offset := by
  rw [h.itr, RteMbufIterator.rest, RteMbuf.chainBytes_cons]

theorem dataLen_le_length (a : RteMbuf) (tail : List RteMbuf) :
    a.dataLen.toNat ≤ (a.bytes ++ RteMbuf.chainBytes tail).length := by
  rw [List.length_append, RteMbuf.bytes_length]
  exact Nat.le_add_right _ _

/-- Two bytes of the data are read in network order. -/
theorem StandsAt.readU16 (h : StandsAt a tail offset reader) (hIn : offset + 2 ≤ a.dataLen.toNat)
    (junk : Indeterminate) (outv : UInt16) :
    StandsAt a tail (offset + 2) (reader.readU16 junk outv).1 ∧
      (reader.readU16 junk outv).2 = TcpFrame.half a.bytes offset := by
  have hClaim := h.claim
  have hLength := dataLen_le_length a tail
  obtain ⟨hItr, hValue⟩ := (isTypedRead_u16 junk).within reader outv h.itr hIn (by omega)
  rw [h.rest, TcpFrame.beValue_take_two (by omega), TcpFrame.half_append_left
    (by rwa [RteMbuf.bytes_length])] at hValue
  exact ⟨⟨hItr, h.claim⟩, UInt16.toNat_inj.mp hValue⟩

theorem StandsAt.readU32 (h : StandsAt a tail offset reader) (hIn : offset + 4 ≤ a.dataLen.toNat)
    (junk : Indeterminate) (outv : UInt32) :
    StandsAt a tail (offset + 4) (reader.readU32 junk outv).1 ∧
      (reader.readU32 junk outv).2 = TcpFrame.word a.bytes offset := by
  have hLength := dataLen_le_length a tail
  obtain ⟨hItr, hValue⟩ := (isTypedRead_u32 junk).within reader outv h.itr hIn h.claim
  rw [h.rest, TcpFrame.beValue_take_four (by omega), TcpFrame.word_append_left
    (by rwa [RteMbuf.bytes_length])] at hValue
  exact ⟨⟨hItr, h.claim⟩, UInt32.toNat_inj.mp hValue⟩

/-- A skip that ends inside the data moves the offset by what it skips. -/
theorem StandsAt.skip (h : StandsAt a tail offset reader) {inc : UInt32}
    (hIn : offset + inc.toNat < a.dataLen.toNat) :
    StandsAt a tail (offset + inc.toNat) (reader.skip inc) := by
  constructor
  case itr =>
    by_cases hZero : inc = 0
    · simp [RteMbufReader.skip, RteMbufIterator.skip, h.itr, RteMbufIterator.skipLoop, hZero]
    · simp [RteMbufReader.skip, RteMbufIterator.skip, h.itr, RteMbufIterator.skipLoop, hZero, hIn]
  case claim => exact h.claim

end Reads

section Headers
variable {a : RteMbuf} {tail : List RteMbuf} {offset : Nat} {reader : RteMbufReader}

/-- The code counts the IPv4 header in bytes, its first byte in words. -/
theorem ipHeaderLen_toNat (iphdr : BytePtr) :
    (ipHeaderLen iphdr).toUInt32.toNat = 4 * (iphdr.read &&& 0xF).toNat := by
  have hMask : (iphdr.read &&& 0xF).toNat ≤ 15 := by
    rw [UInt8.toNat_and]
    exact Nat.and_le_right
  have hFour : (4 : UInt8).toNat = 4 := rfl
  rw [ipHeaderLen, UInt8.toNat_toUInt32, UInt8.toNat_mul, hFour]
  omega

/-- The four bits of the data offset are the upper half of their byte. -/
theorem dataOffset_of_half (frame : List UInt8) (i : Nat) :
    ((0xF : UInt16) &&& (TcpFrame.half frame i >>> 12)).toUInt8 = TcpFrame.byte frame i >>> 4 := by
  have hHi := (TcpFrame.byte frame i).toNat_lt
  have hLo := (TcpFrame.byte frame (i + 1)).toNat_lt
  apply UInt8.toNat_inj.mp
  have hMask (x : Nat) : (0xF : UInt16).toNat &&& x = x % 16 := by
    rw [Nat.and_comm]
    exact Nat.and_two_pow_sub_one_eq_mod x 4
  rw [UInt16.toNat_toUInt8, UInt16.toNat_and, UInt16.toNat_shiftRight, TcpFrame.half_toNat,
    UInt8.toNat_shiftRight, hMask]
  simp [Nat.shiftRight_eq_div_pow]
  omega

/-- The reads up to the data offset take the first fourteen bytes. -/
theorem readTcpFront_at (h : StandsAt a tail offset reader) (hIn : offset + 14 ≤ a.dataLen.toNat)
    (locals : Indeterminate) (header : TcpSegmentHeader) :
    StandsAt a tail (offset + 14) (readTcpFront locals header reader).1 ∧
      (readTcpFront locals header reader).2 =
        { header with
          sport := TcpFrame.half a.bytes offset
          dport := TcpFrame.half a.bytes (offset + 2)
          seqno := TcpFrame.word a.bytes (offset + 4)
          ackno := TcpFrame.word a.bytes (offset + 8)
          evtmask := (TcpFrame.half a.bytes (offset + 12) &&& 0xF).toUInt8
          dataOffset := TcpFrame.byte a.bytes (offset + 12) >>> 4 } := by
  obtain ⟨hAt₂, hSport⟩ := h.readU16 (by omega) locals header.sport
  obtain ⟨hAt₄, hDport⟩ := hAt₂.readU16 (by omega) locals header.dport
  obtain ⟨hAt₈, hSeqno⟩ := hAt₄.readU32 (by omega) locals header.seqno
  obtain ⟨hAt₁₂, hAckno⟩ := hAt₈.readU32 (by omega) locals header.ackno
  obtain ⟨hAt₁₄, hLeft⟩ := hAt₁₂.readU16 (by omega) locals 0
  rw [readTcpFront, hSport, hDport, hSeqno, hAckno, hLeft, dataOffset_of_half]
  exact ⟨hAt₁₄, rfl⟩

/-- The bytes of options that a data offset leaves room for. -/
def optionBytes (dataOffset : UInt8) : UInt32 :=
  4 * (dataOffset.toUInt32 - tcpHeaderNumDefaultWord32.toUInt32)

theorem optionBytes_toNat {dataOffset : UInt8} (h : 5 ≤ dataOffset.toNat) :
    (optionBytes dataOffset).toNat = 4 * dataOffset.toNat - 20 := by
  have hBound := dataOffset.toNat_lt
  have hFour : (4 : UInt32).toNat = 4 := rfl
  have hFive : tcpHeaderNumDefaultWord32.toNat = 5 := rfl
  rw [optionBytes, UInt32.toNat_mul, UInt32.toNat_sub, UInt8.toNat_toUInt32,
    UInt8.toNat_toUInt32, hFour, hFive]
  omega

/-- The three reads behind it take the next six. -/
theorem readTcpBack_at (h : StandsAt a tail offset reader) (hIn : offset + 6 ≤ a.dataLen.toNat)
    (locals : Indeterminate) (headerLen : UInt8) (header : TcpSegmentHeader) :
    (readTcpBack locals headerLen header reader).2 =
      { header with
        numOptionBytes := optionBytes header.dataOffset
        suppWindowSize := TcpFrame.half a.bytes offset
        checksum := TcpFrame.half a.bytes (offset + 2)
        uptr := TcpFrame.half a.bytes (offset + 4)
        totalHeaderBytes :=
          etherHdrSize + headerLen.toUInt32 + optionBytes header.dataOffset } := by
  obtain ⟨hAt₂, hWindow⟩ := h.readU16 (by omega) locals header.suppWindowSize
  obtain ⟨hAt₄, hChecksum⟩ := hAt₂.readU16 (by omega) locals header.checksum
  obtain ⟨_, hUptr⟩ := hAt₄.readU16 (by omega) locals header.uptr
  rw [readTcpBack, hWindow, hChecksum, hUptr]
  rfl

end Headers

section InPlace
variable {a : RteMbuf} {tail : List RteMbuf} {offset place k : Nat} {itr : RteMbufIterator}
  {bytes : List UInt8}

/-- Inside the segment of a position, the bytes of the frame are its bytes. -/
theorem byte_of_rest (hAt : itr = ⟨a :: tail, offset, 0⟩) (hRest : itr.rest = bytes.drop place)
    (hIn : offset + k < a.dataLen.toNat) :
    TcpFrame.byte a.bytes (offset + k) = TcpFrame.byte bytes (place + k) := by
  rw [hAt, RteMbufIterator.rest, chainBytes_cons] at hRest
  have hSame := congrArg (fun data => TcpFrame.byte data k) hRest
  simp only [TcpFrame.byte_drop] at hSame
  rwa [TcpFrame.byte_append_left (by rwa [bytes_length])] at hSame

theorem half_of_rest (hAt : itr = ⟨a :: tail, offset, 0⟩) (hRest : itr.rest = bytes.drop place)
    (hIn : offset + k + 2 ≤ a.dataLen.toNat) :
    TcpFrame.half a.bytes (offset + k) = TcpFrame.half bytes (place + k) := by
  rw [TcpFrame.half, TcpFrame.half, byte_of_rest hAt hRest (by omega), Nat.add_assoc,
    byte_of_rest hAt hRest (by omega), Nat.add_assoc]

theorem word_of_rest (hAt : itr = ⟨a :: tail, offset, 0⟩) (hRest : itr.rest = bytes.drop place)
    (hIn : offset + k + 4 ≤ a.dataLen.toNat) :
    TcpFrame.word a.bytes (offset + k) = TcpFrame.word bytes (place + k) := by
  rw [TcpFrame.word, TcpFrame.word, half_of_rest hAt hRest (by omega), Nat.add_assoc,
    half_of_rest hAt hRest (by omega), Nat.add_assoc]

variable {junk : RxJunk} {frame : List RteMbuf} {iphdr : BytePtr}

theorem rest_ipReader (frame : List RteMbuf) :
    (ipReader frame).itr.rest = (chainBytes frame).drop 14 :=
  RteMbufIterator.rest_skip (RteMbufReader.new_valid frame) etherHdrSize

/-- Inside the data, the pointer to the IPv4 header sees the frame. -/
theorem read_iphdr (hAt : (ipReader frame).getRawBuffer = some iphdr)
    (hRoom : k < (ipReader frame).room) :
    (iphdr.add k).read = TcpFrame.byte (chainBytes frame) (14 + k) := by
  obtain ⟨a, tail, offset, hItr, hSum⟩ :=
    RteMbufReader.at_of_room (ipReader_valid frame) (by omega)
  rw [RteMbufReader.getRawBuffer, RteMbufIterator.getRawBuffer] at hAt
  split at hAt
  · cases hAt
  · rw [RteMbufIterator.address, hItr] at hAt
    cases hAt
    rw [← byte_of_rest hItr (rest_ipReader frame) (by omega), byte_bytes (by omega)]
    rfl

theorem be16_iphdr (hAt : (ipReader frame).getRawBuffer = some iphdr)
    (hRoom : k + 2 ≤ (ipReader frame).room) :
    iphdr.be16 k = TcpFrame.half (chainBytes frame) (14 + k) := by
  rw [BytePtr.be16, TcpFrame.half, read_iphdr hAt (by omega), read_iphdr hAt (by omega),
    Nat.add_assoc]

theorem be32_iphdr (hAt : (ipReader frame).getRawBuffer = some iphdr)
    (hRoom : k + 4 ≤ (ipReader frame).room) :
    iphdr.be32 k = TcpFrame.word (chainBytes frame) (14 + k) := by
  rw [BytePtr.be32, TcpFrame.word, be16_iphdr hAt (by omega), be16_iphdr hAt (by omega),
    Nat.add_assoc]

/-- The reader skips the IPv4 header with its options. -/
theorem rest_tcpReader (hAt : (ipReader frame).getRawBuffer = some iphdr)
    (hRoom : 20 ≤ (ipReader frame).room) : (tcpReader frame iphdr).itr.rest =
      (chainBytes frame).drop (TcpFrame.tcpStart (chainBytes frame)) := by
  have hSkip : (tcpReader frame iphdr).itr.rest =
      (ipReader frame).itr.rest.drop (ipHeaderLen iphdr).toUInt32.toNat :=
    RteMbufIterator.rest_skip (ipReader_valid frame) _
  have hFirst : iphdr.read = TcpFrame.byte (chainBytes frame) 14 :=
    read_iphdr (k := 0) hAt (by omega)
  rw [hSkip, rest_ipReader, List.drop_drop, ipHeaderLen_toNat, hFirst]
  rfl

/-- The header that is read from a complete frame. -/
def frameHeader (frame : List UInt8) : TcpSegmentHeader :=
  let dataOffset := TcpFrame.byte frame (TcpFrame.tcpStart frame + 12) >>> 4
  { ipHeader := { daddr4 := TcpFrame.daddr frame, saddr4 := TcpFrame.saddr frame
                  packetSize := TcpFrame.totalLength frame }
    sport := TcpFrame.sport frame, dport := TcpFrame.dport frame
    seqno := TcpFrame.seqno frame, ackno := TcpFrame.ackno frame
    dataOffset := dataOffset, evtmask := TcpFrame.flags frame &&& 0xF
    suppWindowSize := TcpFrame.window frame, checksum := TcpFrame.checksum frame
    uptr := TcpFrame.urgent frame, numOptionBytes := optionBytes dataOffset
    totalHeaderBytes := etherHdrSize + UInt32.ofNat (4 * TcpFrame.ihl frame) +
      optionBytes dataOffset }

/-- The mask cuts four bits out of the byte of the flags. -/
theorem evtmask_half (frame : List UInt8) (i : Nat) :
    (TcpFrame.half frame i &&& 0xF).toUInt8 = TcpFrame.byte frame (i + 1) &&& 0xF := by
  have hMask (n : Nat) : n &&& 15 = n % 16 := Nat.and_two_pow_sub_one_eq_mod n 4
  have hWord : (0xF : UInt16).toNat = 15 := rfl
  have hByte : (0xF : UInt8).toNat = 15 := rfl
  apply UInt8.toNat_inj.mp
  rw [UInt16.toNat_toUInt8, UInt16.toNat_and, UInt8.toNat_and, hWord, hByte, hMask, hMask,
    TcpFrame.half_toNat]
  omega

/-- Whatever the segments, a header that lies in place is read from the bytes of the
frame, and nothing of it from uninitialised memory. -/
theorem header_inPlace (hAt : (ipReader frame).getRawBuffer = some iphdr)
    (hIp : 20 ≤ (ipReader frame).room) (hTcp : 20 ≤ (tcpReader frame iphdr).room)
    (hClaim : 4 ≤ (tcpReader frame iphdr).size) (junk : RxJunk) :
    (parsedFrame junk frame iphdr).header = frameHeader (chainBytes frame) := by
  obtain ⟨a, tail, offset, hItr, hSum⟩ :=
    RteMbufReader.at_of_room (tcpReader_valid frame iphdr) (by omega)
  have hStands : StandsAt a tail offset (tcpReader frame iphdr) :=
    ⟨hItr, RteMbufReader.size_at hItr ▸ hClaim⟩
  have hRest := rest_tcpReader hAt hIp
  obtain ⟨hBehind, hFront⟩ := readTcpFront_at hStands (by omega) junk.locals
    { junk.header with ipHeader := readIpHeader iphdr }
  have hBack := readTcpBack_at hBehind (by omega) junk.locals (ipHeaderLen iphdr)
    (tcpFront junk frame iphdr).2
  have hIpHeader : readIpHeader iphdr =
      { daddr4 := TcpFrame.daddr (chainBytes frame), saddr4 := TcpFrame.saddr (chainBytes frame)
        packetSize := TcpFrame.totalLength (chainBytes frame) } := by
    rw [readIpHeader, be32_iphdr hAt (by omega), be32_iphdr hAt (by omega),
      be16_iphdr hAt (by omega)]
    rfl
  have hFirst : iphdr.read = TcpFrame.byte (chainBytes frame) 14 :=
    read_iphdr (k := 0) hAt (by omega)
  have hLength : (ipHeaderLen iphdr).toUInt32 =
      UInt32.ofNat (4 * TcpFrame.ihl (chainBytes frame)) := by
    rw [TcpFrame.ihl, ← hFirst, ← ipHeaderLen_toNat, UInt32.ofNat_toNat]
  have hHeader : (parsedFrame junk frame iphdr).header = _ := hBack
  have hHalf (k : Nat) (hIn : k + 2 ≤ 20) := half_of_rest hItr hRest (k := k) (by omega)
  have hWord (k : Nat) (hIn : k + 4 ≤ 20) := word_of_rest hItr hRest (k := k) (by omega)
  have hSport := hHalf 0 (by omega)
  have hOffset := byte_of_rest hItr hRest (k := 12) (by omega)
  rw [hHeader, tcpFront, hFront, hIpHeader, hLength, hOffset]
  simp only [Nat.add_assoc, Nat.reduceAdd, hHalf 2 (by omega), hHalf 12 (by omega),
    hHalf 14 (by omega), hHalf 16 (by omega), hHalf 18 (by omega), hWord 4 (by omega),
    hWord 8 (by omega), evtmask_half]
  rw [Nat.add_zero, Nat.add_zero] at hSport
  rw [hSport]
  rfl

end InPlace

end Nginz
