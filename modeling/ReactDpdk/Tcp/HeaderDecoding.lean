import ReactDpdk.Tcp.HeaderReads

/-! What `handleTcpRx` reads out of a packet of one segment that claims the
length it has: when the headers are complete, the fields of the header are the
big-endian fields of the frame. -/
namespace Nginz

namespace RteMbuf

/-- Short data are what a segment made of them holds. -/
theorem bytes_ofBytes {data : List UInt8} (h : data.length < UInt16.size) :
    (ofBytes data).bytes = data := by
  have hLen : (ofBytes data).dataLen.toNat = data.length := by
    simp only [ofBytes, UInt16.toNat_ofNat']
    exact Nat.mod_eq_of_lt h
  apply List.ext_getElem
  · rw [bytes_length, hLen]
  · intro k _ hk
    simp [bytes, byteAt, ofBytes, hk]

end RteMbuf

/-- A header says what the fields of a frame say. -/
def TcpSegmentHeader.fields (self : TcpSegmentHeader) : TcpFrame.Fields :=
  { saddr := self.ipHeader.saddr4, daddr := self.ipHeader.daddr4
    totalLength := self.ipHeader.packetSize, sport := self.sport, dport := self.dport
    seqno := self.seqno, ackno := self.ackno, dataOffset := self.dataOffset.toNat
    window := self.suppWindowSize, checksum := self.checksum, urgent := self.uptr }

section Headers
variable {a : RteMbuf}

/-- The pointer to the IPv4 header of a frame. -/
def ipAt (a : RteMbuf) : BytePtr := { segment := a, offset := 14 }

theorem read_ipAt (k : Nat) (h : 14 + k < a.dataLen.toNat) :
    ((ipAt a).add k).read = TcpFrame.byte a.bytes (14 + k) := (RteMbuf.byte_bytes h).symm

theorem ipHeaderLen_ipAt (hIn : 14 < a.dataLen.toNat) :
    (ipHeaderLen (ipAt a)).toUInt32.toNat = 4 * TcpFrame.ihl a.bytes := by
  have hByte : (ipAt a).read = TcpFrame.byte a.bytes 14 := read_ipAt 0 hIn
  rw [ipHeaderLen_toNat, hByte, TcpFrame.ihl]

/-- The reader stands behind the Ethernet header, if there is more. -/
theorem standsAt_ipReader (hLen : a.pktLen.toNat = a.dataLen.toNat)
    (hIn : 14 < a.dataLen.toNat) : StandsAt a [] 14 (ipReader [a]) := by
  have hStart : StandsAt a [] 0 (RteMbufReader.new [a]) := ⟨rfl, by omega⟩
  have hSkip : 0 + etherHdrSize.toNat < a.dataLen.toNat := by
    rw [Nat.zero_add]
    exact hIn
  exact hStart.skip hSkip

end Headers

/-- What the layout of a frame says of the header that is read from it. -/
structure Decodes (frame : List UInt8) (header : TcpSegmentHeader) : Prop where
  fields : header.fields = TcpFrame.fields frame
  numOptionBytes : header.numOptionBytes.toNat = 4 * TcpFrame.dataOffset frame - 20

section Frames
variable {a : RteMbuf}

/-- A complete frame has room for the fixed parts of all headers. -/
theorem complete_room (h : TcpFrame.Complete a.bytes) :
    34 ≤ TcpFrame.tcpStart a.bytes ∧ TcpFrame.tcpStart a.bytes + 20 ≤ a.dataLen.toNat := by
  have hIhl := h.ihl_ge
  have hOffset := h.dataOffset_ge
  have hFits := h.fits
  have hStart : TcpFrame.tcpStart a.bytes = 14 + 4 * TcpFrame.ihl a.bytes := rfl
  rw [RteMbuf.bytes_length] at hFits
  omega

/-- `handleTcpRx` looks for the IPv4 header where it is. -/
theorem getRawBuffer_complete (hLen : a.pktLen.toNat = a.dataLen.toNat)
    (hComplete : TcpFrame.Complete a.bytes) : (ipReader [a]).getRawBuffer = some (ipAt a) := by
  obtain ⟨hStart, hRoom⟩ := complete_room hComplete
  exact (standsAt_ipReader hLen (by omega)).getRawBuffer

/-- The options of the IPv4 header are skipped too. -/
theorem standsAt_tcpReader (hLen : a.pktLen.toNat = a.dataLen.toNat)
    (hComplete : TcpFrame.Complete a.bytes) :
    StandsAt a [] (TcpFrame.tcpStart a.bytes) (tcpReader [a] (ipAt a)) := by
  obtain ⟨hStart, hRoom⟩ := complete_room hComplete
  have hIp := standsAt_ipReader hLen (by omega)
  have hTouched : StandsAt a [] 14 ((ipReader [a]).touch (ipHeaderReads (ipAt a))) :=
    ⟨hIp.itr, hIp.claim⟩
  have hWords := ipHeaderLen_ipAt (by omega : 14 < a.dataLen.toNat)
  have hSum : 14 + (ipHeaderLen (ipAt a)).toUInt32.toNat = TcpFrame.tcpStart a.bytes := by
    rw [hWords, TcpFrame.tcpStart]
  rw [← hSum]
  exact hTouched.skip (by omega)

/-- The header of a complete frame depends on its bytes alone. -/
theorem header_complete (hLen : a.pktLen.toNat = a.dataLen.toNat)
    (hComplete : TcpFrame.Complete a.bytes) (junk : RxJunk) :
    (parsedFrame junk [a] (ipAt a)).header = frameHeader a.bytes := by
  obtain ⟨hStart, hRoom⟩ := complete_room hComplete
  have hIp := standsAt_ipReader hLen (by omega)
  have hTcp := standsAt_tcpReader hLen hComplete
  have hIpRoom : 20 ≤ (ipReader [a]).room := by
    rw [hIp.room]
    omega
  have hTcpRoom : 20 ≤ (tcpReader [a] (ipAt a)).room := by
    rw [hTcp.room]
    omega
  have hHeader := header_inPlace (getRawBuffer_complete hLen hComplete) hIpRoom hTcpRoom
    (hTcp.size ▸ hTcp.claim) junk
  rwa [RteMbuf.chainBytes_cons, RteMbuf.chainBytes_nil, List.append_nil] at hHeader

/-- The four bits of the data offset are the word count of the frame. -/
theorem parsedFrame_decodes (hLen : a.pktLen.toNat = a.dataLen.toNat)
    (hComplete : TcpFrame.Complete a.bytes) (junk : RxJunk) :
    Decodes a.bytes (parsedFrame junk [a] (ipAt a)).header := by
  rw [header_complete hLen hComplete]
  constructor
  case fields => rfl
  case numOptionBytes => exact optionBytes_toNat hComplete.dataOffset_ge

/-- The frame is read as far as the destination port, whatever that is. -/
theorem parseFrame_complete (hLen : a.pktLen.toNat = a.dataLen.toNat)
    (hComplete : TcpFrame.Complete a.bytes) (hTcp : TcpFrame.protocol a.bytes = 6)
    (junk : RxJunk) (listen : TcpControlBlock) :
    parseFrame junk listen [a] =
      if (parsedFrame junk [a] (ipAt a)).header.dport.toUInt64 = listen.clientId &&& 0xFFFF then
        some (parsedFrame junk [a] (ipAt a))
      else none := by
  obtain ⟨hStart, hRoom⟩ := complete_room hComplete
  have hNew : StandsAt a [] 0 (RteMbufReader.new [a]) := ⟨rfl, by omega⟩
  have hIp := standsAt_ipReader hLen (by omega)
  have hProtocol : ipNextProtoId (ipAt a) = 6 := (read_ipAt 9 (by omega)).trans hTcp
  have hWords : (tcpFront junk [a] (ipAt a)).2.dataOffset.toNat = TcpFrame.dataOffset a.bytes :=
    congrArg TcpFrame.Fields.dataOffset (parsedFrame_decodes hLen hComplete junk).fields
  have hOffset : ¬ (tcpFront junk [a] (ipAt a)).2.dataOffset < tcpHeaderNumDefaultWord32 := by
    rw [UInt8.lt_iff_toNat_lt, hWords]
    exact not_lt.mpr hComplete.dataOffset_ge
  have hEther : ¬ (RteMbufReader.new [a]).size < etherHdrSize.toNat := by
    have hBytes : etherHdrSize.toNat = 14 := rfl
    rw [hNew.size, hBytes, hLen]
    omega
  have hSize : ¬ (ipReader [a]).size < 20 := by
    rw [hIp.size, hLen]
    omega
  rw [parseFrame, if_neg hEther, if_neg hSize, getRawBuffer_complete hLen hComplete]
  dsimp only
  rw [if_neg (not_not.mpr hProtocol), if_neg hOffset, ite_not]

end Frames

/-- `handleTcpRx` reads a whole header out of a frame, of which the property
holds, and drops the frame only if the header is for another port. -/
def ReadsHeader (junk : RxJunk) (listen : TcpControlBlock) (frame : List RteMbuf)
    (property : TcpSegmentHeader → Prop) : Prop :=
  ∃ iphdr, (ipReader frame).getRawBuffer = some iphdr ∧
    property (parsedFrame junk frame iphdr).header ∧
    parseFrame junk listen frame =
      if (parsedFrame junk frame iphdr).header.dport.toUInt64 = listen.clientId &&& 0xFFFF then
        some (parsedFrame junk frame iphdr)
      else none

theorem readsHeader_complete {a : RteMbuf} (hLen : a.pktLen.toNat = a.dataLen.toNat)
    (hComplete : TcpFrame.Complete a.bytes) (hTcp : TcpFrame.protocol a.bytes = 6)
    (junk : RxJunk) (listen : TcpControlBlock) :
    ReadsHeader junk listen [a] (Decodes a.bytes) :=
  ⟨ipAt a, getRawBuffer_complete hLen hComplete, parsedFrame_decodes hLen hComplete junk,
    parseFrame_complete hLen hComplete hTcp junk listen⟩

/-- Decoding inverts the wire format: every complete TCP frame in one segment,
whatever the lengths of its headers and its payload, is read into the fields of
its layout, so a packet written in network order gives its fields back. -/
theorem decoding_inverts_wire_format (junk : RxJunk) (listen : TcpControlBlock) (a : RteMbuf)
    (hLen : a.pktLen.toNat = a.dataLen.toNat) :
    (TcpFrame.Complete a.bytes → TcpFrame.protocol a.bytes = 6 →
      ReadsHeader junk listen [a] (Decodes a.bytes)) ∧
    (∀ packet : TcpFrame.Packet, a.bytes = packet.encode →
      ReadsHeader junk listen [a] fun header => header.fields = packet.fields ∧
        header.numOptionBytes.toNat = 4 * packet.dataOffset.val - 20) := by
  constructor
  · intro hComplete hTcp
    exact readsHeader_complete hLen hComplete hTcp junk listen
  · intro packet hBytes
    have hComplete : TcpFrame.Complete a.bytes := hBytes ▸ packet.complete_encode
    have hTcp : TcpFrame.protocol a.bytes = 6 := hBytes ▸ packet.protocol_encode
    obtain ⟨iphdr, hAt, hDecodes, hParse⟩ :=
      readsHeader_complete hLen hComplete hTcp junk listen
    have hFields := hDecodes.fields
    have hOptions := hDecodes.numOptionBytes
    rw [hBytes, packet.fields_encode] at hFields
    rw [hBytes, packet.dataOffset_encode] at hOptions
    exact ⟨iphdr, hAt, ⟨hFields, hOptions⟩, hParse⟩

/-- A packet for port 8000 with a word of options in both headers, no payload. -/
def samplePacket : TcpFrame.Packet where
  ether := List.replicate 12 0 ++ [8, 0]
  ether_length := rfl
  version := 4
  ihl := 6
  service := 0
  totalLength := 48
  fragment := 0
  timeToLive := 64
  ipChecksum := 0
  saddr := 0x0A000001
  daddr := 0x0A000002
  ipOptions := [1, 1, 1, 0]
  ipOptions_length := rfl
  sport := 7
  dport := 8000
  seqno := 0x01020304
  ackno := 0
  dataOffset := 6
  reserved := 0
  flags := 2
  window := 0xFFFF
  checksum := 0xABCD
  urgent := 0
  tcpOptions := [2, 4, 5, 180]
  tcpOptions_length := rfl
  payload := []

theorem decoding_inverts_wire_format_sample :
    ReadsHeader .zero TcpImpl.init.listen [.ofBytes samplePacket.encode]
      (Decodes (RteMbuf.ofBytes samplePacket.encode).bytes) ∧
    ReadsHeader .zero TcpImpl.init.listen [.ofBytes samplePacket.encode] fun header =>
      header.fields = samplePacket.fields ∧ header.numOptionBytes.toNat = 4 := by
  have hBytes : (RteMbuf.ofBytes samplePacket.encode).bytes = samplePacket.encode :=
    RteMbuf.bytes_ofBytes (by decide)
  obtain ⟨hFrame, hPacket⟩ := decoding_inverts_wire_format .zero TcpImpl.init.listen
    (.ofBytes samplePacket.encode) (by decide)
  exact ⟨hFrame (by decide) (by decide), hPacket samplePacket hBytes⟩

end Nginz
