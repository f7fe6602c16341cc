import ReactDpdk.General.NetworkOrder
import ReactDpdk.General.TcpFrame

/-! TCP packets by their fields, and that the layout of `TcpFrame` finds every
field again in the bytes that a packet is written as. -/
namespace TcpFrame
open NetworkOrder

section Words
variable (frame : List UInt8) (i : Nat)

theorem half_toNat : (half frame i).toNat =
    (byte frame i).toNat * 256 + (byte frame (i + 1)).toNat := toNat_join16 ..

theorem word_toNat : (word frame i).toNat =
    (half frame i).toNat * 65536 + (half frame (i + 2)).toNat := toNat_join32 ..

variable {frame i}

/-- The two bytes that `x` is written as are read as `x`. -/
theorem half_eq_of_bytes {x : UInt16} (hHi : byte frame i = (x >>> 8).toUInt8)
    (hLo : byte frame (i + 1) = x.toUInt8) : half frame i = x := by
  have hBound := x.toNat_lt
  apply UInt16.toNat_inj.mp
  rw [half_toNat, hHi, hLo, UInt16.toNat_toUInt8, UInt16.toNat_toUInt8, UInt16.toNat_shiftRight]
  simp [Nat.shiftRight_eq_div_pow]
  omega

theorem word_eq_of_bytes {x : UInt32} (h₀ : byte frame i = ((x >>> 16).toUInt16 >>> 8).toUInt8)
    (h₁ : byte frame (i + 1) = (x >>> 16).toUInt16.toUInt8)
    (h₂ : byte frame (i + 2) = (x.toUInt16 >>> 8).toUInt8)
    (h₃ : byte frame (i + 2 + 1) = x.toUInt16.toUInt8) : word frame i = x := by
  have hHi : half frame i = (x >>> 16).toUInt16 := half_eq_of_bytes h₀ h₁
  have hLo : half frame (i + 2) = x.toUInt16 := half_eq_of_bytes h₂ h₃
  have hBound := x.toNat_lt
  apply UInt32.toNat_inj.mp
  rw [word_toNat, hHi, hLo, UInt32.toNat_toUInt16, UInt32.toNat_toUInt16, UInt32.toNat_shiftRight]
  simp [Nat.shiftRight_eq_div_pow]
  omega

/-- What the next bytes spell, two or four of them. -/
theorem beValue_take_two (hIn : i + 2 ≤ frame.length) :
    beValue ((frame.drop i).take 2) = (half frame i).toNat := by
  have hHi : i < frame.length := by omega
  have hLo : i + 1 < frame.length := by omega
  have hFirst : byte frame i = frame[i] := by simp [byte, hHi]
  have hSecond : byte frame (i + 1) = frame[i + 1] := by simp [byte, hLo]
  have hTake : (frame.drop i).take 2 = [byte frame i] ++ [byte frame (i + 1)] := by
    rw [List.drop_eq_getElem_cons hHi, List.drop_eq_getElem_cons hLo, hFirst, hSecond]
    rfl
  rw [hTake, beValue_append, beValue_singleton, beValue_singleton, half_toNat]
  rfl

theorem beValue_take_four (hIn : i + 4 ≤ frame.length) :
    beValue ((frame.drop i).take 4) = (word frame i).toNat := by
  have hLength : (((frame.drop i).drop 2).take 2).length = 2 := by
    simp only [List.length_take, List.length_drop]
    omega
  have hFour : 4 = 2 + 2 := rfl
  rw [hFour, List.take_add, beValue_append, hLength, List.drop_drop, beValue_take_two (by omega),
    beValue_take_two (by omega), word_toNat]
  rfl

end Words

section Drop
variable (frame : List UInt8) (n i : Nat)

theorem byte_drop : byte (frame.drop n) i = byte frame (n + i) := by
  simp [byte]

theorem half_drop : half (frame.drop n) i = half frame (n + i) := by
  rw [half, half, byte_drop, byte_drop, Nat.add_assoc]

end Drop

section Append
variable (first second : List UInt8) (i : Nat)

theorem byte_append : byte (first ++ second) (first.length + i) = byte second i := by
  simp [byte, List.getElem?_append_right]

theorem half_append : half (first ++ second) (first.length + i) = half second i := by
  rw [half, half, Nat.add_assoc, byte_append, byte_append]

theorem word_append : word (first ++ second) (first.length + i) = word second i := by
  rw [word, word, Nat.add_assoc, half_append, half_append]

variable {first second i}

/-- Bytes in front of others are where they were. -/
theorem byte_append_left (h : i < first.length) : byte (first ++ second) i = byte first i := by
  simp [byte, List.getElem?_append_left h]

theorem half_append_left (h : i + 2 ≤ first.length) :
    half (first ++ second) i = half first i := by
  rw [half, half, byte_append_left (by omega), byte_append_left (by omega)]

theorem word_append_left (h : i + 4 ≤ first.length) :
    word (first ++ second) i = word first i := by
  rw [word, word, half_append_left (by omega), half_append_left (by omega)]

end Append

/-- Two fields of four bits in one byte. -/
def nibbles (hi lo : Fin 16) : UInt8 := UInt8.ofNat (16 * hi.val + lo.val)

theorem nibbles_hi (hi lo : Fin 16) : (nibbles hi lo >>> 4).toNat = hi.val := by
  revert hi lo
  decide

theorem nibbles_lo (hi lo : Fin 16) : (nibbles hi lo &&& 0xF).toNat = lo.val := by
  revert hi lo
  decide

/-- A TCP packet by its fields. The two header lengths are fields of their own,
and the options fill what they leave. -/
structure Packet where
  ether : List UInt8
  ether_length : ether.length = 14
  version : Fin 16
  ihl : Fin 16
  service : UInt8
  totalLength : UInt16
  fragment : UInt32
  timeToLive : UInt8
  ipChecksum : UInt16
  saddr : UInt32
  daddr : UInt32
  ipOptions : List UInt8
  ipOptions_length : 20 + ipOptions.length = 4 * ihl.val
  sport : UInt16
  dport : UInt16
  seqno : UInt32
  ackno : UInt32
  dataOffset : Fin 16
  reserved : Fin 16
  flags : UInt8
  window : UInt16
  checksum : UInt16
  urgent : UInt16
  tcpOptions : List UInt8
  tcpOptions_length : 20 + tcpOptions.length = 4 * dataOffset.val
  payload : List UInt8

namespace Packet
variable (self : Packet)

/-- The fixed part of the IPv4 header. -/
def ipHeader : List UInt8 :=
  [nibbles self.version self.ihl, self.service] ++ halfBytes self.totalLength ++
  wordBytes self.fragment ++ [self.timeToLive, 6] ++ halfBytes self.ipChecksum ++
  wordBytes self.saddr ++ wordBytes self.daddr

/-- The fixed part of the TCP header. -/
def tcpHeader : List UInt8 :=
  halfBytes self.sport ++ halfBytes self.dport ++ wordBytes self.seqno ++ wordBytes self.ackno ++
  [nibbles self.dataOffset self.reserved, self.flags] ++ halfBytes self.window ++
  halfBytes self.checksum ++ halfBytes self.urgent

/-- What stands in front of the TCP header. -/
def beforeTcp : List UInt8 := self.ether ++ (self.ipHeader ++ self.ipOptions)

def encode : List UInt8 :=
  self.beforeTcp ++ (self.tcpHeader ++ (self.tcpOptions ++ self.payload))

/-- What stands from the TCP header on, each field in front of the rest. -/
def fromTcp : List UInt8 :=
  halfBytes self.sport ++ (halfBytes self.dport ++ (wordBytes self.seqno ++
  (wordBytes self.ackno ++ ([nibbles self.dataOffset self.reserved, self.flags] ++
  (halfBytes self.window ++ (halfBytes self.checksum ++ (halfBytes self.urgent ++
  (self.tcpOptions ++ self.payload))))))))

theorem encode_eq_fromTcp : self.encode = self.beforeTcp ++ self.fromTcp := by
  simp only [encode, tcpHeader, fromTcp, List.append_assoc]

/-- The same from the IPv4 header on. -/
def fromIp : List UInt8 :=
  [nibbles self.version self.ihl, self.service] ++ (halfBytes self.totalLength ++
  (wordBytes self.fragment ++ ([self.timeToLive, 6] ++ (halfBytes self.ipChecksum ++
  (wordBytes self.saddr ++ (wordBytes self.daddr ++ (self.ipOptions ++ self.fromTcp)))))))

theorem encode_eq_fromIp : self.encode = self.ether ++ self.fromIp := by
  simp only [encode_eq_fromTcp, beforeTcp, ipHeader, fromIp, List.append_assoc]

theorem beforeTcp_length : self.beforeTcp.length = 14 + 4 * self.ihl.val := by
  have hEther := self.ether_length
  have hOptions := self.ipOptions_length
  have hHeader : self.ipHeader.length = 20 := rfl
  simp only [beforeTcp, List.length_append]
  omega

/-- Where a byte of the IPv4 header is found. -/
theorem byte_ip (i : Nat) : byte self.encode (14 + i) = byte self.fromIp i := by
  rw [encode_eq_fromIp, ← self.ether_length, byte_append]

theorem half_ip (i : Nat) : half self.encode (14 + i) = half self.fromIp i := by
  rw [encode_eq_fromIp, ← self.ether_length, half_append]

theorem word_ip (i : Nat) : word self.encode (14 + i) = word self.fromIp i := by
  rw [encode_eq_fromIp, ← self.ether_length, word_append]

theorem ihl_encode : TcpFrame.ihl self.encode = self.ihl.val := by
  have hByte : byte self.encode 14 = nibbles self.version self.ihl := self.byte_ip 0
  rw [TcpFrame.ihl, hByte, nibbles_lo]

theorem tcpStart_encode : tcpStart self.encode = self.beforeTcp.length := by
  rw [tcpStart, ihl_encode, beforeTcp_length]

/-- Where a byte of the TCP header is found. -/
theorem byte_tcp (i : Nat) : byte self.encode (tcpStart self.encode + i) = byte self.fromTcp i := by
  rw [tcpStart_encode, encode_eq_fromTcp, byte_append]

theorem half_tcp (i : Nat) : half self.encode (tcpStart self.encode + i) = half self.fromTcp i := by
  rw [tcpStart_encode, encode_eq_fromTcp, half_append]

theorem word_tcp (i : Nat) : word self.encode (tcpStart self.encode + i) = word self.fromTcp i := by
  rw [tcpStart_encode, encode_eq_fromTcp, word_append]

theorem protocol_encode : protocol self.encode = 6 := self.byte_ip 9

theorem dataOffset_encode : TcpFrame.dataOffset self.encode = self.dataOffset.val := by
  have hByte : byte self.encode (tcpStart self.encode + 12) =
      nibbles self.dataOffset self.reserved := self.byte_tcp 12
  rw [TcpFrame.dataOffset, hByte, nibbles_hi]

/-- The options fill the headers, so the headers are there. -/
theorem complete_encode : Complete self.encode := by
  have hIp := self.ipOptions_length
  have hTcp := self.tcpOptions_length
  constructor
  case ihl_ge =>
    rw [ihl_encode]
    omega
  case dataOffset_ge =>
    rw [dataOffset_encode]
    omega
  case fits =>
    have hHeader : self.tcpHeader.length = 20 := rfl
    rw [tcpStart_encode, dataOffset_encode, encode]
    simp only [List.length_append]
    omega

/-- What a packet has in the fields that describe its segment. -/
def fields : Fields :=
  { saddr := self.saddr, daddr := self.daddr, totalLength := self.totalLength
    sport := self.sport, dport := self.dport, seqno := self.seqno, ackno := self.ackno
    dataOffset := self.dataOffset.val, window := self.window, checksum := self.checksum
    urgent := self.urgent }

/-- Every field is read back as it was written, whatever stands around it. -/
theorem fields_encode : TcpFrame.fields self.encode = self.fields := by
  have hSaddr : TcpFrame.saddr self.encode = self.saddr :=
    (self.word_ip 12).trans (word_eq_of_bytes rfl rfl rfl rfl)
  have hDaddr : TcpFrame.daddr self.encode = self.daddr :=
    (self.word_ip 16).trans (word_eq_of_bytes rfl rfl rfl rfl)
  have hLength : TcpFrame.totalLength self.encode = self.totalLength :=
    (self.half_ip 2).trans (half_eq_of_bytes rfl rfl)
  have hSport : TcpFrame.sport self.encode = self.sport :=
    (self.half_tcp 0).trans (half_eq_of_bytes rfl rfl)
  have hDport : TcpFrame.dport self.encode = self.dport :=
    (self.half_tcp 2).trans (half_eq_of_bytes rfl rfl)
  have hSeqno : TcpFrame.seqno self.encode = self.seqno :=
    (self.word_tcp 4).trans (word_eq_of_bytes rfl rfl rfl rfl)
  have hAckno : TcpFrame.ackno self.encode = self.ackno :=
    (self.word_tcp 8).trans (word_eq_of_bytes rfl rfl rfl rfl)
  have hWindow : TcpFrame.window self.encode = self.window :=
    (self.half_tcp 14).trans (half_eq_of_bytes rfl rfl)
  have hChecksum : TcpFrame.checksum self.encode = self.checksum :=
    (self.half_tcp 16).trans (half_eq_of_bytes rfl rfl)
  have hUrgent : TcpFrame.urgent self.encode = self.urgent :=
    (self.half_tcp 18).trans (half_eq_of_bytes rfl rfl)
  rw [TcpFrame.fields, fields, hSaddr, hDaddr, hLength, hSport, hDport, hSeqno, hAckno,
    dataOffset_encode, hWindow, hChecksum, hUrgent]

end Packet

end TcpFrame
