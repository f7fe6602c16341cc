import Mathlib.Data.List.Basic

/-! The layout of a TCP segment in an IPv4 packet in an Ethernet frame, as the
protocols define it: which byte of the frame belongs to which field. -/
namespace TcpFrame

def byte (frame : List UInt8) (i : Nat) : UInt8 := frame.getD i 0

/-- Two bytes in network order. -/
def half (frame : List UInt8) (i : Nat) : UInt16 :=
  ((byte frame i).toUInt16 <<< 8) ||| (byte frame (i + 1)).toUInt16

/-- Four bytes in network order. -/
def word (frame : List UInt8) (i : Nat) : UInt32 :=
  ((half frame i).toUInt32 <<< 16) ||| (half frame (i + 2)).toUInt32

def etherType (frame : List UInt8) : UInt16 := half frame 12

def version (frame : List UInt8) : UInt8 := byte frame 14 >>> 4

/-- The length of the IPv4 header in words. -/
def ihl (frame : List UInt8) : Nat := (byte frame 14 &&& 0xF).toNat

/-- The length of the whole IPv4 packet in bytes. -/
def totalLength (frame : List UInt8) : UInt16 := half frame 16

def protocol (frame : List UInt8) : UInt8 := byte frame 23

def saddr (frame : List UInt8) : UInt32 := word frame 26

def daddr (frame : List UInt8) : UInt32 := word frame 30

/-- Where the TCP header starts. -/
def tcpStart (frame : List UInt8) : Nat := 14 + 4 * ihl frame

def sport (frame : List UInt8) : UInt16 := half frame (tcpStart frame)

def dport (frame : List UInt8) : UInt16 := half frame (tcpStart frame + 2)

def seqno (frame : List UInt8) : UInt32 := word frame (tcpStart frame + 4)

def ackno (frame : List UInt8) : UInt32 := word frame (tcpStart frame + 8)

/-- The length of the TCP header in words. -/
def dataOffset (frame : List UInt8) : Nat := (byte frame (tcpStart frame + 12) >>> 4).toNat

/-- The byte that holds the eight flags. -/
def flags (frame : List UInt8) : UInt8 := byte frame (tcpStart frame + 13)

def window (frame : List UInt8) : UInt16 := half frame (tcpStart frame + 14)

def checksum (frame : List UInt8) : UInt16 := half frame (tcpStart frame + 16)

def urgent (frame : List UInt8) : UInt16 := half frame (tcpStart frame + 18)

/-- The fields that describe a segment, apart from its flags. -/
structure Fields where
  saddr : UInt32
  daddr : UInt32
  totalLength : UInt16
  sport : UInt16
  dport : UInt16
  seqno : UInt32
  ackno : UInt32
  dataOffset : Nat
  window : UInt16
  checksum : UInt16
  urgent : UInt16
  deriving DecidableEq

/-- What a frame has in them. -/
def fields (frame : List UInt8) : Fields :=
  { saddr := saddr frame, daddr := daddr frame, totalLength := totalLength frame
    sport := sport frame, dport := dport frame, seqno := seqno frame, ackno := ackno frame
    dataOffset := dataOffset frame, window := window frame, checksum := checksum frame
    urgent := urgent frame }

/-- All three headers are there, with legal lengths. -/
structure Complete (frame : List UInt8) : Prop where
  ihl_ge : 5 ≤ ihl frame
  dataOffset_ge : 5 ≤ dataOffset frame
  fits : tcpStart frame + 4 * dataOffset frame ≤ frame.length

instance (frame : List UInt8) : Decidable (Complete frame) :=
  decidable_of_iff (5 ≤ ihl frame ∧ 5 ≤ dataOffset frame ∧
    tcpStart frame + 4 * dataOffset frame ≤ frame.length)
    ⟨fun ⟨h₁, h₂, h₃⟩ => ⟨h₁, h₂, h₃⟩, fun h => ⟨h.ihl_ge, h.dataOffset_ge, h.fits⟩⟩

/-- A complete frame that is what its headers say: IPv4, and TCP inside. -/
structure WellFormed (frame : List UInt8) : Prop extends Complete frame where
  isIpv4 : etherType frame = 0x0800 ∧ version frame = 4
  isTcp : protocol frame = 6

instance (frame : List UInt8) : Decidable (WellFormed frame) :=
  decidable_of_iff (Complete frame ∧ (etherType frame = 0x0800 ∧ version frame = 4) ∧
    protocol frame = 6)
    ⟨fun ⟨h₁, h₂, h₃⟩ => ⟨h₁, h₂, h₃⟩, fun h => ⟨h.toComplete, h.isIpv4, h.isTcp⟩⟩

/-- Two bytes in network order, written out. -/
def halfBytes (x : UInt16) : List UInt8 := [(x >>> 8).toUInt8, x.toUInt8]

def wordBytes (x : UInt32) : List UInt8 := halfBytes (x >>> 16).toUInt16 ++ halfBytes x.toUInt16

/-- A frame to host `10.0.0.2` without options and payload. -/
def segment (saddr : UInt32) (sport dport : UInt16) (seqno : UInt32) (flags : UInt8) : List UInt8 :=
  List.replicate 12 0 ++ halfBytes 0x0800 ++
  [0x45, 0] ++ halfBytes 40 ++ [0, 0, 0, 0, 64, 6, 0, 0] ++ wordBytes saddr ++
  wordBytes 0x0A000002 ++
  halfBytes sport ++ halfBytes dport ++ wordBytes seqno ++ wordBytes 0 ++
  [0x50, flags] ++ halfBytes 0xFFFF ++ [0, 0, 0, 0]

end TcpFrame
