import Mathlib.Data.List.Basic

/-! `RteMbufIterator` and `RteMbufReader` of `core/buffer.hxx`: how the bytes of
a chain of packet segments are walked. The reader also records which bytes it
touched, whether or not they belong to the packet. -/
namespace Nginz

/-- One segment: the memory from `buf_addr` on, where its data lies in it, and
the length that the packet claims to have. -/
structure RteMbuf where
  mem : Nat → UInt8
  dataOff : UInt16
  dataLen : UInt16
  pktLen : UInt32

namespace RteMbuf

/-- The byte at an offset from the start of the data. -/
def byteAt (self : RteMbuf) (offset : Nat) : UInt8 := self.mem (self.dataOff.toNat + offset)

/-- The bytes that belong to the packet. -/
def bytes (self : RteMbuf) : List UInt8 := (List.range self.dataLen.toNat).map self.byteAt

/-- A packet of one segment, behind the usual headroom. -/
def ofBytes (data : List UInt8) : RteMbuf :=
  { mem := fun i => data.getD (i - 128) 0, dataOff := 128, dataLen := UInt16.ofNat data.length
    pktLen := UInt32.ofNat data.length }

/-- A packet is a chain of segments; these are all its bytes. -/
def chainBytes (chain : List RteMbuf) : List UInt8 := chain.flatMap bytes

end RteMbuf

/-- A pointer to a byte, by its segment and offset. -/
structure BytePtr where
  segment : RteMbuf
  offset : Nat

namespace BytePtr

def read (self : BytePtr) : UInt8 := self.segment.byteAt self.offset

def add (self : BytePtr) (count : Nat) : BytePtr := { self with offset := self.offset + count }

/-- The byte belongs to the data of its segment. -/
def Inside (self : BytePtr) : Prop := self.offset < self.segment.dataLen.toNat

instance (self : BytePtr) : Decidable self.Inside := inferInstanceAs (Decidable (_ < _))

end BytePtr

/-- `-` on `size_t`, with its wrap below zero. -/
def sizeSub (x y : Nat) : Nat := if y ≤ x then x - y else x + UInt64.size - y

/-- The rest of the chain, its head the current segment; empty is the null
pointer. Nothing ever changes `pktOffset`. -/
structure RteMbufIterator where
  m : List RteMbuf
  offset : Nat := 0
  pktOffset : Nat := 0

namespace RteMbufIterator

/-- `operator++`. It may rest behind the last byte of a segment. -/
def next (self : RteMbufIterator) : RteMbufIterator :=
  match self.m with
  | [] => self
  | a :: rest =>
      if self.offset < a.dataLen.toNat then { self with offset := self.offset + 1 }
      else { self with m := rest, offset := 0 }

/-- The loop of `skip`: the segment and offset where it stops. -/
def skipLoop : List RteMbuf → Nat → UInt32 → List RteMbuf × Nat
  | [], offset, _ => ([], offset)
  | a :: rest, offset, inc =>
      if inc = 0 then (a :: rest, offset)
      else if offset + inc.toNat < a.dataLen.toNat then (a :: rest, offset + inc.toNat)
      else skipLoop rest 0 (inc - UInt32.ofNat (sizeSub a.dataLen.toNat offset))

def skip (self : RteMbufIterator) (givenInc : UInt32) : RteMbufIterator :=
  let (m, offset) := skipLoop self.m self.offset givenInc
  { self with m := m, offset := offset }

/-- The length is that of the current segment, wherever the iterator stands. -/
def size (self : RteMbufIterator) : Nat :=
  match self.m with
  | [] => 0
  | a :: _ => sizeSub a.pktLen.toNat self.pktOffset

def eof (self : RteMbufIterator) : Bool := self.size == 0

/-- The address that `operator*` reads, `none` for the null pointer. -/
def address (self : RteMbufIterator) : Option BytePtr :=
  self.m.head?.map fun a => { segment := a, offset := self.offset }

def getRawBuffer (self : RteMbufIterator) : Option BytePtr :=
  if self.eof then none else self.address

end RteMbufIterator

/-- What uninitialised locals of the typed reads hold. -/
structure Indeterminate where
  byteHi : UInt8
  byteLo : UInt8
  halfHi : UInt16
  halfLo : UInt16

/-- An iterator with the record of every byte it was used to read. -/
structure RteMbufReader where
  itr : RteMbufIterator
  reads : List BytePtr := []

namespace RteMbufReader

def new (given : List RteMbuf) : RteMbufReader := { itr := { m := given } }

def size (self : RteMbufReader) : Nat := self.itr.size

def skip (self : RteMbufReader) (numBytes : UInt32) : RteMbufReader :=
  { self with itr := self.itr.skip numBytes }

def getRawBuffer (self : RteMbufReader) : Option BytePtr := self.itr.getRawBuffer

/-- Record reads that go through a raw pointer. -/
def touch (self : RteMbufReader) (ptrs : List BytePtr) : RteMbufReader :=
  { self with reads := self.reads ++ ptrs }

/-- `operator>>(uint8_t&)`, with the value the variable had before. -/
def readU8 (self : RteMbufReader) (outv : UInt8) : RteMbufReader × UInt8 :=
  match self.itr.getRawBuffer with
  | none => (self, outv)
  | some ptr => ({ itr := self.itr.next, reads := self.reads ++ [ptr] }, ptr.read)

/-- `operator>>(uint16_t&)`. -/
def readU16 (self : RteMbufReader) (junk : Indeterminate) (outv : UInt16) :
    RteMbufReader × UInt16 :=
  if self.size < 2 then (self, outv)
  else
    let (self, outhi) := self.readU8 junk.byteHi
    let (self, outlo) := self.readU8 junk.byteLo
    (self, (outhi.toUInt16 <<< 8) ||| outlo.toUInt16)

/-- `operator>>(uint32_t&)`. -/
def readU32 (self : RteMbufReader) (junk : Indeterminate) (outv : UInt32) :
    RteMbufReader × UInt32 :=
  if self.size < 4 then (self, outv)
  else
    let (self, outhi) := self.readU16 junk junk.halfHi
    let (self, outlo) := self.readU16 junk junk.halfLo
    (self, (outhi.toUInt32 <<< 16) ||| outlo.toUInt32)

/-- The bytes from the position on that lie in the current segment. -/
def room (self : RteMbufReader) : Nat :=
  match self.itr.m with
  | [] => 0
  | a :: _ => a.dataLen.toNat - self.itr.offset

end RteMbufReader
end Nginz
