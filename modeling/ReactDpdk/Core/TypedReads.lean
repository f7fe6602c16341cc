import ReactDpdk.General.NetworkOrder
import ReactDpdk.Core.MbufTraversal

/-! The typed reads of `RteMbufReader` at every position that skips and reads
reach: what a read does as a whole, when it is big-endian, and when it is all or
nothing. -/
namespace Nginz
open NetworkOrder

namespace RteMbuf

theorem length_chainBytes (chain : List RteMbuf) :
    (chainBytes chain).length = chainLength chain := by
  induction chain with
  | nil => rfl
  | cons a tail ih => rw [chainBytes_cons, List.length_append, bytes_length, ih, chainLength_cons]

end RteMbuf

namespace RteMbufIterator
open RteMbuf

/-- The bytes of the chain from the position on. -/
def rest (self : RteMbufIterator) : List UInt8 := (chainBytes self.m).drop self.offset

theorem rest_of_end {self : RteMbufIterator} (h : self.m = []) : self.rest = [] := by
  rw [rest, h, chainBytes_nil, List.drop_nil]

variable {a : RteMbuf} {tail : List RteMbuf} {offset : Nat}

theorem rest_add (count : Nat) :
    rest ⟨a :: tail, offset + count, 0⟩ = (rest ⟨a :: tail, offset, 0⟩).drop count := by
  rw [rest, rest, List.drop_drop]

theorem length_rest (h : offset ≤ a.dataLen.toNat) : (rest ⟨a :: tail, offset, 0⟩).length =
    a.dataLen.toNat - offset + chainLength tail := by
  rw [rest, List.length_drop, length_chainBytes, chainLength_cons]
  dsimp only
  omega

/-- From right behind a segment the next byte is that of the segments behind. -/
theorem rest_behind : rest ⟨a :: tail, a.dataLen.toNat, 0⟩ = rest ⟨tail, 0, 0⟩ := by
  rw [rest, rest, chainBytes_cons, ← bytes_length, List.drop_left, List.drop_zero]

theorem take_one_rest (h : offset < a.dataLen.toNat) :
    (rest ⟨a :: tail, offset, 0⟩).take 1 = [a.byteAt offset] := by
  have hLen : offset < (chainBytes (a :: tail)).length := by
    rw [length_chainBytes, chainLength_cons]
    omega
  have hByte : (chainBytes (a :: tail))[offset] = a.byteAt offset := by
    simp [bytes, h]
  rw [rest, List.drop_eq_getElem_cons hLen, List.take_succ_cons, List.take_zero, hByte]

/-- The segments that are left are the last ones of those before. -/
theorem skipLoop_suffix (m : List RteMbuf) (offset : Nat) (inc : UInt32) :
    (skipLoop m offset inc).1 <:+ m := by
  induction m generalizing offset inc with
  | nil => exact List.suffix_refl _
  | cons a tail ih =>
      unfold skipLoop
      split
      · exact List.suffix_refl _
      · split
        · exact List.suffix_refl _
        · exact (ih _ _).trans (List.suffix_cons a tail)

/-- The loop of `skip` leaves that many bytes fewer. -/
theorem rest_skipLoop (m : List RteMbuf) {offset : Nat} (inc : UInt32)
    (h : ∀ a ∈ m.head?, offset ≤ a.dataLen.toNat) :
    rest ⟨(skipLoop m offset inc).1, (skipLoop m offset inc).2, 0⟩ =
      (rest ⟨m, offset, 0⟩).drop inc.toNat := by
  induction m generalizing offset inc with
  | nil => rw [skipLoop, rest_of_end rfl, List.drop_nil]
  | cons a tail ih =>
      unfold skipLoop
      split
      · rename_i hZero
        rw [hZero]
        rfl
      · split
        · exact rest_add inc.toNat
        · rename_i hGoes
          have hPast := Nat.le_of_not_lt hGoes
          have hOffset := h a rfl
          have hBytes : (chainBytes (a :: tail)).drop a.dataLen.toNat = chainBytes tail := by
            rw [chainBytes_cons, ← bytes_length, List.drop_left]
          rw [ih _ fun b _ => Nat.zero_le _, toNat_left hOffset hPast, rest, rest, List.drop_zero,
            List.drop_drop, ← hBytes, List.drop_drop]
          dsimp only
          congr 1
          omega

variable {self : RteMbufIterator}

theorem rest_skip (h : self.Valid) (inc : UInt32) :
    (self.skip inc).rest = self.rest.drop inc.toNat := by
  obtain ⟨m, offset, pktOffset⟩ := self
  obtain ⟨hBounds, rfl⟩ := h
  exact rest_skipLoop m inc hBounds

end RteMbufIterator

namespace RteMbufReader
open RteMbuf RteMbufIterator

/-- `operator>>(char&)`. -/
def readChar (self : RteMbufReader) (c : Int8) : RteMbufReader × Int8 :=
  match self.itr.getRawBuffer with
  | none => (self, c)
  | some ptr => ({ itr := self.itr.next, reads := self.reads ++ [ptr] }, ptr.read.toInt8)

/-- `operator>>(uint64_t&)`, with what its two locals hold before. -/
def readU64 (self : RteMbufReader) (junk : Indeterminate) (wordHi wordLo : UInt32)
    (outv : UInt64) : RteMbufReader × UInt64 :=
  if self.size < 8 then (self, outv)
  else
    let (self, outhi) := self.readU32 junk wordHi
    let (self, outlo) := self.readU32 junk wordLo
    (self, (outhi.toUInt64 <<< 32) ||| outlo.toUInt64)

/-- From a reader to a later one, at most `width` reads further. Each read took a
byte of the data or left a segment. -/
structure Consumes (width : Nat) (before after : RteMbufReader) : Prop where
  valid : after.itr.Valid
  balance : after.itr.rest.length + after.itr.m.length + after.reads.length =
    before.itr.rest.length + before.itr.m.length + before.reads.length
  suffix : after.itr.m <:+ before.itr.m
  reads_ge : before.reads.length ≤ after.reads.length
  reads_le : after.reads.length ≤ before.reads.length + width

theorem Consumes.refl {self : RteMbufReader} (h : self.itr.Valid) (width : Nat) :
    Consumes width self self := by
  constructor
  case valid => exact h
  case balance => rfl
  case suffix => exact List.suffix_refl _
  case reads_ge => exact Nat.le_refl _
  case reads_le => exact Nat.le_add_right ..

theorem Consumes.trans {x y z : RteMbufReader} {i j : Nat} (hFirst : Consumes i x y)
    (hSecond : Consumes j y z) : Consumes (i + j) x z := by
  constructor
  case valid => exact hSecond.valid
  case balance => exact hSecond.balance.trans hFirst.balance
  case suffix => exact hSecond.suffix.trans hFirst.suffix
  case reads_ge => exact Nat.le_trans hFirst.reads_ge hSecond.reads_ge
  case reads_le =>
    have hMiddle := hFirst.reads_le
    have hEnd := hSecond.reads_le
    omega

/-- What a typed read of `width` bytes does: nothing where the reader believes
that too little is left; the big-endian value inside a segment; and elsewhere
some steps of the iterator, the last of which leaves the segment. -/
structure IsTypedRead {α : Type} (width : Nat) (value : α → Nat)
    (read : RteMbufReader → α → RteMbufReader × α) : Prop where
  short (self outv) : self.size < width → read self outv = (self, outv)
  within (self outv) {a tail offset} : self.itr = ⟨a :: tail, offset, 0⟩ →
    offset + width ≤ a.dataLen.toNat → width ≤ a.pktLen.toNat →
    (read self outv).1.itr = ⟨a :: tail, offset + width, 0⟩ ∧
      value (read self outv).2 = beValue (self.itr.rest.take width)
  consumes (self outv) : self.itr.Valid → Consumes width self (read self outv).1
  reads (self outv) : self.itr.Valid → width ≤ self.size →
    self.reads.length < (read self outv).1.reads.length
  leaves (self outv) {a tail offset} : self.itr = ⟨a :: tail, offset, 0⟩ →
    offset ≤ a.dataLen.toNat → a.dataLen.toNat < offset + width → width ≤ a.pktLen.toNat →
    (read self outv).1.itr.m.length < self.itr.m.length

section Bytes
variable {self : RteMbufReader} {a : RteMbuf} {tail : List RteMbuf} {offset : Nat}

/-- One step takes a byte of the segment, or leaves it. -/
theorem consumes_next (h : self.itr = ⟨a :: tail, offset, 0⟩) (hOffset : offset ≤ a.dataLen.toNat)
    (ptr : BytePtr) : Consumes 1 self { itr := self.itr.next, reads := self.reads ++ [ptr] } := by
  rcases Nat.lt_or_eq_of_le hOffset with hInside | rfl
  · constructor
    case valid =>
      rw [h, next_inside hInside]
      exact valid_at hInside
    case balance =>
      rw [h, next_inside hInside, length_rest hInside, length_rest hOffset]
      simp only [List.length_append, List.length_singleton]
      omega
    case suffix => rw [h, next_inside hInside]
    case reads_ge => simp
    case reads_le => simp
  · constructor
    case valid =>
      rw [h, next_behind]
      exact ⟨fun _ _ => Nat.zero_le _, rfl⟩
    case balance =>
      rw [h, next_behind, rest_behind]
      simp only [List.length_append, List.length_cons, List.length_nil]
      omega
    case suffix =>
      rw [h, next_behind]
      exact List.suffix_cons a tail
    case reads_ge => simp
    case reads_le => simp

theorem isTypedRead_byte {α : Type} {value : α → Nat}
    {read : RteMbufReader → α → RteMbufReader × α} (ofByte : UInt8 → α)
    (hNone : ∀ self outv, self.itr.getRawBuffer = none → read self outv = (self, outv))
    (hSome : ∀ self outv ptr, self.itr.getRawBuffer = some ptr → read self outv =
      ({ itr := self.itr.next, reads := self.reads ++ [ptr] }, ofByte ptr.read))
    (hValue : ∀ x, value (ofByte x) = x.toNat) : IsTypedRead 1 value read := by
  constructor
  case short =>
    intro self outv hSize
    exact hNone self outv (getRawBuffer_short hSize)
  case within =>
    intro self outv a tail offset h hInside hSize
    rw [hSome self outv _ (getRawBuffer_at h hSize), h, next_inside hInside,
      take_one_rest hInside, beValue_singleton]
    exact ⟨rfl, hValue _⟩
  case consumes =>
    intro self outv hValid
    rcases hValid.cases with hEnd | ⟨a, tail, offset, h, hOffset⟩
    · have hSize : self.size = 0 := by rw [RteMbufReader.size, RteMbufIterator.size, hEnd]
      rw [hNone self outv (getRawBuffer_short (by omega))]
      exact Consumes.refl hValid 1
    · by_cases hSize : 1 ≤ a.pktLen.toNat
      · rw [hSome self outv _ (getRawBuffer_at h hSize)]
        exact consumes_next h hOffset _
      · rw [hNone self outv (getRawBuffer_short (by rw [size_at h]; omega))]
        exact Consumes.refl hValid 1
  case reads =>
    intro self outv hValid hSize
    rcases hValid.cases with hEnd | ⟨a, tail, offset, h, hOffset⟩
    · rw [RteMbufReader.size, RteMbufIterator.size, hEnd] at hSize
      cases hSize
    · rw [size_at h] at hSize
      rw [hSome self outv _ (getRawBuffer_at h hSize)]
      simp
  case leaves =>
    intro self outv a tail offset h hOffset hOver hSize
    obtain rfl : offset = a.dataLen.toNat := by omega
    rw [hSome self outv _ (getRawBuffer_at h hSize), h, next_behind]
    exact Nat.lt_succ_self _

end Bytes

/-- Two reads of half the width, behind a check of the whole. -/
theorem IsTypedRead.double {α β : Type} {width : Nat} {value : α → Nat} {value' : β → Nat}
    {half : RteMbufReader → α → RteMbufReader × α} {whole : RteMbufReader → β → RteMbufReader × β}
    (h : IsTypedRead width value half) (hi lo : α) (join : α → α → β)
    (hShort : ∀ self outv, self.size < width + width → whole self outv = (self, outv))
    (hWhole : ∀ self outv, ¬ self.size < width + width → whole self outv =
      ((half (half self hi).1 lo).1, join (half self hi).2 (half (half self hi).1 lo).2))
    (hJoin : ∀ x y, value' (join x y) = value x * 256 ^ width + value y) :
    IsTypedRead (width + width) value' whole := by
  constructor
  case short => exact hShort
  case within =>
    intro self outv a tail offset hAt hInside hSize
    have hEnough : ¬ self.size < width + width := by
      rw [size_at hAt]
      omega
    obtain ⟨hMiddle, hHi⟩ := h.within self hi hAt (by omega) (by omega)
    obtain ⟨hEnd, hLo⟩ := h.within _ lo hMiddle (by omega) (by omega)
    have hLength : ((half self hi).1.itr.rest.take width).length = width := by
      rw [List.length_take, hMiddle, length_rest (by omega)]
      omega
    have hNext : (half self hi).1.itr.rest = self.itr.rest.drop width := by
      rw [hMiddle, hAt, rest_add]
    rw [hWhole self outv hEnough, hJoin, hHi, hLo, List.take_add, beValue_append, ← hNext, hLength,
      ← Nat.add_assoc]
    exact ⟨hEnd, rfl⟩
  case consumes =>
    intro self outv hValid
    by_cases hSize : self.size < width + width
    · rw [hShort self outv hSize]
      exact Consumes.refl hValid _
    · rw [hWhole self outv hSize]
      have hMiddle := h.consumes self hi hValid
      exact hMiddle.trans (h.consumes _ lo hMiddle.valid)
  case reads =>
    intro self outv hValid hSize
    have hMiddle := h.consumes self hi hValid
    have hFirst := h.reads self hi hValid (by omega)
    rw [hWhole self outv (by omega)]
    exact Nat.lt_of_lt_of_le hFirst (h.consumes _ lo hMiddle.valid).reads_ge
  case leaves =>
    intro self outv a tail offset hAt hOffset hOver hSize
    have hEnough : ¬ self.size < width + width := by
      rw [size_at hAt]
      omega
    have hValid : self.itr.Valid := by
      rw [hAt]
      exact valid_at hOffset
    have hMiddle := h.consumes self hi hValid
    rw [hWhole self outv hEnough]
    by_cases hHalf : offset + width ≤ a.dataLen.toNat
    · have hThere := (h.within self hi hAt hHalf (by omega)).1
      have hLeaves := h.leaves _ lo hThere hHalf (by omega) (by omega)
      exact Nat.lt_of_lt_of_le hLeaves hMiddle.suffix.length_le
    · have hLeaves := h.leaves self hi hAt hOffset (by omega) (by omega)
      exact Nat.lt_of_le_of_lt (h.consumes _ lo hMiddle.valid).suffix.length_le hLeaves

theorem isTypedRead_char : IsTypedRead 1 (fun c : Int8 => c.toUInt8.toNat) readChar := by
  apply isTypedRead_byte UInt8.toInt8
  · intro self c hNone
    rw [readChar, hNone]
  · intro self c ptr hSome
    rw [readChar, hSome]
  · intro x
    rfl

theorem isTypedRead_u8 : IsTypedRead 1 UInt8.toNat readU8 := by
  apply isTypedRead_byte id
  · intro self outv hNone
    rw [readU8, hNone]
  · intro self outv ptr hSome
    rw [readU8, hSome]
    rfl
  · intro x
    rfl

theorem isTypedRead_u16 (junk : Indeterminate) :
    IsTypedRead 2 UInt16.toNat fun self outv => self.readU16 junk outv :=
  isTypedRead_u8.double junk.byteHi junk.byteLo (fun hi lo => (hi.toUInt16 <<< 8) ||| lo.toUInt16)
    (fun _ _ h => if_pos h) (fun _ _ h => if_neg h) toNat_join16

theorem isTypedRead_u32 (junk : Indeterminate) :
    IsTypedRead 4 UInt32.toNat fun self outv => self.readU32 junk outv :=
  (isTypedRead_u16 junk).double junk.halfHi junk.halfLo
    (fun hi lo => (hi.toUInt32 <<< 16) ||| lo.toUInt32)
    (fun _ _ h => if_pos h) (fun _ _ h => if_neg h) toNat_join32

theorem isTypedRead_u64 (junk : Indeterminate) (wordHi wordLo : UInt32) :
    IsTypedRead 8 UInt64.toNat fun self outv => self.readU64 junk wordHi wordLo outv :=
  (isTypedRead_u32 junk).double wordHi wordLo (fun hi lo => (hi.toUInt64 <<< 32) ||| lo.toUInt64)
    (fun _ _ h => if_pos h) (fun _ _ h => if_neg h) toNat_join64

end RteMbufReader

/-- The typed reads, by the type of the variable. -/
inductive ReadKind where
  | char
  | u8
  | u16
  | u32
  | u64

/-- What the locals of a typed read and of those inside it hold before. -/
structure ReadLocals where
  junk : Indeterminate
  wordHi : UInt32
  wordLo : UInt32

/-- Locals that happen to be zero. -/
def ReadLocals.zero : ReadLocals := ⟨⟨0, 0, 0, 0⟩, 0, 0⟩

namespace ReadKind

def Value : ReadKind → Type
  | .char => Int8
  | .u8 => UInt8
  | .u16 => UInt16
  | .u32 => UInt32
  | .u64 => UInt64

instance : (kind : ReadKind) → Inhabited kind.Value
  | .char => ⟨(0 : Int8)⟩
  | .u8 => ⟨(0 : UInt8)⟩
  | .u16 => ⟨(0 : UInt16)⟩
  | .u32 => ⟨(0 : UInt32)⟩
  | .u64 => ⟨(0 : UInt64)⟩

def bytes : ReadKind → Nat
  | .char => 1
  | .u8 => 1
  | .u16 => 2
  | .u32 => 4
  | .u64 => 8

/-- The number in a variable; that of a `char` is the number of its bits. -/
def value : (kind : ReadKind) → kind.Value → Nat
  | .char => fun c : Int8 => c.toUInt8.toNat
  | .u8 => UInt8.toNat
  | .u16 => UInt16.toNat
  | .u32 => UInt32.toNat
  | .u64 => UInt64.toNat

/-- `operator>>`. -/
def read (locals : ReadLocals) : (kind : ReadKind) → RteMbufReader → kind.Value →
    RteMbufReader × kind.Value
  | .char => RteMbufReader.readChar
  | .u8 => RteMbufReader.readU8
  | .u16 => fun self outv => self.readU16 locals.junk outv
  | .u32 => fun self outv => self.readU32 locals.junk outv
  | .u64 => fun self outv => self.readU64 locals.junk locals.wordHi locals.wordLo outv

theorem isTypedRead (locals : ReadLocals) (kind : ReadKind) :
    RteMbufReader.IsTypedRead kind.bytes kind.value (kind.read locals) :=
  match kind with
  | .char => RteMbufReader.isTypedRead_char
  | .u8 => RteMbufReader.isTypedRead_u8
  | .u16 => RteMbufReader.isTypedRead_u16 locals.junk
  | .u32 => RteMbufReader.isTypedRead_u32 locals.junk
  | .u64 => RteMbufReader.isTypedRead_u64 locals.junk locals.wordHi locals.wordLo

theorem bytes_pos (kind : ReadKind) : 0 < kind.bytes := by
  cases kind <;> decide

end ReadKind

/-- What a caller does with a reader. -/
inductive ReaderOp where
  | skip (numBytes : UInt32)
  | read (kind : ReadKind) (locals : ReadLocals) (outv : kind.Value)

namespace ReaderOp

def exec (reader : RteMbufReader) : ReaderOp → RteMbufReader
  | .skip numBytes => reader.skip numBytes
  | .read kind locals outv => (kind.read locals reader outv).1

def execAll (ops : List ReaderOp) (reader : RteMbufReader) : RteMbufReader := ops.foldl exec reader

/-- The bytes that a skip consumes. Those that a read consumes are on record. -/
def skipped : ReaderOp → Nat
  | .skip numBytes => numBytes.toNat
  | .read _ _ _ => 0

/-- From a reader to a later one, with `count` bytes skipped on the way: what the
data lost was skipped or read. -/
structure Later (count : Nat) (before after : RteMbufReader) : Prop where
  valid : after.itr.Valid
  rest_le : before.itr.rest.length + before.reads.length ≤
    after.itr.rest.length + count + after.reads.length
  suffix : after.itr.m <:+ before.itr.m
  reads_le : before.reads.length ≤ after.reads.length

theorem Later.trans {x y z : RteMbufReader} {i j : Nat} (hFirst : Later i x y)
    (hSecond : Later j y z) : Later (i + j) x z := by
  constructor
  case valid => exact hSecond.valid
  case rest_le =>
    have hMiddle := hFirst.rest_le
    have hEnd := hSecond.rest_le
    omega
  case suffix => exact hSecond.suffix.trans hFirst.suffix
  case reads_le => exact Nat.le_trans hFirst.reads_le hSecond.reads_le

variable {reader : RteMbufReader}

theorem exec_later (h : reader.itr.Valid) (op : ReaderOp) :
    Later op.skipped reader (exec reader op) := by
  cases op with
  | skip numBytes =>
      have hRest : (exec reader (.skip numBytes)).itr.rest = reader.itr.rest.drop numBytes.toNat :=
        RteMbufIterator.rest_skip h numBytes
      have hReads : (exec reader (.skip numBytes)).reads = reader.reads := rfl
      constructor
      case valid => exact h.skip numBytes
      case rest_le =>
        rw [hRest, hReads, List.length_drop, skipped]
        omega
      case suffix => exact RteMbufIterator.skipLoop_suffix ..
      case reads_le => exact Nat.le_refl _
  | read kind locals outv =>
      have hConsumes := (kind.isTypedRead locals).consumes reader outv h
      constructor
      case valid => exact hConsumes.valid
      case rest_le =>
        have hBalance := hConsumes.balance
        have hSegments := hConsumes.suffix.length_le
        rw [exec, skipped]
        omega
      case suffix => exact hConsumes.suffix
      case reads_le => exact hConsumes.reads_ge

theorem execAll_later (h : reader.itr.Valid) (ops : List ReaderOp) :
    Later (ops.map skipped).sum reader (execAll ops reader) := by
  induction ops generalizing reader with
  | nil => exact ⟨h, Nat.le_refl _, List.suffix_refl _, Nat.le_refl _⟩
  | cons op ops ih =>
      have hStep := exec_later h op
      rw [List.map_cons, List.sum_cons]
      exact hStep.trans (ih hStep.valid)

end ReaderOp

namespace RteMbufReader

/-- The typed read stores the big-endian value of the next bytes of the data and
moves behind them, or changes nothing if there are not as many. -/
def Exact (self : RteMbufReader) (kind : ReadKind) : Prop :=
  ∀ locals outv,
    if kind.bytes ≤ self.itr.rest.length then
      kind.value (kind.read locals self outv).2 = beValue (self.itr.rest.take kind.bytes) ∧
        (kind.read locals self outv).1.itr.rest = self.itr.rest.drop kind.bytes
    else (kind.read locals self outv).1.itr = self.itr ∧ (kind.read locals self outv).2 = outv

/-- The bytes to be read lie in the segment of the position, whose claimed length
is no less; or if too few are left, it is less than their number. -/
def InPlace (self : RteMbufReader) (width : Nat) : Prop :=
  if width ≤ self.itr.rest.length then width ≤ self.room ∧ width ≤ self.size else self.size < width

variable {self : RteMbufReader} {kind : ReadKind}

/-- Reading changes the position, but for a read of nothing. -/
theorem read_moves (h : self.itr.Valid) (hSize : kind.bytes ≤ self.size) (locals : ReadLocals)
    (outv : kind.Value) : (kind.read locals self outv).1.itr ≠ self.itr := by
  intro hSame
  have hReads := (kind.isTypedRead locals).reads self outv h hSize
  have hBalance := ((kind.isTypedRead locals).consumes self outv h).balance
  rw [hSame] at hBalance
  omega

/-- A read that leaves the segment takes fewer bytes of the data than it should. -/
theorem read_loses {a : RteMbuf} {tail : List RteMbuf} {offset : Nat}
    (h : self.itr = ⟨a :: tail, offset, 0⟩) (hOffset : offset ≤ a.dataLen.toNat)
    (hOver : a.dataLen.toNat < offset + kind.bytes) (hSize : kind.bytes ≤ a.pktLen.toNat)
    (locals : ReadLocals) (outv : kind.Value) :
    self.itr.rest.length < (kind.read locals self outv).1.itr.rest.length + kind.bytes := by
  have hValid : self.itr.Valid := by
    rw [h]
    exact RteMbufIterator.valid_at hOffset
  have hConsumes := (kind.isTypedRead locals).consumes self outv hValid
  have hLeaves := (kind.isTypedRead locals).leaves self outv h hOffset hOver hSize
  have hBalance := hConsumes.balance
  have hReads := hConsumes.reads_le
  omega

theorem exact_of_inPlace (h : self.itr.Valid) (hPlace : self.InPlace kind.bytes) :
    self.Exact kind := by
  intro locals outv
  have hRead := kind.isTypedRead locals
  unfold InPlace at hPlace
  split at hPlace
  · rename_i hEnough
    obtain ⟨hRoom, hSize⟩ := hPlace
    have hPos := kind.bytes_pos
    rcases h.cases with hEnd | ⟨a, tail, offset, hAt, hOffset⟩
    · rw [RteMbufIterator.rest_of_end hEnd, List.length_nil] at hEnough
      omega
    · rw [room, hAt] at hRoom
      dsimp only at hRoom
      rw [size_at hAt] at hSize
      obtain ⟨hItr, hValue⟩ := hRead.within self outv hAt (by omega) hSize
      rw [if_pos hEnough, hItr, RteMbufIterator.rest_add, ← hAt]
      exact ⟨hValue, rfl⟩
  · rename_i hFew
    rw [if_neg hFew, hRead.short self outv hPlace]
    exact ⟨rfl, rfl⟩

theorem inPlace_of_exact (h : self.itr.Valid) (hExact : self.Exact kind) :
    self.InPlace kind.bytes := by
  have hRead := hExact .zero default
  have hTyped := kind.isTypedRead .zero
  have hPos := kind.bytes_pos
  unfold InPlace
  split
  · rename_i hEnough
    rw [if_pos hEnough] at hRead
    have hTaken := congrArg List.length hRead.2
    rw [List.length_drop] at hTaken
    have hSize : kind.bytes ≤ self.size := by
      by_contra hShort
      rw [hTyped.short self default (Nat.lt_of_not_le hShort)] at hTaken
      dsimp only at hTaken
      omega
    constructor
    · rcases h.cases with hEnd | ⟨a, tail, offset, hAt, hOffset⟩
      · rw [RteMbufIterator.rest_of_end hEnd, List.length_nil] at hEnough
        omega
      · rw [size_at hAt] at hSize
        by_contra hRoom
        rw [room, hAt] at hRoom
        dsimp only at hRoom
        have hLoses := read_loses hAt hOffset (by omega) hSize .zero (default : kind.Value)
        omega
    · exact hSize
  · rename_i hFew
    rw [if_neg hFew] at hRead
    by_contra hSize
    exact read_moves h (Nat.le_of_not_lt hSize) .zero default hRead.1

/-- At every position that skips and reads reach, in every chain: a typed read is
big-endian and all or nothing exactly when its bytes lie in one segment that
claims them, or are too few and the segment does not claim as many. -/
theorem typed_read_exact_iff (chain : List RteMbuf) (ops : List ReaderOp) (kind : ReadKind) :
    (ReaderOp.execAll ops (new chain)).Exact kind ↔
      (ReaderOp.execAll ops (new chain)).InPlace kind.bytes := by
  have hValid := (ReaderOp.execAll_later (new_valid chain) ops).valid
  exact ⟨inPlace_of_exact hValid, exact_of_inPlace hValid⟩

/-- Two segments of one byte each, the first with the length of the packet. -/
def splitPacket : List RteMbuf := [{ RteMbuf.ofBytes [1] with pktLen := 2 }, .ofBytes [2]]

/-- A number that straddles them is not read. -/
theorem straddling_read_is_wrong :
    ¬ ∀ chain : List RteMbuf, (∀ a ∈ chain, 0 < a.dataLen.toNat) →
      (∀ a ∈ chain.head?, a.pktLen.toNat = RteMbuf.chainLength chain) →
      ∀ (ops : List ReaderOp) (kind : ReadKind),
        (ReaderOp.execAll ops (new chain)).Exact kind := by
  intro hAll
  have hFull : ∀ a ∈ splitPacket, 0 < a.dataLen.toNat := by decide
  have hLength : ∀ a ∈ splitPacket.head?, a.pktLen.toNat = RteMbuf.chainLength splitPacket := by
    decide
  have hExact := hAll splitPacket hFull hLength [] .u16
  have hPlace := inPlace_of_exact (new_valid splitPacket) hExact
  have hRest : (new splitPacket).itr.rest.length = 2 := by decide
  rw [InPlace, hRest] at hPlace
  exact absurd hPlace (by decide)

end RteMbufReader

end Nginz
