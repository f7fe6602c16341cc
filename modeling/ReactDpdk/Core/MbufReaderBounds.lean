import ReactDpdk.Core.MbufReader

/-! Where the reads of an `RteMbufReader` lie. The reader trusts the length that
the current segment claims, so a read can run past the data of the segment. -/
namespace Nginz

namespace RteMbuf

theorem bytes_length (a : RteMbuf) : a.bytes.length = a.dataLen.toNat := by
  simp [bytes]

@[simp]
theorem chainBytes_nil : chainBytes [] = [] := rfl

@[simp]
theorem chainBytes_cons (a : RteMbuf) (tail : List RteMbuf) :
    chainBytes (a :: tail) = a.bytes ++ chainBytes tail := List.flatMap_cons

end RteMbuf

namespace RteMbufIterator

/-- The iterator does not stand beyond the end of its segment. -/
def InBounds (self : RteMbufIterator) : Prop := ∀ a ∈ self.m.head?, self.offset ≤ a.dataLen.toNat

theorem skipLoop_inBounds (m : List RteMbuf) {offset : Nat} (inc : UInt32)
    (h : ∀ a ∈ m.head?, offset ≤ a.dataLen.toNat) :
    ∀ a ∈ (skipLoop m offset inc).1.head?, (skipLoop m offset inc).2 ≤ a.dataLen.toNat := by
  induction m generalizing offset inc with
  | nil => exact h
  | cons a rest ih =>
      unfold skipLoop
      split
      · exact h
      · split
        · rename_i hStays
          intro b hb
          cases hb
          exact Nat.le_of_lt hStays
        · exact ih _ fun b _ => Nat.zero_le _

theorem InBounds.skip {self : RteMbufIterator} (h : self.InBounds) (inc : UInt32) :
    (self.skip inc).InBounds := skipLoop_inBounds self.m inc h

/-- What holds of every position that is reached from the start of a chain. -/
structure Valid (itr : RteMbufIterator) : Prop where
  inBounds : itr.InBounds
  pktOffset : itr.pktOffset = 0

/-- A valid position is the end, or lies in a segment or right behind it. -/
theorem Valid.cases {self : RteMbufIterator} (h : self.Valid) : self.m = [] ∨
    ∃ a tail offset, self = ⟨a :: tail, offset, 0⟩ ∧ offset ≤ a.dataLen.toNat := by
  obtain ⟨m, offset, pktOffset⟩ := self
  obtain ⟨hBounds, rfl⟩ := h
  cases m with
  | nil => exact Or.inl rfl
  | cons a tail => exact Or.inr ⟨a, tail, offset, rfl, hBounds a rfl⟩

theorem valid_at {a : RteMbuf} {tail : List RteMbuf} {offset : Nat}
    (h : offset ≤ a.dataLen.toNat) : Valid ⟨a :: tail, offset, 0⟩ :=
  ⟨fun b hb => by cases hb; exact h, rfl⟩

theorem Valid.skip {self : RteMbufIterator} (h : self.Valid) (inc : UInt32) : (self.skip inc).Valid :=
  ⟨h.inBounds.skip inc, h.pktOffset⟩

/-- `operator++` from inside a segment, or from right behind it. -/
theorem next_inside {a : RteMbuf} {rest : List RteMbuf} {offset pktOffset : Nat}
    (h : offset < a.dataLen.toNat) :
    next ⟨a :: rest, offset, pktOffset⟩ = ⟨a :: rest, offset + 1, pktOffset⟩ := if_pos h

theorem next_behind {a : RteMbuf} {rest : List RteMbuf} {pktOffset : Nat} :
    next ⟨a :: rest, a.dataLen.toNat, pktOffset⟩ = ⟨rest, 0, pktOffset⟩ := if_neg (Nat.lt_irrefl _)

end RteMbufIterator

namespace RteMbufReader

theorem size_at {self : RteMbufReader} {a : RteMbuf} {rest : List RteMbuf} {offset : Nat}
    (h : self.itr = { m := a :: rest, offset := offset }) : self.size = a.pktLen.toNat := by
  simp [size, h, RteMbufIterator.size, sizeSub]

theorem new_valid (chain : List RteMbuf) : (new chain).itr.Valid := ⟨fun _ _ => Nat.zero_le _, rfl⟩

/-- Where a length is claimed, there is a segment. -/
theorem exists_getRawBuffer {self : RteMbufReader} (h : 0 < self.size) :
    ∃ ptr, self.getRawBuffer = some ptr := by
  obtain ⟨⟨m, offset, pktOffset⟩, reads⟩ := self
  cases m with
  | nil => cases h
  | cons a rest =>
      have hEof : ¬ RteMbufIterator.eof ⟨a :: rest, offset, pktOffset⟩ = true := by
        rw [RteMbufIterator.eof, beq_iff_eq]
        exact Nat.ne_of_gt h
      exact ⟨⟨a, offset⟩, if_neg hEof⟩

theorem getRawBuffer_short {self : RteMbufReader} (h : self.size < 1) :
    self.itr.getRawBuffer = none := by
  have hZero : self.itr.size = 0 := Nat.lt_one_iff.mp h
  simp [RteMbufIterator.getRawBuffer, RteMbufIterator.eof, hZero]

theorem getRawBuffer_at {self : RteMbufReader} {a : RteMbuf} {tail : List RteMbuf} {offset : Nat}
    (h : self.itr = ⟨a :: tail, offset, 0⟩) (hSize : 1 ≤ a.pktLen.toNat) :
    self.itr.getRawBuffer = some ⟨a, offset⟩ := by
  have hSame : self.itr.size = a.pktLen.toNat := size_at h
  have hClaimed : self.itr.size ≠ 0 := by omega
  rw [RteMbufIterator.getRawBuffer, RteMbufIterator.eof, if_neg (by rwa [beq_iff_eq]), h]
  rfl

/-- A reader with room in its segment has that many bytes of it in front. -/
theorem at_of_room {reader : RteMbufReader} (h : reader.itr.Valid) (hRoom : 0 < reader.room) :
    ∃ a tail offset, reader.itr = ⟨a :: tail, offset, 0⟩ ∧
      offset + reader.room = a.dataLen.toNat := by
  rcases h.cases with hEnd | ⟨a, tail, offset, hAt, hOffset⟩
  · rw [room, hEnd] at hRoom
    cases hRoom
  · refine ⟨a, tail, offset, hAt, ?_⟩
    rw [room, hAt]
    exact Nat.add_sub_cancel' hOffset

/-- A reader that believes its input exhausted leaves the variable alone. -/
theorem readU16_short {self : RteMbufReader} (h : self.size < 2) (junk : Indeterminate)
    (outv : UInt16) : self.readU16 junk outv = (self, outv) := if_pos h

theorem readU32_short {self : RteMbufReader} (h : self.size < 4) (junk : Indeterminate)
    (outv : UInt32) : self.readU32 junk outv = (self, outv) := if_pos h

/-- How far a series of reads got that started in segment `a` at `offset`:
either its `count` bytes all lie in the segment, or some read was outside. -/
def Progress (a : RteMbuf) (rest : List RteMbuf) (offset count : Nat) (reader : RteMbufReader) :
    Prop :=
  (offset + count ≤ a.dataLen.toNat ∧ reader.itr = { m := a :: rest, offset := offset + count } ∧
    ∀ ptr ∈ reader.reads, ptr.Inside) ∨
  (a.dataLen.toNat < offset + count ∧ ∃ ptr ∈ reader.reads, ¬ ptr.Inside)

variable {a : RteMbuf} {rest : List RteMbuf} {offset count : Nat} {reader : RteMbufReader}

/-- In the end, everything was inside exactly when the bytes fit. -/
theorem Progress.inside_iff (h : Progress a rest offset count reader) :
    (∀ ptr ∈ reader.reads, ptr.Inside) ↔ offset + count ≤ a.dataLen.toNat := by
  rcases h with ⟨hFits, _, hInside⟩ | ⟨hOver, ptr, hMem, hOutside⟩
  · exact ⟨fun _ => hFits, fun _ => hInside⟩
  · exact ⟨fun hAll => absurd (hAll ptr hMem) hOutside, fun hFits => by omega⟩

theorem reads_readU8_subset (reader : RteMbufReader) (outv : UInt8) :
    reader.reads ⊆ (reader.readU8 outv).1.reads := by
  unfold readU8
  split
  · exact List.Subset.refl _
  · exact List.subset_append_left _ _

theorem reads_readU16_subset (reader : RteMbufReader) (junk : Indeterminate) (outv : UInt16) :
    reader.reads ⊆ (reader.readU16 junk outv).1.reads := by
  unfold readU16
  split
  · exact List.Subset.refl _
  · exact List.Subset.trans (reads_readU8_subset reader _) (reads_readU8_subset _ _)

theorem reads_readU32_subset (reader : RteMbufReader) (junk : Indeterminate) (outv : UInt32) :
    reader.reads ⊆ (reader.readU32 junk outv).1.reads := by
  unfold readU32
  split
  · exact List.Subset.refl _
  · exact List.Subset.trans (reads_readU16_subset reader _ _) (reads_readU16_subset _ _ _)

/-- One byte further, when the segment claims to hold any. -/
theorem Progress.readU8 (h : Progress a rest offset count reader) (hSize : a.pktLen.toNat ≠ 0)
    (outv : UInt8) : Progress a rest offset (count + 1) (reader.readU8 outv).1 := by
  rcases h with ⟨hFits, hItr, hInside⟩ | ⟨hOver, ptr, hMem, hOutside⟩
  · have hRaw : reader.itr.getRawBuffer = some { segment := a, offset := offset + count } :=
      getRawBuffer_at hItr (Nat.one_le_iff_ne_zero.mpr hSize)
    have hReads : (reader.readU8 outv).1.reads =
        reader.reads ++ [{ segment := a, offset := offset + count }] := by
      simp [RteMbufReader.readU8, hRaw]
    have hNext : (reader.readU8 outv).1.itr = reader.itr.next := by
      simp [RteMbufReader.readU8, hRaw]
    by_cases hMore : offset + count < a.dataLen.toNat
    · refine Or.inl ⟨hMore, ?_, ?_⟩
      · rw [hNext, hItr, RteMbufIterator.next_inside hMore, Nat.add_assoc]
      · intro ptr hPtr
        rw [hReads, List.mem_append, List.mem_singleton] at hPtr
        rcases hPtr with hOld | rfl
        · exact hInside ptr hOld
        · exact hMore
    · refine Or.inr ⟨by omega, { segment := a, offset := offset + count }, ?_, hMore⟩
      rw [hReads]
      simp
  · exact Or.inr ⟨by omega, ptr, reads_readU8_subset reader outv hMem, hOutside⟩

theorem Progress.readU16 (h : Progress a rest offset count reader) (hSize : 2 ≤ a.pktLen.toNat)
    (junk : Indeterminate) (outv : UInt16) :
    Progress a rest offset (count + 2) (reader.readU16 junk outv).1 := by
  rcases h with ⟨hFits, hItr, hInside⟩ | ⟨hOver, ptr, hMem, hOutside⟩
  · have hEnough : ¬ reader.size < 2 := by
      rw [size_at hItr]
      omega
    have hHere : Progress a rest offset count reader := Or.inl ⟨hFits, hItr, hInside⟩
    rw [RteMbufReader.readU16, if_neg hEnough]
    exact (hHere.readU8 (by omega) _).readU8 (by omega) _
  · exact Or.inr ⟨by omega, ptr, reads_readU16_subset reader junk outv hMem, hOutside⟩

/-- How many bytes a word takes that is read in a segment of a claimed length:
a word that the segment claims not to hold is not read at all. -/
def wordSpan (pktLen : Nat) : Nat := if 4 ≤ pktLen then 4 else 0

theorem Progress.readU32 (h : Progress a rest offset count reader) (hSize : 2 ≤ a.pktLen.toNat)
    (junk : Indeterminate) (outv : UInt32) :
    Progress a rest offset (count + wordSpan a.pktLen.toNat) (reader.readU32 junk outv).1 := by
  unfold wordSpan
  rcases h with ⟨hFits, hItr, hInside⟩ | ⟨hOver, ptr, hMem, hOutside⟩
  · have hHere : Progress a rest offset count reader := Or.inl ⟨hFits, hItr, hInside⟩
    by_cases hEnough : 4 ≤ a.pktLen.toNat
    · rw [if_pos hEnough, RteMbufReader.readU32, if_neg (by rw [size_at hItr]; omega)]
      exact (hHere.readU16 hSize _ _).readU16 hSize _ _
    · rw [if_neg hEnough, readU32_short (by rw [size_at hItr]; omega)]
      exact hHere
  · exact Or.inr ⟨by omega, ptr, reads_readU32_subset reader junk outv hMem, hOutside⟩

end RteMbufReader
end Nginz
