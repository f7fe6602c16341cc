import Mathlib.Algebra.GroupWithZero.Nat

/-! Positions in a sequence that is stored as segments, one behind the other. A
position is counted from the start of the sequence; where it lies is a segment,
with those behind it, and an offset below its length. -/
namespace Segments

variable {Seg : Type*} (len : Seg → Nat)

/-- The length of the whole sequence. -/
def total (segs : List Seg) : Nat := (segs.map len).sum

@[simp]
theorem total_nil : total len [] = 0 := rfl

@[simp]
theorem total_cons (s : Seg) (rest : List Seg) : total len (s :: rest) = len s + total len rest :=
  List.sum_cons

/-- Where a position lies. Past the last item there is no segment. -/
def seek : List Seg → Nat → List Seg × Nat
  | [], _ => ([], 0)
  | s :: rest, p => if p < len s then (s :: rest, p) else seek rest (p - len s)

variable {s : Seg} {segs rest : List Seg} {p : Nat}

theorem seek_of_lt (h : p < len s) : seek len (s :: rest) p = (s :: rest, p) := if_pos h

theorem seek_of_le (h : len s ≤ p) : seek len (s :: rest) p = seek len rest (p - len s) :=
  if_neg (Nat.not_lt.mpr h)

theorem seek_end (h : total len segs ≤ p) : seek len segs p = ([], 0) := by
  induction segs generalizing p with
  | nil => rfl
  | cons s rest ih =>
      rw [total_cons] at h
      rw [seek_of_le len (by omega)]
      exact ih (by omega)

/-- A position inside the sequence lies in one of its segments. -/
theorem seek_inside (h : p < total len segs) :
    ∃ before s rest offset, segs = before ++ s :: rest ∧ offset < len s ∧
      total len before + offset = p ∧ seek len segs p = (s :: rest, offset) := by
  induction segs generalizing p with
  | nil => exact absurd h (Nat.not_lt_zero p)
  | cons s rest ih =>
      by_cases hHere : p < len s
      · exact ⟨[], s, rest, p, rfl, hHere, Nat.zero_add p, seek_of_lt len hHere⟩
      · rw [total_cons] at h
        obtain ⟨before, t, tail, offset, hSplit, hOffset, hSum, hSeek⟩ :=
          ih (show p - len s < total len rest by omega)
        refine ⟨s :: before, t, tail, offset, by rw [hSplit]; rfl, hOffset, ?_, ?_⟩
        · rw [total_cons]
          omega
        · rw [seek_of_le len (by omega), hSeek]

/-- Whole segments in front only shift a position. -/
theorem seek_append (before after : List Seg) (p : Nat) :
    seek len (before ++ after) (total len before + p) = seek len after p := by
  induction before with
  | nil => rw [List.nil_append, total_nil, Nat.zero_add]
  | cons s rest ih =>
      rw [List.cons_append, total_cons, seek_of_le len (by omega), ← ih]
      congr 1
      omega

/-- A walk from where a position lies is a walk from the start. -/
theorem seek_seek (segs : List Seg) (p n : Nat) :
    seek len (seek len segs p).1 ((seek len segs p).2 + n) = seek len segs (p + n) := by
  induction segs generalizing p with
  | nil => rfl
  | cons s rest ih =>
      by_cases hHere : p < len s
      · rw [seek_of_lt len hHere]
      · rw [seek_of_le len (by omega), ih, seek_of_le len (by omega)]
        congr 1
        omega

/-- Where a walk of that many items ends which stops as soon as nothing is left
to walk, be it in a segment without items. -/
def land : List Seg → Nat → List Seg × Nat
  | [], _ => ([], 0)
  | s :: rest, p => if p = 0 ∨ p < len s then (s :: rest, p) else land rest (p - len s)

theorem land_stays (h : p = 0 ∨ p < len s) : land len (s :: rest) p = (s :: rest, p) := if_pos h

theorem land_goes (hPos : p ≠ 0) (hPast : len s ≤ p) :
    land len (s :: rest) p = land len rest (p - len s) :=
  if_neg (not_or.mpr ⟨hPos, Nat.not_lt.mpr hPast⟩)

/-- It starts a segment or is inside one. -/
theorem land_offset (segs : List Seg) (p : Nat) : ∀ s ∈ (land len segs p).1.head?,
    (land len segs p).2 = 0 ∨ (land len segs p).2 < len s := by
  induction segs generalizing p with
  | nil => exact fun _ hMem => nomatch hMem
  | cons s rest ih =>
      by_cases hStays : p = 0 ∨ p < len s
      · rw [land_stays len hStays]
        intro t hMem
        cases hMem
        exact hStays
      · obtain ⟨hPos, hPast⟩ := not_or.mp hStays
        rw [land_goes len hPos (Nat.not_lt.mp hPast)]
        exact ih _

theorem land_end (segs : List Seg) (p : Nat) (h : (land len segs p).1 = []) :
    (land len segs p).2 = 0 := by
  induction segs generalizing p with
  | nil => rfl
  | cons s rest ih =>
      by_cases hStays : p = 0 ∨ p < len s
      · rw [land_stays len hStays] at h
        cases h
      · obtain ⟨hPos, hPast⟩ := not_or.mp hStays
        rw [land_goes len hPos (Nat.not_lt.mp hPast)] at h ⊢
        exact ih _ h

/-- Where every segment has items, that is where the position lies. -/
theorem land_eq_seek (hFull : ∀ s ∈ segs, 0 < len s) (p : Nat) :
    land len segs p = seek len segs p := by
  induction segs generalizing p with
  | nil => rfl
  | cons s rest ih =>
      obtain ⟨hHere, hRest⟩ := List.forall_mem_cons.mp hFull
      by_cases hInside : p < len s
      · rw [land_stays len (Or.inr hInside), seek_of_lt len hInside]
      · rw [land_goes len (by omega) (by omega), seek_of_le len (by omega), ih hRest]

/-- A walk goes on where another one ended. -/
theorem land_land (segs : List Seg) (p n : Nat) :
    land len (land len segs p).1 ((land len segs p).2 + n) = land len segs (p + n) := by
  induction segs generalizing p with
  | nil => rfl
  | cons s rest ih =>
      by_cases hStays : p = 0 ∨ p < len s
      · rw [land_stays len hStays]
      · obtain ⟨hPos, hPast⟩ := not_or.mp hStays
        rw [land_goes len hPos (by omega), ih, land_goes len (by omega) (by omega)]
        congr 1
        omega

end Segments
