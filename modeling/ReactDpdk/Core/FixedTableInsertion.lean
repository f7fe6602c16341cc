import ReactDpdk.Core.FixedTableRuns

/-! One `emplace` on a table that a run has made: where the returned pointer
points, when the entry is refused, and what an `erase` right after it leaves. -/
namespace Nginz.FixedDict
open Cyclic Transition

variable {ValType : Type*} {capacity : Nat} {prime : UInt64} [NeZero capacity]
  {self : FixedDict ValType capacity prime}

/-- The entry is not stored: `nullptr`, and the table as it was. -/
def Refused (self : FixedDict ValType capacity prime) (ret : Emplaced ValType capacity prime) :
    Prop :=
  ret.position = none ∧ ret.table = self

section Pointer

/-- `emplace` has a defined outcome, and when it stores the pair, the pointer it
returns designates a slot of the table that holds the pair. An overflow of the
counter, after which the slot written and the pointer are anything, is no outcome. -/
def ReturnsEntry (self : FixedDict ValType capacity prime) (key : UInt64) (value : ValType) :
    Prop :=
  ∃ ret, self.emplace key value = some ret ∧ (¬ self.Refused ret →
    ∃ (q : Nat) (hInside : q < capacity), ret.position = some q ∧
      ret.table.cells ⟨q, hInside⟩ = some (key, value))

/-- The key is new, and its walk meets the first free slot behind the end of
the array. -/
def WrapsPastEnd (self : FixedDict ValType capacity prime) (key : UInt64) : Prop :=
  self.cnt < capacity ∧ self.Absent key ∧
    ∃ i, FirstFree self key i ∧ capacity ≤ i + calcPos capacity prime key

/-- The slot written is reduced modulo the capacity, the pointer returned is
not, so they agree exactly when the walk does not wrap. -/
theorem Valid.returnsEntry_iff (h : self.Valid) (key : UInt64) (value : ValType) :
    self.ReturnsEntry key value ↔ ¬ self.WrapsPastEnd key ∧ ¬ self.CounterOverflows key := by
  have hOutcome := h.outcome key value
  unfold ReturnsEntry
  constructor
  · rintro ⟨ret, hEmplace, hReturns⟩
    rw [hEmplace] at hOutcome
    cases hOutcome with
    | full hFull =>
        exact ⟨fun hPast => Nat.not_lt.mpr hFull hPast.1, not_counterOverflows_of_full hFull⟩
    | @replaced p old hRoom hCell =>
        exact ⟨fun hPast => hPast.2.1 p old hCell, not_counterOverflows_of_cell hCell⟩
    | @inserted i hRoom hAbsent hFirst =>
        refine ⟨?_, hFirst.not_counterOverflows⟩
        rintro ⟨_, _, k, hOther, hPast⟩
        obtain ⟨q, hInside, hPosition, _⟩ := hReturns fun hRefused => by cases hRefused.1
        cases hPosition
        rw [hOther.unique hFirst] at hPast
        omega
  · rintro ⟨hNotPast, hInRange⟩
    cases hEmplace : self.emplace key value with
    | none =>
        rw [hEmplace] at hOutcome
        cases hOutcome with
        | overflow hOver => exact absurd hOver hInRange
    | some ret =>
        refine ⟨ret, rfl, fun hStored => ?_⟩
        rw [hEmplace] at hOutcome
        cases hOutcome with
        | full hFull => exact absurd ⟨rfl, rfl⟩ hStored
        | @replaced p old hRoom hCell =>
            exact ⟨p, p.isLt, rfl, cells_emplace_position hEmplace rfl p.isLt⟩
        | @inserted i hRoom hAbsent hFirst =>
            have hEnd : i + calcPos capacity prime key < capacity := by
              by_contra hPast
              exact hNotPast ⟨hRoom, hAbsent, i, hFirst, Nat.le_of_not_lt hPast⟩
            exact ⟨_, hEnd, rfl, cells_emplace_position hEmplace rfl hEnd⟩

/-- For every table that a run has made, every key and value: `emplace` has an
outcome, and its pointer designates the entry it stored, unless the walk of a new
key wraps past the end of the array or the free-slot counter overflows. -/
theorem emplace_returns_entry_iff {capacity : Nat} [NeZero capacity] {prime : UInt64}
    {self : FixedDict ValType capacity prime} (hReached : self.Reached) (key : UInt64)
    (value : ValType) :
    self.ReturnsEntry key value ↔ ¬ self.WrapsPastEnd key ∧ ¬ self.CounterOverflows key :=
  hReached.valid.returnsEntry_iff key value

/-- Two slots, of which the second is the home of every odd key. -/
def oneOdd : FixedDict Unit 2 1 := (empty : FixedDict Unit 2 1).insertAt 1 1 1 ()

theorem run_oneOdd : run step (empty : FixedDict Unit 2 1) [.emplace 1 ()] = some oneOdd := rfl

theorem emplace_returns_entry_even : oneOdd.ReturnsEntry 2 () := by
  have hNotPast : ¬ oneOdd.WrapsPastEnd 2 := by
    rintro ⟨_, _, i, hFirst, hPast⟩
    have hHome : (calcPos 2 1 2 : Nat) = 0 := by decide
    have hLast := hFirst.inTable
    omega
  have hInRange : ¬ oneOdd.CounterOverflows 2 :=
    (reached_of_run run_oneOdd).valid.noOverflow (by decide) (.emplace 2 ())
  exact (emplace_returns_entry_iff (reached_of_run run_oneOdd) 2 ()).mpr ⟨hNotPast, hInRange⟩

/-- The second odd key is stored in slot 0, the pointer is one behind the array. -/
theorem second_odd_key_points_past_end :
    ¬ ∀ (capacity : Nat) [NeZero capacity] (prime : UInt64) (dict : FixedDict Unit capacity prime)
      (key : UInt64) (value : Unit), dict.Reached → dict.ReturnsEntry key value := by
  intro hAll
  have hReturns := hAll 2 1 oneOdd 3 () (reached_of_run run_oneOdd)
  have hPosition : (oneOdd.emplace 3 ()).bind Emplaced.position = some 2 := by decide
  obtain ⟨ret, hEmplace, hStored⟩ := hReturns
  rw [hEmplace, Option.bind_some] at hPosition
  have hTwo : ret.position = some 2 := hPosition
  obtain ⟨q, hInside, hSame, _⟩ := hStored fun hRefused => by
    rw [hRefused.1] at hTwo
    cases hTwo
  rw [hTwo] at hSame
  cases hSame
  omega

end Pointer

section Refusal

/-- The entry is refused when the table is full and does not hold the key, and
only then; the value of a key that it holds is replaced, with no other change. -/
def RefusesExactly (self : FixedDict ValType capacity prime) (key : UInt64) (value : ValType) :
    Prop :=
  ∃ ret, self.emplace key value = some ret ∧
    (self.Refused ret ↔ Probing.occupied self.cells = capacity ∧ self.Absent key) ∧
    ∀ p old, self.cells p = some (key, old) → ret.table = self.write p (some (key, value))

/-- The guard at the start of `emplace` stands before the search for the key,
so it also refuses a key that a full table holds. -/
theorem Valid.refusesExactly_iff (h : self.Valid) (key : UInt64) (value : ValType) :
    self.RefusesExactly key value ↔
      ¬ self.CounterOverflows key ∧ ¬ (self.cnt = capacity ∧ ¬ self.Absent key) := by
  have hOutcome := h.outcome key value
  have hCount := h.count
  unfold RefusesExactly
  generalize self.emplace key value = result at hOutcome ⊢
  cases hOutcome with
  | full hFull =>
      have hInRange : ¬ self.CounterOverflows key := not_counterOverflows_of_full hFull
      have hAll : self.cnt = capacity := le_antisymm h.sound.bounded hFull
      constructor
      · rintro ⟨ret, hRet, hRefused, _⟩
        cases hRet
        exact ⟨hInRange, fun hPresent => hPresent.2 (hRefused.mp ⟨rfl, rfl⟩).2⟩
      · rintro ⟨_, hPresent⟩
        have hAbsent : self.Absent key := not_not.mp fun hNot => hPresent ⟨hAll, hNot⟩
        exact ⟨_, rfl, iff_of_true ⟨rfl, rfl⟩ ⟨hCount.symm.trans hAll, hAbsent⟩,
          fun p old hCell => absurd hCell (hAbsent p old)⟩
  | @replaced p old hRoom hCell =>
      have hInRange := not_counterOverflows_of_cell hCell
      have hNotFull : self.cnt ≠ capacity := hRoom.ne
      refine iff_of_true ⟨_, rfl, iff_of_false ?_ ?_, ?_⟩ ⟨hInRange, fun hPresent =>
        hNotFull hPresent.1⟩
      · exact fun hRefused => by cases hRefused.1
      · exact fun hFull => hNotFull (hCount.trans hFull.1)
      · intro q other hOther
        rw [h.distinct q p key other old hOther hCell]
  | @inserted i hRoom hAbsent hFirst =>
      have hNotFull : self.cnt ≠ capacity := hRoom.ne
      refine iff_of_true ⟨_, rfl, iff_of_false ?_ ?_, ?_⟩
        ⟨hFirst.not_counterOverflows, fun hPresent => hNotFull hPresent.1⟩
      · exact fun hRefused => by cases hRefused.1
      · exact fun hFull => hNotFull (hCount.trans hFull.1)
      · exact fun p old hCell => absurd hCell (hAbsent p old)
  | overflow hOver => simp [hOver]

/-- For every table that a run has made, every key and value: `emplace`
refuses as it should, except where the free-slot counter overflows and where a
full table is given a key that it holds. -/
theorem emplace_refuses_exactly_iff {capacity : Nat} [NeZero capacity] {prime : UInt64}
    {self : FixedDict ValType capacity prime} (hReached : self.Reached) (key : UInt64)
    (value : ValType) :
    self.RefusesExactly key value ↔
      ¬ self.CounterOverflows key ∧ ¬ (self.cnt = capacity ∧ ¬ self.Absent key) :=
  hReached.valid.refusesExactly_iff key value

/-- One slot, taken by key 7. -/
def onlySeven : FixedDict String 1 39 := (empty : FixedDict String 1 39).insertAt 0 0 7 "old"

theorem run_onlySeven :
    run step (empty : FixedDict String 1 39) [.emplace 7 "old"] = some onlySeven := rfl

/-- Another key is refused by the full table as it should be. -/
theorem emplace_refuses_eight : onlySeven.RefusesExactly 8 "new" :=
  (emplace_refuses_exactly_iff (reached_of_run run_onlySeven) 8 "new").mpr
    ⟨fun hOver => absurd hOver.1 (by decide), fun hPresent => hPresent.2 fun p old hCell => by
      have hHere : onlySeven.cells p = some (7, "old") := by rw [Fin.eq_zero p]; rfl
      rw [hHere] at hCell
      cases hCell⟩

/-- The value of key 7 should be replaced, and is not. -/
theorem full_table_keeps_old_value :
    ¬ ∀ (capacity : Nat) [NeZero capacity] (prime : UInt64)
      (dict : FixedDict String capacity prime) (key : UInt64) (value : String),
      dict.Reached → dict.RefusesExactly key value := by
  intro hAll
  obtain ⟨ret, hEmplace, _, hReplaced⟩ := hAll 1 39 onlySeven 7 "new" (reached_of_run run_onlySeven)
  rw [emplace_full (by decide)] at hEmplace
  cases hEmplace
  have hCells := congrArg (fun dict => dict.cells 0) (hReplaced 0 "old" rfl)
  have hOld : onlySeven.cells 0 = some (7, "old") := rfl
  rw [cells_write, Function.update_self, hOld] at hCells
  exact absurd hCells (by decide)

end Refusal

section Rollback

/-- The `erase` after an `emplace` finds the key and leaves the table as it
was, slot by slot and with every counter. -/
def UndoneByErase (self : FixedDict ValType capacity prime) (key : UInt64) (value : ValType) :
    Prop :=
  ∃ ret, self.emplace key value = some ret ∧ ret.table.erase key = (self, true)

theorem Valid.undoneByErase_iff (h : self.Valid) {key : UInt64} (hRoom : self.cnt < capacity)
    (hAbsent : self.Absent key) (value : ValType) :
    self.UndoneByErase key value ↔ ¬ self.CounterOverflows key := by
  rcases h.emplace_absent value hRoom hAbsent with ⟨i, hFirst, hStore⟩ | ⟨hOver, hStore⟩
  · refine iff_of_true ⟨_, hStore, ?_⟩ hFirst.not_counterOverflows
    have hStored := h.insertAt value hFirst.free hAbsent
    have hCell := congrFun (cells_insertAt self (calcPos capacity prime key)
      (advance (calcPos capacity prime key) i) key value) (advance (calcPos capacity prime key) i)
    rw [Function.update_self] at hCell
    rw [hStored.erase_present hCell, removeAt_insertAt value hFirst.free]
  · refine iff_of_false ?_ (not_not.mpr hOver)
    rintro ⟨ret, hEmplace, _⟩
    rw [hStore] at hEmplace
    cases hEmplace

/-- For every table that a run has made and that has room, every absent key
and every value: erasing what was emplaced restores the table, except where
the free-slot counter overflows, which needs more than `2 ^ 31` slots. -/
theorem erase_undoes_emplace_iff {capacity : Nat} [NeZero capacity] {prime : UInt64}
    {self : FixedDict ValType capacity prime} (hReached : self.Reached) {key : UInt64}
    (hRoom : self.size < capacity) (hAbsent : self.Absent key) (value : ValType) :
    (self.UndoneByErase key value ↔ ¬ self.CounterOverflows key) ∧
      (capacity ≤ intMax + 1 → self.UndoneByErase key value) := by
  have hIff := hReached.valid.undoneByErase_iff hRoom hAbsent value
  exact ⟨hIff, fun hCapacity =>
    hIff.mpr (hReached.valid.noOverflow hCapacity (.emplace key value))⟩

theorem erase_undoes_second_odd_key : oneOdd.UndoneByErase 3 () :=
  (erase_undoes_emplace_iff (reached_of_run run_oneOdd) (by decide) (by
    intro p old hCell
    match p with
    | 0 => cases hCell
    | 1 =>
        have hKey : some (1 : UInt64) = some 3 := congrArg (Option.map Prod.fst) hCell
        exact absurd hKey (by decide)) ()).2 (by decide)

theorem exists_not_undone_of_large (hLarge : intMax + 1 < capacity)
    (hCapacity : capacity < 2 ^ 64) :
    ∃ dict : FixedDict Unit capacity 1, dict.Reached ∧ dict.size < capacity ∧
      dict.Absent (UInt64.ofNat capacity) ∧ ¬ dict.UndoneByErase (UInt64.ofNat capacity) () := by
  obtain ⟨dict, hRun, hOver⟩ := run_fillOps_overflows hLarge hCapacity
  have hReached := reached_of_run hRun
  refine ⟨dict, hReached, hOver.1, hOver.2.1, fun hUndone => ?_⟩
  exact (hReached.valid.undoneByErase_iff hOver.1 hOver.2.1 ()).mp hUndone hOver

/-- At `2 ^ 31 + 1` slots and prime one an insertion has no defined outcome. -/
theorem insertion_not_undone_at_large_capacity :
    ¬ ∀ (capacity : Nat) [NeZero capacity] (prime : UInt64) (dict : FixedDict Unit capacity prime)
      (key : UInt64) (value : Unit), dict.Reached → dict.size < capacity → dict.Absent key →
      dict.UndoneByErase key value := by
  intro hAll
  have hSlots : NeZero 2147483649 := ⟨by decide⟩
  obtain ⟨dict, hReached, hRoom, hAbsent, hNot⟩ :=
    exists_not_undone_of_large (show intMax + 1 < 2147483649 by decide) (by decide)
  exact hNot (hAll 2147483649 1 dict _ () hReached hRoom hAbsent)

end Rollback
end Nginz.FixedDict
