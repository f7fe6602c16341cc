import ReactDpdk.Core.FixedTableRefinement

/-! Whole runs of `FixedDict`: which of them keep its representation invariant
to their end, and which of them never fail the assertion in `emplace`. -/
namespace Nginz.FixedDict
open Cyclic Transition

variable {ValType : Type*} {capacity : Nat} {prime : UInt64} [NeZero capacity]
  {self : FixedDict ValType capacity prime}

/-- A table that a caller can have made from the empty one. -/
def Reached (dict : FixedDict ValType capacity prime) : Prop :=
  Reachable step (· = empty) dict

theorem reached_of_run {ops : List (BoundedMap.Op UInt64 ValType)}
    (hRun : run step (empty : FixedDict ValType capacity prime) ops = some self) : self.Reached :=
  Reachable.run (Reachable.start rfl) hRun

theorem Reached.models (h : Reached self) : ∃ m, self.Models m :=
  h.invariant (fun dict => ∃ m, dict.Models m) (by rintro _ rfl; exact ⟨∅, models_empty⟩)
    (fun _ _ _ ⟨_, hModels⟩ hStep => ⟨_, hModels.step hStep⟩)

theorem Reached.valid (h : Reached self) : self.Valid := by
  obtain ⟨m, hModels⟩ := h.models
  exact hModels.valid

/-- A step is undefined only where the counter of `emplace` overflows. -/
theorem Models.step_isSome_iff {m : BoundedMap.Contents UInt64 ValType} (h : self.Models m)
    (op : BoundedMap.Op UInt64 ValType) : (self.step op).isSome ↔ self.NoOverflow op := by
  by_cases hGuard : self.NoOverflow op
  · obtain ⟨table, hExec, _⟩ := h.exec op hGuard
    simp [FixedDict.step, hExec, hGuard]
  · simp [FixedDict.step, h.exec_overflow op hGuard, hGuard]

/-- Runs keep the invariant `∃ m, Models m` step by step. -/
theorem models_step (dict : FixedDict ValType capacity prime)
    (op : BoundedMap.Op UInt64 ValType) (table : FixedDict ValType capacity prime)
    (h : ∃ m, dict.Models m) (hStep : dict.step op = some table) : ∃ m, table.Models m := by
  obtain ⟨m, hModels⟩ := h
  exact ⟨_, hModels.step hStep⟩

section Invariant

/-- The representation invariant with what `erase` and the callers of `size`
rely on: no decrement wraps, and the count stays within the table. -/
structure Sound (dict : FixedDict ValType capacity prime) : Prop extends Valid dict where
  decrements : ∀ key p, dict.find key = some p →
    0 < (dict.data (calcPos capacity prime key)).numInserted ∧ 0 < dict.cnt
  bounded : dict.cnt ≤ capacity

theorem Valid.sound (h : self.Valid) : self.Sound where
  toValid := h
  decrements := by
    intro key p hFind
    obtain ⟨value, hCell⟩ := (h.find_eq_some_iff key p).mp hFind
    rw [h.counters, h.count]
    exact Probing.counted_of_cell hCell
  bounded := by
    rw [h.count]
    exact Probing.occupied_le self.cells

/-- The operations have a defined outcome, and it is a sound table. -/
def SoundAfter (capacity : Nat) [NeZero capacity] (prime : UInt64)
    (ops : List (BoundedMap.Op UInt64 ValType)) : Prop :=
  ∃ dict, run step (empty : FixedDict ValType capacity prime) ops = some dict ∧ dict.Sound

theorem soundAfter_iff (ops : List (BoundedMap.Op UInt64 ValType)) :
    SoundAfter capacity prime ops ↔
      AllSteps step NoOverflow (empty : FixedDict ValType capacity prime) ops := by
  have hDefined : (run step (empty : FixedDict ValType capacity prime) ops).isSome ↔
      AllSteps step NoOverflow (empty : FixedDict ValType capacity prime) ops := by
    rw [run_isSome_iff]
    exact allSteps_congr (fun dict => ∃ m, dict.Models m) models_step
      (fun _ op ⟨_, h⟩ => h.step_isSome_iff op) ⟨∅, models_empty⟩ ops
  rw [← hDefined, Option.isSome_iff_exists]
  refine exists_congr fun dict => and_iff_left_of_imp fun hRun => ?_
  exact (reached_of_run hRun).valid.sound

theorem not_soundAfter_of_large (hLarge : intMax + 1 < capacity) (hCapacity : capacity < 2 ^ 64) :
    ¬ SoundAfter capacity 1 (fillOps (intMax + 1) ++ [.emplace (UInt64.ofNat capacity) ()]) := by
  intro hSound
  obtain ⟨dict, hRun, hOver⟩ := run_fillOps_overflows hLarge hCapacity
  rw [soundAfter_iff] at hSound
  exact (hSound.after_run hRun).1 hOver

/-- For every capacity and prime, the sequences of operations that end in a
sound table are those in which no `emplace` overflows its counter. Up to
`2 ^ 31` slots these are all sequences, and at any capacity every table met
on the way is sound. -/
theorem invariant_after_operations (capacity : Nat) [NeZero capacity] (prime : UInt64)
    (ops : List (BoundedMap.Op UInt64 ValType)) :
    (SoundAfter capacity prime ops ↔
      AllSteps step NoOverflow (empty : FixedDict ValType capacity prime) ops) ∧
    (capacity ≤ intMax + 1 → SoundAfter capacity prime ops) ∧
    AllStates step Sound (empty : FixedDict ValType capacity prime) ops := by
  refine ⟨soundAfter_iff ops, fun hCapacity => (soundAfter_iff ops).mpr ?_, ?_⟩
  · exact allSteps_of_invariant (fun dict => ∃ m, dict.Models m) models_step
      (fun _ op ⟨_, h⟩ => h.valid.noOverflow hCapacity op) ⟨∅, models_empty⟩ ops
  · have hModels := allStates_of_invariant (fun dict : FixedDict ValType capacity prime =>
      ∃ m, dict.Models m) models_step ⟨∅, models_empty⟩ ops
    exact hModels.mono fun dict ⟨_, h⟩ => h.valid.sound

/-- Three keys of one home, the first of them erased again. -/
theorem invariant_after_colliding_keys :
    SoundAfter 64 39 [.emplace 25 "a", .emplace 89 "b", .emplace 153 "c", .erase 25, .find 153] :=
  (invariant_after_operations 64 39 _).2.1 (by decide)

/-- At `2 ^ 31 + 1` slots and prime one a sequence has no defined end. -/
theorem no_table_after_large_fill :
    ¬ ∀ (capacity : Nat) [NeZero capacity] (prime : UInt64)
      (ops : List (BoundedMap.Op UInt64 Unit)), SoundAfter capacity prime ops := by
  intro hAll
  have hSlots : NeZero 2147483649 := ⟨by decide⟩
  exact not_soundAfter_of_large (by decide) (by decide) (hAll 2147483649 1 _)

end Invariant

section Assertion

/-- One operation in a build with assertions, where a failing one ends the
run. -/
def assertedStep (self : FixedDict ValType capacity prime) (op : BoundedMap.Op UInt64 ValType) :
    Option (FixedDict ValType capacity prime) :=
  match op with
  | .emplace key value =>
      (self.emplace key value).bind fun ret => if ret.asserted then some ret.table else none
  | .find key => self.step (.find key)
  | .erase key => self.step (.erase key)

/-- The key is new, and one slot is left for it. -/
def TakesLastSlot (self : FixedDict ValType capacity prime) (key : UInt64) : Prop :=
  self.cnt + 1 = capacity ∧ self.Absent key

/-- A new key is refused with `nullptr` and no change. -/
def RefusesNew (self : FixedDict ValType capacity prime) : Prop :=
  ∀ key value, self.Absent key →
    self.emplace key value = some { table := self, position := none, asserted := true }

/-- The operation does not fail the assertion, and a key that takes the last
slot is stored and makes the table full. -/
def AssertionHolds (self : FixedDict ValType capacity prime) :
    BoundedMap.Op UInt64 ValType → Prop
  | .emplace key value => ∃ ret, self.emplace key value = some ret ∧ ret.asserted = true ∧
      (self.TakesLastSlot key →
        ret.position ≠ none ∧ ret.table.isFull = true ∧ ret.table.RefusesNew)
  | .find _ => True
  | .erase _ => True

/-- The operation neither overflows the counter nor takes the last slot. -/
def LeavesSlot (self : FixedDict ValType capacity prime) : BoundedMap.Op UInt64 ValType → Prop
  | .emplace key _ => ¬ self.CounterOverflows key ∧ ¬ self.TakesLastSlot key
  | .find _ => True
  | .erase _ => True

theorem step_of_assertedStep {op : BoundedMap.Op UInt64 ValType}
    {table : FixedDict ValType capacity prime} (h : self.assertedStep op = some table) :
    self.step op = some table := by
  cases op with
  | find key => exact h
  | erase key => exact h
  | emplace key value =>
      obtain ⟨ret, hEmplace, hRet⟩ := Option.bind_eq_some_iff.mp h
      split at hRet
      · cases hRet
        simp [FixedDict.step, FixedDict.exec, hEmplace]
      · cases hRet

/-- The assertion compares the count after the increment with the bound that
the guard allows before it, so it fails exactly when the last slot is taken. -/
theorem Valid.emplace_asserted_iff (h : self.Valid) (key : UInt64) (value : ValType) :
    (∃ ret, self.emplace key value = some ret ∧ ret.asserted = true) ↔
      ¬ self.CounterOverflows key ∧ ¬ self.TakesLastSlot key := by
  have hOutcome := h.outcome key value
  generalize self.emplace key value = result at hOutcome ⊢
  cases hOutcome with
  | full hFull =>
      have hInRange : ¬ self.CounterOverflows key := not_counterOverflows_of_full hFull
      have hLast : ¬ self.TakesLastSlot key := fun hTakes => by have := hTakes.1; omega
      simp [hInRange, hLast]
  | replaced hRoom hCell =>
      have hInRange := not_counterOverflows_of_cell hCell
      have hLast : ¬ self.TakesLastSlot key := fun hTakes => hTakes.2 _ _ hCell
      simp [hInRange, hLast]
  | inserted hRoom hAbsent hFirst =>
      have hLast : self.TakesLastSlot key ↔ self.cnt + 1 = capacity := and_iff_left hAbsent
      simp only [Option.some.injEq, exists_eq_left', decide_eq_true_eq,
        hFirst.not_counterOverflows, not_false_eq_true, true_and, hLast]
      omega
  | overflow hOver => simp [hOver]

theorem Valid.assertionHolds_iff (h : self.Valid) (op : BoundedMap.Op UInt64 ValType) :
    self.AssertionHolds op ↔ self.LeavesSlot op := by
  cases op with
  | find key => exact Iff.rfl
  | erase key => exact Iff.rfl
  | emplace key value =>
      constructor
      · intro ⟨ret, hEmplace, hAsserted, _⟩
        exact (h.emplace_asserted_iff key value).mp ⟨ret, hEmplace, hAsserted⟩
      · intro hLeaves
        obtain ⟨ret, hEmplace, hAsserted⟩ := (h.emplace_asserted_iff key value).mpr hLeaves
        exact ⟨ret, hEmplace, hAsserted, fun hTakes => absurd hTakes hLeaves.2⟩

/-- For every capacity, prime and sequence of operations in a build with
assertions: the assertion holds throughout exactly when no operation takes the
last slot (or overflows the counter), so the table is never filled. -/
theorem assertion_holds_iff (capacity : Nat) [NeZero capacity] (prime : UInt64)
    (ops : List (BoundedMap.Op UInt64 ValType)) :
    AllSteps assertedStep AssertionHolds (empty : FixedDict ValType capacity prime) ops ↔
      AllSteps assertedStep LeavesSlot (empty : FixedDict ValType capacity prime) ops :=
  allSteps_congr (fun dict => ∃ m, dict.Models m)
    (fun dict op table h hStep => models_step dict op table h (step_of_assertedStep hStep))
    (fun _ op ⟨_, h⟩ => h.valid.assertionHolds_iff op) ⟨∅, models_empty⟩ ops

/-- One key comes and goes in a table of two slots. -/
theorem assertion_holds_with_room :
    AllSteps assertedStep AssertionHolds (empty : FixedDict Unit 2 39)
      [.emplace 7 (), .erase 7, .find 7] :=
  (assertion_holds_iff 2 39 _).mpr
    ⟨⟨fun hOver => absurd hOver.2.2.1 (by decide), fun hTakes => absurd hTakes.1 (by decide)⟩,
      fun _ _ => ⟨trivial, fun _ _ => ⟨trivial, fun _ _ => trivial⟩⟩⟩

/-- In a table of one slot the first key fails it. -/
theorem assertion_fails_on_last_slot :
    ¬ ∀ (capacity : Nat) [NeZero capacity] (prime : UInt64)
      (ops : List (BoundedMap.Op UInt64 Unit)),
      AllSteps assertedStep AssertionHolds (empty : FixedDict Unit capacity prime) ops := by
  intro hAll
  have hHolds := (hAll 1 39 [.emplace 7 ()]).1
  have hLeaves := (valid_empty.assertionHolds_iff (.emplace 7 ())).mp hHolds
  refine hLeaves.2 ⟨rfl, fun p old hCell => ?_⟩
  cases hCell

end Assertion
end Nginz.FixedDict
