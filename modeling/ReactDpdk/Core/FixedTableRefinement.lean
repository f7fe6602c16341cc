import Mathlib.Data.Fintype.Fin
import ReactDpdk.Core.FixedTableInvariant

/-! `FixedDict` against the bounded finite map. The slot layout depends on the
whole history of a table, the map it stands for does not. -/
namespace Nginz.FixedDict
open Cyclic Transition

variable {ValType : Type*} {capacity : Nat} {prime : UInt64} [NeZero capacity]

/-- A table in good order that stands for the map. -/
structure Models (dict : FixedDict ValType capacity prime)
    (m : BoundedMap.Contents UInt64 ValType) : Prop where
  valid : dict.Valid
  represents : Probing.Represents dict.cells m

variable {self : FixedDict ValType capacity prime} {m : BoundedMap.Contents UInt64 ValType}

theorem models_empty : (empty : FixedDict ValType capacity prime).Models ∅ where
  valid := valid_empty
  represents := Probing.represents_empty

theorem Models.cnt_eq (h : self.Models m) : self.cnt = BoundedMap.size m :=
  h.valid.count.trans (h.represents.size_eq h.valid.distinct).symm

/-- Storing through a reference to a present entry. -/
theorem Models.write (h : self.Models m) {p : Fin capacity} {key : UInt64} {old : ValType}
    (value : ValType) (hCell : self.cells p = some (key, old)) :
    (self.write p (some (key, value))).Models (m.insert key value) where
  valid := h.valid.write value hCell
  represents := by
    rw [cells_write]
    refine h.represents.put value (fun q v hq => h.valid.distinct q p key v old hq hCell) ?_
    intro k v hk
    rw [hCell] at hk
    cases hk
    rfl

theorem Models.insertAt (h : self.Models m) {p : Fin capacity} {key : UInt64} (value : ValType)
    (hFree : self.cells p = none) (hAbsent : m.lookup key = none) :
    (self.insertAt (calcPos capacity prime key) p key value).Models (m.insert key value) where
  valid := h.valid.insertAt value hFree ((h.represents.absent_iff key).mp hAbsent)
  represents := by
    have hNowhere := (h.represents.absent_iff key).mp hAbsent
    rw [cells_insertAt]
    refine h.represents.put value (fun q v hq => absurd hq (hNowhere q v)) ?_
    intro k v hk
    rw [hFree] at hk
    cases hk

/-- The effect of `emplace` on the map. -/
theorem Models.emplace (h : self.Models m) {key : UInt64} {value : ValType}
    {result : Emplaced ValType capacity prime} (hEmplace : self.emplace key value = some result) :
    result.table.Models
      (if BoundedMap.size m < capacity then m.insert key value else m) := by
  have hOutcome := h.valid.outcome key value
  rw [hEmplace] at hOutcome
  rw [← h.cnt_eq]
  cases hOutcome with
  | full hFull =>
      rw [if_neg (Nat.not_lt.mpr hFull)]
      exact h
  | replaced hRoom hCell =>
      rw [if_pos hRoom]
      exact h.write value hCell
  | inserted hRoom hAbsent hFirst =>
      rw [if_pos hRoom]
      exact h.insertAt value hFirst.free ((h.represents.absent_iff key).mpr hAbsent)

theorem Valid.emplace_eq_none_iff (h : self.Valid) (key : UInt64) (value : ValType) :
    self.emplace key value = none ↔ self.CounterOverflows key := by
  have hOutcome := h.outcome key value
  generalize self.emplace key value = result at hOutcome ⊢
  cases hOutcome with
  | full hFull => simpa using not_counterOverflows_of_full hFull
  | replaced hRoom hCell => simpa using not_counterOverflows_of_cell hCell
  | inserted hRoom hAbsent hFirst => simpa using hFirst.not_counterOverflows
  | overflow hOver => simpa using hOver

/-- `erase` answers whether the key was there, and removes exactly it. -/
theorem Models.erase (h : self.Models m) (key : UInt64) :
    (self.erase key).1.Models (m.erase key) ∧ (self.erase key).2 = (m.lookup key).isSome := by
  cases hLookup : m.lookup key with
  | some old =>
      obtain ⟨p, hCell⟩ := (h.represents key old).mp hLookup
      rw [h.valid.erase_present hCell]
      refine ⟨⟨h.valid.removeAt hCell, ?_⟩, rfl⟩
      rw [cells_removeAt]
      exact h.represents.clear h.valid.distinct hCell
  | none =>
      have hNowhere := (h.represents.absent_iff key).mp hLookup
      rw [h.valid.erase_absent hNowhere, BoundedMap.erase_of_absent hLookup]
      exact ⟨h, rfl⟩

theorem Models.find_some (h : self.Models m) {key : UInt64} {value : ValType}
    (hLookup : m.lookup key = some value) :
    ∃ p, self.find key = some p ∧ self.cells p = some (key, value) := by
  obtain ⟨p, hCell⟩ := (h.represents key value).mp hLookup
  exact ⟨p, (h.valid.find_eq_some_iff key p).mpr ⟨value, hCell⟩, hCell⟩

theorem Models.find_none (h : self.Models m) {key : UInt64} (hLookup : m.lookup key = none) :
    self.find key = none :=
  (h.valid.find_eq_none_iff key).mpr ((h.represents.absent_iff key).mp hLookup)

/-- `find` reaches the entry of the key exactly when the map has one. -/
theorem Models.entry (h : self.Models m) (key : UInt64) :
    self.entry key = (m.lookup key).map fun value => (key, value) := by
  cases hLookup : m.lookup key with
  | some value =>
      obtain ⟨p, hFind, hCell⟩ := h.find_some hLookup
      simp [FixedDict.entry, hFind, hCell]
  | none => simp [FixedDict.entry, h.find_none hLookup]

theorem Models.lookup (h : self.Models m) (key : UInt64) : self.lookup key = m.lookup key := by
  rw [FixedDict.lookup, h.entry key, Option.map_map]
  cases m.lookup key <;> rfl

/-- One operation with everything a caller sees of it afterwards. -/
def exec (self : FixedDict ValType capacity prime) (op : BoundedMap.Op UInt64 ValType) :
    Option (FixedDict ValType capacity prime × BoundedMap.Observation UInt64 ValType) :=
  let seen (table : FixedDict ValType capacity prime) (answer : BoundedMap.Answer UInt64 ValType) :=
    (table, { answer := answer, size := table.size, empty := table.isEmpty, full := table.isFull })
  match op with
  | .emplace key value => (self.emplace key value).map fun result => seen result.table .emplaced
  | .find key => some (seen self (.found (self.entry key)))
  | .erase key => some (seen (self.erase key).1 (.erased (self.erase key).2))

/-- The operation does not run the `int` counter of `emplace` past its range. -/
def NoOverflow (self : FixedDict ValType capacity prime) :
    BoundedMap.Op UInt64 ValType → Prop
  | .emplace key _ => ¬ self.CounterOverflows key
  | .find _ => True
  | .erase _ => True

/-- The state part of `exec`. -/
def step (self : FixedDict ValType capacity prime) (op : BoundedMap.Op UInt64 ValType) :
    Option (FixedDict ValType capacity prime) := (self.exec op).map Prod.fst

private theorem seen_eq (h : self.Models m) (answer : BoundedMap.Answer UInt64 ValType) :
    ({ answer := answer, size := self.size, empty := self.isEmpty, full := self.isFull } :
      BoundedMap.Observation UInt64 ValType) =
      BoundedMap.observe capacity answer (BoundedMap.size m) := by
  simp [BoundedMap.observe, FixedDict.size, isEmpty, isFull, h.cnt_eq]

/-- One operation follows the bounded map, unless its counter overflows. -/
theorem Models.exec (h : self.Models m) (op : BoundedMap.Op UInt64 ValType)
    (hGuard : self.NoOverflow op) :
    ∃ table, self.exec op = some (table, (BoundedMap.spec capacity m op).2) ∧
      table.Models (BoundedMap.spec capacity m op).1 := by
  cases op with
  | emplace key value =>
      cases hEmplace : self.emplace key value with
      | none => exact absurd ((h.valid.emplace_eq_none_iff key value).mp hEmplace) hGuard
      | some result =>
          have hNext := h.emplace hEmplace
          refine ⟨result.table, ?_, hNext⟩
          simp [FixedDict.exec, hEmplace, seen_eq hNext, BoundedMap.spec, BoundedMap.next,
            BoundedMap.answer]
  | find key =>
      refine ⟨self, ?_, h⟩
      simp [FixedDict.exec, seen_eq h, h.entry, BoundedMap.spec, BoundedMap.next,
        BoundedMap.answer]
  | erase key =>
      obtain ⟨hNext, hDone⟩ := h.erase key
      refine ⟨(self.erase key).1, ?_, hNext⟩
      simp [FixedDict.exec, seen_eq hNext, hDone, BoundedMap.spec, BoundedMap.next,
        BoundedMap.answer]

theorem Models.exec_overflow (h : self.Models m) (op : BoundedMap.Op UInt64 ValType)
    (hOver : ¬ self.NoOverflow op) : self.exec op = none := by
  cases op with
  | emplace key value =>
      have hNone := (h.valid.emplace_eq_none_iff key value).mpr (not_not.mp hOver)
      simp [FixedDict.exec, hNone]
  | find key => exact absurd trivial hOver
  | erase key => exact absurd trivial hOver

/-- What a run shows: the observations of the table, operation by operation,
are those of the bounded map. -/
def RefinesMap (capacity : Nat) [NeZero capacity] (prime : UInt64)
    (ops : List (BoundedMap.Op UInt64 ValType)) : Prop :=
  trace exec (empty : FixedDict ValType capacity prime) ops =
    some (specTrace (BoundedMap.spec capacity) ∅ ops)

/-- The table follows the map exactly on the runs that keep its counter in
range; on the others it has no defined outcome. -/
theorem refinesMap_iff (ops : List (BoundedMap.Op UInt64 ValType)) :
    RefinesMap capacity prime ops ↔
      AllSteps step NoOverflow (empty : FixedDict ValType capacity prime) ops :=
  trace_eq_specTrace_iff (fun _ _ op h hGuard => h.exec op hGuard)
    (fun _ _ op h hOver => h.exec_overflow op hOver) models_empty ops

/-- An `int` can count every slot of a table of at most `2 ^ 31` slots. -/
theorem Valid.noOverflow (h : self.Valid) (hCapacity : capacity ≤ intMax + 1)
    (op : BoundedMap.Op UInt64 ValType) : self.NoOverflow op := by
  cases op with
  | find key => trivial
  | erase key => trivial
  | emplace key value =>
      rintro ⟨hRoom, _, hReach, hUsed⟩
      obtain ⟨q, hFree⟩ := Probing.exists_free (h.count ▸ hRoom)
      have hLast := distance_lt (calcPos capacity prime key) q
      refine hUsed (distance (calcPos capacity prime key) q) (by omega) ?_
      rw [advance_distance, hFree]

/-- Every defined step leads from a table in good order to one. -/
theorem Models.step {op : BoundedMap.Op UInt64 ValType} {table : FixedDict ValType capacity prime}
    (h : self.Models m) (hStep : self.step op = some table) :
    table.Models (BoundedMap.spec capacity m op).1 := by
  by_cases hGuard : self.NoOverflow op
  · obtain ⟨next, hExec, hNext⟩ := h.exec op hGuard
    simp only [FixedDict.step, hExec, Option.map_some, Option.some.injEq] at hStep
    exact hStep ▸ hNext
  · have hNone := h.exec_overflow op hGuard
    simp [FixedDict.step, hNone] at hStep

/-- For every capacity and prime, the runs on which the table is a bounded
finite map are exactly those in which no `emplace` overflows its counter, and
up to `2 ^ 31` slots these are all runs. -/
theorem emplace_find_erase_refine_map (capacity : Nat) [NeZero capacity] (prime : UInt64)
    (ops : List (BoundedMap.Op UInt64 ValType)) :
    (RefinesMap capacity prime ops ↔
      AllSteps step NoOverflow (empty : FixedDict ValType capacity prime) ops) ∧
    (capacity ≤ intMax + 1 → RefinesMap capacity prime ops) := by
  refine ⟨refinesMap_iff ops, fun hCapacity => (refinesMap_iff ops).mpr ?_⟩
  exact allSteps_of_invariant (fun table => ∃ m, table.Models m)
    (fun _ _ _ ⟨m, h⟩ hStep => ⟨_, h.step hStep⟩)
    (fun _ op ⟨_, h⟩ => h.valid.noOverflow hCapacity op) ⟨∅, models_empty⟩ ops

/-- Keys 25 and 89 have the same home in the table of 64 slots. -/
theorem emplace_find_erase_refine_map_colliding :
    RefinesMap 64 39 [.emplace 25 "a", .emplace 89 "b", .erase 25, .find 89, .find 25] :=
  (emplace_find_erase_refine_map 64 39 _).2 (by decide)

section Overflow

/-- Keys `0 .. count - 1`, each of which goes to its own home slot when the
prime is one. -/
def fillOps (count : Nat) : List (BoundedMap.Op UInt64 Unit) :=
  (List.range count).map fun k => .emplace (UInt64.ofNat k) ()

/-- The first slots hold their own index as key, the others are free. -/
def FilledTo (dict : FixedDict Unit capacity 1) (count : Nat) : Prop :=
  dict.Valid ∧ ∀ q, dict.cells q = if (q : Nat) < count then some (UInt64.ofNat q, ()) else none

private theorem calcPos_one {k : Nat} (hCapacity : k < capacity) (hKey : k < 2 ^ 64) :
    (calcPos capacity 1 (UInt64.ofNat k) : Nat) = k := by
  simp [calcPos, UInt64.toNat_ofNat_of_lt' hKey, Nat.mod_eq_of_lt hCapacity]

theorem FilledTo.cnt {dict : FixedDict Unit capacity 1} {count : Nat}
    (h : FilledTo dict count) (hCount : count ≤ capacity) : dict.cnt = count := by
  rw [h.1.count, Probing.occupied]
  have hCells : (Finset.univ.filter fun q => (dict.cells q).isSome) =
      Finset.univ.filter fun q : Fin capacity => (q : Nat) < count := by
    refine Finset.filter_congr fun q _ => ?_
    rw [h.2 q]
    split <;> simp [*]
  rw [hCells, Fin.card_filter_val_lt]
  omega

theorem FilledTo.emplace {dict : FixedDict Unit capacity 1} {count : Nat}
    (h : FilledTo dict count) (hCapacity : count < capacity) (hKey : count < 2 ^ 64) :
    ∃ next, dict.step (.emplace (UInt64.ofNat count) ()) = some next ∧
      FilledTo next (count + 1) := by
  have hHome := calcPos_one hCapacity hKey
  have hFree : dict.cells (calcPos capacity 1 (UInt64.ofNat count)) = none := by
    rw [h.2, hHome, if_neg (lt_irrefl count)]
  have hAbsent : ∀ q v, dict.cells q ≠ some (UInt64.ofNat count, v) := by
    intro q v hq
    rw [h.2 q] at hq
    split at hq
    · rename_i hLt
      have hSame := congrArg UInt64.toNat (Prod.mk.inj (Option.some.inj hq)).1
      rw [UInt64.toNat_ofNat_of_lt' (show (q : Nat) < 2 ^ 64 by omega),
        UInt64.toNat_ofNat_of_lt' hKey] at hSame
      omega
    · cases hq
  have hRoom : dict.cnt < capacity := by
    rw [h.cnt (by omega)]
    exact hCapacity
  rcases h.1.emplace_absent () hRoom hAbsent with ⟨i, hFirst, hStore⟩ | ⟨hOver, _⟩
  · have hZero : i = 0 := by
      by_contra hNe
      exact hFirst.used 0 (by omega) (by rw [advance_zero, hFree])
    subst hZero
    rw [advance_zero] at hStore
    refine ⟨_, by simp [FixedDict.step, FixedDict.exec, hStore], h.1.insertAt () hFree hAbsent, ?_⟩
    intro q
    rw [cells_insertAt, Function.update_apply]
    by_cases hq : q = calcPos capacity 1 (UInt64.ofNat count)
    · rw [if_pos hq, hq, hHome, if_pos (by omega)]
    · have hVal : (q : Nat) ≠ count := fun hEq => hq (Fin.ext (hEq.trans hHome.symm))
      rw [if_neg hq, h.2 q]
      split <;> split <;> first | rfl | omega
  · exact absurd (by rw [advance_zero, hFree]) (hOver.2.2.2 0 (by omega))

theorem run_fillOps {count : Nat} (hCapacity : count ≤ capacity) (hKey : count < 2 ^ 64) :
    ∃ dict, run step (empty : FixedDict Unit capacity 1) (fillOps count) = some dict ∧
      FilledTo dict count := by
  induction count with
  | zero => exact ⟨empty, rfl, valid_empty, fun q => rfl⟩
  | succ count ih =>
      obtain ⟨dict, hRun, hFilled⟩ := ih (by omega) (by omega)
      obtain ⟨next, hStep, hNext⟩ := hFilled.emplace (by omega) (by omega)
      refine ⟨next, ?_, hNext⟩
      rw [fillOps, List.range_succ, List.map_append, run_append, ← fillOps, hRun]
      simp [run, hStep]

/-- With more than `2 ^ 31` slots, `2 ^ 31` keys in their own slots make the
walk from slot 0 overflow before it meets the free slots behind them. -/
theorem FilledTo.counterOverflows {dict : FixedDict Unit capacity 1}
    (h : FilledTo dict (intMax + 1)) (hLarge : intMax + 1 < capacity)
    (hCapacity : capacity < 2 ^ 64) : dict.CounterOverflows (UInt64.ofNat capacity) := by
  have hHome : (calcPos capacity 1 (UInt64.ofNat capacity) : Nat) = 0 := by
    simp [calcPos, UInt64.toNat_ofNat_of_lt' hCapacity]
  refine ⟨?_, ?_, by omega, ?_⟩
  · rw [h.cnt hLarge.le]
    exact hLarge
  · intro q v hq
    rw [h.2 q] at hq
    split at hq
    · have hSame := congrArg UInt64.toNat (Prod.mk.inj (Option.some.inj hq)).1
      rw [UInt64.toNat_ofNat_of_lt' (show (q : Nat) < 2 ^ 64 by omega),
        UInt64.toNat_ofNat_of_lt' hCapacity] at hSame
      omega
    · cases hq
  · intro j hj
    rw [h.2, advance_val, hHome, Nat.add_zero, Nat.mod_eq_of_lt (by omega), if_pos (by omega)]
    exact Option.some_ne_none _

theorem run_fillOps_overflows (hLarge : intMax + 1 < capacity) (hCapacity : capacity < 2 ^ 64) :
    ∃ dict, run step (empty : FixedDict Unit capacity 1) (fillOps (intMax + 1)) = some dict ∧
      dict.CounterOverflows (UInt64.ofNat capacity) := by
  obtain ⟨dict, hRun, hFilled⟩ := run_fillOps hLarge.le (hLarge.trans hCapacity)
  exact ⟨dict, hRun, hFilled.counterOverflows hLarge hCapacity⟩

theorem not_refinesMap_of_large (hLarge : intMax + 1 < capacity) (hCapacity : capacity < 2 ^ 64) :
    ¬ RefinesMap capacity 1
      (fillOps (intMax + 1) ++ [.emplace (UInt64.ofNat capacity) ()]) := by
  intro hRefines
  obtain ⟨dict, hRun, hOver⟩ := run_fillOps_overflows hLarge hCapacity
  rw [refinesMap_iff] at hRefines
  exact (hRefines.after_run hRun).1 hOver

/-- At `2 ^ 31 + 1` slots and prime one the table is not a bounded map. -/
theorem fill_then_emplace_overflows :
    ¬ ∀ (capacity : Nat) [NeZero capacity] (prime : UInt64)
      (ops : List (BoundedMap.Op UInt64 Unit)), RefinesMap capacity prime ops := by
  intro hAll
  have hSlots : NeZero 2147483649 := ⟨by decide⟩
  exact not_refinesMap_of_large (by decide) (by decide) (hAll 2147483649 1 _)

end Overflow

end Nginz.FixedDict
