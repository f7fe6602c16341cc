import ReactDpdk.Core.FixedTable

/-! The representation invariant of `FixedDict` and, under it, what each
operation does. Later modules use these facts and never unfold a loop. -/
namespace Nginz.FixedDict
open Cyclic

variable {ValType : Type*} {capacity : Nat} {prime : UInt64}

@[simp]
theorem cells_write (self : FixedDict ValType capacity prime) (p : Fin capacity)
    (content : Option (UInt64 × ValType)) :
    (self.write p content).cells = Function.update self.cells p content := by
  funext q
  by_cases hq : q = p
  · subst q
    simp [cells, write]
  · simp [cells, write, hq]

@[simp]
theorem cells_setNumInserted (self : FixedDict ValType capacity prime) (p : Fin capacity)
    (count : Nat) : (self.setNumInserted p count).cells = self.cells := by
  funext q
  by_cases hq : q = p
  · subst q
    simp [cells, setNumInserted]
  · simp [cells, setNumInserted, hq]

@[simp]
theorem numInserted_write (self : FixedDict ValType capacity prime) (p q : Fin capacity)
    (content : Option (UInt64 × ValType)) :
    ((self.write p content).data q).numInserted = (self.data q).numInserted := by
  by_cases hq : q = p
  · subst q
    simp [write]
  · simp [write, hq]

theorem numInserted_setNumInserted (self : FixedDict ValType capacity prime)
    (p q : Fin capacity) (count : Nat) :
    ((self.setNumInserted p count).data q).numInserted =
      if q = p then count else (self.data q).numInserted := by
  by_cases hq : q = p
  · subst q
    simp [setNumInserted]
  · simp [setNumInserted, hq]

@[simp]
theorem cnt_write (self : FixedDict ValType capacity prime) (p : Fin capacity)
    (content : Option (UInt64 × ValType)) : (self.write p content).cnt = self.cnt := rfl

@[simp]
theorem cells_insertAt (self : FixedDict ValType capacity prime) (pos p : Fin capacity)
    (key : UInt64) (value : ValType) :
    (self.insertAt pos p key value).cells = Function.update self.cells p (some (key, value)) := by
  rw [← cells_write, ← cells_setNumInserted (self.write p (some (key, value)))]
  rfl

@[simp]
theorem cells_removeAt (self : FixedDict ValType capacity prime) (pos p : Fin capacity) :
    (self.removeAt pos p).cells = Function.update self.cells p none := by
  rw [← cells_write, ← cells_setNumInserted (self.write p none)]
  rfl

theorem numInserted_insertAt (self : FixedDict ValType capacity prime) (pos p q : Fin capacity)
    (key : UInt64) (value : ValType) :
    ((self.insertAt pos p key value).data q).numInserted =
      (self.data q).numInserted + (pos == q).toNat := by
  have h := numInserted_setNumInserted (self.write p (some (key, value))) pos q
    ((self.data pos).numInserted + 1)
  by_cases hq : q = pos
  · subst q
    simpa [insertAt] using h
  · have hOther := beq_eq_false_iff_ne.mpr (Ne.symm hq)
    simpa [insertAt, hq, hOther] using h

theorem numInserted_removeAt (self : FixedDict ValType capacity prime) (pos p q : Fin capacity) :
    ((self.removeAt pos p).data q).numInserted =
      if q = pos then sizeDec (self.data pos).numInserted else (self.data q).numInserted := by
  have h := numInserted_setNumInserted (self.write p none) pos q
    (sizeDec (self.data pos).numInserted)
  simpa [removeAt] using h

@[simp]
theorem cnt_insertAt (self : FixedDict ValType capacity prime) (pos p : Fin capacity)
    (key : UInt64) (value : ValType) : (self.insertAt pos p key value).cnt = self.cnt + 1 := rfl

@[simp]
theorem cnt_removeAt (self : FixedDict ValType capacity prime) (pos p : Fin capacity) :
    (self.removeAt pos p).cnt = sizeDec self.cnt := rfl

/-- A decrement that stays above zero does not wrap. -/
theorem sizeDec_add_one (x : Nat) : sizeDec (x + 1) = x := by
  simp [sizeDec]

variable {self : FixedDict ValType capacity prime}

/-- A table is its cells, its home counters and its count. -/
theorem eq_of_cells {dict other : FixedDict ValType capacity prime}
    (hCells : dict.cells = other.cells)
    (hCounters : ∀ q, (dict.data q).numInserted = (other.data q).numInserted)
    (hCount : dict.cnt = other.cnt) : dict = other := by
  have hData : dict.data = other.data := by
    funext q
    have hContent : (dict.data q).content = (other.data q).content := congrFun hCells q
    have hCounter := hCounters q
    cases hDict : dict.data q
    cases hOther : other.data q
    simp_all
  cases dict
  cases other
  simp_all

/-- Clearing the slot that was just taken restores the table itself. -/
theorem removeAt_insertAt {pos p : Fin capacity} {key : UInt64} (value : ValType)
    (hFree : self.cells p = none) : (self.insertAt pos p key value).removeAt pos p = self := by
  apply eq_of_cells
  · rw [cells_removeAt, cells_insertAt, Function.update_idem, ← hFree, Function.update_eq_self]
  · intro q
    rw [numInserted_removeAt, numInserted_insertAt, numInserted_insertAt]
    by_cases hq : q = pos
    · rw [if_pos hq, hq, beq_self_eq_true, Bool.toNat_true, sizeDec_add_one]
    · rw [if_neg hq, beq_eq_false_iff_ne.mpr (Ne.symm hq), Bool.toNat_false, Nat.add_zero]
  · rw [cnt_removeAt, cnt_insertAt, sizeDec_add_one]

/-- The free-slot loop stops at the first free slot of its walk. -/
theorem freeLoop_atStep {pos : Fin capacity} {left i k : Nat} (hLeft : i + left = capacity)
    (hInt : i ≤ intMax) (h : freeLoop self pos left i = .atStep k) :
    i ≤ k ∧ k < capacity ∧ k ≤ intMax ∧ self.cells (advance pos k) = none ∧
      ∀ j, i ≤ j → j < k → self.cells (advance pos j) ≠ none := by
  induction left generalizing i with
  | zero => cases h
  | succ left ih =>
      unfold freeLoop at h
      split at h
      · rename_i hFree
        cases h
        exact ⟨le_refl _, by omega, hInt, Option.isNone_iff_eq_none.mp hFree,
          fun j _ _ => by omega⟩
      · rename_i hUsed
        split at h
        · cases h
        · rename_i hMax
          obtain ⟨hLe, hLt, hLast, hFree, hBefore⟩ := ih (by omega) (by omega) h
          refine ⟨by omega, hLt, hLast, hFree, fun j hj hjk => ?_⟩
          rcases Nat.eq_or_lt_of_le hj with rfl | hj
          · exact fun hNone => hUsed (Option.isNone_iff_eq_none.mpr hNone)
          · exact hBefore j hj hjk

/-- It runs to the end only when the rest of its walk is occupied. -/
theorem freeLoop_exhausted {pos : Fin capacity} {left i : Nat} (hLeft : i + left = capacity)
    (h : freeLoop self pos left i = .exhausted) :
    ∀ j, i ≤ j → j < capacity → self.cells (advance pos j) ≠ none := by
  induction left generalizing i with
  | zero => omega
  | succ left ih =>
      unfold freeLoop at h
      split at h
      · cases h
      · rename_i hUsed
        split at h
        · cases h
        · intro j hj hjc
          rcases Nat.eq_or_lt_of_le hj with rfl | hj
          · exact fun hNone => hUsed (Option.isNone_iff_eq_none.mpr hNone)
          · exact ih (by omega) h j hj hjc

/-- The `int` counter overflows exactly when the walk is occupied as far as an
`int` can count. -/
theorem freeLoop_overflow_iff {pos : Fin capacity} {left i : Nat} (hLeft : i + left = capacity)
    (hInt : i ≤ intMax) :
    freeLoop self pos left i = .overflow ↔
      intMax < capacity ∧ ∀ j, i ≤ j → j ≤ intMax → self.cells (advance pos j) ≠ none := by
  induction left generalizing i with
  | zero =>
      unfold freeLoop
      simp
      omega
  | succ left ih =>
      unfold freeLoop
      split
      · rename_i hFree
        simp only [reduceCtorEq, false_iff, not_and, not_forall]
        exact fun _ => ⟨i, le_refl _, hInt, fun hUsed => hUsed (Option.isNone_iff_eq_none.mp hFree)⟩
      · rename_i hUsed
        have hHere : self.cells (advance pos i) ≠ none :=
          fun hNone => hUsed (Option.isNone_iff_eq_none.mpr hNone)
        split
        · rename_i hMax
          refine ⟨fun _ => ⟨by omega, fun j hj hjm => ?_⟩, fun _ => rfl⟩
          rw [show j = i by omega]
          exact hHere
        · rename_i hMax
          rw [ih (by omega) (by omega)]
          refine and_congr_right fun _ =>
            ⟨fun hRest j hj hjm => ?_, fun hRest j hj => hRest j (by omega)⟩
          rcases Nat.eq_or_lt_of_le hj with rfl | hj
          · exact hHere
          · exact hRest j hj hjm

variable [NeZero capacity]

/-- The representation invariant: keys are distinct, each home slot counts its
keys wherever they lie, and `cnt` counts the occupied slots. -/
structure Valid (dict : FixedDict ValType capacity prime) : Prop where
  distinct : Probing.Distinct dict.cells
  counters : ∀ p, (dict.data p).numInserted = Probing.homed (calcPos capacity prime) dict.cells p
  count : dict.cnt = Probing.occupied dict.cells

theorem valid_empty : (empty : FixedDict ValType capacity prime).Valid where
  distinct := by
    intro p q key v w hp
    cases hp
  counters := fun p => (Probing.homed_empty _ p).symm
  count := Probing.occupied_empty.symm

/-- A search returns only slots that hold the key it was given. -/
theorem searchLoop_sound {key : UInt64} {pos p : Fin capacity} {numInserted left i j : Nat}
    (h : searchLoop self key pos numInserted left i j = some p) :
    ∃ value, self.cells p = some (key, value) := by
  induction left generalizing i j with
  | zero => cases h
  | succ left ih =>
      unfold searchLoop at h
      split at h
      · split at h
        · rename_i key2 value hContent
          split at h
          · rename_i hKey
            cases h
            exact ⟨value, hKey ▸ hContent⟩
          · split at h
            · exact ih h
            · exact ih h
        · exact ih h
      · cases h

/-- A search does not stop before it reaches its key: as long as the key lies
ahead, fewer keys of its home have been met than the home counts. -/
theorem searchLoop_complete {key : UInt64} {value : ValType} {pos : Fin capacity} {target : Nat}
    (hHome : calcPos capacity prime key = pos) (hTarget : target < capacity)
    (hCell : self.cells (advance pos target) = some (key, value)) (left i : Nat)
    (hLeft : i + left = capacity) (hAhead : i ≤ target) :
    (searchLoop self key pos (Probing.homed (calcPos capacity prime) self.cells pos) left i
      (countBefore (fun q => Probing.homedAt (calcPos capacity prime) pos (self.cells q))
        pos i)).isSome := by
  induction left generalizing i with
  | zero => omega
  | succ left ih =>
      have hGo : countBefore (fun q => Probing.homedAt (calcPos capacity prime) pos (self.cells q))
          pos i < Probing.homed (calcPos capacity prime) self.cells pos :=
        lt_of_le_of_lt (countBefore_mono _ pos hAhead)
          (Probing.countBefore_lt_homed hTarget hCell hHome)
      have hNotHere {content} (hHere : self.cells (advance pos i) = content)
          (hOther : content ≠ some (key, value)) : i + 1 ≤ target := by
        rcases Nat.lt_or_eq_of_le hAhead with hlt | heq
        · exact hlt
        · subst heq
          exact absurd (hHere.symm.trans hCell) hOther
      have hNext := fun hStep => ih (i + 1) (by omega) hStep
      rw [countBefore_succ] at hNext
      have hRead : (self.data (advance pos i)).content = self.cells (advance pos i) := rfl
      unfold searchLoop
      rw [if_pos hGo, hRead]
      cases hHere : self.cells (advance pos i) with
      | none =>
          simp only [hHere, Probing.homedAt_none, Bool.toNat_false, Nat.add_zero] at hNext
          exact hNext (hNotHere hHere (by simp))
      | some content =>
          obtain ⟨key2, value2⟩ := content
          by_cases hKey : key2 = key
          · simp [hKey]
          · have hStep := hNotHere hHere (by simp [hKey])
            by_cases hSame : calcPos capacity prime key2 = pos
            · simpa [hHere, hKey, hSame] using hNext hStep
            · have hOther := beq_eq_false_iff_ne.mpr hSame
              simpa [hHere, hKey, hSame, hOther] using hNext hStep

/-- Exactly the slot that holds the key is found, so the early stop after
`numInserted` keys of the same home never misses. -/
theorem Valid.find_eq_some_iff (h : self.Valid) (key : UInt64) (p : Fin capacity) :
    self.find key = some p ↔ ∃ value, self.cells p = some (key, value) := by
  constructor
  · exact searchLoop_sound
  · rintro ⟨value, hCell⟩
    let pos := calcPos capacity prime key
    have hAt : self.cells (advance pos (distance pos p)) = some (key, value) := by
      rw [advance_distance, hCell]
    have hSome := searchLoop_complete rfl (distance_lt pos p) hAt capacity 0 (by omega) (by omega)
    rw [countBefore_zero, ← h.counters pos] at hSome
    obtain ⟨q, hq⟩ := Option.isSome_iff_exists.mp hSome
    obtain ⟨other, hOther⟩ := searchLoop_sound hq
    rw [h.distinct p q key value other hCell hOther]
    exact hq

theorem Valid.find_eq_none_iff (h : self.Valid) (key : UInt64) :
    self.find key = none ↔ ∀ p value, self.cells p ≠ some (key, value) := by
  constructor
  · intro hNone p value hCell
    rw [(h.find_eq_some_iff key p).mpr ⟨value, hCell⟩] at hNone
    cases hNone
  · intro hAbsent
    cases hFind : self.find key with
    | none => rfl
    | some p =>
        obtain ⟨value, hCell⟩ := (h.find_eq_some_iff key p).mp hFind
        exact absurd hCell (hAbsent p value)

/-- Replacing the value of a key keeps the invariant. -/
theorem Valid.write (h : self.Valid) {p : Fin capacity} {key : UInt64}
    {old : ValType} (value : ValType) (hCell : self.cells p = some (key, old)) :
    (self.write p (some (key, value))).Valid where
  distinct := by
    rw [cells_write]
    exact h.distinct.put value fun q v hq => h.distinct q p key v old hq hCell
  counters := by
    intro r
    have hUpdate := Probing.homed_update self.cells (calcPos capacity prime) p r (some (key, value))
    rw [hCell, Probing.homedAt_some, Probing.homedAt_some] at hUpdate
    rw [numInserted_write, cells_write, h.counters r]
    omega
  count := by
    have hUpdate := Probing.occupied_update self.cells p (some (key, value))
    rw [hCell, Option.isSome_some, Option.isSome_some] at hUpdate
    rw [cells_write, cnt_write, h.count]
    omega

/-- Storing an absent key in a free slot keeps the invariant. -/
theorem Valid.insertAt (h : self.Valid) {p : Fin capacity} {key : UInt64}
    (value : ValType) (hFree : self.cells p = none)
    (hAbsent : ∀ q v, self.cells q ≠ some (key, v)) :
    (self.insertAt (calcPos capacity prime key) p key value).Valid where
  distinct := by
    rw [cells_insertAt]
    exact h.distinct.put value fun q v hq => absurd hq (hAbsent q v)
  counters := by
    intro r
    have hUpdate := Probing.homed_update self.cells (calcPos capacity prime) p r (some (key, value))
    rw [hFree, Probing.homedAt_none, Probing.homedAt_some, Bool.toNat_false] at hUpdate
    rw [numInserted_insertAt, cells_insertAt, h.counters r]
    omega
  count := by
    have hUpdate := Probing.occupied_update self.cells p (some (key, value))
    rw [hFree, Option.isSome_none, Option.isSome_some, Bool.toNat_false, Bool.toNat_true] at hUpdate
    rw [cells_insertAt, cnt_insertAt, h.count]
    omega

/-- Clearing the slot of a key keeps the invariant: the two counters that
count the key are positive, so neither decrement wraps. -/
theorem Valid.removeAt (h : self.Valid) {p : Fin capacity} {key : UInt64}
    {old : ValType} (hCell : self.cells p = some (key, old)) :
    (self.removeAt (calcPos capacity prime key) p).Valid where
  distinct := by
    rw [cells_removeAt]
    exact h.distinct.clear
  counters := by
    intro r
    have hUpdate := Probing.homed_update self.cells (calcPos capacity prime) p r none
    rw [hCell, Probing.homedAt_none, Probing.homedAt_some, Bool.toNat_false,
      Nat.add_zero] at hUpdate
    rw [numInserted_removeAt, cells_removeAt]
    by_cases hr : r = calcPos capacity prime key
    · subst r
      rw [beq_self_eq_true, Bool.toNat_true] at hUpdate
      rw [if_pos rfl, h.counters, ← hUpdate, sizeDec_add_one]
    · rw [beq_eq_false_iff_ne.mpr (Ne.symm hr), Bool.toNat_false, Nat.add_zero] at hUpdate
      rw [if_neg hr, h.counters, hUpdate]
  count := by
    have hUpdate := Probing.occupied_update self.cells p none
    rw [hCell, Option.isSome_none, Option.isSome_some, Bool.toNat_false, Bool.toNat_true] at hUpdate
    rw [cells_removeAt, cnt_removeAt, h.count,
      show Probing.occupied self.cells = Probing.occupied (Function.update self.cells p none) + 1 by
        omega, sizeDec_add_one]

/-- The step at which `emplace` stores an absent key: the first free slot of
the walk from its home, within the reach of an `int`. -/
structure FirstFree (dict : FixedDict ValType capacity prime) (key : UInt64) (i : Nat) : Prop where
  inTable : i < capacity
  inInt : i ≤ intMax
  free : dict.cells (advance (calcPos capacity prime key) i) = none
  used : ∀ j, j < i → dict.cells (advance (calcPos capacity prime key) j) ≠ none

/-- The `int` counter of `emplace` overflows: an absent key, and every slot
that an `int` can reach from its home is occupied although the table has room. -/
def CounterOverflows (self : FixedDict ValType capacity prime) (key : UInt64) : Prop :=
  self.cnt < capacity ∧ (∀ p value, self.cells p ≠ some (key, value)) ∧ intMax < capacity ∧
    ∀ j, j ≤ intMax → self.cells (advance (calcPos capacity prime key) j) ≠ none

/-- A full table refuses every `emplace`, also of a key it holds. -/
theorem emplace_full {key : UInt64} {value : ValType} (hFull : capacity ≤ self.cnt) :
    self.emplace key value = some { table := self, position := none, asserted := true } := by
  unfold emplace
  rw [if_pos hFull]

/-- A present key keeps its slot and gets the new value. -/
theorem Valid.emplace_present (h : self.Valid) {p : Fin capacity} {key : UInt64} {old : ValType}
    (value : ValType) (hRoom : self.cnt < capacity) (hCell : self.cells p = some (key, old)) :
    self.emplace key value = some { table := self.write p (some (key, value))
                                    position := some p
                                    asserted := true } := by
  have hFind := (h.find_eq_some_iff key p).mpr ⟨old, hCell⟩
  unfold emplace
  rw [if_neg (by omega)]
  simp only [hFind]

/-- An absent key goes to the first free slot, unless the counter overflows. -/
theorem Valid.emplace_absent (h : self.Valid) {key : UInt64} (value : ValType)
    (hRoom : self.cnt < capacity) (hAbsent : ∀ p v, self.cells p ≠ some (key, v)) :
    (∃ i, FirstFree self key i ∧ self.emplace key value = some
        { table := self.insertAt (calcPos capacity prime key)
            (advance (calcPos capacity prime key) i) key value
          position := some (i + calcPos capacity prime key)
          asserted := decide (self.cnt + 1 < capacity) }) ∨
      CounterOverflows self key ∧ self.emplace key value = none := by
  have hFind := (h.find_eq_none_iff key).mpr hAbsent
  have hNotFull : ¬ self.cnt ≥ capacity := by omega
  cases hLoop : freeLoop self (calcPos capacity prime key) capacity 0 with
  | atStep i =>
      obtain ⟨_, hLt, hInt, hFree, hBefore⟩ := freeLoop_atStep (by omega) (by omega) hLoop
      refine Or.inl ⟨i, ⟨hLt, hInt, hFree, fun j hj => hBefore j (by omega) hj⟩, ?_⟩
      unfold emplace
      rw [if_neg hNotFull]
      simp only [hFind, hLoop]
  | exhausted =>
      -- impossible: the walk covers the table, and the table has room
      obtain ⟨q, hq⟩ := Probing.exists_free (h.count ▸ hRoom)
      have hUsed := freeLoop_exhausted (by omega) hLoop
        (distance (calcPos capacity prime key) q) (by omega) (distance_lt _ _)
      rw [advance_distance] at hUsed
      exact absurd hq hUsed
  | overflow =>
      obtain ⟨hReach, hUsed⟩ := (freeLoop_overflow_iff (by omega) (by omega)).mp hLoop
      refine Or.inr ⟨⟨hRoom, hAbsent, hReach, fun j hj => hUsed j (by omega) hj⟩, ?_⟩
      unfold emplace
      rw [if_neg hNotFull]
      simp only [hFind, hLoop]

/-- No slot holds the key. -/
def Absent (self : FixedDict ValType capacity prime) (key : UInt64) : Prop :=
  ∀ p value, self.cells p ≠ some (key, value)

/-- The results that `emplace` can have, by the state before it. -/
inductive Outcome (self : FixedDict ValType capacity prime) (key : UInt64) (value : ValType) :
    Option (Emplaced ValType capacity prime) → Prop where
  | full (hFull : capacity ≤ self.cnt) :
      Outcome self key value (some { table := self, position := none, asserted := true })
  | replaced {p : Fin capacity} {old : ValType} (hRoom : self.cnt < capacity)
      (hCell : self.cells p = some (key, old)) :
      Outcome self key value (some { table := self.write p (some (key, value))
                                     position := some p
                                     asserted := true })
  | inserted {i : Nat} (hRoom : self.cnt < capacity) (hAbsent : self.Absent key)
      (hFirst : FirstFree self key i) :
      Outcome self key value (some
        { table := self.insertAt (calcPos capacity prime key)
            (advance (calcPos capacity prime key) i) key value
          position := some (i + calcPos capacity prime key)
          asserted := decide (self.cnt + 1 < capacity) })
  | overflow (hOver : self.CounterOverflows key) : Outcome self key value none

theorem Valid.outcome (h : self.Valid) (key : UInt64) (value : ValType) :
    Outcome self key value (self.emplace key value) := by
  by_cases hRoom : self.cnt < capacity
  · by_cases hAbsent : self.Absent key
    · rcases h.emplace_absent value hRoom hAbsent with ⟨i, hFirst, hStore⟩ | ⟨hOver, hStore⟩
      · rw [hStore]
        exact .inserted hRoom hAbsent hFirst
      · rw [hStore]
        exact .overflow hOver
    · obtain ⟨p, hPresent⟩ := not_forall.mp hAbsent
      obtain ⟨old, hCell⟩ := not_forall_not.mp hPresent
      rw [h.emplace_present value hRoom hCell]
      exact .replaced hRoom hCell
  · rw [emplace_full (Nat.le_of_not_lt hRoom)]
    exact .full (Nat.le_of_not_lt hRoom)

/-- Nothing is searched for in a full table. -/
theorem not_counterOverflows_of_full {key : UInt64} (hFull : capacity ≤ self.cnt) :
    ¬ self.CounterOverflows key := fun hOver => Nat.not_lt.mpr hFull hOver.1

/-- The free slot is only searched for an absent key. -/
theorem not_counterOverflows_of_cell {key : UInt64} {p : Fin capacity} {old : ValType}
    (hCell : self.cells p = some (key, old)) : ¬ self.CounterOverflows key :=
  fun hOver => hOver.2.1 p old hCell

/-- An entry that finds a free slot in reach is no overflow. -/
theorem FirstFree.not_counterOverflows {key : UInt64} {i : Nat} (h : FirstFree self key i) :
    ¬ self.CounterOverflows key := fun hOver => hOver.2.2.2 i h.inInt h.free

theorem Valid.erase_present (h : self.Valid) {p : Fin capacity} {key : UInt64} {old : ValType}
    (hCell : self.cells p = some (key, old)) :
    self.erase key = (self.removeAt (calcPos capacity prime key) p, true) := by
  have hFind := (h.find_eq_some_iff key p).mpr ⟨old, hCell⟩
  simp only [erase, hFind]

theorem Valid.erase_absent (h : self.Valid) {key : UInt64}
    (hAbsent : ∀ p v, self.cells p ≠ some (key, v)) : self.erase key = (self, false) := by
  have hFind := (h.find_eq_none_iff key).mpr hAbsent
  simp only [erase, hFind]

/-! The rest needs no invariant: it holds of any table at all. -/

/-- A search reads the keys of the table and nothing else of its entries. -/
theorem searchLoop_congr {other : FixedDict ValType capacity prime}
    (hKeys : ∀ q, (self.cells q).map Prod.fst = (other.cells q).map Prod.fst) (key : UInt64)
    (pos : Fin capacity) (numInserted left i j : Nat) :
    searchLoop self key pos numInserted left i j =
      searchLoop other key pos numInserted left i j := by
  induction left generalizing i j with
  | zero => rfl
  | succ left ih =>
      have hHere := hKeys (advance pos i)
      simp only [cells] at hHere
      simp only [searchLoop]
      cases hSelf : (self.data (advance pos i)).content with
      | none =>
          cases hOther : (other.data (advance pos i)).content with
          | none => simp only [ih]
          | some entry => simp [hSelf, hOther] at hHere
      | some entry =>
          cases hOther : (other.data (advance pos i)).content with
          | none => simp [hSelf, hOther] at hHere
          | some entry' =>
              have hKey : entry.1 = entry'.1 := by simpa [hSelf, hOther] using hHere
              simp only [hKey, ih]

/-- Storing through a reference to a present entry moves no key. -/
theorem find_write {p : Fin capacity} {key : UInt64} {old : ValType}
    (hCell : self.cells p = some (key, old)) (value : ValType) (k : UInt64) :
    (self.write p (some (key, value))).find k = self.find k := by
  unfold find
  dsimp only
  rw [numInserted_write]
  apply searchLoop_congr
  intro q
  rw [cells_write, Function.update_apply]
  split
  · rename_i hq
    rw [hq, hCell]
    rfl
  · rfl

/-- Erasing any key brings no new entry. -/
theorem cells_of_cells_erase {key : UInt64} {p : Fin capacity} {entry : UInt64 × ValType}
    (h : (self.erase key).1.cells p = some entry) : self.cells p = some entry := by
  unfold erase at h
  split at h
  · rw [cells_removeAt, Function.update_apply] at h
    split at h
    · cases h
    · exact h
  · exact h

/-- The only new entry after an `emplace` is the one it was given. -/
theorem cells_of_cells_emplace {key : UInt64} {value : ValType}
    {ret : Emplaced ValType capacity prime} (hEmplace : self.emplace key value = some ret)
    {p : Fin capacity} {entry : UInt64 × ValType} (h : ret.table.cells p = some entry) :
    self.cells p = some entry ∨ entry = (key, value) := by
  have hUpdated {q : Fin capacity}
      (hCells : Function.update self.cells q (some (key, value)) p = some entry) :
      self.cells p = some entry ∨ entry = (key, value) := by
    rw [Function.update_apply] at hCells
    split at hCells
    · exact Or.inr (Option.some.inj hCells).symm
    · exact Or.inl hCells
  unfold emplace at hEmplace
  split at hEmplace
  · cases hEmplace
    exact Or.inl h
  · dsimp only at hEmplace
    split at hEmplace
    · cases hEmplace
      rw [cells_write] at h
      exact hUpdated h
    · split at hEmplace <;> cases hEmplace
      · exact Or.inl h
      · rw [cells_insertAt] at h
        exact hUpdated h

/-- An `int` counts the slots of a small table. -/
theorem emplace_defined (self : FixedDict ValType capacity prime)
    (hCapacity : capacity ≤ intMax) (key : UInt64) (value : ValType) :
    ∃ ret, self.emplace key value = some ret := by
  unfold emplace
  split
  · exact ⟨_, rfl⟩
  · dsimp only
    split
    · exact ⟨_, rfl⟩
    · split
      · rename_i hOver
        have hReach := (freeLoop_overflow_iff (by omega) (by omega)).mp hOver
        omega
      · exact ⟨_, rfl⟩
      · exact ⟨_, rfl⟩

/-- A position inside the table is that of the entry stored. -/
theorem cells_emplace_position {key : UInt64} {value : ValType}
    {ret : Emplaced ValType capacity prime} {q : Nat} (hEmplace : self.emplace key value = some ret)
    (hPosition : ret.position = some q) (hInside : q < capacity) :
    ret.table.cells ⟨q, hInside⟩ = some (key, value) := by
  unfold emplace at hEmplace
  split at hEmplace
  · cases hEmplace
    cases hPosition
  · dsimp only at hEmplace
    split at hEmplace
    · rename_i p _
      cases hEmplace
      cases hPosition
      rw [cells_write]
      exact Function.update_self ..
    · split at hEmplace <;> cases hEmplace <;> cases hPosition
      rename_i i _
      have hSlot : (⟨i + calcPos capacity prime key, hInside⟩ : Fin capacity) =
          Cyclic.advance (calcPos capacity prime key) i := by
        apply Fin.ext
        rw [Cyclic.advance_val, Nat.mod_eq_of_lt hInside]
      rw [hSlot, cells_insertAt]
      exact Function.update_self ..

/-- A walk has only one first free slot. -/
theorem FirstFree.unique {key : UInt64} {i k : Nat} (hi : FirstFree self key i)
    (hk : FirstFree self key k) : i = k := by
  rcases Nat.lt_trichotomy i k with hLt | hEq | hGt
  · exact absurd hi.free (hk.used i hLt)
  · exact hEq
  · exact absurd hk.free (hi.used k hGt)

/-- There the loop stops. -/
theorem FirstFree.freeLoop_eq {key : UInt64} {i : Nat} (h : FirstFree self key i) :
    freeLoop self (calcPos capacity prime key) capacity 0 = .atStep i := by
  cases hLoop : freeLoop self (calcPos capacity prime key) capacity 0 with
  | atStep k =>
      obtain ⟨_, hLt, hInt, hFree, hBefore⟩ := freeLoop_atStep (by omega) (by omega) hLoop
      have hFirst : FirstFree self key k := ⟨hLt, hInt, hFree, fun j hj => hBefore j (by omega) hj⟩
      rw [hFirst.unique h]
  | exhausted => exact absurd h.free (freeLoop_exhausted (by omega) hLoop i (by omega) h.inTable)
  | overflow =>
      obtain ⟨_, hUsed⟩ := (freeLoop_overflow_iff (by omega) (by omega)).mp hLoop
      exact absurd h.free (hUsed i (by omega) h.inInt)

/-- The pointer returned lies past the array exactly when a key that is not found goes
to a first free slot behind the end of it. -/
theorem emplace_past_iff (key : UInt64) (value : ValType) :
    (∃ ret q, self.emplace key value = some ret ∧ ret.position = some q ∧ capacity ≤ q) ↔
      self.cnt < capacity ∧ self.find key = none ∧
        ∃ i, FirstFree self key i ∧ capacity ≤ i + calcPos capacity prime key := by
  constructor
  · rintro ⟨ret, q, hEmplace, hPosition, hPast⟩
    unfold emplace at hEmplace
    split at hEmplace
    · cases hEmplace
      cases hPosition
    · rename_i hRoom
      dsimp only at hEmplace
      split at hEmplace
      · rename_i p _
        cases hEmplace
        cases hPosition
        exact absurd p.isLt (Nat.not_lt.mpr hPast)
      · rename_i hNone
        split at hEmplace <;> cases hEmplace <;> cases hPosition
        rename_i i hLoop
        obtain ⟨_, hLt, hInt, hFree, hBefore⟩ := freeLoop_atStep (by omega) (by omega) hLoop
        exact ⟨Nat.not_le.mp hRoom, hNone, i,
          ⟨hLt, hInt, hFree, fun j hj => hBefore j (by omega) hj⟩, hPast⟩
  · rintro ⟨hRoom, hNone, i, hFirst, hPast⟩
    have hEmplace : self.emplace key value = some
        { table := self.insertAt (calcPos capacity prime key)
            (advance (calcPos capacity prime key) i) key value
          position := some (i + calcPos capacity prime key)
          asserted := decide (self.cnt + 1 < capacity) } := by
      unfold emplace
      rw [if_neg (Nat.not_le.mpr hRoom)]
      simp only [hNone, hFirst.freeLoop_eq]
    exact ⟨_, _, hEmplace, rfl, hPast⟩

end Nginz.FixedDict
