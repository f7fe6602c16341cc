import ReactDpdk.General.BoundedMap
import ReactDpdk.General.Cyclic

/-! Cells of an open-addressing table, seen through their contents alone: which
keys they hold, how many belong to one home cell, and the finite map they
stand for. Each operation of such a table changes one cell, so each fact below
comes with the rule for changing one cell. -/
namespace Probing
open Cyclic

variable {Key Value : Type*} {n : Nat}

abbrev Cells (Key Value : Type*) (n : Nat) := Fin n → Option (Key × Value)

/-- No key is held by two cells. -/
def Distinct (cells : Cells Key Value n) : Prop :=
  ∀ p q key v w, cells p = some (key, v) → cells q = some (key, w) → p = q

/-- The number of cells in use. -/
def occupied (cells : Cells Key Value n) : Nat :=
  (Finset.univ.filter fun q => (cells q).isSome).card

/-- Does a cell's content have its home at `p`? -/
def homedAt (home : Key → Fin n) (p : Fin n) (content : Option (Key × Value)) : Bool :=
  content.any fun entry => home entry.1 == p

/-- The number of cells whose key has its home at `p`, wherever they lie. -/
def homed (home : Key → Fin n) (cells : Cells Key Value n) (p : Fin n) : Nat :=
  (Finset.univ.filter fun q => homedAt home p (cells q)).card

theorem occupied_le (cells : Cells Key Value n) : occupied cells ≤ n := by
  have hLe := Finset.card_filter_le (Finset.univ : Finset (Fin n)) fun q => (cells q).isSome
  simpa [occupied] using hLe

/-- A cell in use is counted, in all and at its home. -/
theorem counted_of_cell {home : Key → Fin n} {cells : Cells Key Value n} {p : Fin n} {key : Key}
    {value : Value} (hCell : cells p = some (key, value)) :
    0 < homed home cells (home key) ∧ 0 < occupied cells := by
  have hHome : homedAt home (home key) (cells p) = true := by simp [hCell, homedAt]
  have hUsed : (cells p).isSome = true := by simp [hCell]
  exact ⟨Finset.card_pos.mpr ⟨p, Finset.mem_filter.mpr ⟨Finset.mem_univ p, hHome⟩⟩,
    Finset.card_pos.mpr ⟨p, Finset.mem_filter.mpr ⟨Finset.mem_univ p, hUsed⟩⟩⟩

/-- A table with room has a free cell. -/
theorem exists_free {cells : Cells Key Value n} (h : occupied cells < n) :
    ∃ q, cells q = none := by
  by_contra hNone
  have hAll : (Finset.univ.filter fun q => (cells q).isSome) = Finset.univ := by
    refine Finset.filter_true_of_mem fun q _ => ?_
    exact Option.isSome_iff_ne_none.mpr fun hq => hNone ⟨q, hq⟩
  rw [occupied, hAll, Finset.card_univ, Fintype.card_fin] at h
  exact lt_irrefl n h

theorem occupied_empty : occupied (fun _ => none : Cells Key Value n) = 0 := by
  simp [occupied]

theorem homed_empty (home : Key → Fin n) (p : Fin n) :
    homed home (fun _ => none : Cells Key Value n) p = 0 := by
  simp [homed, homedAt]

/-- The early stop of a counted search is sound: before the walk from a home
cell reaches a key of that home, it has met fewer keys of it than there are. -/
theorem countBefore_lt_homed {home : Key → Fin n} {cells : Cells Key Value n} {p : Fin n}
    {i : Nat} {key : Key} {value : Value} (hi : i < n)
    (hCell : cells (advance p i) = some (key, value)) (hHome : home key = p) :
    countBefore (fun q => homedAt home p (cells q)) p i < homed home cells p := by
  apply countBefore_lt_card hi
  simp [hCell, homedAt, hHome]

/-- The counts after one cell has changed. Both sides are sums because a
count may go up, down or stay. -/
theorem occupied_update (cells : Cells Key Value n) (p : Fin n) (x : Option (Key × Value)) :
    occupied (Function.update cells p x) + (cells p).isSome.toNat =
      occupied cells + x.isSome.toNat :=
  card_filter_update Option.isSome cells p x

theorem homed_update (cells : Cells Key Value n) (home : Key → Fin n) (p r : Fin n)
    (x : Option (Key × Value)) :
    homed home (Function.update cells p x) r + (homedAt home r (cells p)).toNat =
      homed home cells r + (homedAt home r x).toNat :=
  card_filter_update (homedAt home r) cells p x

@[simp]
theorem homedAt_none (home : Key → Fin n) (r : Fin n) :
    homedAt home r (none : Option (Key × Value)) = false := rfl

@[simp]
theorem homedAt_some (home : Key → Fin n) (r : Fin n) (key : Key) (value : Value) :
    homedAt home r (some (key, value)) = (home key == r) := rfl

variable {cells : Cells Key Value n} {p : Fin n}

/-- Clearing a cell keeps the keys distinct. -/
theorem Distinct.clear (h : Distinct cells) : Distinct (Function.update cells p none) := by
  intro a b key v w ha hb
  rw [Function.update_apply] at ha hb
  split at ha
  · cases ha
  · split at hb
    · cases hb
    · exact h a b key v w ha hb

/-- Writing a cell keeps the keys distinct when no other cell holds the key. -/
theorem Distinct.put (h : Distinct cells) {key : Key} (value : Value)
    (hOther : ∀ q v, cells q = some (key, v) → q = p) :
    Distinct (Function.update cells p (some (key, value))) := by
  intro a b k v w ha hb
  rw [Function.update_apply] at ha hb
  split at ha <;> split at hb
  · subst_vars; rfl
  · cases ha
    subst a
    exact (hOther b w hb).symm
  · cases hb
    subst b
    exact hOther a v ha
  · exact h a b k v w ha hb

/-- The finite map that the cells hold. -/
def Represents [DecidableEq Key] (cells : Cells Key Value n)
    (m : BoundedMap.Contents Key Value) : Prop :=
  ∀ key value, m.lookup key = some value ↔ ∃ q, cells q = some (key, value)

section Represents
variable [DecidableEq Key] {m : BoundedMap.Contents Key Value}

theorem represents_empty :
    Represents (fun _ => none : Cells Key Value n) (∅ : BoundedMap.Contents Key Value) := by
  intro key value
  simp

theorem Represents.lookup (h : Represents cells m) {q : Fin n} {key : Key} {value : Value}
    (hCell : cells q = some (key, value)) : m.lookup key = some value :=
  (h key value).mpr ⟨q, hCell⟩

theorem Represents.absent_iff (h : Represents cells m) (key : Key) :
    m.lookup key = none ↔ ∀ q value, cells q ≠ some (key, value) := by
  constructor
  · intro hNone q value hCell
    rw [h.lookup hCell] at hNone
    cases hNone
  · intro hFree
    cases hLookup : m.lookup key with
    | none => rfl
    | some value =>
        obtain ⟨q, hCell⟩ := (h key value).mp hLookup
        exact absurd hCell (hFree q value)

/-- Writing a cell that is free, or that holds the same key, inserts into the
map, as long as no other cell holds the key. -/
theorem Represents.put (h : Represents cells m) {key : Key} (value : Value)
    (hOther : ∀ q v, cells q = some (key, v) → q = p)
    (hHere : ∀ k v, cells p = some (k, v) → k = key) :
    Represents (Function.update cells p (some (key, value))) (m.insert key value) := by
  intro k v
  by_cases hk : k = key
  · subst k
    rw [Finmap.lookup_insert]
    constructor
    · intro hv
      cases hv
      exact ⟨p, Function.update_self ..⟩
    · rintro ⟨q, hq⟩
      rw [Function.update_apply] at hq
      split at hq
      · cases hq
        rfl
      · rename_i hne
        exact absurd (hOther q v hq) hne
  · rw [Finmap.lookup_insert_of_ne _ hk, h k v]
    refine exists_congr fun q => ?_
    rw [Function.update_apply]
    split
    · subst q
      constructor
      · intro hq
        exact absurd (hHere k v hq) hk
      · intro hq
        cases hq
        exact absurd rfl hk
    · exact Iff.rfl

/-- Clearing the cell of a key erases the key from the map. -/
theorem Represents.clear (h : Represents cells m) (hDistinct : Distinct cells) {key : Key}
    {old : Value} (hCell : cells p = some (key, old)) :
    Represents (Function.update cells p none) (m.erase key) := by
  intro k v
  by_cases hk : k = key
  · subst k
    rw [Finmap.lookup_erase]
    simp only [reduceCtorEq, false_iff, not_exists]
    intro q hq
    rw [Function.update_apply] at hq
    split at hq
    · cases hq
    · rename_i hne
      exact hne (hDistinct q p key v old hq hCell)
  · rw [Finmap.lookup_erase_ne hk, h k v]
    refine exists_congr fun q => ?_
    rw [Function.update_apply]
    split
    · subst q
      rw [hCell]
      simp [Ne.symm hk]
    · exact Iff.rfl

/-- The map has as many entries as there are cells in use. -/
theorem Represents.size_eq (h : Represents cells m) (hDistinct : Distinct cells) :
    BoundedMap.size m = occupied cells := by
  symm
  refine Finset.card_bij (fun q hq => ((cells q).get (Finset.mem_filter.mp hq).2).1) ?_ ?_ ?_
  · intro q hq
    obtain ⟨⟨key, value⟩, hCell⟩ := Option.isSome_iff_exists.mp (Finset.mem_filter.mp hq).2
    have hMem := Finmap.mem_keys.mpr (Finmap.mem_of_lookup_eq_some (h.lookup hCell))
    simpa [hCell] using hMem
  · intro a ha b hb hEq
    obtain ⟨⟨key, v⟩, hA⟩ := Option.isSome_iff_exists.mp (Finset.mem_filter.mp ha).2
    obtain ⟨⟨key', w⟩, hB⟩ := Option.isSome_iff_exists.mp (Finset.mem_filter.mp hb).2
    have hKey : key = key' := by simpa [hA, hB] using hEq
    exact hDistinct a b key v w hA (hKey ▸ hB)
  · intro key hKey
    obtain ⟨value, hLookup⟩ := Finmap.mem_iff.mp (Finmap.mem_keys.mp hKey)
    obtain ⟨q, hCell⟩ := (h key value).mp hLookup
    exact ⟨q, by simp [hCell], by simp [hCell]⟩

end Represents

end Probing
