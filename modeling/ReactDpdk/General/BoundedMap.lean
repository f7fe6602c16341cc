import Mathlib.Algebra.BigOperators.Group.Finset.Basic
import Mathlib.Algebra.Order.BigOperators.Group.Finset
import Mathlib.Data.Finmap

/-! What a map with room for a fixed number of entries is for: a finite map
that refuses new entries once it is full. Nothing is said here about slots,
hashing or probing. -/
namespace BoundedMap

variable {Key Value : Type*} [DecidableEq Key]

/-- A finite map from keys to values. -/
abbrev Contents (Key Value : Type*) := Finmap fun _ : Key => Value

/-- The number of entries. -/
def size (m : Contents Key Value) : Nat := m.keys.card

inductive Op (Key Value : Type*) where
  | emplace (key : Key) (value : Value)
  | find (key : Key)
  | erase (key : Key)

/-- What a caller learns from one operation. The answer of `emplace` is not
part of it: only its effect on the map counts. -/
inductive Answer (Key Value : Type*) where
  | emplaced
  | found (entry : Option (Key × Value))
  | erased (done : Bool)

structure Observation (Key Value : Type*) where
  answer : Answer Key Value
  size : Nat
  empty : Bool
  full : Bool

/-- An answer together with the sizes that can be read after it. -/
def observe (capacity : Nat) (answer : Answer Key Value) (count : Nat) : Observation Key Value :=
  { answer := answer, size := count, empty := count == 0, full := count == capacity }

/-- The map after an operation. A full map refuses every `emplace`. -/
def next (capacity : Nat) (m : Contents Key Value) : Op Key Value → Contents Key Value
  | .emplace key value => if size m < capacity then m.insert key value else m
  | .find _ => m
  | .erase key => m.erase key

/-- The answer an operation gives on a map. -/
def answer (m : Contents Key Value) : Op Key Value → Answer Key Value
  | .emplace _ _ => .emplaced
  | .find key => .found ((m.lookup key).map fun value => (key, value))
  | .erase key => .erased (m.lookup key).isSome

/-- One operation with everything that can be observed of it. -/
def spec (capacity : Nat) (m : Contents Key Value) (op : Op Key Value) :
    Contents Key Value × Observation Key Value :=
  (next capacity m op, observe capacity (answer m op) (size (next capacity m op)))

theorem size_insert_of_absent {m : Contents Key Value} {key : Key} (value : Value)
    (h : m.lookup key = none) : size (m.insert key value) = size m + 1 := by
  have hKeys : (m.insert key value).keys = insert key m.keys := by
    ext k
    simp [Finmap.mem_keys, Finmap.mem_insert]
  have hAbsent : key ∉ m.keys := fun hMem =>
    Finmap.lookup_eq_none.mp h (Finmap.mem_keys.mp hMem)
  rw [size, hKeys, Finset.card_insert_of_notMem hAbsent, size]

theorem size_insert_of_present {m : Contents Key Value} {key : Key} {old : Value} (value : Value)
    (h : m.lookup key = some old) : size (m.insert key value) = size m := by
  have hKeys : (m.insert key value).keys = m.keys := by
    ext k
    have hMem := Finmap.mem_of_lookup_eq_some h
    by_cases hk : k = key <;> simp [Finmap.mem_keys, Finmap.mem_insert, hk, hMem]
  rw [size, hKeys, size]

theorem size_erase_of_present {m : Contents Key Value} {key : Key} {old : Value}
    (h : m.lookup key = some old) : size (m.erase key) + 1 = size m := by
  have hMem : key ∈ m.keys := Finmap.mem_keys.mpr (Finmap.mem_of_lookup_eq_some h)
  rw [size, Finmap.keys_erase, Finset.card_erase_add_one hMem, size]

theorem erase_of_absent {m : Contents Key Value} {key : Key} (h : m.lookup key = none) :
    m.erase key = m := by
  apply Finmap.ext_lookup
  intro k
  by_cases hk : k = key
  · rw [hk, Finmap.lookup_erase, h]
  · exact Finmap.lookup_erase_ne hk

/-- The map with the entry of one key set or removed. -/
def assign (m : Contents Key Value) (key : Key) : Option Value → Contents Key Value
  | some value => m.insert key value
  | none => m.erase key

@[simp]
theorem lookup_assign (m : Contents Key Value) (key k : Key) (value : Option Value) :
    (assign m key value).lookup k = if k = key then value else m.lookup k := by
  by_cases hk : k = key
  · subst hk
    cases value <;> simp [assign]
  · cases value with
    | none => simp [assign, hk]
    | some value => simp [assign, Finmap.lookup_insert_of_ne _ hk, hk]

@[simp]
theorem assign_assign (m : Contents Key Value) (key : Key) (first second : Option Value) :
    assign (assign m key first) key second = assign m key second := by
  apply Finmap.ext_lookup
  intro k
  by_cases hk : k = key <;> simp [hk]

/-- Setting a key to what it has changes nothing. -/
theorem assign_lookup {m : Contents Key Value} {key : Key} {value : Option Value}
    (h : m.lookup key = value) : assign m key value = m := by
  apply Finmap.ext_lookup
  intro k
  by_cases hk : k = key
  · subst hk
    rw [lookup_assign, if_pos rfl, h]
  · rw [lookup_assign, if_neg hk]

/-- The entries of distinct keys can be set in either order. -/
theorem assign_comm {first second : Key} (hNe : first ≠ second) (m : Contents Key Value)
    (v w : Option Value) :
    assign (assign m first v) second w = assign (assign m second w) first v := by
  apply Finmap.ext_lookup
  intro k
  by_cases hFirst : k = first
  · simp [hFirst, hNe]
  · by_cases hSecond : k = second <;> simp [hFirst, hSecond, hNe.symm]

theorem size_assign_le (m : Contents Key Value) (key : Key) (value : Option Value) :
    size (assign m key value) ≤ size m + 1 := by
  cases hLookup : m.lookup key with
  | none =>
      cases value with
      | none => rw [assign_lookup hLookup]; omega
      | some value => rw [assign, size_insert_of_absent value hLookup]
  | some old =>
      cases value with
      | none =>
          have hErase := size_erase_of_present hLookup
          rw [assign]
          omega
      | some value => rw [assign, size_insert_of_present value hLookup]; omega

theorem size_congr {Other : Type*} {m : Contents Key Value} {n : Contents Key Other}
    (h : ∀ key, (m.lookup key).isSome = (n.lookup key).isSome) : size m = size n := by
  have hKeys : m.keys = n.keys := by
    ext key
    rw [Finmap.mem_keys, Finmap.mem_keys, ← Finmap.lookup_isSome, ← Finmap.lookup_isSome, h]
  rw [size, size, hKeys]

section Weight
variable (f : Value → Nat) {m : Contents Key Value}

/-- The sum of a measure over the entries. -/
def weight (m : Contents Key Value) : Nat := ∑ key ∈ m.keys, (m.lookup key).elim 0 f

/-- Keys without an entry count for nothing. -/
theorem weight_eq_sum {s : Finset Key} (h : m.keys ⊆ s) :
    weight f m = ∑ key ∈ s, (m.lookup key).elim 0 f := by
  apply Finset.sum_subset h
  intro key _ hNot
  rw [Finmap.lookup_eq_none.mpr fun hMem => hNot (Finmap.mem_keys.mpr hMem), Option.elim_none]

/-- A new entry adds its measure, in the place of what was there. -/
theorem weight_assign (m : Contents Key Value) (key : Key) (value : Option Value) :
    weight f (assign m key value) + (m.lookup key).elim 0 f =
      weight f m + value.elim 0 f := by
  have hKeys : (assign m key value).keys ⊆ insert key m.keys := by
    intro k hMem
    rw [Finmap.mem_keys, ← Finmap.lookup_isSome, lookup_assign] at hMem
    rw [Finset.mem_insert, Finmap.mem_keys, ← Finmap.lookup_isSome]
    split at hMem
    · rename_i hKey
      exact Or.inl hKey
    · exact Or.inr hMem
  have hHere : key ∈ insert key m.keys := Finset.mem_insert_self ..
  rw [weight_eq_sum f hKeys, weight_eq_sum f (Finset.subset_insert key m.keys),
    ← Finset.add_sum_erase _ _ hHere, ← Finset.add_sum_erase _ _ hHere, lookup_assign, if_pos rfl]
  have hRest : ∑ k ∈ (insert key m.keys).erase key, ((assign m key value).lookup k).elim 0 f =
      ∑ k ∈ (insert key m.keys).erase key, (m.lookup k).elim 0 f := by
    apply Finset.sum_congr rfl
    intro k hMem
    rw [lookup_assign, if_neg (Finset.ne_of_mem_erase hMem)]
  rw [hRest]
  omega

theorem weight_le {bound : Nat} (h : ∀ value, f value ≤ bound) :
    weight f m ≤ bound * size m := by
  have hEach (key : Key) (_ : key ∈ m.keys) : (m.lookup key).elim 0 f ≤ bound := by
    cases m.lookup key with
    | none => exact Nat.zero_le bound
    | some value => exact h value
  have hSum := Finset.sum_le_card_nsmul m.keys (fun key => (m.lookup key).elim 0 f) bound hEach
  rwa [Nat.nsmul_eq_mul, Nat.mul_comm] at hSum

end Weight

end BoundedMap
