import Mathlib.Data.Fintype.Card
import Mathlib.Data.Fintype.BigOperators
import Mathlib.Data.Nat.ModEq
import Mathlib.Tactic.Ring

/-! Positions of a ring of `n` cells, walked forwards. A walk of fewer than
`n` steps never meets a cell twice, and a walk of `n` steps meets them all. -/
namespace Cyclic

variable {n : Nat}

/-- The position `i` places after `p`, wrapping at the end of the ring. -/
def advance (p : Fin n) (i : Nat) : Fin n := ⟨(i + p) % n, Nat.mod_lt _ p.pos⟩

/-- How many places after `p` the position `q` first comes. -/
def distance (p q : Fin n) : Nat := (q + (n - p)) % n

@[simp]
theorem advance_val (p : Fin n) (i : Nat) : (advance p i : Nat) = (i + p) % n := rfl

@[simp]
theorem advance_zero (p : Fin n) : advance p 0 = p := by
  apply Fin.ext
  simp [Nat.mod_eq_of_lt p.isLt]

theorem advance_advance (p : Fin n) (i j : Nat) :
    advance (advance p i) j = advance p (i + j) := by
  apply Fin.ext
  simp only [advance_val, Nat.add_mod_mod]
  congr 1
  omega

/-- One more step along a walk. -/
theorem advance_succ (p : Fin n) (i : Nat) : advance (advance p i) 1 = advance p (i + 1) :=
  advance_advance p i 1

theorem distance_lt (p q : Fin n) : distance p q < n := Nat.mod_lt _ p.pos

theorem advance_distance (p q : Fin n) : advance p (distance p q) = q := by
  apply Fin.ext
  have hp := p.isLt
  simp only [advance_val, distance, Nat.mod_add_mod]
  rw [show (q : Nat) + (n - p) + p = q + n by omega, Nat.add_mod_right,
    Nat.mod_eq_of_lt q.isLt]

/-- Two counters less than a whole turn apart stand for the same position
only when they are equal. -/
theorem advance_window_inj {p : Fin n} {i j : Nat} (hij : i ≤ j) (hWindow : j < i + n)
    (h : advance p i = advance p j) : i = j := by
  have hMod : i + p ≡ j + p [MOD n] := congrArg Fin.val h
  have hDvd : n ∣ j - i := (Nat.modEq_iff_dvd' hij).mp (Nat.ModEq.add_right_cancel' _ hMod)
  have hZero : j - i = 0 := Nat.eq_zero_of_dvd_of_lt hDvd (by omega)
  omega

theorem advance_inj {p : Fin n} {i j : Nat} (hi : i < n) (hj : j < n) :
    advance p i = advance p j ↔ i = j := by
  constructor
  · intro h
    rcases Nat.le_total i j with hij | hji
    · exact advance_window_inj hij (by omega) h
    · exact (advance_window_inj hji (by omega) h.symm).symm
  · rintro rfl
    rfl

theorem distance_advance {p : Fin n} {i : Nat} (hi : i < n) : distance p (advance p i) = i :=
  (advance_inj (distance_lt _ _) hi).mp (advance_distance p _)

/-- The way from one counter to a later one, less than a turn ahead. -/
theorem distance_window {p : Fin n} {i j : Nat} (hij : i ≤ j) (hWindow : j < i + n) :
    distance (advance p i) (advance p j) = j - i := by
  have hTarget : advance p j = advance (advance p i) (j - i) := by
    rw [advance_advance, Nat.add_sub_cancel' hij]
  rw [hTarget, distance_advance (by omega)]

/-- `q` lies after `p` and before `r` on a walk from `p`. When `r` is `p` the
walk is a whole turn, so that every other position lies between. -/
def StrictlyBetween (p q r : Fin n) : Prop :=
  0 < distance p q ∧ (p = r ∨ distance p q < distance p r)

instance (p q r : Fin n) : Decidable (StrictlyBetween p q r) :=
  inferInstanceAs (Decidable (_ ∧ _))

/-- Counters strictly inside a window of at most one turn. -/
theorem strictlyBetween_window {p : Fin n} {i j k : Nat} (hij : i < j) (hjk : j < k)
    (hWindow : k ≤ i + n) : StrictlyBetween (advance p i) (advance p j) (advance p k) := by
  rw [StrictlyBetween, distance_window hij.le (by omega)]
  refine ⟨by omega, ?_⟩
  rcases Nat.lt_or_eq_of_le hWindow with hLess | hTurn
  · rw [distance_window (hij.trans hjk).le hLess]
    exact Or.inr (by omega)
  · refine Or.inl (Fin.ext ?_)
    rw [hTurn, advance_val, advance_val, Nat.add_right_comm, Nat.add_mod_right]

/-- How many of the first `i` positions of the walk from `p` are marked. -/
def countBefore (mark : Fin n → Bool) (p : Fin n) (i : Nat) : Nat :=
  ((Finset.range i).filter fun k => mark (advance p k)).card

@[simp]
theorem countBefore_zero (mark : Fin n → Bool) (p : Fin n) : countBefore mark p 0 = 0 := rfl

theorem countBefore_succ (mark : Fin n → Bool) (p : Fin n) (i : Nat) :
    countBefore mark p (i + 1) = countBefore mark p i + (mark (advance p i)).toNat := by
  unfold countBefore
  rw [Finset.range_add_one, Finset.filter_insert]
  cases hMark : mark (advance p i) with
  | false => simp
  | true => simp [Finset.card_insert_of_notMem]

theorem countBefore_mono (mark : Fin n → Bool) (p : Fin n) {i j : Nat} (h : i ≤ j) :
    countBefore mark p i ≤ countBefore mark p j := by
  unfold countBefore
  apply Finset.card_le_card
  apply Finset.filter_subset_filter
  exact Finset.range_subset_range.mpr h

/-- A whole turn counts every marked cell once, wherever the walk starts. -/
theorem countBefore_turn (mark : Fin n → Bool) (p : Fin n) :
    countBefore mark p n = (Finset.univ.filter fun q => mark q).card := by
  unfold countBefore
  refine Finset.card_bij (fun k _ => advance p k) ?_ ?_ ?_
  · intro k hk
    simpa using (Finset.mem_filter.mp hk).2
  · intro i hi j hj h
    exact (advance_inj (by simpa using (Finset.mem_filter.mp hi).1)
      (by simpa using (Finset.mem_filter.mp hj).1)).mp h
  · intro q hq
    refine ⟨distance p q, ?_, advance_distance p q⟩
    simpa [advance_distance, distance_lt] using hq

/-- Before it reaches a marked cell, a walk has counted fewer marked cells
than there are. This is why a walk may stop once it has counted them all. -/
theorem countBefore_lt_card {mark : Fin n → Bool} {p : Fin n} {i : Nat} (hi : i < n)
    (hMark : mark (advance p i) = true) :
    countBefore mark p i < (Finset.univ.filter fun q => mark q).card := by
  have hNext : countBefore mark p (i + 1) = countBefore mark p i + 1 := by
    rw [countBefore_succ, hMark, Bool.toNat_true]
  have hBound := countBefore_mono mark p (show i + 1 ≤ n from hi)
  rw [countBefore_turn] at hBound
  omega

/-- Changing one cell changes a count of cells by that cell alone. -/
theorem card_filter_update {α : Type*} (mark : α → Bool) (cells : Fin n → α) (p : Fin n) (x : α) :
    (Finset.univ.filter fun q => mark (Function.update cells p x q)).card + (mark (cells p)).toNat =
      (Finset.univ.filter fun q => mark (cells q)).card + (mark x).toNat := by
  have hSplit (f : Fin n → α) : (Finset.univ.filter fun q => mark (f q)).card =
      (mark (f p)).toNat + ∑ q ∈ Finset.univ.erase p, (mark (f q)).toNat := by
    rw [Finset.card_filter,
      Finset.add_sum_erase _ (fun q => (mark (f q)).toNat) (Finset.mem_univ p)]
    exact Finset.sum_congr rfl fun q _ => by cases mark (f q) <;> rfl
  have hRest : ∑ q ∈ Finset.univ.erase p, (mark (Function.update cells p x q)).toNat =
      ∑ q ∈ Finset.univ.erase p, (mark (cells q)).toNat := by
    refine Finset.sum_congr rfl fun q hq => ?_
    rw [Function.update_of_ne (Finset.ne_of_mem_erase hq)]
  rw [hSplit (Function.update cells p x), hSplit cells, hRest, Function.update_self]
  omega

end Cyclic
