import Mathlib.Data.Finset.Card

/-! How many of a changing set of holders hold one thing. Nothing is said here
about what a holder is; each rule below is about one holder that comes, goes or
changes what it holds. -/
namespace Holders

variable {Holder Content : Type*} [DecidableEq Content]

/-- One for the content that is held, zero for every other. -/
def unit (held : Option Content) (c : Content) : Nat := if held = some c then 1 else 0

/-- The number of live holders that hold the content. -/
def count (live : Finset Holder) (held : Holder → Option Content) (c : Content) : Nat :=
  (live.filter fun h => held h = some c).card

@[simp]
theorem unit_none (c : Content) : unit none c = 0 := rfl

@[simp]
theorem unit_self (c : Content) : unit (some c) c = 1 := if_pos rfl

theorem unit_of_ne {held : Option Content} {c : Content} (h : held ≠ some c) : unit held c = 0 :=
  if_neg h

theorem unit_some_of_ne {c d : Content} (h : d ≠ c) : unit (some c) d = 0 :=
  unit_of_ne fun hEq => h (Option.some.inj hEq).symm

@[simp]
theorem count_empty (held : Holder → Option Content) (c : Content) : count ∅ held c = 0 := rfl

variable {live : Finset Holder} {held held' : Holder → Option Content} {h : Holder}

theorem count_congr (hSame : ∀ k ∈ live, held k = held' k) (c : Content) :
    count live held c = count live held' c := by
  unfold count
  congr 1
  exact Finset.filter_congr fun k hk => by rw [hSame k hk]

variable [DecidableEq Holder]

/-- A holder that goes takes its share with it. -/
theorem count_erase (hLive : h ∈ live) (held : Holder → Option Content) (c : Content) :
    count (live.erase h) held c + unit (held h) c = count live held c := by
  unfold count unit
  rw [Finset.filter_erase]
  split
  · rename_i hHere
    exact Finset.card_erase_add_one (Finset.mem_filter.mpr ⟨hLive, hHere⟩)
  · rename_i hOther
    have hNotMem : h ∉ live.filter fun k => held k = some c := fun hMem =>
      hOther (Finset.mem_filter.mp hMem).2
    rw [Finset.erase_eq_of_notMem hNotMem, Nat.add_zero]

/-- A holder that comes brings its share. -/
theorem count_insert (hNew : h ∉ live) (held : Holder → Option Content) (x : Option Content)
    (c : Content) :
    count (insert h live) (Function.update held h x) c = count live held c + unit x c := by
  have hRest : count live (Function.update held h x) c = count live held c := by
    refine count_congr (fun k hk => ?_) c
    have hNe : k ≠ h := fun hEq => hNew (hEq ▸ hk)
    exact Function.update_of_ne hNe x held
  have hErase := count_erase (Finset.mem_insert_self h live) (Function.update held h x) c
  rw [Finset.erase_insert hNew, Function.update_self, hRest] at hErase
  exact hErase.symm

/-- A holder that changes gives up one share and gains another. -/
theorem count_update (hLive : h ∈ live) (held : Holder → Option Content) (x : Option Content)
    (c : Content) :
    count live (Function.update held h x) c + unit (held h) c = count live held c + unit x c := by
  have hRest : count (live.erase h) (Function.update held h x) c =
      count (live.erase h) held c := by
    refine count_congr (fun k hk => ?_) c
    exact Function.update_of_ne (Finset.ne_of_mem_erase hk) x held
  have hBefore := count_erase hLive held c
  have hAfter := count_erase hLive (Function.update held h x) c
  rw [Function.update_self, hRest] at hAfter
  omega

end Holders
