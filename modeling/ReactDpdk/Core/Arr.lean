import ReactDpdk.General.Transition
import Mathlib.Logic.Function.Basic

/-! `Arr` of `core/buffer.hxx`, the list of fixed capacity. `none` as a result is an
assertion that failed. What it holds is compared with the list of what was pushed. -/
namespace Nginz
open Transition

/-- The template at any element type. No operation takes `cnt` past the array. -/
structure Arr (T : Type*) (capacity : Nat) where
  data : Fin capacity → T
  cnt : Nat
  cnt_le : cnt ≤ capacity

namespace Arr
variable {T : Type*} {capacity : Nat}

/-- The empty list; the array holds whatever its elements start as. -/
def init (data : Fin capacity → T) : Arr T capacity :=
  { data := data, cnt := 0, cnt_le := Nat.zero_le capacity }

/-- An iterator, by its offset from `data`. -/
abbrev Iterator : Type := Nat

def beginItr (_self : Arr T capacity) : Iterator := 0

def endItr (self : Arr T capacity) : Iterator := self.cnt

/-- `*it`. -/
def deref (self : Arr T capacity) (it : Iterator) : Option T :=
  if h : it < capacity then some (self.data ⟨it, h⟩) else none

/-- The element behind the last one is stored, and counted. -/
def append (self : Arr T capacity) (given : T) : Option (Arr T capacity) :=
  if h : self.cnt < capacity then
    some { data := Function.update self.data ⟨self.cnt, h⟩ given, cnt := self.cnt + 1, cnt_le := h }
  else none

def pushBack (self : Arr T capacity) (given : T) : Option (Arr T capacity) := self.append given

/-- The moved value is stored; what is left of the given one is not modelled. -/
def emplace (self : Arr T capacity) (given : T) : Option (Arr T capacity) := self.append given

/-- The element that `back` refers to. Its assertion also asks for a free one. -/
def backSlot (self : Arr T capacity) (ridx : Nat) : Option (Fin capacity) :=
  if h : ridx < self.cnt ∧ self.cnt < capacity then some ⟨self.cnt - 1 - ridx, by omega⟩ else none

def back (self : Arr T capacity) (ridx : Nat) : Option T := (self.backSlot ridx).map self.data

/-- A store through the reference that `back` returns. -/
def setBack (self : Arr T capacity) (ridx : Nat) (given : T) : Option (Arr T capacity) :=
  (self.backSlot ridx).map fun slot => { self with data := Function.update self.data slot given }

/-- `operator[]`. -/
def index (self : Arr T capacity) (idx : Nat) : Option T :=
  if h : idx < self.cnt then some (self.data ⟨idx, Nat.lt_of_lt_of_le h self.cnt_le⟩) else none

def empty (self : Arr T capacity) : Bool := self.cnt == 0

def size (self : Arr T capacity) : Nat := self.cnt

/-- The values of a number of elements from an iterator on. -/
def visit (self : Arr T capacity) : Nat → Iterator → Option (List T)
  | 0, _ => some []
  | n + 1, it => do
      let value ← self.deref it
      let rest ← self.visit n (it + 1)
      some (value :: rest)

/-- What a loop from `begin()` to `end()` sees. -/
def elements (self : Arr T capacity) : Option (List T) :=
  self.visit (self.endItr - self.beginItr) self.beginItr

/-- A call that adds an element. -/
inductive ArrOp (T : Type*) where
  | pushBack (given : T)
  | emplace (given : T)

def ArrOp.given : ArrOp T → T
  | .pushBack given => given
  | .emplace given => given

def step (self : Arr T capacity) : ArrOp T → Option (Arr T capacity)
  | .pushBack given => self.pushBack given
  | .emplace given => self.emplace given

/-- Every access to the list gives what was pushed, without failing. -/
structure IsList (arr : Arr T capacity) (pushed : List T) : Prop where
  size : arr.size = pushed.length
  index : ∀ i < arr.size, ∃ value, arr.index i = some value ∧ pushed[i]? = some value
  back : ∀ r < arr.size, ∃ value, arr.back r = some value ∧ pushed.reverse[r]? = some value
  elements : arr.elements = some pushed

/-- What is in the list. -/
def contents (self : Arr T capacity) : List T :=
  List.ofFn fun i : Fin self.cnt => self.data (i.castLE self.cnt_le)

variable {self next : Arr T capacity} {given : T}

@[simp]
theorem length_contents (self : Arr T capacity) : self.contents.length = self.cnt :=
  List.length_ofFn

@[simp]
theorem contents_init (data : Fin capacity → T) : (init data).contents = [] := rfl

theorem getElem?_contents {i : Nat} (h : i < self.cnt) :
    self.contents[i]? = some (self.data ⟨i, Nat.lt_of_lt_of_le h self.cnt_le⟩) := by
  rw [contents, List.getElem?_ofFn, dif_pos h]
  rfl

/-- With room for one more, the element is added behind the others. -/
theorem append_of_room (h : self.cnt < capacity) (given : T) :
    ∃ next, self.append given = some next ∧ next.contents = self.contents ++ [given] := by
  refine ⟨_, dif_pos h, ?_⟩
  rw [contents, List.ofFn_succ_last]
  congr 1
  · rw [contents]
    congr 1
    funext i
    have hNe : (i.castSucc.castLE h : Fin capacity) ≠ ⟨self.cnt, h⟩ := fun hEq =>
      Nat.ne_of_lt i.isLt (congrArg Fin.val hEq)
    exact Function.update_of_ne hNe ..
  · exact congrArg (fun value => [value]) (Function.update_self ..)

theorem append_of_full (h : self.cnt = capacity) (given : T) : self.append given = none :=
  dif_neg (by omega)

theorem contents_append (h : self.append given = some next) :
    next.contents = self.contents ++ [given] := by
  rcases Nat.lt_or_eq_of_le self.cnt_le with hRoom | hFull
  · obtain ⟨stored, hStored, hContents⟩ := append_of_room hRoom given
    rw [h, Option.some.injEq] at hStored
    rw [hStored, hContents]
  · rw [append_of_full hFull] at h
    cases h

/-- `operator[]` reads the list, and asserts that it does not read behind it. -/
theorem index_eq (self : Arr T capacity) (idx : Nat) : self.index idx = self.contents[idx]? := by
  unfold index
  split
  · rename_i h
    exact (getElem?_contents h).symm
  · rename_i h
    rw [List.getElem?_eq_none]
    rw [length_contents]
    omega

/-- So does `back`, from the end, while one element is free. -/
theorem back_of_room (h : self.cnt < capacity) (ridx : Nat) :
    self.back ridx = self.contents.reverse[ridx]? := by
  by_cases hInside : ridx < self.cnt
  · have hSlot : self.backSlot ridx = some ⟨self.cnt - 1 - ridx, by omega⟩ :=
      dif_pos ⟨hInside, h⟩
    rw [List.getElem?_reverse (by rwa [length_contents]), length_contents,
      getElem?_contents (by omega), back, hSlot]
    rfl
  · have hSlot : self.backSlot ridx = none := dif_neg fun hBoth => hInside hBoth.1
    have hNone : self.contents.reverse[ridx]? = none := by
      apply List.getElem?_eq_none
      rw [List.length_reverse, length_contents]
      omega
    rw [hNone, back, hSlot]
    rfl

theorem backSlot_of_full (h : self.cnt = capacity) (ridx : Nat) : self.backSlot ridx = none :=
  dif_neg (by omega)

theorem room_of_back {ridx : Nat} {value : T} (h : self.back ridx = some value) :
    self.cnt < capacity := by
  rcases Nat.lt_or_eq_of_le self.cnt_le with hRoom | hFull
  · exact hRoom
  · rw [back, backSlot_of_full hFull] at h
    cases h

theorem contents_update (self : Arr T capacity) (slot : Fin capacity) (given : T) :
    { self with data := Function.update self.data slot given : Arr T capacity }.contents =
      self.contents.set slot given := by
  apply List.ext_getElem?
  intro i
  rw [List.getElem?_set, length_contents]
  by_cases hInside : i < self.cnt
  · have hUpdated : self.cnt = ({ self with data := Function.update self.data slot given } :
        Arr T capacity).cnt := rfl
    rw [getElem?_contents hInside, getElem?_contents (hUpdated ▸ hInside)]
    by_cases hSame : slot = i
    · subst hSame
      rw [if_pos rfl, if_pos hInside]
      exact congrArg some (Function.update_self ..)
    · rw [if_neg hSame]
      have hNe : (⟨i, Nat.lt_of_lt_of_le hInside self.cnt_le⟩ : Fin capacity) ≠ slot := fun hEq =>
        hSame (congrArg Fin.val hEq).symm
      exact congrArg some (Function.update_of_ne hNe ..)
  · have hBehind : self.contents[i]? = none := by
      apply List.getElem?_eq_none
      rw [length_contents]
      omega
    rw [hBehind, List.getElem?_eq_none (by rw [length_contents]; exact Nat.le_of_not_lt hInside)]
    split
    · rename_i hSame
      rw [if_neg (hSame ▸ hInside)]
    · rfl

/-- A store through `back` replaces the last element. -/
theorem setBack_of_room (h : self.cnt < capacity) {before : List T} {last : T}
    (hContents : self.contents = before ++ [last]) (given : T) :
    ∃ next, self.setBack 0 given = some next ∧ next.contents = before ++ [given] := by
  have hCnt : self.cnt = before.length + 1 := by
    rw [← length_contents, hContents, List.length_append, List.length_singleton]
  have hSlot : self.backSlot 0 = some ⟨self.cnt - 1 - 0, by omega⟩ := dif_pos ⟨by omega, h⟩
  refine ⟨_, by rw [setBack, hSlot, Option.map_some], ?_⟩
  have hLast : self.cnt - 1 - 0 = before.length := by omega
  rw [contents_update, hContents]
  show (before ++ [last]).set (self.cnt - 1 - 0) given = before ++ [given]
  rw [hLast, List.set_append_right _ _ (Nat.le_refl _), Nat.sub_self]
  rfl

/-- A loop over some elements sees that part of the list. -/
theorem visit_eq {n it : Nat} (h : it + n ≤ self.cnt) :
    self.visit n it = some ((self.contents.drop it).take n) := by
  induction n generalizing it with
  | zero => simp [visit]
  | succ n ih =>
      have hHere : it < self.cnt := by omega
      have hCapacity : it < capacity := Nat.lt_of_lt_of_le hHere self.cnt_le
      have hDeref : self.deref it = some (self.data ⟨it, hCapacity⟩) := dif_pos hCapacity
      have hGet := getElem?_contents hHere
      have hSplit : self.contents.drop it =
          self.data ⟨it, hCapacity⟩ :: self.contents.drop (it + 1) := by
        obtain ⟨hLt, hValue⟩ := List.getElem?_eq_some_iff.mp hGet
        rw [← List.getElem_cons_drop hLt, hValue]
      rw [visit, hDeref, ih (by omega), hSplit]
      rfl

theorem elements_eq (self : Arr T capacity) : self.elements = some self.contents := by
  have hLength := self.length_contents
  rw [elements, visit_eq (by simp [beginItr, endItr]), beginItr, endItr, List.drop_zero, Nat.sub_zero,
    ← hLength, List.take_length]

theorem step_eq (self : Arr T capacity) (op : ArrOp T) : self.step op = self.append op.given := by
  cases op <;> rfl

/-- As long as there is room for all, they are pushed one behind the other. -/
theorem run_of_room {ops : List (ArrOp T)} (h : self.cnt + ops.length ≤ capacity) :
    ∃ next, run step self ops = some next ∧
      next.contents = self.contents ++ ops.map ArrOp.given := by
  induction ops generalizing self with
  | nil => exact ⟨self, rfl, by simp⟩
  | cons op ops ih =>
      rw [List.length_cons] at h
      obtain ⟨middle, hStep, hMiddle⟩ := append_of_room (show self.cnt < capacity by omega) op.given
      have hCnt : middle.cnt = self.cnt + 1 := by
        rw [← length_contents, hMiddle, List.length_append, length_contents,
          List.length_singleton]
      obtain ⟨next, hRun, hNext⟩ := ih (show middle.cnt + ops.length ≤ capacity by omega)
      refine ⟨next, ?_, ?_⟩
      · rw [run, step_eq, hStep, Option.bind_some, hRun]
      · rw [hNext, hMiddle, List.append_assoc]
        rfl

/-- A list gives back what it holds exactly when one element is free, or there is
nothing to give back. -/
theorem isList_iff : self.IsList self.contents ↔ self.contents = [] ∨ self.cnt < capacity := by
  constructor
  · intro h
    by_contra hFull
    rw [not_or] at hFull
    have hSome : 0 < self.cnt := by
      rw [← length_contents]
      exact List.length_pos_iff.mpr hFull.1
    obtain ⟨value, hBack, _⟩ := h.back 0 hSome
    have hTurn := self.cnt_le
    rw [back, backSlot_of_full (by omega)] at hBack
    cases hBack
  · intro hRoom
    constructor
    case size => exact self.length_contents.symm
    case index =>
      intro i hi
      exact ⟨_, by rw [index_eq, getElem?_contents hi], getElem?_contents hi⟩
    case back =>
      intro r hr
      have hLength := self.length_contents
      have hFree : self.cnt < capacity := by
        rcases hRoom with hNone | hFree
        · rw [hNone, List.length_nil] at hLength
          rw [size] at hr
          omega
        · exact hFree
      have hInside : r < self.contents.reverse.length := by
        rwa [List.length_reverse, hLength]
      exact ⟨_, by rw [back_of_room hFree, List.getElem?_eq_getElem hInside],
        List.getElem?_eq_getElem hInside⟩
    case elements => exact self.elements_eq

/-- For every capacity and all calls that fit: none fails, and the list gives back
what was pushed exactly when fewer than `capacity` elements were, or none. The last
element fills the array, and `back` asserts that it is not full. -/
theorem pushed_list_iff (data : Fin capacity → T) {ops : List (ArrOp T)}
    (h : ops.length ≤ capacity) :
    (∃ arr, run step (init data) ops = some arr ∧ arr.IsList (ops.map ArrOp.given)) ↔
      ops = [] ∨ ops.length < capacity := by
  have hStart : (init data).cnt + ops.length ≤ capacity := by
    rwa [init, Nat.zero_add]
  obtain ⟨arr, hRun, hContents⟩ := run_of_room hStart
  rw [contents_init, List.nil_append] at hContents
  have hCnt : arr.cnt = ops.length := by
    rw [← length_contents, hContents, List.length_map]
  have hIff : arr.IsList arr.contents ↔ arr.contents = [] ∨ arr.cnt < capacity := isList_iff
  rw [hContents, List.map_eq_nil_iff, hCnt] at hIff
  rw [hRun]
  constructor
  · rintro ⟨_, hSame, hList⟩
    cases hSame
    exact hIff.mp hList
  · intro hRoom
    exact ⟨arr, rfl, hIff.mpr hRoom⟩

theorem pushed_list_iff_room :
    ∃ arr, run step (init fun _ : Fin 3 => 0) [.pushBack 7, .emplace 8] = some arr ∧
      arr.IsList [7, 8] :=
  (pushed_list_iff (fun _ => 0) (by decide)).mpr (Or.inr (by decide))

/-- The last element of a full list cannot be had from `back`. -/
theorem full_list_has_no_back :
    ¬ ∀ (capacity : Nat) (data : Fin capacity → Nat) (ops : List (ArrOp Nat)),
      ops.length ≤ capacity →
      ∃ arr, run step (init data) ops = some arr ∧ arr.IsList (ops.map ArrOp.given) := by
  intro hAll
  obtain ⟨arr, hRun, hList⟩ := hAll 1 (fun _ => 0) [.pushBack 7] (by decide)
  obtain ⟨full, hFull, hContents⟩ : ∃ full, run step (init fun _ : Fin 1 => 0) [.pushBack 7] =
      some full ∧ full.contents = [7] := run_of_room (by decide)
  rw [hFull, Option.some.injEq] at hRun
  subst hRun
  have hCnt : full.cnt = 1 := by
    rw [← length_contents, hContents]
    rfl
  obtain ⟨value, hBack, _⟩ := hList.back 0 (show 0 < full.cnt by omega)
  rw [back, backSlot_of_full hCnt] at hBack
  cases hBack

section Loops
variable {State : Type*} (body : Iterator → T → State → Option (T × State))

/-- A loop over references to a number of elements: the body may change the element
it is at, and what is around the loop. -/
def forRefs : Nat → Iterator → Arr T capacity → State → Option (Arr T capacity × State)
  | 0, _, self, state => some (self, state)
  | n + 1, it, self, state =>
      if h : it < capacity then do
        let (value, state) ← body it (self.data ⟨it, h⟩) state
        forRefs n (it + 1) { self with data := Function.update self.data ⟨it, h⟩ value } state
      else none

/-- `for(auto& value : self)`. -/
def forEach (self : Arr T capacity) (state : State) : Option (Arr T capacity × State) :=
  forRefs body (self.endItr - self.beginItr) self.beginItr self state

/-- The same loop over a list. -/
def forList : Iterator → List T → State → Option (List T × State)
  | _, [], state => some ([], state)
  | it, value :: rest, state => do
      let (value, state) ← body it value state
      let (rest, state) ← forList (it + 1) rest state
      some (value :: rest, state)

theorem contents_drop {it : Nat} (h : it < self.cnt) : self.contents.drop it =
    self.data ⟨it, Nat.lt_of_lt_of_le h self.cnt_le⟩ :: self.contents.drop (it + 1) := by
  obtain ⟨hLt, hValue⟩ := List.getElem?_eq_some_iff.mp (getElem?_contents h)
  rw [← List.getElem_cons_drop hLt, hValue]

variable {body}

/-- What the loop leaves is what the loop over the list leaves. -/
theorem contents_forRefs {n it : Nat} (h : it + n = self.cnt) (state : State) :
    (forRefs body n it self state).map (fun ret => (ret.1.contents, ret.2)) =
      (forList body it (self.contents.drop it) state).map fun ret =>
        (self.contents.take it ++ ret.1, ret.2) := by
  induction n generalizing it self state with
  | zero =>
      have hEnd : self.contents.length ≤ it := by
        rw [length_contents]
        omega
      rw [List.drop_eq_nil_of_le hEnd, forRefs, forList, Option.map_some, Option.map_some,
        List.take_of_length_le hEnd, List.append_nil]
  | succ n ih =>
      have hHere : it < self.cnt := by omega
      have hCapacity : it < capacity := Nat.lt_of_lt_of_le hHere self.cnt_le
      rw [contents_drop hHere, forRefs, forList, dif_pos hCapacity]
      cases body it (self.data ⟨it, hCapacity⟩) state with
      | none => rfl
      | some ret =>
          let stored : Arr T capacity :=
            { self with data := Function.update self.data ⟨it, hCapacity⟩ ret.1 }
          have hStored : stored.contents = self.contents.set it ret.1 := contents_update ..
          have hRest := @ih stored (it + 1) (show it + 1 + n = self.cnt by omega) ret.2
          have hLength : it < self.contents.length := by rwa [length_contents]
          rw [hStored, List.drop_set_of_lt (Nat.lt_succ_self it), List.take_add_one,
            List.take_set, List.set_eq_of_length_le (List.length_take_le ..),
            List.getElem?_set_self hLength] at hRest
          refine hRest.trans ?_
          simp only [Option.bind_eq_bind, Option.bind_some]
          cases forList body (it + 1) (self.contents.drop (it + 1)) ret.2 with
          | none => rfl
          | some last => simp

theorem contents_forEach (self : Arr T capacity) (state : State) :
    (self.forEach body state).map (fun ret => (ret.1.contents, ret.2)) =
      forList body 0 self.contents state := by
  have hAll : self.beginItr + (self.endItr - self.beginItr) = self.cnt := Nat.zero_add _
  rw [forEach, contents_forRefs hAll, beginItr, List.drop_zero, List.take_zero]
  cases forList body 0 self.contents state <;> rfl

/-- A body that stores by the element alone: what is around the loop makes a run over
the elements and their positions. -/
theorem forList_apart {store : T × Iterator → T} {act : State → T × Iterator → Option State}
    {values : List T}
    (h : ∀ it, ∀ value ∈ values, ∀ state,
      body it value state = (act state (value, it)).map fun state => (store (value, it), state))
    (it : Iterator) (state : State) : forList body it values state =
      (run act state (values.zipIdx it)).map
        fun state => ((values.zipIdx it).map store, state) := by
  induction values generalizing it state with
  | nil => rfl
  | cons value rest ih =>
      have hRest := ih fun it other hMem => h it other (List.mem_cons_of_mem _ hMem)
      rw [forList, List.zipIdx_cons, run, h it value (List.mem_cons_self ..)]
      cases act state (value, it) with
      | none => rfl
      | some next =>
          simp only [Option.map_some, Option.bind_eq_bind, Option.bind_some, hRest, List.map_cons]
          cases run act next (rest.zipIdx (it + 1)) <;> rfl

theorem forEach_apart (self : Arr T capacity)
    (body : Iterator → T → State → Option (T × State)) (store : T × Iterator → T)
    (act : State → T × Iterator → Option State)
    (h : ∀ it, ∀ value ∈ self.contents, ∀ state,
      body it value state = (act state (value, it)).map fun state => (store (value, it), state))
    (state : State) : (self.forEach body state).map (fun ret => (ret.1.contents, ret.2)) =
      (run act state self.contents.zipIdx).map fun state =>
        (self.contents.zipIdx.map store, state) := by
  rw [contents_forEach, forList_apart h]

end Loops

end Arr
end Nginz
