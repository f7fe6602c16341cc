import ReactDpdk.Core.Circular

/-! How many messages a ring of one thread holds. The answers of `empty`, `push`
and `back` are compared with what was accepted and popped so far. An array of
`capacity` elements fits in memory, so no position overflows before its `%`. -/
namespace Nginz.BusMpSc
open Cyclic Transition

variable {T : Type*} {capacity : Nat}

inductive RingOp (T : Type*) where
  | push (given : T)
  | popFront

/-- The ring with the accepted messages, each with the slot that its `push` wrote,
and the number of pops. -/
structure Occupied (T : Type*) (capacity : Nat) where
  ring : BusMpSc T capacity
  accepted : List (Fin capacity × T)
  popped : Nat

namespace Occupied

def start (h : 2 ≤ capacity) (data : Fin capacity → T) : Occupied T capacity :=
  { ring := init h data, accepted := [], popped := 0 }

/-- `pop_front` is called only while `empty()` is false. -/
def step (self : Occupied T capacity) : RingOp T → Option (Occupied T capacity)
  | .push given =>
      let (ring, result) := self.ring.push given
      some { self with
        ring := ring
        accepted := if result = 0 then self.accepted ++ [(self.ring.writePos, given)]
                    else self.accepted }
  | .popFront =>
      if self.ring.empty then none
      else some { self with ring := self.ring.popFront, popped := self.popped + 1 }

/-- The messages accepted and not yet popped. -/
def waiting (self : Occupied T capacity) : List (Fin capacity × T) :=
  self.accepted.drop self.popped

def occupancy (self : Occupied T capacity) : Int := self.accepted.length - self.popped

/-- The ring tells exactly how many messages wait in it, each in a slot that no
`push` writes, and which message was accepted last. -/
structure OccupancyExact (queue : Occupied T capacity) : Prop where
  bounds : 0 ≤ queue.occupancy ∧ queue.occupancy ≤ capacity - 1
  empty : queue.ring.empty = true ↔ queue.occupancy = 0
  refused : ∀ given, (queue.ring.push given).2 = -1 ↔ queue.occupancy = capacity - 1
  dropped : ∀ given, (queue.ring.push given).2 = -1 → (queue.ring.push given).1 = queue.ring
  stored : ∀ given, (queue.ring.push given).2 ≠ -1 → (queue.ring.push given).2 = 0 ∧
    ∃ slot, (∀ message ∈ queue.waiting, message.1 ≠ slot) ∧
      (queue.ring.push given).1.data = Function.update queue.ring.data slot given
  held : ∀ message ∈ queue.waiting, queue.ring.data message.1 = message.2
  back : ∀ message, queue.accepted.getLast? = some message → queue.ring.back = message.2

/-- The ring is a window on what it was first, followed by what was accepted, and
each message lies in the slot of its number. -/
structure Counted (queue : Occupied T capacity) (origin : Fin capacity) (first : T) : Prop where
  window : queue.ring.Window origin (first :: queue.accepted.map Prod.snd) queue.popped
  slots : ∀ k message, queue.accepted[k]? = some message → message.1 = advance origin (k + 1)

theorem counted_start (h : 2 ≤ capacity) (data : Fin capacity → T) :
    (start h data).Counted (init h data).readPos (init h data).front where
  window := window_init h data
  slots := nofun

variable {self next : Occupied T capacity} {origin : Fin capacity} {first : T}

/-- The window spans the waiting messages and the slot read last. -/
theorem Counted.lengths (h : self.Counted origin first) :
    self.popped ≤ self.accepted.length ∧ self.accepted.length + 1 ≤ self.popped + capacity := by
  have hSome := h.window.nonempty
  have hBound := h.window.bounded
  rw [List.length_cons, List.length_map] at hSome hBound
  exact ⟨Nat.lt_succ_iff.mp hSome, hBound⟩

theorem Counted.empty_iff (h : self.Counted origin first) :
    self.ring.empty = true ↔ self.accepted.length = self.popped := by
  rw [h.window.empty_iff, List.length_cons, List.length_map]
  omega

theorem Counted.full_iff (h : self.Counted origin first) :
    self.ring.writePos = self.ring.readPos ↔
      self.accepted.length + 1 = self.popped + capacity := by
  rw [h.window.full_iff, List.length_cons, List.length_map]

/-- The next message goes to the slot of its number. -/
theorem Counted.writePos_eq (h : self.Counted origin first) :
    self.ring.writePos = advance origin (self.accepted.length + 1) := by
  rw [h.window.write, List.length_cons, List.length_map]

/-- A waiting message by its number. -/
theorem Counted.mem_waiting (h : self.Counted origin first) {message : Fin capacity × T}
    (hMem : message ∈ self.waiting) :
    ∃ k, self.popped ≤ k ∧ k < self.accepted.length ∧ self.accepted[k]? = some message ∧
      message.1 = advance origin (k + 1) := by
  obtain ⟨i, hGet⟩ := List.mem_iff_getElem?.mp hMem
  rw [waiting, List.getElem?_drop] at hGet
  have hLt := (List.getElem?_eq_some_iff.mp hGet).1
  exact ⟨self.popped + i, Nat.le_add_right .., hLt, hGet, h.slots _ _ hGet⟩

/-- The entry of a message in the log lies one behind its number. -/
theorem Counted.data_of_getElem? (h : self.Counted origin first) {k : Nat}
    {message : Fin capacity × T} (hPopped : self.popped ≤ k + 1)
    (hGet : self.accepted[k]? = some message) :
    self.ring.data (advance origin (k + 1)) = message.2 := by
  apply h.window.held (k + 1) message.2 hPopped
  rw [List.getElem?_cons_succ, List.getElem?_map, hGet]
  rfl

/-- While there is room, no message waits in the slot that is written next. -/
theorem Counted.waiting_ne_writePos (h : self.Counted origin first)
    (hRoom : self.ring.writePos ≠ self.ring.readPos) {message : Fin capacity × T}
    (hMem : message ∈ self.waiting) : message.1 ≠ self.ring.writePos := by
  intro hSame
  have hLengths := h.lengths
  have hNotFull := mt h.full_iff.mpr hRoom
  obtain ⟨k, hFrom, hBelow, _, hSlot⟩ := h.mem_waiting hMem
  rw [hSlot, h.writePos_eq] at hSame
  -- two numbers less than a turn apart have different slots
  have hNumber := advance_window_inj (by omega) (by omega) hSame
  omega

/-- The slot before the one written next is that of the last message. -/
theorem Counted.back_eq (h : self.Counted origin first) {message : Fin capacity × T}
    (hLast : self.accepted.getLast? = some message) : self.ring.back = message.2 := by
  have hGet : self.accepted[self.accepted.length - 1]? = some message := by
    rw [← List.getLast?_eq_getElem?]
    exact hLast
  have hLt := (List.getElem?_eq_some_iff.mp hGet).1
  have hLengths := h.lengths
  have hBack : advance self.ring.writePos (capacity - 1) =
      advance origin (self.accepted.length - 1 + 1) := by
    rw [h.writePos_eq, advance_advance]
    apply Fin.ext
    rw [advance_val, advance_val, ← Nat.add_mod_right (self.accepted.length - 1 + 1 + origin)]
    congr 1
    omega
  rw [BusMpSc.back, hBack]
  exact h.data_of_getElem? (by omega) hGet

/-- An accepted message extends the window, in the slot behind the last one. -/
theorem Counted.pushed (h : self.Counted origin first)
    (hRoom : self.ring.writePos ≠ self.ring.readPos) (given : T) :
    Counted { self with ring := (self.ring.push given).1
                        accepted := self.accepted ++ [(self.ring.writePos, given)] }
      origin first where
  window := by
    have hNotFull := mt h.full_iff.mpr hRoom
    have hLengths := h.lengths
    have hLess : (first :: self.accepted.map Prod.snd).length < self.popped + capacity := by
      rw [List.length_cons, List.length_map]
      omega
    have hWindow := (h.window.push hLess given).1
    rwa [List.cons_append, ← List.map_singleton (f := Prod.snd) (a := (self.ring.writePos, given)),
      ← List.map_append] at hWindow
  slots := by
    intro k message hGet
    rcases Nat.lt_or_ge k self.accepted.length with hOld | hNew
    · rw [List.getElem?_append_left hOld] at hGet
      exact h.slots k message hGet
    · have hLast : k = self.accepted.length := by
        have hLt := (List.getElem?_eq_some_iff.mp hGet).1
        rw [List.length_append, List.length_singleton] at hLt
        omega
      subst hLast
      rw [List.getElem?_concat_length] at hGet
      cases hGet
      exact h.writePos_eq

/-- The shape is kept by every operation. -/
theorem Counted.step {op : RingOp T} (h : self.Counted origin first)
    (hStep : self.step op = some next) : next.Counted origin first := by
  cases op with
  | push given =>
      by_cases hFull : self.ring.writePos = self.ring.readPos
      · simp only [Occupied.step, push_of_full hFull] at hStep
        cases hStep
        exact h
      · have hPushed := h.pushed hFull given
        simp only [push_of_room hFull] at hPushed
        simp only [Occupied.step, push_of_room hFull, if_true] at hStep
        cases hStep
        exact hPushed
  | popFront =>
      cases hEmpty : self.ring.empty with
      | true => simp [Occupied.step, hEmpty] at hStep
      | false =>
          have hSome : self.accepted.length ≠ self.popped := by
            rw [Ne, ← h.empty_iff, hEmpty]
            exact Bool.false_ne_true
          have hLengths := h.lengths
          simp only [Occupied.step, hEmpty, Bool.false_eq_true, if_false] at hStep
          cases hStep
          refine ⟨h.window.popFront ?_, h.slots⟩
          rw [List.length_cons, List.length_map]
          omega

/-- Every answer can be read off the shape. -/
theorem Counted.occupancyExact (h : self.Counted origin first) : self.OccupancyExact := by
  obtain ⟨hPopped, hTurn⟩ := h.lengths
  constructor
  case bounds =>
    rw [occupancy]
    omega
  case empty =>
    rw [h.empty_iff, occupancy]
    omega
  case refused =>
    intro given
    have hFull := h.full_iff
    by_cases hHere : self.ring.writePos = self.ring.readPos
    · have hCount := hFull.mp hHere
      rw [push_of_full hHere, occupancy]
      omega
    · have hCount := mt hFull.mpr hHere
      rw [push_of_room hHere, occupancy]
      constructor
      · intro hRefused
        cases hRefused
      · intro hOccupancy
        omega
  case dropped =>
    intro given hRefused
    by_cases hFull : self.ring.writePos = self.ring.readPos
    · rw [push_of_full hFull]
    · rw [push_of_room hFull] at hRefused
      cases hRefused
  case stored =>
    intro given hStored
    by_cases hFull : self.ring.writePos = self.ring.readPos
    · rw [push_of_full hFull] at hStored
      exact absurd rfl hStored
    · rw [push_of_room hFull]
      exact ⟨rfl, self.ring.writePos, fun _ hMem => h.waiting_ne_writePos hFull hMem, rfl⟩
  case held =>
    intro message hMem
    obtain ⟨k, hFrom, _, hGet, hSlot⟩ := h.mem_waiting hMem
    rw [hSlot]
    exact h.data_of_getElem? (by omega) hGet
  case back => exact fun _ hLast => h.back_eq hLast

/-- In every state of every run, with any number of wraps: the positions count what
was pushed and not popped, so `empty` and the refusal of a push say the truth, and a
ring of `capacity` slots has room for one message less. -/
theorem occupancy_exact (h : 2 ≤ capacity) (data : Fin capacity → T) (ops : List (RingOp T)) :
    AllStates step OccupancyExact (start h data) ops := by
  have hCounted : AllStates step
      (fun s => s.Counted (init h data).readPos (init h data).front) (start h data) ops := by
    apply allStates_of_invariant
    · intro s op t hs hStep
      exact hs.step hStep
    · exact counted_start h data
  exact hCounted.mono fun _ hs => hs.occupancyExact

/-- Two slots hold one message at a time. -/
theorem occupancy_exact_two :
    AllStates step OccupancyExact (start (le_refl 2) fun _ => 0)
      [.push 7, .push 8, .popFront, .push 9, .popFront] :=
  occupancy_exact (le_refl 2) (fun _ => 0) _

end Occupied

end Nginz.BusMpSc
