import ReactDpdk.Core.Circular

/-! One thread pushing and consuming, in the order that `internal_thread::run`
writes down: read `front()`, then `pop_front()`. -/
namespace Nginz.BusMpSc
open Cyclic Transition

variable {T : Type*} {capacity : Nat}

inductive SequentialOp (T : Type*) where
  | push (given : T)
  | consume

/-- The ring with what its users have seen: the values whose `push` returned
0, and the values obtained by consumer rounds. -/
structure Sequential (T : Type*) (capacity : Nat) where
  ring : BusMpSc T capacity
  accepted : List T
  delivered : List T

namespace Sequential

def start (h : 2 ≤ capacity) (data : Fin capacity → T) : Sequential T capacity :=
  { ring := init h data, accepted := [], delivered := [] }

/-- `if not empty(): v = front(); pop_front()`. -/
def consumeRound (self : Sequential T capacity) : Sequential T capacity :=
  if self.ring.empty then self
  else { self with ring := self.ring.popFront, delivered := self.delivered ++ [self.ring.front] }

def pushRound (self : Sequential T capacity) (given : T) : Sequential T capacity :=
  let (ring, result) := self.ring.push given
  { self with ring := ring
              accepted := if result = 0 then self.accepted ++ [given] else self.accepted }

def step (self : Sequential T capacity) : SequentialOp T → Option (Sequential T capacity)
  | .push given => some (self.pushRound given)
  | .consume => some self.consumeRound

/-- The values obtained so far are the accepted ones, in order, as far as
consumed. -/
def Fifo (self : Sequential T capacity) : Prop := self.delivered <+: self.accepted

/-- A consumer round that takes a message finds in the slot that `front()`
reads the same value as in the slot of the oldest message. -/
def FrontIsOldest (self : Sequential T capacity) : SequentialOp T → Prop
  | .push _ => True
  | .consume => self.ring.empty = false →
      self.ring.front = self.ring.data (advance self.ring.readPos 1)

instance [DecidableEq T] (self : Sequential T capacity) : Decidable self.Fifo :=
  inferInstanceAs (Decidable (_ <+: _))

/-- Delivery runs one entry behind: the log is the initial content of slot 0
followed by the accepted values, and what was delivered is a prefix of it. -/
structure Shifted (queue : Sequential T capacity) (origin : Fin capacity) (log : List T)
    (r : Nat) : Prop where
  window : queue.ring.Window origin log r
  accepted : queue.accepted = log.tail
  delivered : queue.delivered = log.take r

theorem shifted_start (h : 2 ≤ capacity) (data : Fin capacity → T) :
    (start h data).Shifted (init h data).readPos [(init h data).front] 0 where
  window := window_init h data
  accepted := rfl
  delivered := rfl

variable {self : Sequential T capacity} {origin : Fin capacity} {log : List T} {r : Nat}

/-- A full ring drops the message, and nobody notices but the caller. -/
theorem pushRound_full (hFull : self.ring.writePos = self.ring.readPos) (given : T) :
    self.pushRound given = self := by
  simp [Sequential.pushRound, push_of_full hFull]

theorem Shifted.pushRound_room (h : self.Shifted origin log r) (hRoom : log.length < r + capacity)
    (given : T) : (self.pushRound given).Shifted origin (log ++ [given]) r := by
  have hSome := h.window.nonempty
  obtain ⟨hWindow, hResult⟩ := h.window.push hRoom given
  have hTail : (log ++ [given]).tail = log.tail ++ [given] :=
    List.tail_append_of_ne_nil (List.ne_nil_of_length_pos (by omega))
  refine ⟨hWindow, ?_, ?_⟩
  · simp [Sequential.pushRound, hResult, hTail, h.accepted]
  · rw [List.take_append_of_le_length hSome.le]
    exact h.delivered

theorem Shifted.pushRound (h : self.Shifted origin log r) (given : T) :
    ∃ log, (self.pushRound given).Shifted origin log r ∧ self.accepted <+: log.tail := by
  by_cases hFull : self.ring.writePos = self.ring.readPos
  · rw [pushRound_full hFull]
    exact ⟨log, h, by rw [h.accepted]⟩
  · have hLength := mt h.window.full_iff.mpr hFull
    have hBound := h.window.bounded
    have hSome := h.window.nonempty
    refine ⟨log ++ [given], h.pushRound_room (by omega) given, ?_⟩
    rw [List.tail_append_of_ne_nil (List.ne_nil_of_length_pos (by omega)), h.accepted]
    exact List.prefix_append ..

theorem Shifted.consumeRound (h : self.Shifted origin log r) (hMore : self.ring.empty = false) :
    self.consumeRound.Shifted origin log (r + 1) ∧
      self.consumeRound.delivered = self.delivered ++ [self.ring.front] := by
  have hLength : log.length ≠ r + 1 := by
    rw [Ne, ← h.window.empty_iff, hMore]
    exact Bool.false_ne_true
  have hNext : r + 1 < log.length := by
    have := h.window.nonempty
    omega
  refine ⟨⟨?_, ?_, ?_⟩, by simp [Sequential.consumeRound, hMore]⟩
  · simpa [Sequential.consumeRound, hMore] using h.window.popFront hNext
  · simpa [Sequential.consumeRound, hMore] using h.accepted
  · simp only [Sequential.consumeRound, hMore, Bool.false_eq_true, if_false]
    rw [List.take_add_one, h.window.front, h.delivered]
    rfl

/-- The shape is kept by every operation. -/
theorem Shifted.step {op : SequentialOp T} {next : Sequential T capacity}
    (h : self.Shifted origin log r) (hStep : self.step op = some next) :
    ∃ log r, next.Shifted origin log r := by
  cases op with
  | push given =>
      cases hStep
      obtain ⟨log, hNext, _⟩ := h.pushRound given
      exact ⟨log, r, hNext⟩
  | consume =>
      cases hStep
      cases hEmpty : self.ring.empty with
      | true =>
          have hSame : self.consumeRound = self := by simp [Sequential.consumeRound, hEmpty]
          exact ⟨log, r, hSame.symm ▸ h⟩
      | false => exact ⟨log, r + 1, (h.consumeRound hEmpty).1⟩

private theorem prefix_concat_iff {xs ys : List T} {x : T} (h : xs <+: ys) :
    xs ++ [x] <+: ys ↔ ys[xs.length]? = some x := by
  obtain ⟨rest, rfl⟩ := h
  rw [List.prefix_append_right_inj, List.getElem?_append_right (le_refl _), Nat.sub_self]
  cases rest <;> simp [eq_comm]

/-- One operation keeps the delivery order exactly when the value it reads is
that of the oldest message. -/
theorem Shifted.fifo_step_iff (h : self.Shifted origin log r) (hFifo : self.Fifo)
    (op : SequentialOp T) :
    self.FrontIsOldest op ↔ ∀ next, self.step op = some next → next.Fifo := by
  cases op with
  | push given =>
      simp only [FrontIsOldest, Sequential.step, Option.some.injEq, forall_eq', true_iff]
      obtain ⟨log', hNext, hPrefix⟩ := h.pushRound given
      have hDelivered : (self.pushRound given).delivered = self.delivered := rfl
      rw [Fifo, hDelivered, hNext.accepted]
      exact hFifo.trans hPrefix
  | consume =>
      simp only [FrontIsOldest, Sequential.step, Option.some.injEq, forall_eq']
      cases hEmpty : self.ring.empty with
      | true =>
          have hSame : self.consumeRound = self := by simp [Sequential.consumeRound, hEmpty]
          simp [hSame, hFifo]
      | false =>
          obtain ⟨hNext, hDelivered⟩ := h.consumeRound hEmpty
          have hLength : self.delivered.length = r := by
            rw [h.delivered, List.length_take]
            exact min_eq_left h.window.nonempty.le
          have hOldest : self.accepted[r]? =
              some (self.ring.data (advance self.ring.readPos 1)) := by
            rw [h.accepted, List.getElem?_tail]
            exact h.window.oldest hNext.window.nonempty
          have hKept : self.consumeRound.accepted = self.accepted :=
            hNext.accepted.trans h.accepted.symm
          rw [Fifo, hDelivered, hKept, prefix_concat_iff hFifo, hLength, hOldest]
          simp [eq_comm]

/-- The delivered values follow the accepted ones in every state of a run
exactly when every consumer round reads the value of the oldest message. -/
theorem fifo_iff_frontIsOldest (h : 2 ≤ capacity) (data : Fin capacity → T)
    (ops : List (SequentialOp T)) :
    AllStates step Fifo (start h data) ops ↔ AllSteps step FrontIsOldest (start h data) ops := by
  apply allStates_iff_allSteps fun s => ∃ origin log r, s.Shifted origin log r
  · rintro s op next ⟨origin, log, r, hs⟩ hStep
    exact ⟨origin, hs.step hStep⟩
  · rintro s op ⟨origin, log, r, hs⟩ hFifo
    exact hs.fifo_step_iff hFifo op
  · exact ⟨_, _, _, shifted_start h data⟩
  · exact List.prefix_refl []

end Sequential

/-- What a queue with room for so many messages was given while it had room, and how
many of these were taken out again. It knows nothing of slots, and says which
messages a ring has to deliver from the calls alone. -/
structure MessageQueue (T : Type*) where
  accepted : List T
  taken : Nat

namespace MessageQueue

def step (room : Nat) (self : MessageQueue T) : SequentialOp T → MessageQueue T
  | .push given =>
      if self.accepted.length < self.taken + room then
        { self with accepted := self.accepted ++ [given] }
      else self
  | .consume =>
      if self.taken < self.accepted.length then { self with taken := self.taken + 1 } else self

/-- The messages taken so far. -/
def consumed (self : MessageQueue T) : List T := self.accepted.take self.taken

/-- A message that is given is not taken yet. -/
theorem consumed_push (room : Nat) {self : MessageQueue T}
    (hTaken : self.taken ≤ self.accepted.length) (given : T) :
    (self.step room (.push given)).consumed = self.consumed := by
  by_cases hRoom : self.accepted.length < self.taken + room
  · rw [step, if_pos hRoom, consumed, consumed, List.take_append_of_le_length hTaken]
  · rw [step, if_neg hRoom]

theorem consumed_step (room : Nat) {self : MessageQueue T}
    (hTaken : self.taken ≤ self.accepted.length) (op : SequentialOp T) :
    self.consumed <+: (self.step room op).consumed := by
  cases op with
  | push given => rw [consumed_push room hTaken]
  | consume =>
      by_cases hMore : self.taken < self.accepted.length
      · rw [step, if_pos hMore]
        exact List.take_prefix_take_left (Nat.le_succ _)
      · rw [step, if_neg hMore]

theorem taken_step (room : Nat) {self : MessageQueue T}
    (hTaken : self.taken ≤ self.accepted.length) (op : SequentialOp T) :
    (self.step room op).taken ≤ (self.step room op).accepted.length := by
  cases op with
  | push given =>
      by_cases hRoom : self.accepted.length < self.taken + room
      · rw [step, if_pos hRoom, List.length_append]
        exact Nat.le_add_right_of_le hTaken
      · rw [step, if_neg hRoom]
        exact hTaken
  | consume =>
      by_cases hMore : self.taken < self.accepted.length
      · rw [step, if_pos hMore]
        exact hMore
      · rw [step, if_neg hMore]
        exact hTaken

/-- What was taken stays taken. -/
theorem consumed_foldl (room : Nat) {self : MessageQueue T}
    (hTaken : self.taken ≤ self.accepted.length) (ops : List (SequentialOp T)) :
    self.consumed <+: (ops.foldl (step room) self).consumed := by
  induction ops generalizing self with
  | nil => exact List.prefix_refl _
  | cons op ops ih =>
      exact (consumed_step room hTaken op).trans (ih (taken_step room hTaken op))

end MessageQueue

/-- The messages that a queue with room for so many hands to its consumer. -/
def consumedMessages (room : Nat) (ops : List (SequentialOp T)) : List T :=
  (ops.foldl (MessageQueue.step room) { accepted := [], taken := 0 }).consumed

namespace Sequential
variable {self : Sequential T capacity} {queue : MessageQueue T} {first : T}

/-- The ring accepts and drops what such a queue does; behind what it delivers stands
the initial content of slot 0. -/
def Follows (self : Sequential T capacity) (queue : MessageQueue T) (first : T) : Prop :=
  ∃ origin, self.Shifted origin (first :: queue.accepted) queue.taken

theorem Follows.taken_le (h : self.Follows queue first) :
    queue.taken ≤ queue.accepted.length := by
  obtain ⟨_, hShifted⟩ := h
  exact Nat.lt_succ_iff.mp hShifted.window.nonempty

/-- A ring of `capacity` slots has room for one message less. -/
theorem Follows.step (h : self.Follows queue first) {op : SequentialOp T}
    {next : Sequential T capacity} (hStep : self.step op = some next) :
    next.Follows (queue.step (capacity - 1) op) first := by
  obtain ⟨origin, hShifted⟩ := h
  have hBound := hShifted.window.bounded
  have hCapacity := origin.pos
  rw [List.length_cons] at hBound
  cases op with
  | push given =>
      cases hStep
      have hFull := hShifted.window.full_iff
      rw [List.length_cons] at hFull
      by_cases hRoom : queue.accepted.length < queue.taken + (capacity - 1)
      · rw [MessageQueue.step, if_pos hRoom]
        refine ⟨origin, hShifted.pushRound_room ?_ given⟩
        rw [List.length_cons]
        omega
      · rw [MessageQueue.step, if_neg hRoom, pushRound_full (hFull.mpr (by omega))]
        exact ⟨origin, hShifted⟩
  | consume =>
      cases hStep
      have hEmpty := hShifted.window.empty_iff
      rw [List.length_cons, Nat.add_right_cancel_iff] at hEmpty
      have hTaken := Follows.taken_le ⟨origin, hShifted⟩
      by_cases hMore : queue.taken < queue.accepted.length
      · rw [MessageQueue.step, if_pos hMore]
        refine ⟨origin, (hShifted.consumeRound ?_).1⟩
        rw [Bool.eq_false_iff, Ne, hEmpty]
        omega
      · have hSame : self.consumeRound = self := by
          rw [Sequential.consumeRound, if_pos (hEmpty.mpr (by omega))]
        rw [MessageQueue.step, if_neg hMore, hSame]
        exact ⟨origin, hShifted⟩

/-- Where all that was consumed equals the initial content of slot 0, so does what
the next round reads, which should be the next message. -/
theorem Follows.frontIsOldest_iff (h : self.Follows queue first)
    (hSame : ∀ v ∈ queue.consumed, v = first) (op : SequentialOp T) :
    self.FrontIsOldest op ↔ ∀ v ∈ (queue.step (capacity - 1) op).consumed, v = first := by
  cases op with
  | push given =>
      rw [MessageQueue.consumed_push _ h.taken_le]
      exact ⟨fun _ => hSame, fun _ => trivial⟩
  | consume =>
      obtain ⟨origin, hShifted⟩ := id h
      have hEmpty := hShifted.window.empty_iff
      rw [List.length_cons, Nat.add_right_cancel_iff] at hEmpty
      by_cases hMore : queue.taken < queue.accepted.length
      · have hNotEmpty : self.ring.empty = false := by
          rw [Bool.eq_false_iff, Ne, hEmpty]
          omega
        have hNext := hShifted.window.oldest
          (by rw [List.length_cons]; omega)
        rw [List.getElem?_cons_succ] at hNext
        have hFront : self.ring.front = first := by
          have hRead := hShifted.window.front
          cases hTaken : queue.taken with
          | zero =>
              rw [hTaken, List.getElem?_cons_zero] at hRead
              exact (Option.some.inj hRead).symm
          | succ r =>
              rw [hTaken, List.getElem?_cons_succ] at hRead
              refine hSame _ (List.mem_of_getElem? (i := r) ?_)
              rw [MessageQueue.consumed, List.getElem?_take_of_lt (by omega), hRead]
        rw [MessageQueue.step, if_pos hMore, MessageQueue.consumed, List.take_add_one, hNext,
          FrontIsOldest, hFront]
        simp only [hNotEmpty, true_imp_iff, Option.toList_some, List.forall_mem_append,
          List.forall_mem_singleton]
        exact ⟨fun hOldest => ⟨hSame, hOldest.symm⟩, fun hAll => hAll.2.symm⟩
      · have hIsEmpty : self.ring.empty = true := hEmpty.mpr (by have := h.taken_le; omega)
        rw [MessageQueue.step, if_neg hMore, FrontIsOldest, hIsEmpty]
        exact ⟨fun _ => hSame, fun _ => nofun⟩

/-- So the rounds of a run read the oldest message as long as the messages equal
the initial content of slot 0. -/
theorem Follows.allSteps_iff (h : self.Follows queue first)
    (hSame : ∀ v ∈ queue.consumed, v = first) (ops : List (SequentialOp T)) :
    AllSteps Sequential.step FrontIsOldest self ops ↔
      ∀ v ∈ (ops.foldl (MessageQueue.step (capacity - 1)) queue).consumed, v = first := by
  induction ops generalizing self queue with
  | nil => exact ⟨fun _ => hSame, fun _ => trivial⟩
  | cons op ops ih =>
      have hHere := h.frontIsOldest_iff hSame op
      constructor
      · rintro ⟨hOldest, hRest⟩
        obtain ⟨next, hStep⟩ : ∃ next, self.step op = some next := by
          cases op <;> exact ⟨_, rfl⟩
        exact (ih (h.step hStep) (hHere.mp hOldest)).mp (hRest next hStep)
      · intro hAll
        have hTaken := MessageQueue.taken_step (capacity - 1) h.taken_le op
        have hNext : ∀ v ∈ (queue.step (capacity - 1) op).consumed, v = first := fun v hMem =>
          hAll v ((MessageQueue.consumed_foldl _ hTaken ops).subset hMem)
        exact ⟨hHere.mpr hNext, fun next hStep => (ih (h.step hStep) hNext).mpr hAll⟩

/-- For every ring and every sequence of pushes and consumer rounds: the values
obtained follow the accepted ones, in every state of the run, exactly when every
message that a queue of `capacity - 1` places would have delivered by then equals the
initial content of slot 0. -/
theorem fifo_iff_consumed_initial (h : 2 ≤ capacity) (data : Fin capacity → T)
    (ops : List (SequentialOp T)) :
    AllStates step Fifo (start h data) ops ↔
      ∀ v ∈ consumedMessages (capacity - 1) ops, v = data ⟨0, Nat.zero_lt_of_lt h⟩ := by
  rw [fifo_iff_frontIsOldest]
  exact Follows.allSteps_iff ⟨_, shifted_start h data⟩ nofun ops

theorem fifo_iff_consumed_initial_two :
    AllStates step Fifo (start (le_refl 2) fun _ => 7) [.push 7, .consume, .consume, .push 8] :=
  (fifo_iff_consumed_initial (le_refl 2) (fun _ => 7) _).mpr (by decide)

/-- The first value obtained is what slot 0 held before any push. -/
theorem first_delivery_is_stale :
    ¬ ∀ (capacity : Nat) (h : 2 ≤ capacity) (data : Fin capacity → Nat)
      (ops : List (SequentialOp Nat)), AllStates step Fifo (start h data) ops := by
  intro hAll
  exact absurd (hAll 2 (le_refl 2) (fun _ => 0) [.push 7, .consume]) (by decide)

end Sequential

end Nginz.BusMpSc
