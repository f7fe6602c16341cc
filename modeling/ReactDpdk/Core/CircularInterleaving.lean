import ReactDpdk.Core.Circular

/-! Several producers and one consumer on one ring, each load and store a step
of its own. The steps of all threads interleave in any order. -/
namespace Nginz.BusMpSc
open Cyclic Transition

/-- How far a producer is inside `push`. It keeps the positions it loaded. -/
inductive PushPc (T : Type*) (capacity : Nat) where
  | idle
  | loadedWrite (given : T) (wp : Fin capacity)
  | loadedBoth (given : T) (wp rp : Fin capacity)
  | notFull (given : T) (wp : Fin capacity)
  | stored (given : T) (wp : Fin capacity)

/-- The slot is written and not published yet. -/
def PushPc.isStored {T : Type*} {capacity : Nat} : PushPc T capacity → Bool
  | .stored _ _ => true
  | _ => false

/-- How far the consumer is in `if not empty(), pop_front(), then front()`. -/
inductive PopPc (capacity : Nat) where
  | idle
  | loadedWrite (wp : Fin capacity)
  | nonEmpty
  | loadedRead (rp : Fin capacity)
  | popped
  | atFront (rp : Fin capacity)

inductive BusEvent (P T : Type*) where
  | beginPush (p : P) (given : T)
  | producer (p : P)
  | consumer

/-- The shared ring and the local state of each thread. The last three fields
only record: the messages accepted and not yet popped with the slots their
pushes wrote, all accepted values, and all values read from `front()`. -/
structure Interleaved (P T : Type*) (capacity : Nat) where
  ring : BusMpSc T capacity
  push : P → PushPc T capacity
  pop : PopPc capacity
  live : List (Fin capacity × T)
  accepted : List T
  consumed : List T

namespace Interleaved
variable {P T : Type*} {capacity : Nat} [DecidableEq P]

def start (P : Type*) (h : 2 ≤ capacity) (data : Fin capacity → T) : Interleaved P T capacity :=
  { ring := init h data, push := fun _ => .idle, pop := .idle, live := [], accepted := [],
    consumed := [] }

def setPush (self : Interleaved P T capacity) (p : P) (pc : PushPc T capacity) :
    Interleaved P T capacity := { self with push := Function.update self.push p pc }

/-- The next step of a producer that is inside `push`. -/
def producerStep (self : Interleaved P T capacity) (p : P) : Option (Interleaved P T capacity) :=
  match self.push p with
  | .idle => none
  | .loadedWrite given wp => some (self.setPush p (.loadedBoth given wp self.ring.readPos))
  | .loadedBoth given wp rp =>
      if wp = rp then some (self.setPush p .idle) -- `return -1`
      else some (self.setPush p (.notFull given wp))
  | .notFull given wp =>
      some { self.setPush p (.stored given wp) with ring := self.ring.setData wp given }
  | .stored given wp => -- `return 0`
      some { self.setPush p .idle with
        ring := { self.ring with writePos := advance wp 1 }
        live := self.live ++ [(wp, given)]
        accepted := self.accepted ++ [given] }

/-- The next step of the consumer. Storing `readPos` pops the messages in the
slot it moves to. -/
def consumerStep (self : Interleaved P T capacity) : Interleaved P T capacity :=
  match self.pop with
  | .idle => { self with pop := .loadedWrite self.ring.writePos }
  | .loadedWrite wp =>
      if advance self.ring.readPos 1 = wp then { self with pop := .idle }
      else { self with pop := .nonEmpty }
  | .nonEmpty => { self with pop := .loadedRead self.ring.readPos }
  | .loadedRead rp =>
      { self with
        ring := { self.ring with readPos := advance rp 1 }
        pop := .popped
        live := self.live.filter fun message => message.1 ≠ advance rp 1 }
  | .popped => { self with pop := .atFront self.ring.readPos }
  | .atFront rp => { self with pop := .idle, consumed := self.consumed ++ [self.ring.data rp] }

/-- A call of `push`, up to its load of `writePos`. -/
def beginPush (self : Interleaved P T capacity) (p : P) (given : T) :
    Option (Interleaved P T capacity) :=
  match self.push p with
  | .idle => some (self.setPush p (.loadedWrite given self.ring.writePos))
  | _ => none

def step (self : Interleaved P T capacity) : BusEvent P T → Option (Interleaved P T capacity)
  | .beginPush p given => self.beginPush p given
  | .producer p => self.producerStep p
  | .consumer => some self.consumerStep

/-- Every accepted message that was not popped has a slot of its own strictly
between the positions, and the slot holds the value pushed. -/
def LiveSafe (self : Interleaved P T capacity) : Prop :=
  (self.live.map Prod.fst).Nodup ∧ ∀ message ∈ self.live,
    StrictlyBetween self.ring.readPos message.1 self.ring.writePos ∧
      self.ring.data message.1 = message.2

/-- A producer writes its slot only while the position it loaded is still the
current one, the ring is not full, and no other producer has a slot written
that it has not published. -/
def Exclusive (self : Interleaved P T capacity) : BusEvent P T → Prop
  | .producer p =>
      match self.push p with
      | .notFull _ wp => wp = self.ring.writePos ∧ wp ≠ self.ring.readPos ∧
          ∀ q, (self.push q).isStored = false
      | _ => True
  | _ => True

instance [DecidableEq T] (self : Interleaved P T capacity) : Decidable self.LiveSafe :=
  inferInstanceAs (Decidable (_ ∧ _))

instance [Fintype P] (self : Interleaved P T capacity) (event : BusEvent P T) :
    Decidable (self.Exclusive event) :=
  match event with
  | .producer p =>
      match h : self.push p with
      | .notFull _ wp => decidable_of_iff (wp = self.ring.writePos ∧ wp ≠ self.ring.readPos ∧
          ∀ q, (self.push q).isStored = false) (by simp [Exclusive, h])
      | .idle | .loadedWrite _ _ | .loadedBoth _ _ _ | .stored _ _ =>
          .isTrue (by simp [Exclusive, h])
  | .beginPush _ _ => .isTrue trivial
  | .consumer => .isTrue trivial

/-- Everything one step can do. -/
inductive BusMove (self : Interleaved P T capacity) :
    BusEvent P T → Interleaved P T capacity → Prop where
  | consumed : BusMove self .consumer self.consumerStep
  | begun {p : P} {given : T} : BusMove self (.beginPush p given)
      (self.setPush p (.loadedWrite given self.ring.writePos))
  | loadedRead {p : P} {given : T} {wp : Fin capacity}
      (hPush : self.push p = .loadedWrite given wp) :
      BusMove self (.producer p) (self.setPush p (.loadedBoth given wp self.ring.readPos))
  | refused {p : P} {given : T} {wp rp : Fin capacity}
      (hPush : self.push p = .loadedBoth given wp rp) :
      BusMove self (.producer p) (self.setPush p .idle)
  | passed {p : P} {given : T} {wp rp : Fin capacity}
      (hPush : self.push p = .loadedBoth given wp rp) (hRoom : wp ≠ rp) :
      BusMove self (.producer p) (self.setPush p (.notFull given wp))
  | written {p : P} {given : T} {wp : Fin capacity} (hPush : self.push p = .notFull given wp) :
      BusMove self (.producer p)
        { self.setPush p (.stored given wp) with ring := self.ring.setData wp given }
  | published {p : P} {given : T} {wp : Fin capacity} (hPush : self.push p = .stored given wp) :
      BusMove self (.producer p)
        { self.setPush p .idle with
          ring := { self.ring with writePos := advance wp 1 }
          live := self.live ++ [(wp, given)]
          accepted := self.accepted ++ [given] }

theorem busMove {self next : Interleaved P T capacity} {event : BusEvent P T}
    (h : self.step event = some next) : self.BusMove event next := by
  cases event with
  | consumer =>
      cases h
      exact .consumed
  | beginPush p given =>
      have hBegin : self.beginPush p given = some next := h
      unfold beginPush at hBegin
      split at hBegin
      · cases hBegin
        exact .begun
      · cases hBegin
  | producer p =>
      have hProducer : self.producerStep p = some next := h
      unfold producerStep at hProducer
      split at hProducer
      · cases hProducer
      · rename_i hPush
        cases hProducer
        exact .loadedRead hPush
      · rename_i hPush
        split at hProducer
        · cases hProducer
          exact .refused hPush
        · rename_i hRoom
          cases hProducer
          exact .passed hPush hRoom
      · rename_i hPush
        cases hProducer
        exact .written hPush
      · rename_i hPush
        cases hProducer
        exact .published hPush

/-- What the consumer's local copy says about the window, stale or not. -/
def PopOrderly (pop : PopPc capacity) (readPos origin : Fin capacity) (length r : Nat) : Prop :=
  match pop with
  | .loadedWrite wp => ∃ w, r < w ∧ w ≤ length ∧ wp = advance origin w
  | .nonEmpty => r + 1 < length
  | .loadedRead rp => rp = readPos ∧ r + 1 < length
  | _ => True

theorem PopOrderly.mono {pop : PopPc capacity} {readPos origin : Fin capacity}
    {length length' r : Nat} (h : PopOrderly pop readPos origin length r)
    (hLe : length ≤ length') : PopOrderly pop readPos origin length' r := by
  cases pop with
  | loadedWrite wp =>
      obtain ⟨w, hLow, hHigh, hCopy⟩ := h
      exact ⟨w, hLow, hHigh.trans hLe, hCopy⟩
  | nonEmpty => exact Nat.lt_of_lt_of_le h hLe
  | loadedRead rp => exact ⟨h.1, Nat.lt_of_lt_of_le h.2 hLe⟩
  | idle => trivial
  | popped => trivial
  | atFront rp => trivial

/-- The invariant of runs with exclusive writes: the ring is a window on the
log, the live messages are its unread entries, and at most one producer has a
slot written and unpublished, which is the slot at `writePos`. -/
structure Orderly (bus : Interleaved P T capacity) (origin : Fin capacity) (log : List T)
    (r : Nat) : Prop where
  window : bus.ring.Window origin log r
  live : ∀ message, message ∈ bus.live ↔
    ∃ k, r < k ∧ log[k]? = some message.2 ∧ message.1 = advance origin k
  distinct : (bus.live.map Prod.fst).Nodup
  stored : ∀ p given wp, bus.push p = .stored given wp → wp = bus.ring.writePos ∧
    wp ≠ bus.ring.readPos ∧ bus.ring.data wp = given ∧ ∀ q, (bus.push q).isStored = true → q = p
  pop : PopOrderly bus.pop bus.ring.readPos origin log.length r

variable {self : Interleaved P T capacity} {origin : Fin capacity} {log : List T} {r : Nat}

omit [DecidableEq P] in
theorem orderly_start (h : 2 ≤ capacity) (data : Fin capacity → T) :
    (start P h data).Orderly (init h data).readPos [(init h data).front] 0 where
  window := window_init h data
  live := by
    intro message
    simp only [start, List.not_mem_nil, false_iff, not_exists, not_and]
    intro k hk hGet
    rw [List.getElem?_eq_none (show 1 ≤ k from hk)] at hGet
    cases hGet
  distinct := List.nodup_nil
  stored := fun _ _ _ hPush => by cases hPush
  pop := trivial

omit [DecidableEq P] in
/-- The unread entries lie strictly between the positions, each in its slot. -/
theorem Orderly.liveSafe (h : self.Orderly origin log r) : self.LiveSafe := by
  refine ⟨h.distinct, fun message hMem => ?_⟩
  obtain ⟨k, hk, hGet, hSlot⟩ := (h.live message).mp hMem
  have hLt : k < log.length := (List.getElem?_eq_some_iff.mp hGet).1
  rw [hSlot, h.window.read, h.window.write]
  exact ⟨strictlyBetween_window hk hLt h.window.bounded, h.window.held k _ hk.le hGet⟩

/-- Steps that touch neither the ring nor a written slot. -/
theorem Orderly.setPush (h : self.Orderly origin log r) {p : P} {pc : PushPc T capacity}
    (hAfter : pc.isStored = false) : (self.setPush p pc).Orderly origin log r where
  window := h.window
  live := h.live
  distinct := h.distinct
  stored := by
    intro q given wp hPush
    have hPush' : Function.update self.push p pc q = .stored given wp := hPush
    by_cases hq : q = p
    · rw [hq, Function.update_self] at hPush'
      rw [hPush'] at hAfter
      cases hAfter
    · rw [Function.update_of_ne hq] at hPush'
      obtain ⟨hWrite, hRead, hData, hOnly⟩ := h.stored q given wp hPush'
      refine ⟨hWrite, hRead, hData, fun q' hStored => ?_⟩
      have hStored' : (Function.update self.push p pc q').isStored = true := hStored
      by_cases hq' : q' = p
      · rw [hq', Function.update_self, hAfter] at hStored'
        cases hStored'
      · rw [Function.update_of_ne hq'] at hStored'
        exact hOnly q' hStored'
  pop := h.pop

/-- An exclusive write goes to the slot at `writePos`, outside the window. -/
theorem Orderly.write (h : self.Orderly origin log r) {p : P} {given : T} {wp : Fin capacity}
    (hWrite : wp = self.ring.writePos) (hRead : wp ≠ self.ring.readPos)
    (hAlone : ∀ q, (self.push q).isStored = false) :
    ({ self.setPush p (.stored given wp) with ring := self.ring.setData wp given } :
      Interleaved P T capacity).Orderly origin log r where
  window := by
    have hNotFull := mt h.window.full_iff.mpr (hWrite ▸ hRead)
    have hBound := h.window.bounded
    rw [hWrite]
    exact h.window.setData (by omega) given
  live := h.live
  distinct := h.distinct
  stored := by
    intro q given' wp' hPush
    have hStoredOnly : ∀ q', (Function.update self.push p (.stored given wp) q').isStored = true →
        q' = p := by
      intro q' hStored
      by_contra hNe
      rw [Function.update_of_ne hNe, hAlone q'] at hStored
      cases hStored
    have hPush' : Function.update self.push p (.stored given wp) q = .stored given' wp' := hPush
    have hq : q = p := hStoredOnly q (by rw [hPush']; rfl)
    rw [hq, Function.update_self] at hPush'
    cases hPush'
    exact ⟨hWrite, hRead, Function.update_self .., fun q' hStored =>
      (hStoredOnly q' hStored).trans hq.symm⟩
  pop := h.pop

/-- Publishing the written slot appends its value to the log. -/
theorem Orderly.publish (h : self.Orderly origin log r) {p : P} {given : T} {wp : Fin capacity}
    (hPush : self.push p = .stored given wp) :
    ({ self.setPush p .idle with
        ring := { self.ring with writePos := advance wp 1 }
        live := self.live ++ [(wp, given)]
        accepted := self.accepted ++ [given] } :
      Interleaved P T capacity).Orderly origin (log ++ [given]) r := by
  obtain ⟨hWrite, hRead, hData, hOnly⟩ := h.stored p given wp hPush
  have hNotFull := mt h.window.full_iff.mpr (hWrite ▸ hRead)
  have hBound := h.window.bounded
  have hSome := h.window.nonempty
  have hSlot : wp = advance origin log.length := hWrite.trans h.window.write
  refine ⟨?_, ?_, ?_, ?_, ?_⟩
  · rw [hWrite]
    exact h.window.publish (by omega) (hWrite ▸ hData)
  · intro message
    rw [List.mem_append, h.live, List.mem_singleton]
    constructor
    · rintro (⟨k, hk, hGet, hAt⟩ | rfl)
      · have hLt : k < log.length := (List.getElem?_eq_some_iff.mp hGet).1
        exact ⟨k, hk, by rw [List.getElem?_append_left hLt, hGet], hAt⟩
      · exact ⟨log.length, hSome, List.getElem?_concat_length, hSlot⟩
    · rintro ⟨k, hk, hGet, hAt⟩
      rcases Nat.lt_trichotomy k log.length with hLess | rfl | hMore
      · rw [List.getElem?_append_left hLess] at hGet
        exact Or.inl ⟨k, hk, hGet, hAt⟩
      · rw [List.getElem?_concat_length] at hGet
        exact Or.inr (Prod.ext (hAt.trans hSlot.symm) (Option.some.inj hGet).symm)
      · rw [List.getElem?_eq_none (by rw [List.length_append]; exact hMore)] at hGet
        cases hGet
  · rw [List.map_append, List.nodup_append]
    refine ⟨h.distinct, List.nodup_singleton _, ?_⟩
    intro slot hMem other hOther hEq
    obtain ⟨message, hLive, rfl⟩ := List.mem_map.mp hMem
    obtain ⟨k, hk, hGet, hAt⟩ := (h.live message).mp hLive
    have hLt : k < log.length := (List.getElem?_eq_some_iff.mp hGet).1
    rw [List.map_singleton, List.mem_singleton] at hOther
    have hSame : advance origin k = advance origin log.length :=
      hAt.symm.trans (hEq.trans (hOther.trans hSlot))
    have hCount := advance_window_inj hLt.le (by omega) hSame
    omega
  · intro q given' wp' hStored
    have hStored' : Function.update self.push p .idle q = .stored given' wp' := hStored
    by_cases hq : q = p
    · rw [hq, Function.update_self] at hStored'
      cases hStored'
    · rw [Function.update_of_ne hq] at hStored'
      exact absurd (hOnly q (by rw [hStored']; rfl)) hq
  · rw [List.length_append]
    exact h.pop.mono (Nat.le_add_right _ _)

omit [DecidableEq P] in
/-- Popping moves the window past the oldest unread entry. -/
theorem Orderly.popped (h : self.Orderly origin log r) {rp : Fin capacity}
    (hPop : self.pop = .loadedRead rp) :
    ({ self with
        ring := { self.ring with readPos := advance rp 1 }
        pop := .popped
        live := self.live.filter fun message => message.1 ≠ advance rp 1 } :
      Interleaved P T capacity).Orderly origin log (r + 1) := by
  have hState := h.pop
  rw [hPop] at hState
  obtain ⟨hRead, hMore⟩ := hState
  have hBound := h.window.bounded
  have hNext : advance rp 1 = advance origin (r + 1) := by
    rw [hRead, h.window.read, advance_succ]
  refine ⟨?_, ?_, ?_, ?_, trivial⟩
  · rw [hRead]
    exact h.window.popFront hMore
  · intro message
    rw [List.mem_filter, h.live, decide_eq_true_eq, hNext]
    constructor
    · rintro ⟨⟨k, hk, hGet, hAt⟩, hNe⟩
      refine ⟨k, ?_, hGet, hAt⟩
      have hOther : k ≠ r + 1 := fun hEq => hNe (hEq ▸ hAt)
      omega
    · rintro ⟨k, hk, hGet, hAt⟩
      have hLt : k < log.length := (List.getElem?_eq_some_iff.mp hGet).1
      refine ⟨⟨k, by omega, hGet, hAt⟩, fun hSame => ?_⟩
      have hCount := advance_window_inj hk.le (by omega) (hSame.symm.trans hAt)
      omega
  · exact h.distinct.sublist (List.Sublist.map _ List.filter_sublist)
  · intro q given wp hStored
    obtain ⟨hWrite, _, hData, hOnly⟩ := h.stored q given wp hStored
    refine ⟨hWrite, ?_, hData, hOnly⟩
    rw [hWrite, h.window.write, hNext]
    intro hSame
    have hCount := advance_window_inj hMore.le (by omega) hSame.symm
    omega

omit [DecidableEq P] in
/-- A consumer step that does not pop leaves the window where it is. -/
theorem Orderly.consumerStep_keeps (h : self.Orderly origin log r)
    (hKeeps : ∀ rp, self.pop ≠ .loadedRead rp) : self.consumerStep.Orderly origin log r := by
  have hPop := h.pop
  unfold Interleaved.consumerStep
  split
  · exact ⟨h.window, h.live, h.distinct, h.stored,
      log.length, h.window.nonempty, le_refl _, h.window.write⟩
  · rename_i wp hAt
    rw [hAt] at hPop
    obtain ⟨w, hLow, hHigh, hCopy⟩ := hPop
    split
    · exact ⟨h.window, h.live, h.distinct, h.stored, trivial⟩
    · -- the copy of `writePos` may be stale, but it was ahead of `readPos` by more than one
      rename_i hNotEmpty
      refine ⟨h.window, h.live, h.distinct, h.stored, ?_⟩
      have hAhead : w ≠ r + 1 := by
        rintro rfl
        rw [hCopy, h.window.read, advance_succ] at hNotEmpty
        exact hNotEmpty rfl
      show r + 1 < log.length
      omega
  · rename_i hAt
    rw [hAt] at hPop
    exact ⟨h.window, h.live, h.distinct, h.stored, rfl, hPop⟩
  · rename_i rp hAt
    exact absurd hAt (hKeeps rp)
  · exact ⟨h.window, h.live, h.distinct, h.stored, trivial⟩
  · exact ⟨h.window, h.live, h.distinct, h.stored, trivial⟩

omit [DecidableEq P] in
theorem Orderly.consumerStep (h : self.Orderly origin log r) :
    ∃ r, self.consumerStep.Orderly origin log r := by
  by_cases hKeeps : ∀ rp, self.pop ≠ .loadedRead rp
  · exact ⟨r, h.consumerStep_keeps hKeeps⟩
  · obtain ⟨rp, hAt⟩ := not_forall_not.mp hKeeps
    refine ⟨r + 1, ?_⟩
    rw [Interleaved.consumerStep, hAt]
    exact h.popped hAt

/-- Every step with an exclusive write keeps the invariant. -/
theorem Orderly.step {event : BusEvent P T} {next : Interleaved P T capacity}
    (h : self.Orderly origin log r) (hExclusive : self.Exclusive event)
    (hStep : self.step event = some next) : ∃ log r, next.Orderly origin log r := by
  cases busMove hStep with
  | consumed =>
      obtain ⟨r, hNext⟩ := h.consumerStep
      exact ⟨log, r, hNext⟩
  | begun => exact ⟨log, r, h.setPush rfl⟩
  | loadedRead hPush => exact ⟨log, r, h.setPush rfl⟩
  | refused hPush => exact ⟨log, r, h.setPush rfl⟩
  | passed hPush hRoom => exact ⟨log, r, h.setPush rfl⟩
  | written hPush =>
      simp only [Exclusive, hPush] at hExclusive
      obtain ⟨hWrite, hRead, hAlone⟩ := hExclusive
      exact ⟨log, r, h.write hWrite hRead hAlone⟩
  | @published p given wp hPush => exact ⟨log ++ [given], r, h.publish hPush⟩

/-- What a producer has loaded is current: `writePos` is unchanged, and a ring that
had room still has. -/
def Current (self : Interleaved P T capacity) : PushPc T capacity → Prop
  | .loadedWrite _ wp => wp = self.ring.writePos
  | .loadedBoth _ wp rp => wp = self.ring.writePos ∧ (wp ≠ rp → wp ≠ self.ring.readPos)
  | .notFull _ wp => wp = self.ring.writePos ∧ wp ≠ self.ring.readPos
  | .idle => True
  | .stored _ _ => True

/-- A push begins only while no call of `push` is under way. -/
def BeginsAlone (self : Interleaved P T capacity) : BusEvent P T → Prop
  | .beginPush _ _ => ∀ q, self.push q = .idle
  | .producer _ => True
  | .consumer => True

/-- The invariant of runs without overlapping pushes. -/
structure OnePush (bus : Interleaved P T capacity) : Prop where
  sole : ∀ p q, bus.push p ≠ .idle → bus.push q ≠ .idle → p = q
  current : ∀ p, bus.Current (bus.push p)

omit [DecidableEq P] in
theorem OnePush.others (h : self.OnePush) {p : P} (hBusy : self.push p ≠ .idle) :
    ∀ q, q ≠ p → self.push q = .idle := by
  intro q hNe
  by_contra hOther
  exact hNe (h.sole q p hOther hBusy)

/-- The only producer inside `push` goes on, or leaves it. -/
theorem onePush_update {next : Interleaved P T capacity} {p : P} {pc : PushPc T capacity}
    (hOthers : ∀ q, q ≠ p → self.push q = .idle)
    (hPush : next.push = Function.update self.push p pc) (hPc : next.Current pc) :
    next.OnePush := by
  have hIdle (q : P) (hNe : q ≠ p) : next.push q = .idle := by
    rw [hPush, Function.update_of_ne hNe]
    exact hOthers q hNe
  have hOnly (q : P) (hBusy : next.push q ≠ .idle) : q = p := by
    by_contra hNe
    exact hBusy (hIdle q hNe)
  constructor
  case sole =>
    intro q q' hFirst hSecond
    rw [hOnly q hFirst, hOnly q' hSecond]
  case current =>
    intro q
    by_cases hSame : q = p
    · rw [hSame, hPush, Function.update_self]
      exact hPc
    · rw [hIdle q hSame]
      trivial

omit [DecidableEq P] in
/-- Only the store of `readPos` changes the ring, and it leaves room. -/
theorem Orderly.consumerStep_room (h : self.Orderly origin log r) :
    self.consumerStep.ring.writePos = self.ring.writePos ∧
      (self.ring.writePos ≠ self.ring.readPos →
        self.ring.writePos ≠ self.consumerStep.ring.readPos) := by
  by_cases hKeeps : ∀ rp, self.pop ≠ .loadedRead rp
  · have hRing : self.consumerStep.ring = self.ring := by
      unfold Interleaved.consumerStep
      split
      case h_4 rp hAt => exact absurd hAt (hKeeps rp)
      case h_2 => split <;> rfl
      all_goals rfl
    rw [hRing]
    exact ⟨rfl, id⟩
  · obtain ⟨rp, hAt⟩ := not_forall_not.mp hKeeps
    have hPopped := h.popped hAt
    have hStep : self.consumerStep = { self with
        ring := { self.ring with readPos := advance rp 1 }
        pop := .popped
        live := self.live.filter fun message => message.1 ≠ advance rp 1 } := by
      rw [Interleaved.consumerStep, hAt]
    have hBound := h.window.bounded
    rw [hStep]
    refine ⟨rfl, fun _ hFull => ?_⟩
    have hTurn := hPopped.window.full_iff.mp hFull
    omega

omit [DecidableEq P] in
theorem OnePush.consumerStep (h : self.OnePush) (hOrderly : self.Orderly origin log r) :
    self.consumerStep.OnePush := by
  have hPush : self.consumerStep.push = self.push := by
    unfold Interleaved.consumerStep
    split
    case h_2 => split <;> rfl
    all_goals rfl
  obtain ⟨hWrite, hRoom⟩ := hOrderly.consumerStep_room
  constructor
  case sole =>
    rw [hPush]
    exact h.sole
  case current =>
    intro p
    have hBefore := h.current p
    rw [hPush]
    cases hPc : self.push p with
    | idle => trivial
    | stored given wp => trivial
    | loadedWrite given wp =>
        rw [hPc] at hBefore
        exact hBefore.trans hWrite.symm
    | loadedBoth given wp rp =>
        rw [hPc] at hBefore
        obtain ⟨rfl, hKeeps⟩ := hBefore
        exact ⟨hWrite.symm, fun hNe => hRoom (hKeeps hNe)⟩
    | notFull given wp =>
        rw [hPc] at hBefore
        obtain ⟨rfl, hNe⟩ := hBefore
        exact ⟨hWrite.symm, hRoom hNe⟩

/-- Each step of such a run keeps the invariant. -/
theorem OnePush.step {event : BusEvent P T} {next : Interleaved P T capacity} (h : self.OnePush)
    (hOrderly : self.Orderly origin log r) (hAlone : self.BeginsAlone event)
    (hStep : self.step event = some next) : next.OnePush := by
  cases busMove hStep with
  | consumed => exact h.consumerStep hOrderly
  | @begun p given => exact onePush_update (fun q _ => hAlone q) rfl rfl
  | @loadedRead p given wp hPush =>
      have hHere := h.current p
      rw [hPush] at hHere
      exact onePush_update (h.others (by rw [hPush]; nofun)) rfl ⟨hHere, id⟩
  | @refused p given wp rp hPush =>
      exact onePush_update (h.others (by rw [hPush]; nofun)) rfl trivial
  | @passed p given wp rp hPush hRoom =>
      have hHere := h.current p
      rw [hPush] at hHere
      exact onePush_update (h.others (by rw [hPush]; nofun)) rfl ⟨hHere.1, hHere.2 hRoom⟩
  | @written p given wp hPush =>
      exact onePush_update (h.others (by rw [hPush]; nofun)) rfl trivial
  | @published p given wp hPush =>
      exact onePush_update (h.others (by rw [hPush]; nofun)) rfl trivial

/-- Under the invariant every write is exclusive. -/
theorem OnePush.exclusive (h : self.OnePush) (event : BusEvent P T) : self.Exclusive event := by
  cases event with
  | beginPush p given => trivial
  | consumer => trivial
  | producer p =>
      cases hPush : self.push p with
      | notFull given wp =>
          have hHere := h.current p
          rw [hPush] at hHere
          simp only [Exclusive, hPush]
          refine ⟨hHere.1, hHere.2, fun q => ?_⟩
          by_cases hSame : q = p
          · rw [hSame, hPush]
            rfl
          · rw [h.others (by rw [hPush]; nofun) q hSame]
            rfl
      | idle => simp [Exclusive, hPush]
      | loadedWrite given wp => simp [Exclusive, hPush]
      | loadedBoth given wp rp => simp [Exclusive, hPush]
      | stored given wp => simp [Exclusive, hPush]

/-- Pushes that do not overlap write exclusively: if each begins only after the one
before it has returned, every slot write of the run meets the condition. -/
theorem exclusive_of_beginsAlone (P : Type*) [DecidableEq P] (h : 2 ≤ capacity)
    (data : Fin capacity → T) (events : List (BusEvent P T))
    (hAlone : AllSteps step BeginsAlone (start P h data) events) :
    AllSteps step Exclusive (start P h data) events := by
  have hStart : (start P h data).OnePush :=
    ⟨fun p _ hBusy => absurd rfl hBusy, fun _ => trivial⟩
  refine hAlone.imp (fun bus => bus.OnePush ∧ ∃ origin log r, bus.Orderly origin log r) ?_
    (fun bus event hInv _ => hInv.1.exclusive event) ⟨hStart, _, _, _, orderly_start h data⟩
  rintro bus event next ⟨hOne, origin, log, r, hOrderly⟩ hGuard hStep
  exact ⟨hOne.step hOrderly hGuard hStep, origin, hOrderly.step (hOne.exclusive event) hStep⟩

/-- In every interleaving whose slot writes are exclusive, no accepted message
is lost, overwritten or put into the slot of another. The ring itself does nothing to
make them exclusive: several producers need a lock of their own around `push`. -/
theorem exclusive_pushes_liveSafe (P : Type*) [DecidableEq P] (h : 2 ≤ capacity)
    (data : Fin capacity → T) (events : List (BusEvent P T))
    (hExclusive : AllSteps step Exclusive (start P h data) events) :
    AllStates step LiveSafe (start P h data) events := by
  have hOrderly : AllStates step (fun s => ∃ origin log r, s.Orderly origin log r)
      (start P h data) events := by
    refine hExclusive.allStates ?_ ⟨_, _, _, orderly_start h data⟩
    rintro s event next ⟨origin, log, r, hs⟩ hGuard hStep
    exact ⟨origin, hs.step hGuard hStep⟩
  refine hOrderly.mono ?_
  rintro s ⟨origin, log, r, hs⟩
  exact hs.liveSafe

/-- Two producers take turns and the consumer pops in between. -/
theorem exclusive_pushes_liveSafe_turns :
    AllStates step LiveSafe (start Bool (le_refl 2) fun _ => 0)
      [.beginPush true 5, .producer true, .producer true, .producer true, .producer true,
       .beginPush false 6, .consumer, .consumer, .consumer, .consumer,
       .producer false, .producer false, .producer false, .producer false] :=
  exclusive_pushes_liveSafe Bool (le_refl 2) (fun _ => 0) _ (by decide)

/-- Two producers load the same `writePos`: both pushes return 0, and both
messages are in slot 1. -/
theorem overlapping_pushes_share_slot :
    ¬ ∀ (capacity : Nat) (h : 2 ≤ capacity) (data : Fin capacity → Nat)
      (events : List (BusEvent Bool Nat)), AllStates step LiveSafe (start Bool h data) events := by
  intro hAll
  exact absurd (hAll 2 (le_refl 2) (fun _ => 0)
    [.beginPush true 5, .beginPush false 6, .producer true, .producer false, .producer true,
     .producer false, .producer true, .producer false, .producer true, .producer false]) (by decide)

end Interleaved
end Nginz.BusMpSc
