import ReactDpdk.Core.CircularInterleaving

/-! One producer and one consumer on the ring, their loads and stores
interleaved in any order. The producer compares with a copy of `readPos` that
may be out of date by any number of pops. Since `readPos` only moves away from
`writePos`, the copy can only make the ring look fuller than it is. -/
namespace Nginz.BusMpSc
open Cyclic Transition

namespace Interleaved
variable {T : Type*} {capacity : Nat}

/-- The slot that the consumer is going to read, once it has decided to pop. -/
def aboutToRead (self : Interleaved Unit T capacity) : Option (Fin capacity) :=
  match self.pop with
  | .nonEmpty => some (advance self.ring.readPos 1)
  | .loadedRead rp => some (advance rp 1)
  | .popped => some self.ring.readPos
  | .atFront rp => some rp
  | _ => none

/-- The value that was popped and is not read yet, in a ring. -/
def pendingIn (pop : PopPc capacity) (ring : BusMpSc T capacity) : List T :=
  match pop with
  | .popped => [ring.front]
  | .atFront rp => [ring.data rp]
  | _ => []

def pending (self : Interleaved Unit T capacity) : List T := pendingIn self.pop self.ring

/-- It depends on nothing but the slot at `readPos`. -/
theorem pendingIn_congr {pop : PopPc capacity} {ring ring' : BusMpSc T capacity}
    (hFront : ∀ rp, pop = .atFront rp → rp = ring.readPos) (hRead : ring'.readPos = ring.readPos)
    (hData : ring'.data ring.readPos = ring.data ring.readPos) :
    pendingIn pop ring' = pendingIn pop ring := by
  cases pop with
  | popped => rw [pendingIn, pendingIn, front, front, hRead, hData]
  | atFront rp => rw [pendingIn, pendingIn, hFront rp rfl, hData]
  | _ => rfl

/-- The consumer has read the accepted values in order, each once; the rest of
them lie in the ring; and the slot that the producer is about to write is
neither one of theirs nor the one the consumer is about to read. -/
structure HandoffSafe (bus : Interleaved Unit T capacity) : Prop where
  inOrder : bus.consumed <+: bus.accepted
  unread : bus.accepted = bus.consumed ++ bus.pending ++ bus.live.map Prod.snd
  writes : ∀ given wp, bus.push () = .notFull given wp →
    wp ∉ bus.live.map Prod.fst ∧ bus.aboutToRead ≠ some wp
  liveSafe : bus.LiveSafe

/-- The entries of a log from the `k`th on, each with its slot. -/
def entriesFrom (origin : Fin capacity) : Nat → List T → List (Fin capacity × T)
  | _, [] => []
  | k, value :: rest => (advance origin k, value) :: entriesFrom origin (k + 1) rest

theorem map_snd_entriesFrom (origin : Fin capacity) (k : Nat) (log : List T) :
    (entriesFrom origin k log).map Prod.snd = log := by
  induction log generalizing k with
  | nil => rfl
  | cons value rest ih => rw [entriesFrom, List.map_cons, ih]

theorem entriesFrom_concat (origin : Fin capacity) (k : Nat) (log : List T) (value : T) :
    entriesFrom origin k (log ++ [value]) =
      entriesFrom origin k log ++ [(advance origin (k + log.length), value)] := by
  induction log generalizing k with
  | nil => rfl
  | cons first rest ih =>
      rw [List.cons_append, entriesFrom, ih, entriesFrom, List.cons_append, List.length_cons,
        Nat.add_right_comm, Nat.add_assoc]

/-- What the producer's local copies say about the window. The copy `rp` was
`readPos` when the window began at `r'`. -/
def PushOrderly (push : PushPc T capacity) (origin : Fin capacity) (length r : Nat) : Prop :=
  match push with
  | .idle => True
  | .loadedWrite _ wp => wp = advance origin length
  | .loadedBoth _ wp rp => wp = advance origin length ∧
      ∃ r', r' ≤ r ∧ length ≤ r' + capacity ∧ rp = advance origin r'
  | .notFull _ wp => wp = advance origin length ∧ length < r + capacity
  | .stored _ _ => True

theorem PushOrderly.mono {push : PushPc T capacity} {origin : Fin capacity} {length r r' : Nat}
    (h : PushOrderly push origin length r) (hLe : r ≤ r') : PushOrderly push origin length r' := by
  cases push with
  | idle => trivial
  | loadedWrite given wp => exact h
  | loadedBoth given wp rp =>
      obtain ⟨hWrite, old, hOld, hBound, hCopy⟩ := h
      exact ⟨hWrite, old, hOld.trans hLe, hBound, hCopy⟩
  | notFull given wp => exact ⟨h.1, by have := h.2; omega⟩
  | stored given wp => trivial

/-- The invariant: the ring is in order, the log is the initial content of slot
0 followed by what was accepted, and the consumer has read it as far as the
window has moved. -/
structure Handoff (bus : Interleaved Unit T capacity) (origin : Fin capacity) (log : List T)
    (r : Nat) : Prop extends Orderly bus origin log r where
  copies : PushOrderly (bus.push ()) origin log.length r
  accepted : bus.accepted = log.tail
  entries : bus.live = entriesFrom origin (r + 1) (log.drop (r + 1))
  consumed : bus.consumed ++ bus.pending = (log.take (r + 1)).tail
  atFront : ∀ rp, bus.pop = .atFront rp → rp = bus.ring.readPos

variable {self : Interleaved Unit T capacity} {origin : Fin capacity} {log : List T} {r : Nat}

theorem handoff_start (h : 2 ≤ capacity) (data : Fin capacity → T) :
    (start Unit h data).Handoff (init h data).readPos [(init h data).front] 0 where
  toOrderly := orderly_start h data
  copies := trivial
  accepted := rfl
  entries := rfl
  consumed := rfl
  atFront := fun rp hPop => by cases hPop

/-- The tail of a log, cut where the window begins. -/
theorem tail_eq_take_drop (log : List T) (r : Nat) :
    log.tail = (log.take (r + 1)).tail ++ log.drop (r + 1) := by
  cases log with
  | nil => rfl
  | cons value rest => simp

theorem Handoff.unread (h : self.Handoff origin log r) :
    self.accepted = self.consumed ++ self.pending ++ self.live.map Prod.snd := by
  rw [h.consumed, h.entries, map_snd_entriesFrom, h.accepted]
  exact tail_eq_take_drop log r

/-- The slot the producer writes next lies outside the window. -/
theorem Handoff.slot_ne (h : self.Handoff origin log r) {given : T} {wp : Fin capacity}
    (hPush : self.push () = .notFull given wp) {k : Nat} (hLow : r ≤ k) (hHigh : k < log.length) :
    advance origin k ≠ wp := by
  have hCopies := h.copies
  rw [hPush] at hCopies
  obtain ⟨hWrite, hRoom⟩ := hCopies
  intro hSame
  have hCount := advance_window_inj hHigh.le (by omega) (hSame.trans hWrite)
  omega

theorem Handoff.handoffSafe (h : self.Handoff origin log r) : self.HandoffSafe where
  inOrder := by
    rw [h.unread, List.append_assoc]
    exact List.prefix_append _ _
  unread := h.unread
  writes := by
    intro given wp hPush
    have hFree {k : Nat} (hLow : r ≤ k) (hHigh : k < log.length) := h.slot_ne hPush hLow hHigh
    constructor
    · intro hMem
      obtain ⟨message, hLive, hSlot⟩ := List.mem_map.mp hMem
      obtain ⟨k, hk, hGet, hAt⟩ := (h.live message).mp hLive
      have hLt : k < log.length := (List.getElem?_eq_some_iff.mp hGet).1
      exact hFree hk.le hLt (hAt.symm.trans hSlot)
    · have hPop := h.pop
      have hHere := hFree (le_refl r) h.window.nonempty
      rw [← h.window.read] at hHere
      cases hCase : self.pop with
      | nonEmpty =>
          rw [hCase] at hPop
          have hNext := hFree (Nat.le_succ r) hPop
          rw [← advance_succ, ← h.window.read] at hNext
          simpa [aboutToRead, hCase] using hNext
      | loadedRead rp =>
          rw [hCase] at hPop
          have hNext := hFree (Nat.le_succ r) hPop.2
          rw [← advance_succ, ← h.window.read, ← hPop.1] at hNext
          simpa [aboutToRead, hCase] using hNext
      | popped => simpa [aboutToRead, hCase] using hHere
      | atFront rp =>
          rw [← h.atFront rp hCase] at hHere
          simpa [aboutToRead, hCase] using hHere
      | idle => simp [aboutToRead, hCase]
      | loadedWrite wp => simp [aboutToRead, hCase]
  liveSafe := h.toOrderly.liveSafe

/-- Dropping the first of some messages with slots of their own. -/
theorem filter_slot_ne {slot : Fin capacity} {value : T} {rest : List (Fin capacity × T)}
    (hDistinct : (((slot, value) :: rest).map Prod.fst).Nodup) :
    ((slot, value) :: rest).filter (fun message => message.1 ≠ slot) = rest := by
  have hRest : rest.filter (fun message => message.1 ≠ slot) = rest := by
    refine List.filter_eq_self.mpr fun message hMem => ?_
    have hNotMem := (List.nodup_cons.mp hDistinct).1
    simp only [ne_eq, decide_not, Bool.not_eq_true', decide_eq_false_iff_not]
    exact fun hSame => hNotMem (List.mem_map.mpr ⟨message, hMem, hSame⟩)
  rw [List.filter_cons_of_neg (by simp), hRest]

theorem take_succ_tail {value : T} (hGet : log[r + 1]? = some value) :
    (log.take (r + 1 + 1)).tail = (log.take (r + 1)).tail ++ [value] := by
  cases log with
  | nil => cases hGet
  | cons first rest =>
      rw [List.getElem?_cons_succ] at hGet
      simp only [List.take_succ_cons, List.tail_cons]
      rw [List.take_add_one, hGet]
      rfl

/-- The store of `readPos` hands the oldest accepted value to the reader. -/
theorem Handoff.popped (h : self.Handoff origin log r) {rp : Fin capacity}
    (hPop : self.pop = .loadedRead rp) : self.consumerStep.Handoff origin log (r + 1) := by
  have hOrderly := h.toOrderly.popped hPop
  have hStep : self.consumerStep = { self with
      ring := { self.ring with readPos := advance rp 1 }
      pop := .popped
      live := self.live.filter fun message => message.1 ≠ advance rp 1 } := by
    rw [consumerStep, hPop]
  rw [hStep]
  have hState := h.pop
  rw [hPop] at hState
  obtain ⟨hRead, hMore⟩ := hState
  have hNext : advance rp 1 = advance origin (r + 1) := by
    rw [hRead, h.window.read, advance_succ]
  have hRead := h.consumed
  rw [pending, hPop, show pendingIn (.loadedRead rp) self.ring = [] from rfl,
    List.append_nil] at hRead
  refine { toOrderly := hOrderly, copies := h.copies.mono (Nat.le_succ r), accepted := h.accepted,
           entries := ?_, consumed := ?_, atFront := fun _ hFront => by cases hFront }
  · have hEntries := h.entries
    rw [List.drop_eq_getElem_cons hMore, entriesFrom] at hEntries
    have hDistinct := h.distinct
    rw [hEntries] at hDistinct
    show self.live.filter (fun message => message.1 ≠ advance rp 1) = _
    rw [hEntries, hNext]
    exact filter_slot_ne hDistinct
  · rw [take_succ_tail hOrderly.window.front, ← hRead]
    rfl

/-- A step of the consumer that leaves the ring alone. -/
theorem Handoff.setPop (h : self.Handoff origin log r) {pop : PopPc capacity} {consumed : List T}
    (hPop : PopOrderly pop self.ring.readPos origin log.length r)
    (hRead : consumed ++ ({ self with pop := pop } : Interleaved Unit T capacity).pending =
      self.consumed ++ self.pending)
    (hFront : ∀ rp, pop = .atFront rp → rp = self.ring.readPos) :
    ({ self with pop := pop, consumed := consumed } : Interleaved Unit T capacity).Handoff
      origin log r where
  window := h.window
  live := h.live
  distinct := h.distinct
  stored := h.stored
  pop := hPop
  copies := h.copies
  accepted := h.accepted
  entries := h.entries
  consumed := hRead.trans h.consumed
  atFront := hFront

/-- Every step of the consumer but the pop only moves its local copies. -/
theorem Handoff.consumerStep_keeps (h : self.Handoff origin log r)
    (hKeeps : ∀ rp, self.pop ≠ .loadedRead rp) : self.consumerStep.Handoff origin log r := by
  have hOrderly := (h.toOrderly.consumerStep_keeps hKeeps).pop
  cases hPop : self.pop with
  | idle =>
      simp only [consumerStep, hPop] at hOrderly ⊢
      exact h.setPop hOrderly (by simp [pending, pendingIn, hPop])
        fun _ hFront => by cases hFront
  | loadedWrite wp =>
      simp only [consumerStep, hPop] at hOrderly ⊢
      split
      · rename_i hEmpty
        rw [if_pos hEmpty] at hOrderly
        exact h.setPop hOrderly (by simp [pending, pendingIn, hPop])
          fun _ hFront => by cases hFront
      · rename_i hSome
        rw [if_neg hSome] at hOrderly
        exact h.setPop hOrderly (by simp [pending, pendingIn, hPop])
          fun _ hFront => by cases hFront
  | nonEmpty =>
      simp only [consumerStep, hPop] at hOrderly ⊢
      exact h.setPop hOrderly (by simp [pending, pendingIn, hPop])
        fun _ hFront => by cases hFront
  | loadedRead rp => exact absurd hPop (hKeeps rp)
  | popped =>
      simp only [consumerStep, hPop] at hOrderly ⊢
      refine h.setPop hOrderly (by simp [pending, pendingIn, hPop, front]) fun rp hFront => ?_
      cases hFront
      rfl
  | atFront rp =>
      simp only [consumerStep, hPop] at hOrderly ⊢
      exact h.setPop hOrderly (by simp [pending, pendingIn, hPop])
        fun _ hFront => by cases hFront

/-- A step of the producer that leaves the ring alone. -/
theorem Handoff.setPush (h : self.Handoff origin log r) {pc : PushPc T capacity}
    (hAfter : pc.isStored = false) (hCopies : PushOrderly pc origin log.length r) :
    (self.setPush () pc).Handoff origin log r where
  toOrderly := h.toOrderly.setPush hAfter
  copies := hCopies
  accepted := h.accepted
  entries := h.entries
  consumed := h.consumed
  atFront := h.atFront

/-- The comparison with a stale `readPos` still rules out a full ring. -/
theorem Handoff.room (h : self.Handoff origin log r) {given : T} {wp rp : Fin capacity}
    (hPush : self.push () = .loadedBoth given wp rp) (hNe : wp ≠ rp) :
    PushOrderly (.notFull given wp) origin log.length r := by
  have hCopies := h.copies
  rw [hPush] at hCopies
  obtain ⟨hWrite, r', hOld, hBound, hCopy⟩ := hCopies
  have hNotFull : log.length ≠ r' + capacity := by
    intro hFull
    apply hNe
    apply Fin.ext
    rw [hWrite, hCopy, hFull, advance_val, advance_val, Nat.add_right_comm, Nat.add_mod_right]
  exact ⟨hWrite, by omega⟩

theorem Handoff.write (h : self.Handoff origin log r) {given : T} {wp : Fin capacity}
    (hPush : self.push () = .notFull given wp) :
    ({ self.setPush () (.stored given wp) with ring := self.ring.setData wp given } :
      Interleaved Unit T capacity).Handoff origin log r := by
  have hCopies := h.copies
  rw [hPush] at hCopies
  obtain ⟨hWrite, hRoom⟩ := hCopies
  have hRead := h.slot_ne hPush (le_refl r) h.window.nonempty
  rw [← h.window.read] at hRead
  have hAlone (q : Unit) : (self.push q).isStored = false := by
    rw [show self.push q = .notFull given wp from hPush]
    rfl
  have hKept : (self.ring.setData wp given).data self.ring.readPos =
      self.ring.data self.ring.readPos := Function.update_of_ne hRead _ _
  refine { toOrderly := h.toOrderly.write (hWrite.trans h.window.write.symm) hRead.symm hAlone
           copies := trivial, accepted := h.accepted, entries := h.entries, consumed := ?_
           atFront := h.atFront }
  -- the value that is popped and not read yet does not lie in the slot written
  have hPending : pendingIn self.pop (self.ring.setData wp given) = self.pending :=
    pendingIn_congr h.atFront rfl hKept
  rw [← h.consumed, ← hPending]
  rfl

theorem Handoff.publish (h : self.Handoff origin log r) {given : T} {wp : Fin capacity}
    (hPush : self.push () = .stored given wp) :
    ({ self.setPush () .idle with
        ring := { self.ring with writePos := advance wp 1 }
        live := self.live ++ [(wp, given)]
        accepted := self.accepted ++ [given] } :
      Interleaved Unit T capacity).Handoff origin (log ++ [given]) r := by
  have hSome := h.window.nonempty
  have hSlot := (h.stored () given wp hPush).1.trans h.window.write
  refine { toOrderly := h.toOrderly.publish hPush, copies := trivial, accepted := ?_
           entries := ?_, consumed := ?_, atFront := h.atFront }
  · rw [List.tail_append_of_ne_nil (List.ne_nil_of_length_pos (by omega)), ← h.accepted]
  · have hPlace : r + 1 + (log.drop (r + 1)).length = log.length := by
      rw [List.length_drop]
      omega
    rw [List.drop_append_of_le_length hSome, entriesFrom_concat, hPlace, ← h.entries, hSlot]
  · rw [List.take_append_of_le_length hSome]
    exact h.consumed

/-- Every step of either side keeps the invariant. -/
theorem Handoff.step (h : self.Handoff origin log r) {event : BusEvent Unit T}
    {next : Interleaved Unit T capacity} (hStep : self.step event = some next) :
    ∃ log r, next.Handoff origin log r := by
  cases busMove hStep with
  | consumed =>
      by_cases hKeeps : ∀ rp, self.pop ≠ .loadedRead rp
      · exact ⟨log, r, h.consumerStep_keeps hKeeps⟩
      · obtain ⟨rp, hPop⟩ := not_forall_not.mp hKeeps
        exact ⟨log, r + 1, h.popped hPop⟩
  | begun => exact ⟨log, r, h.setPush rfl h.window.write⟩
  | loadedRead hPush =>
      have hCopies := h.copies
      rw [hPush] at hCopies
      exact ⟨log, r, h.setPush rfl ⟨hCopies, r, le_refl r, h.window.bounded, h.window.read⟩⟩
  | refused => exact ⟨log, r, h.setPush rfl trivial⟩
  | passed hPush hRoom => exact ⟨log, r, h.setPush rfl (h.room hPush hRoom)⟩
  | written hPush => exact ⟨log, r, h.write hPush⟩
  | @published p given wp hPush => exact ⟨log ++ [given], r, h.publish hPush⟩

/-- For every capacity of at least 2 and every interleaving of one producer and
one consumer, every state reached is safe: stale copies of the other side's position
cost a retry and never a message. -/
theorem single_producer_handoffSafe (h : 2 ≤ capacity) (data : Fin capacity → T)
    (events : List (BusEvent Unit T)) :
    AllStates step HandoffSafe (start Unit h data) events := by
  have hHandoff : AllStates step (fun bus => ∃ origin log r, bus.Handoff origin log r)
      (start Unit h data) events := by
    refine allStates_of_invariant _ ?_ ⟨_, _, _, handoff_start h data⟩ events
    rintro bus event next ⟨origin, log, r, hBus⟩ hStep
    exact ⟨origin, hBus.step hStep⟩
  refine hHandoff.mono ?_
  rintro bus ⟨origin, log, r, hBus⟩
  exact hBus.handoffSafe

/-- The producer loads `readPos` before a pop and writes after it. -/
theorem single_producer_handoffSafe_stale :
    AllStates step HandoffSafe (start Unit (le_refl 2) fun _ => 0)
      [.beginPush () 5, .producer (), .producer (), .producer (), .producer (),
       .consumer, .consumer, .consumer, .consumer, .beginPush () 6, .producer (), .consumer,
       .producer (), .consumer, .producer (), .producer ()] :=
  single_producer_handoffSafe (le_refl 2) (fun _ => 0) _

end Interleaved
end Nginz.BusMpSc
