import ReactDpdk.Core.AutobufRuns

/-! What the handles do to a content after its deallocation. `clear` decrements the
count of the content that it has just deallocated, so a run leaves deallocated
contents alone only as long as it deallocates none. -/
namespace Nginz
open Transition

variable {Handle Content : Type*} [DecidableEq Content]

namespace PoolEvent

/-- The count of the content is read or written. -/
def Touches (c : Content) : PoolEvent Content → Prop
  | .read m => m = c
  | .update m _ => m = c
  | .returned _ => False

/-- What may follow an event: all but a use of the content that it deallocated. -/
def Permits : PoolEvent Content → PoolEvent Content → Prop
  | .returned c, later => ¬ later.Touches c
  | _, _ => True

instance (c : Content) (event : PoolEvent Content) : Decidable (event.Touches c) := by
  cases event <;> unfold Touches <;> infer_instance

instance (earlier later : PoolEvent Content) : Decidable (earlier.Permits later) := by
  cases earlier <;> unfold Permits <;> infer_instance

end PoolEvent

namespace Mempool

/-- No content was read or written after it was deallocated. -/
def Untouched (self : Mempool Content) : Prop := self.events.Pairwise PoolEvent.Permits

instance (pool : Mempool Content) : Decidable pool.Untouched :=
  inferInstanceAs (Decidable (List.Pairwise _ _))

/-- The packets that were returned have the count 1 in the pool. -/
def ReturnedKeepOne (self : Mempool Content) : Prop :=
  ∀ m, .returned m ∈ self.events → self.refcnt m = 1

def NoneReturned (self : Mempool Content) : Prop := ∀ c, .returned c ∉ self.events

/-- The callbacks count as `readUseCount` and `updateUseCount` do, and deallocating
the last reference records it and leaves the counts alone. -/
structure Recording (callbacks : AutobufCallbacks (Mempool Content) Content) : Prop where
  read : callbacks.read = refcntRead
  update : callbacks.update = refcntUpdate
  refcnt : ∀ c pool, pool.refcnt c = 1 → (callbacks.dealloc c pool).refcnt = pool.refcnt
  events : ∀ c pool, pool.refcnt c = 1 →
    ∃ before, (callbacks.dealloc c pool).events = before ++ [.returned c]

omit [DecidableEq Content] in
theorem NoneReturned.untouched {pool : Mempool Content} (h : pool.NoneReturned) :
    pool.Untouched := by
  apply List.Pairwise.imp_of_mem (R := fun _ _ => True)
  · intro earlier later hMem _ _
    cases earlier with
    | returned c => exact absurd hMem (h c)
    | read c => trivial
    | update c value => trivial
  · exact List.pairwise_of_forall fun _ _ => trivial

omit [DecidableEq Content] in
/-- A deallocation with the decrement behind it is a use after it. -/
theorem touched_of_last {pool : Mempool Content} {c : Content}
    {before after : List (PoolEvent Content)}
    (h : pool.events = before ++ .returned c :: .update c (-1) :: after) : ¬ pool.Untouched := by
  intro hUntouched
  rw [Untouched, h] at hUntouched
  have hRest := (List.pairwise_append.mp hUntouched).2.1
  have hNext := (List.pairwise_cons.mp hRest).1 (.update c (-1)) (List.mem_cons_self ..)
  exact hNext rfl

section Clear
variable {callbacks : AutobufCallbacks (Mempool Content) Content} {pool : Mempool Content}
  {self : AroopAutobuf Content}

theorem recording_recordingCallbacks :
    Recording (recordingCallbacks : AutobufCallbacks (Mempool Content) Content) where
  read := rfl
  update := rfl
  refcnt _ _ _ := rfl
  events _ pool _ := ⟨pool.events, rfl⟩

theorem recording_rteAutobuf :
    Recording (rteAutobuf : AutobufCallbacks (Mempool Content) Content) where
  read := rfl
  update := rfl
  refcnt c pool h := by
    show (pktmbufFree c pool).refcnt = pool.refcnt
    rw [pktmbufFree_one h]
    rfl
  events c pool h := by
    show ∃ before, (pktmbufFree c pool).events = before ++ [.returned c]
    rw [pktmbufFree_one h]
    exact ⟨pool.events ++ [.read c], rfl⟩

/-- Unless it holds a last reference, a handle that is cleared deallocates nothing. -/
theorem NoneReturned.clear (h : pool.NoneReturned) (hCallbacks : Recording callbacks)
    (hKept : ∀ c ∈ self.data, pool.refcnt c ≠ 1) :
    (self.clear callbacks pool).2.NoneReturned := by
  obtain ⟨_ | c⟩ := self
  · exact h
  · have hMore : ¬ 1 = pool.refcnt c := (hKept c rfl).symm
    intro d
    simp only [AroopAutobuf.clear, hCallbacks.read, hCallbacks.update, refcntRead, if_neg hMore,
      events_refcntUpdate, events_record, List.mem_append, List.mem_singleton, reduceCtorEq,
      or_false]
    exact h d

/-- With a last reference, it deallocates the content and then counts it down. -/
theorem last_clear (hCallbacks : Recording callbacks) {c : Content} (hHeld : self.data = some c)
    (hLast : pool.refcnt c = 1) :
    (∃ before, (self.clear callbacks pool).2.events =
        before ++ [.returned c, .update c (-1)]) ∧
      (self.clear callbacks pool).2.refcnt c = 0 := by
  obtain ⟨_ | d⟩ := self
  · cases hHeld
  · obtain rfl : d = c := Option.some.inj hHeld
    obtain ⟨before, hEvents⟩ := hCallbacks.events d (pool.record (.read d)) hLast
    have hRefcnt := hCallbacks.refcnt d (pool.record (.read d)) hLast
    simp only [AroopAutobuf.clear, hCallbacks.read, hCallbacks.update, refcntRead, hLast, if_true,
      events_refcntUpdate, refcnt_refcntUpdate, hEvents, hRefcnt, refcnt_record]
    exact ⟨⟨before, by rw [List.append_assoc]; rfl⟩, rfl⟩

end Clear

end Mempool

namespace HandleWorld
variable [DecidableEq Handle] {callbacks : AutobufCallbacks (Mempool Content) Content}
  {world next : HandleWorld Handle Content}

/-- An operation that the callers may make, however many references there are. -/
def allowedStep (callbacks : AutobufCallbacks (Mempool Content) Content)
    (world : HandleWorld Handle Content) (op : HandleOp Handle Content) :
    Option (HandleWorld Handle Content) :=
  if world.Allowed op then some (world.exec callbacks op) else none

/-- The handle that an operation clears; an empty one where it clears none. -/
def cleared (world : HandleWorld Handle Content) : HandleOp Handle Content → AroopAutobuf Content
  | .moveAssign self given => if self = given then {} else world.handle self
  | .reset self givenData =>
      if givenData = (world.handle self).data then {} else world.handle self
  | .ownWithoutIncrement self _ => world.handle self
  | .clear self => world.handle self
  | .destroy self => world.handle self
  | .create _ | .construct _ _ | .moveConstruct _ _ | .release _ => {}

/-- The content of a handle that is cleared has other references: its count does
not read 1. -/
def LastKept (world : HandleWorld Handle Content) (op : HandleOp Handle Content) : Prop :=
  ∀ c ∈ (world.cleared op).data, world.pool.refcnt c ≠ 1

instance (world : HandleWorld Handle Content) (op : HandleOp Handle Content) :
    Decidable (world.LastKept op) := inferInstanceAs (Decidable (∀ c ∈ _, _))

/-- What an operation does to the pool besides clearing: nothing, or an increment
of another content, or a fresh content. -/
theorem pool_exec (callbacks : AutobufCallbacks (Mempool Content) Content)
    (world : HandleWorld Handle Content) (op : HandleOp Handle Content) :
    (world.exec callbacks op).pool = ((world.cleared op).clear callbacks world.pool).2 ∨
    (∃ c, (world.cleared op).data ≠ some c ∧ (world.exec callbacks op).pool =
      callbacks.update c 1 ((world.cleared op).clear callbacks world.pool).2) ∨
    ∃ c, (world.cleared op).data = none ∧ (world.exec callbacks op).pool =
      ((world.cleared op).clear callbacks world.pool).2.create c := by
  cases op with
  | create c => exact Or.inr (Or.inr ⟨c, rfl, rfl⟩)
  | construct self data =>
      cases data with
      | none => exact Or.inl rfl
      | some c => exact Or.inr (Or.inl ⟨c, nofun, rfl⟩)
  | moveConstruct self given => exact Or.inl rfl
  | moveAssign self given =>
      by_cases hSame : self = given
      · simp only [exec, cleared, if_pos hSame]
        exact Or.inl rfl
      · simp only [exec, cleared, if_neg hSame]
        exact Or.inl rfl
  | reset self givenData =>
      by_cases hSame : givenData = (world.handle self).data
      · simp only [exec, cleared, AroopAutobuf.reset, if_pos hSame]
        exact Or.inl rfl
      · simp only [exec, cleared, AroopAutobuf.reset, if_neg hSame]
        cases givenData with
        | none => exact Or.inl rfl
        | some c => exact Or.inr (Or.inl ⟨c, Ne.symm hSame, rfl⟩)
  | ownWithoutIncrement self givenData => exact Or.inl rfl
  | release self => exact Or.inl rfl
  | clear self => exact Or.inl rfl
  | destroy self => exact Or.inl rfl

/-- While no last reference goes, nothing is deallocated. -/
theorem noneReturned_exec (hCallbacks : Mempool.Recording callbacks)
    (h : world.pool.NoneReturned) {op : HandleOp Handle Content} (hKept : world.LastKept op) :
    (world.exec callbacks op).pool.NoneReturned := by
  have hCleared := h.clear hCallbacks hKept
  rcases pool_exec callbacks world op with hPool | ⟨c, _, hPool⟩ | ⟨c, _, hPool⟩
  · rwa [hPool]
  · rw [hPool, hCallbacks.update]
    intro d hMem
    rw [Mempool.events_refcntUpdate, List.mem_append, List.mem_singleton] at hMem
    rcases hMem with hBefore | hNow
    · exact hCleared d hBefore
    · cases hNow
  · rw [hPool]
    exact hCleared

/-- When one goes, its content is counted down to 0 right after it was deallocated. -/
theorem last_exec (hCallbacks : Mempool.Recording callbacks) {op : HandleOp Handle Content}
    {c : Content} (hHeld : (world.cleared op).data = some c) (hLast : world.pool.refcnt c = 1) :
    (∃ before after, (world.exec callbacks op).pool.events =
        before ++ .returned c :: .update c (-1) :: after) ∧
      (world.exec callbacks op).pool.refcnt c = 0 := by
  obtain ⟨⟨before, hEvents⟩, hZero⟩ := Mempool.last_clear hCallbacks hHeld hLast
  rcases pool_exec callbacks world op with hPool | ⟨d, hOther, hPool⟩ | ⟨d, hNone, _⟩
  · rw [hPool]
    exact ⟨⟨before, [], hEvents⟩, hZero⟩
  · have hNe : c ≠ d := fun hSame => hOther (hSame ▸ hHeld)
    rw [hPool, hCallbacks.update, Mempool.events_refcntUpdate, hEvents,
      Mempool.refcnt_refcntUpdate_of_ne hNe]
    exact ⟨⟨before, [.update d 1], by rw [List.append_assoc]; rfl⟩, hZero⟩
  · rw [hNone] at hHeld
    cases hHeld

/-- As long as nothing was deallocated, an operation leaves deallocated contents
alone, and in the pool those with the count 1, exactly if it keeps the last references. -/
theorem lastKept_iff (hCallbacks : Mempool.Recording callbacks) (h : world.pool.NoneReturned)
    (op : HandleOp Handle Content) :
    (world.LastKept op ↔ (world.exec callbacks op).pool.Untouched) ∧
      (world.LastKept op ↔ (world.exec callbacks op).pool.ReturnedKeepOne) := by
  by_cases hKept : world.LastKept op
  · have hNone := noneReturned_exec hCallbacks h hKept
    exact ⟨iff_of_true hKept hNone.untouched, iff_of_true hKept fun m hMem => absurd hMem (hNone m)⟩
  · obtain ⟨c, hHeld, hLast⟩ : ∃ c, c ∈ (world.cleared op).data ∧ world.pool.refcnt c = 1 := by
      by_contra hNot
      exact hKept fun c hMem hOne => hNot ⟨c, hMem, hOne⟩
    obtain ⟨⟨before, after, hEvents⟩, hZero⟩ := last_exec hCallbacks hHeld hLast
    refine ⟨iff_of_false hKept (Mempool.touched_of_last hEvents), iff_of_false hKept fun hOnes => ?_⟩
    have hReturned : .returned c ∈ (world.exec callbacks op).pool.events := by
      rw [hEvents]
      exact List.mem_append_right _ (List.mem_cons_self ..)
    have hOne := hOnes c hReturned
    rw [hZero] at hOne
    cases hOne

/-- A property that one operation breaks by giving up a last reference holds all
along the runs in which none does. -/
theorem allStates_iff_lastKept (hCallbacks : Mempool.Recording callbacks)
    {P : Mempool Content → Prop} {ops : List (HandleOp Handle Content)}
    (hBroken : ∀ (w : HandleWorld Handle Content) op, w.pool.NoneReturned →
      (w.LastKept op ↔ P (w.exec callbacks op).pool))
    (hNone : world.pool.NoneReturned) (hP : P world.pool)
    (hRun : (run (allowedStep callbacks) world ops).isSome) :
    AllStates (allowedStep callbacks) (fun w => P w.pool) world ops ↔
      AllSteps (allowedStep callbacks) LastKept world ops := by
  have hExec (w t : HandleWorld Handle Content) (op : HandleOp Handle Content)
      (hStep : w.allowedStep callbacks op = some t) : t = w.exec callbacks op := by
    unfold allowedStep at hStep
    split at hStep
    · exact (Option.some.inj hStep).symm
    · cases hStep
  apply allStates_iff_allSteps_of_run fun w => w.pool.NoneReturned
  · intro w op t hw hStep
    rw [hExec w t op hStep]
    exact hBroken w op hw
  · intro w op t hw hStep hNext
    rw [hExec w t op hStep] at hNext ⊢
    exact noneReturned_exec hCallbacks hw ((hBroken w op hw).mpr hNext)
  · exact hNone
  · exact hP
  · exact hRun

/-- For every run of operations on any handles and contents: no content is read or
written after its deallocation, and with packets every returned one keeps the count
1, exactly when no operation makes a handle give up a last reference. -/
theorem untouched_iff_lastKept (hStart : world.Start) (ops : List (HandleOp Handle Content)) :
    ((run (allowedStep Mempool.recordingCallbacks) world ops).isSome →
      (AllStates (allowedStep Mempool.recordingCallbacks) (fun w => w.pool.Untouched) world ops ↔
        AllSteps (allowedStep Mempool.recordingCallbacks) LastKept world ops)) ∧
    ((run (allowedStep Mempool.rteAutobuf) world ops).isSome →
      (AllStates (allowedStep Mempool.rteAutobuf)
          (fun w => w.pool.Untouched ∧ w.pool.ReturnedKeepOne) world ops ↔
        AllSteps (allowedStep Mempool.rteAutobuf) LastKept world ops)) := by
  have hNone : world.pool.NoneReturned := by
    intro c hMem
    rw [hStart.events] at hMem
    cases hMem
  have hOnes : world.pool.ReturnedKeepOne := fun m hMem => absurd hMem (hNone m)
  constructor
  · intro hRun
    exact allStates_iff_lastKept Mempool.recording_recordingCallbacks
      (fun _ op hw => (lastKept_iff Mempool.recording_recordingCallbacks hw op).1) hNone
      hNone.untouched hRun
  · intro hRun
    apply allStates_iff_lastKept Mempool.recording_rteAutobuf
      (P := fun pool => pool.Untouched ∧ pool.ReturnedKeepOne) _ hNone ⟨hNone.untouched, hOnes⟩ hRun
    intro w op hw
    obtain ⟨hUntouched, hKeepOne⟩ := lastKept_iff Mempool.recording_rteAutobuf hw op
    exact ⟨fun hKept => ⟨hUntouched.mp hKept, hKeepOne.mp hKept⟩,
      fun hBoth => hUntouched.mpr hBoth.1⟩

/-- Content 7 goes from handle to handle, and back to a raw reference. -/
def handedOn : List (HandleOp Nat Nat) :=
  [.create 7, .construct 1 (some 7), .moveConstruct 2 1, .clear 1, .ownWithoutIncrement 1 (some 7),
    .destroy 1, .release 2]

theorem untouched_iff_lastKept_handedOn :
    AllStates (allowedStep Mempool.recordingCallbacks) (fun w => w.pool.Untouched) nothing
        handedOn ∧
      AllStates (allowedStep Mempool.rteAutobuf)
        (fun w => w.pool.Untouched ∧ w.pool.ReturnedKeepOne) nothing handedOn := by
  have hStart : nothing.Start := ⟨rfl, fun _ => rfl, rfl, rfl⟩
  obtain ⟨hContents, hPackets⟩ := untouched_iff_lastKept hStart handedOn
  exact ⟨(hContents (by decide)).mpr (by decide), (hPackets (by decide)).mpr (by decide)⟩

/-- The last handle of a content deallocates it and then counts it down. -/
theorem last_handle_touches_deallocated :
    ¬ ∀ (start : HandleWorld Nat Nat) (ops : List (HandleOp Nat Nat)), start.Start →
      (run (allowedStep Mempool.recordingCallbacks) start ops).isSome →
      AllStates (allowedStep Mempool.recordingCallbacks) (fun w => w.pool.Untouched) start ops := by
  intro hAll
  have hStart : nothing.Start := ⟨rfl, fun _ => rfl, rfl, rfl⟩
  have hUntouched := hAll nothing
    [.create 7, .construct 1 none, .ownWithoutIncrement 1 (some 7), .destroy 1] hStart (by decide)
  exact absurd hUntouched (by decide)

end HandleWorld
end Nginz
