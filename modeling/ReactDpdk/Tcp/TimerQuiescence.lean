import ReactDpdk.Tcp.ConnectionRefinement

/-! What is left when the wire falls silent. Only pending timers can still fire, each
of them once, and where that ends does not depend on their order. -/
namespace Nginz
open Transition

/-- How many timers of a block are pending. -/
def TcpControlBlock.load (self : TcpControlBlock) : Nat :=
  (Finset.univ.filter fun tmrId => (self.tmr.pending tmrId).isSome).card

/-- The block with all its timers stopped. -/
def TcpControlBlock.idle (self : TcpControlBlock) : TcpControlBlock :=
  { self with tmr := { self.tmr with tmrs := fun _ => {} } }

namespace Connection
variable {key : UInt64} {tcb : TcpControlBlock} {tmrId : Fin tcpMaxTmr}

/-- What becomes of a connection once all its timers have fired. -/
def settle (tcb : TcpControlBlock) : Connection :=
  match tcb.state with
  | .closeWait =>
      if (tcb.tmr.pending tcpFinalTmr1).isSome then
        some { tcb.idle with state := .lastAck, expseq := tcb.expseq + 1 }
      else some tcb.idle
  | .lastAck => if (tcb.tmr.pending tcpFinalTmr2).isSome then none else some tcb.idle
  | _ => some tcb.idle

theorem load_le (tcb : TcpControlBlock) : tcb.load ≤ tcpMaxTmr := by
  have hCard := Finset.card_filter_le (Finset.univ : Finset (Fin tcpMaxTmr))
    fun tmrId => (tcb.tmr.pending tmrId).isSome
  rwa [Finset.card_univ, Fintype.card_fin] at hCard

/-- A timer that fires is one less. -/
theorem load_clear (hPending : (tcb.tmr.pending tmrId).isSome) :
    TcpControlBlock.load { tcb with tmr := tcb.tmr.clear tmrId } < tcb.load := by
  apply Finset.card_lt_card
  rw [Finset.ssubset_iff_of_subset]
  · refine ⟨tmrId, ?_, ?_⟩
    · simpa using hPending
    · simp
  · intro other hOther
    rw [Finset.mem_filter, MultiTimer.pending_clear] at hOther
    rw [Finset.mem_filter]
    refine ⟨hOther.1, ?_⟩
    have hStill := hOther.2
    split at hStill
    · cases hStill
    · exact hStill

/-- An expiry starts no timer. -/
theorem load_onExpire (hPending : (tcb.tmr.pending tmrId).isSome) :
    (onExpire tmrId tcb).elim 0 TcpControlBlock.load < tcb.load := by
  have hLess := load_clear hPending
  have hMove := expireMove tmrId tcb
  cases hNext : onExpire tmrId tcb with
  | none => exact Nat.lt_of_le_of_lt (Nat.zero_le _) hLess
  | some tcb' =>
      rw [hNext] at hMove
      cases hMove with
      | logged => exact hLess
      | lastAck => exact hLess

theorem idle_of_pending (h : ∀ tmrId, tcb.tmr.pending tmrId = none) : tcb.idle = tcb := by
  have hUnits : (fun _ => {}) = tcb.tmr.tmrs := by
    funext tmrId
    have hNone := h tmrId
    rw [MultiTimer.pending] at hNone
    cases hUnit : tcb.tmr.tmrs tmrId
    rw [hUnit] at hNone
    cases hNone
    rfl
  rw [TcpControlBlock.idle, hUnits]

/-- A connection without pending timers is settled. -/
theorem settle_of_idle (h : ∀ tmrId, tcb.tmr.pending tmrId = none) : settle tcb = some tcb := by
  have hIdle := idle_of_pending h
  unfold settle
  split
  · rw [h, hIdle]
    rfl
  · rw [h, hIdle]
    rfl
  · rw [hIdle]

/-- Firing a timer does not change where the connection ends. -/
theorem settle_onExpire (hGood : Good key tcb) (hPending : (tcb.tmr.pending tmrId).isSome) :
    (onExpire tmrId tcb).bind settle = settle tcb := by
  have hMove := expireMove tmrId tcb
  cases hNext : onExpire tmrId tcb with
  | none =>
      rw [hNext] at hMove
      cases hMove with
      | closed hState hTmr =>
          rw [settle, hState]
          simp [← hTmr, hPending]
  | some tcb' =>
      rw [hNext] at hMove
      rw [Option.bind_some]
      cases hMove with
      | logged hFinal1 hFinal2 =>
          cases hState : tcb.state with
          | closeWait =>
              have hOther := (hFinal1 hState).symm
              simp only [settle, hState, MultiTimer.pending_clear, if_neg hOther,
                TcpControlBlock.idle]
              rfl
          | lastAck =>
              have hOther := (hFinal2 hState).symm
              simp only [settle, hState, MultiTimer.pending_clear, if_neg hOther,
                TcpControlBlock.idle]
              rfl
          | _ =>
              simp only [settle, hState, TcpControlBlock.idle]
              rfl
      | lastAck hState hTmr =>
          -- `TCP_FINAL_TMR_2` is pending in LAST_ACK only, so it is not here
          have hNone : tcb.tmr.pending tcpFinalTmr2 = none := by
            by_contra hSome
            cases hState.symm.trans (hGood.lastTimer hSome)
          have hOther : tcpFinalTmr2 ≠ tmrId := by
            rw [hTmr]
            decide
          rw [hTmr] at hPending
          simp only [settle, hState, MultiTimer.pending_clear, if_neg hOther, hNone, hPending,
            if_true]
          rfl

end Connection

/-- How many timers are pending in all. -/
def Connections.load (m : Connections) : Nat := BoundedMap.weight TcpControlBlock.load m

/-- The event is the expiry of a timer. -/
def TcpEvent.IsExpiry : TcpEvent → Prop
  | .segment _ _ => False
  | .expire _ _ _ => True

namespace TcpImpl
variable {ctx ctx' : TcpImpl} {m : Connections} {event : TcpEvent}

/-- What an expiry does to the connections: less is pending, and they end where they
would have ended. -/
theorem Tracks.expiry (h : ctx.Tracks m) (hExpiry : event.IsExpiry)
    (hStep : ctx.step event = some ctx') :
    (m.next event).load < m.load ∧
      ∀ key, ((m.next event).lookup key).bind Connection.settle =
        (m.lookup key).bind Connection.settle := by
  cases event with
  | segment env header => cases hExpiry
  | expire env key tmrId =>
      obtain ⟨cbPtr, hPending, _⟩ := Option.bind_eq_some_iff.mp hStep
      rw [h.pendingTimer] at hPending
      obtain ⟨tcb, hLookup, hPending⟩ := Option.bind_eq_some_iff.mp hPending
      have hSome : (tcb.tmr.pending tmrId).isSome := by rw [hPending]; rfl
      have hNext : m.next (.expire env key tmrId) =
          BoundedMap.assign m key (Connection.onExpire tmrId tcb) := by
        simp only [Connections.next, TcpEvent.client, Connection.next, hLookup, Option.bind_some]
      rw [hNext]
      constructor
      · have hWeight := BoundedMap.weight_assign TcpControlBlock.load m key
          (Connection.onExpire tmrId tcb)
        have hLess := Connection.load_onExpire hSome
        rw [hLookup, Option.elim_some] at hWeight
        rw [Connections.load, Connections.load]
        omega
      · intro other
        rw [BoundedMap.lookup_assign]
        split
        · rename_i hKey
          rw [hKey, hLookup, Option.bind_some]
          exact Connection.settle_onExpire (h.good key tcb hLookup) hSome
        · rfl

/-- Only so many timers fire in silence, and the connections end where they would
have ended. -/
theorem Tracks.expiries {events : List TcpEvent} (h : ctx.Tracks m)
    (hExpiries : ∀ event ∈ events, event.IsExpiry)
    (hRun : Transition.run TcpImpl.step ctx events = some ctx') :
    ∃ m', ctx'.Tracks m' ∧ m'.load + events.length ≤ m.load ∧
      ∀ key, (m'.lookup key).bind Connection.settle = (m.lookup key).bind Connection.settle := by
  induction events generalizing ctx m with
  | nil =>
      cases hRun
      exact ⟨m, h, Nat.le_refl _, fun _ => rfl⟩
  | cons event events ih =>
      obtain ⟨ctx₁, hStep, hRest⟩ := Option.bind_eq_some_iff.mp hRun
      obtain ⟨hLess, hSettle⟩ := h.expiry (hExpiries event (List.mem_cons_self ..)) hStep
      obtain ⟨m', hTracks, hLoad, hEnd⟩ := ih (h.step hStep)
        (fun other hMem => hExpiries other (List.mem_cons_of_mem _ hMem)) hRest
      refine ⟨m', hTracks, ?_, fun key => (hEnd key).trans (hSettle key)⟩
      rw [List.length_cons]
      omega

/-- No timer is pending. -/
def Silent (ctx : TcpImpl) : Prop := ∀ key tmrId, ctx.pendingTimer key tmrId = none

/-- In silence every connection is settled. -/
theorem Tracks.settled (h : ctx.Tracks m) (hSilent : ctx.Silent) (key : UInt64) :
    (m.lookup key).bind Connection.settle = m.lookup key := by
  cases hLookup : m.lookup key with
  | none => rfl
  | some tcb =>
      refine Connection.settle_of_idle fun tmrId => ?_
      have hNone := hSilent key tmrId
      rwa [h.pendingTimer, hLookup, Option.bind_some] at hNone

/-- While a timer is pending it can fire, so some run of expiries ends in silence. -/
theorem Tracks.exists_silent (h : ctx.Tracks m) :
    ∃ events ctx', (∀ event ∈ events, event.IsExpiry) ∧
      Transition.run TcpImpl.step ctx events = some ctx' ∧ ctx'.Silent := by
  refine exists_run_until (fun ctx n => ∃ m, ctx.Tracks m ∧ m.load = n) ?_ ⟨m, h, rfl⟩
  rintro s _ ⟨m, hTracks, rfl⟩ hLoud
  obtain ⟨key, hKey⟩ := not_forall.mp hLoud
  obtain ⟨tmrId, hSome⟩ := not_forall.mp hKey
  obtain ⟨cbPtr, hPending⟩ := Option.ne_none_iff_exists'.mp hSome
  obtain ⟨t, hStep⟩ := hTracks.expire_defined (fun _ _ => true) hPending
  have hEvent : s.step (.expire (fun _ _ => true) key tmrId) = some t := hStep
  have hExpiry : (TcpEvent.expire (fun _ _ => true) key tmrId).IsExpiry := trivial
  exact ⟨_, t, _, hExpiry, hEvent, ⟨_, hTracks.step hEvent, rfl⟩, (hTracks.expiry hExpiry hEvent).1⟩

/-- For every reached context: when no more segments come, at most five timers for each
connection fire, in some order until none is pending. Whatever the order, a block
in CLOSE_WAIT whose timer was pending is then left in LAST_ACK, one in LAST_ACK
whose timer was pending is gone, and every other is where it was. -/
theorem timers_run_dry (h : ctx.Reached) :
    (∀ events ctx', (∀ event ∈ events, event.IsExpiry) →
      Transition.run TcpImpl.step ctx events = some ctx' →
        events.length ≤ tcpMaxTmr * ctx.tcbTable.size ∧
        (ctx'.Silent → ∀ key, ctx'.tcbTable.lookup key =
          (ctx.tcbTable.lookup key).bind Connection.settle)) ∧
    ∃ events ctx', (∀ event ∈ events, event.IsExpiry) ∧
      Transition.run TcpImpl.step ctx events = some ctx' ∧ ctx'.Silent := by
  obtain ⟨m, hTracks⟩ := h.tracks
  refine ⟨fun events ctx' hExpiries hRun => ?_, hTracks.exists_silent⟩
  obtain ⟨m', hTracks', hLoad, hEnd⟩ := hTracks.expiries hExpiries hRun
  have hBound := BoundedMap.weight_le (m := m) TcpControlBlock.load Connection.load_le
  refine ⟨?_, fun hSilent key => ?_⟩
  · rw [FixedDict.size, hTracks.models.cnt_eq]
    have hLess : events.length ≤ m.load := Nat.le_of_add_left_le hLoad
    exact Nat.le_trans hLess hBound
  · rw [hTracks'.models.lookup, hTracks.models.lookup, ← hEnd key, hTracks'.settled hSilent]

/-- The peer falls silent after its FIN: at most five expiries later nothing is
pending, and its connection is left in LAST_ACK. -/
theorem timers_run_dry_fin :
    ∃ ctx events ctx', Transition.run step init [.segment (fun _ _ => true) (sampleSegment 2 100),
        .segment (fun _ _ => true) (sampleSegment 16 101),
        .segment (fun _ _ => true) (sampleSegment 1 500)] = some ctx ∧
      Transition.run step ctx events = some ctx' ∧ ctx'.Silent ∧ events.length ≤ 5 ∧
      (ctx'.tcbTable.lookup (sampleSegment 2 100).clientId).map TcpControlBlock.state =
        some .lastAck := by
  have hFin : ((Transition.run step init [.segment (fun _ _ => true) (sampleSegment 2 100),
      .segment (fun _ _ => true) (sampleSegment 16 101),
      .segment (fun _ _ => true) (sampleSegment 1 500)]).map fun ctx =>
        (ctx.tcbTable.size, ((ctx.tcbTable.lookup (sampleSegment 2 100).clientId).bind
          Connection.settle).map TcpControlBlock.state)) = some (1, some .lastAck) := by decide
  obtain ⟨ctx, hRun, hFin⟩ := Option.map_eq_some_iff.mp hFin
  obtain ⟨hOne, hSettled⟩ := Prod.mk.inj hFin
  have hStart : Reached init := .start rfl
  obtain ⟨hAll, events, ctx', hExpiries, hDry, hSilent⟩ := timers_run_dry (hStart.run hRun)
  obtain ⟨hBound, hEnd⟩ := hAll events ctx' hExpiries hDry
  rw [hOne] at hBound
  rw [← hEnd hSilent] at hSettled
  exact ⟨ctx, events, ctx', hRun, hDry, hSilent, hBound, hSettled⟩

end TcpImpl
end Nginz
