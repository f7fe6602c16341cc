import ReactDpdk.Tcp.ConnectionRefinement
import ReactDpdk.Tcp.ContextEdits

/-! The way of a timer back to the connection that armed it: through the packed
argument, the client id in it, and the table. -/
namespace Nginz.TcpImpl
open Transition

variable {ctx ctx' : TcpImpl}

/-- No timer of the listen block is pending. -/
def ListenIdle (ctx : TcpImpl) : Prop := ∀ tmrId, ctx.listen.tmr.pending tmrId = none

/-- Before any event: an empty table, and no timer started. -/
def Fresh (ctx : TcpImpl) : Prop := ctx.EmptyTable ∧ ctx.ListenIdle

/-- No event starts a timer of the listen block. -/
theorem ListenIdle.step {event : TcpEvent} (h : ctx.ListenIdle)
    (hStep : ctx.step event = some ctx') : ctx'.ListenIdle := by
  have hListen : ctx'.listen = ctx.listen := by
    cases event with
    | segment env header => exact (edits_segment hStep).listen_eq
    | expire env key tmrId => exact (edits_expire hStep).listen_eq
  rw [ListenIdle, hListen]
  exact h

/-- The argument of a pending timer of the block `tcb` leads back to it: it
decodes to the client and the timer that it was packed from, the client has a
block, and the expiry calls `processTimer` with that timer on the same block. -/
structure Routed (ctx : TcpImpl) (ref : TcbRef) (tcb : TcpControlBlock) (tmrId : Fin tcpMaxTmr)
    (cbPtr : UInt64) : Prop where
  isClient : ∃ ipv4Addr port, tcb.clientId = makeClientId ipv4Addr port
  decodesClient : timerClient cbPtr = tcb.clientId
  decodesEvent : timerEvent cbPtr = tmrCase tmrId
  reaches : ∃ p, ref = .slot p ∧ ctx.tcbTable.find (timerClient cbPtr) = some p ∧
    (ctx.clearTimer tcb.clientId tmrId).block (.slot p) =
      some { tcb with tmr := tcb.tmr.clear tmrId } ∧
    ∀ env, ctx.expire env tcb.clientId tmrId =
      (ctx.clearTimer tcb.clientId tmrId).processTimer env (.slot p) (tmrCase tmrId)

theorem Tracks.routed {m : Connections} (h : ctx.Tracks m) {p : Fin maxTcpClient}
    {tcb : TcpControlBlock} {tmrId : Fin tcpMaxTmr} {cbPtr : UInt64}
    (hBlock : ctx.block (.slot p) = some tcb) (hPending : tcb.tmr.pending tmrId = some cbPtr) :
    ctx.Routed (.slot p) tcb tmrId cbPtr := by
  obtain ⟨⟨key, stored⟩, hCell, hSame⟩ := Option.map_eq_some_iff.mp hBlock
  have hStored : stored = tcb := hSame
  rw [hStored] at hCell
  have hLookup : m.lookup key = some tcb := (h.models.represents key tcb).mpr ⟨p, hCell⟩
  have hGood := h.good key tcb hLookup
  have hTimer : ctx.pendingTimer key tmrId = some cbPtr := by
    rw [h.pendingTimer, hLookup, Option.bind_some, hPending]
  obtain ⟨q, other, _, hOther, hArg, _, hFindNow, hCellNow⟩ := h.fired hTimer
  have hSlot : q = p := h.models.valid.distinct q p key other tcb hOther hCell
  subst q
  cases hCell.symm.trans hOther
  have hClient : timerClient cbPtr = key := by rw [hArg, timerClient_packed hGood.isClient]
  have hEvent : timerEvent cbPtr = tmrCase tmrId := by rw [hArg, timerEvent_packed hGood.isClient]
  have hFind := (h.models.valid.find_eq_some_iff key p).mpr ⟨tcb, hCell⟩
  refine ⟨?_, ?_, hEvent, p, rfl, ?_, ?_, fun env => ?_⟩
  · rw [hGood.clientId]
    exact Connection.exists_makeClientId hGood.isClient
  · rw [hGood.clientId, hClient]
  · rw [hClient, hFind]
  · have hBlockNow := block_slot hCellNow
    rwa [← hGood.clientId] at hBlockNow
  · rw [hGood.clientId]
    simp only [TcpImpl.expire, hTimer, Option.bind_eq_bind, Option.bind_some, onTcpCbTimerExpire,
      hFindNow, hEvent]

/-- In every context that a run reaches from an empty table, the argument of
every pending timer leads back to the block that started it; a client id has 48
bits and belongs to one address and port only. -/
theorem pending_timer_routed (hReached : Reachable step Fresh ctx) {ref : TcbRef}
    {tcb : TcpControlBlock} {tmrId : Fin tcpMaxTmr} {cbPtr : UInt64}
    (hBlock : ctx.block ref = some tcb) (hPending : tcb.tmr.pending tmrId = some cbPtr) :
    ctx.Routed ref tcb tmrId cbPtr ∧
      (∀ ipv4Addr port, (makeClientId ipv4Addr port).toNat < 2 ^ 48) ∧
      ∀ ipv4Addr port ipv4Addr' port',
        makeClientId ipv4Addr port = makeClientId ipv4Addr' port' →
          ipv4Addr = ipv4Addr' ∧ port = port' := by
  obtain ⟨⟨m, hTracks⟩, hIdle⟩ : (∃ m, ctx.Tracks m) ∧ ctx.ListenIdle := by
    apply hReached.invariant fun ctx => (∃ m, ctx.Tracks m) ∧ ctx.ListenIdle
    · rintro start ⟨hEmpty, hIdle⟩
      exact ⟨⟨∅, hEmpty.tracks⟩, hIdle⟩
    · rintro before event after ⟨⟨m, hTracks⟩, hIdle⟩ hStep
      exact ⟨⟨m.next event, hTracks.step hStep⟩, hIdle.step hStep⟩
  refine ⟨?_, Connection.makeClientId_toNat_lt, fun _ _ _ _ => Connection.makeClientId_injective⟩
  cases ref with
  | slot p => exact hTracks.routed hBlock hPending
  | listen =>
      cases hBlock
      cases (hIdle tmrId).symm.trans hPending

/-- The connection timer of a client that has just sent its SYN. -/
theorem pending_timer_routed_syn :
    ∃ ctx p tcb cbPtr, Reachable step Fresh ctx ∧ tcb.state = .synSent ∧
      ctx.Routed (.slot p) tcb tcpConnectionTmr cbPtr := by
  let syn : TcpEvent := .segment (fun _ _ => true) (sampleSegment 2 100)
  have hSyn : (init.step syn).isSome := by decide
  obtain ⟨ctx, hStep⟩ := Option.isSome_iff_exists.mp hSyn
  have hFresh : init.Fresh := ⟨rfl, fun _ => rfl⟩
  have hReached : Reachable step Fresh ctx := (Reachable.start hFresh).next hStep
  have hTracks := hFresh.1.tracks.step hStep
  have hLookup : (Connections.next ∅ syn).lookup (sampleSegment 2 100).clientId =
      some (Connection.accepted (fun _ _ => true) (sampleSegment 2 100)) := rfl
  obtain ⟨p, _, hCell⟩ := hTracks.models.find_some hLookup
  exact ⟨ctx, p, _, _, hReached, rfl, (pending_timer_routed hReached (block_slot hCell) rfl).1⟩

end Nginz.TcpImpl
