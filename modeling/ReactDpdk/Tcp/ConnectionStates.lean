import ReactDpdk.Tcp.ConnectionRefinement

/-! What holds of the connections in every context that a run reaches: their
states, the moves between them, and that events of different clients commute. -/
namespace Nginz
open Transition

/-- The outcomes of timer starts that come with an event. -/
def TcpEvent.env : TcpEvent → TcpTimerEnv
  | .segment env _ => env
  | .expire env _ _ => env

/-- The event is a SYN. -/
def TcpEvent.IsSyn : TcpEvent → Prop
  | .segment _ header => header.has TcpMask.syn = true
  | .expire _ _ _ => False

namespace Connection

/-- What one event does to an existing connection: it stays, moves one step, or
ends, and it ends only from the two last states. -/
theorem next_some {room : Bool} {event : TcpEvent} {tcb : TcpControlBlock}
    (hGood : Good event.client tcb) :
    (∃ tcb', next room event (some tcb) = some tcb' ∧
      (tcb'.state = tcb.state ∨ tcb.state.Follows tcb'.state)) ∨
    (next room event (some tcb) = none ∧ (tcb.state = .lastAck ∨
      tcb.state = .closeWait ∧ event.env event.client tcpFinalTmr2 = false)) := by
  cases event with
  | segment env header =>
      have hMove := segmentMove env room header tcb
      rw [next]
      cases hNext : onSegment env room header (some tcb) with
      | some tcb' =>
          rw [hNext] at hMove
          refine Or.inl ⟨tcb', rfl, ?_⟩
          cases hMove with
          | ignored => exact Or.inl rfl
          | established hState => exact Or.inr (hState ▸ .established)
          | closeWait hState => exact Or.inr (hState ▸ .closeWait)
          | finUnanswered => exact Or.inl rfl
          | lastAck hState => exact Or.inr (hState ▸ .lastAck)
      | none =>
          rw [hNext] at hMove
          refine Or.inr ⟨rfl, ?_⟩
          cases hMove with
          | dropped hState hStart =>
              rw [hGood.srcAddr] at hStart
              exact Or.inr ⟨hState, hStart⟩
          | closed hState => exact Or.inl hState
  | expire env key tmrId =>
      have hMove := expireMove tmrId tcb
      rw [next, Option.bind_some]
      cases hNext : onExpire tmrId tcb with
      | some tcb' =>
          rw [hNext] at hMove
          refine Or.inl ⟨tcb', rfl, ?_⟩
          cases hMove with
          | logged => exact Or.inl rfl
          | lastAck hState => exact Or.inr (hState ▸ .lastAck)
      | none =>
          rw [hNext] at hMove
          refine Or.inr ⟨rfl, ?_⟩
          cases hMove with
          | closed hState => exact Or.inl hState

/-- Only a SYN of the client makes a new connection. -/
theorem next_none {room : Bool} {event : TcpEvent} {tcb : TcpControlBlock}
    (hNext : next room event none = some tcb) : event.IsSyn ∧ tcb.state = .synSent := by
  cases event with
  | segment env header =>
      simp only [next, onSegment] at hNext
      split at hNext
      · rename_i hAccepted
        cases hNext
        simp only [Bool.and_eq_true] at hAccepted
        exact ⟨hAccepted.1.1, rfl⟩
      · cases hNext
  | expire env key tmrId => cases hNext

end Connection

namespace TcpImpl

/-- The connections of a context are in order, and so is what any next event
does to them and any callback that is dispatched. -/
structure ConnectionsInOrder (ctx : TcpImpl) : Prop where
  stored : ∀ p key tcb, ctx.tcbTable.cells p = some (key, tcb) →
    tcb.clientId = key ∧ tcb.state.IsConnection
  moves : ∀ event ctx', ctx.step event = some ctx' →
    ∀ key tcb, ctx.tcbTable.lookup key = some tcb →
      (∃ tcb', ctx'.tcbTable.lookup key = some tcb' ∧
        (tcb'.state = tcb.state ∨ tcb.state.Follows tcb'.state)) ∨
      (ctx'.tcbTable.lookup key = none ∧ (tcb.state = .lastAck ∨
        tcb.state = .closeWait ∧ event.env key tcpFinalTmr2 = false))
  enters : ∀ event ctx', ctx.step event = some ctx' →
    ∀ key tcb, ctx.tcbTable.lookup key = none → ctx'.tcbTable.lookup key = some tcb →
      event.client = key ∧ event.IsSyn ∧ tcb.state = .synSent
  dispatched : ∀ clientId, ctx.dispatch clientId = some (.listen, .listen) ∨
    ∃ p state, ctx.dispatch clientId = some (.slot p, state) ∧ state.IsConnection
  timers : ∀ key tmrId cbPtr, ctx.pendingTimer key tmrId = some cbPtr →
    ∃ p state, (ctx.clearTimer key tmrId).timerDispatch cbPtr = some (.slot p, state) ∧
      state.IsConnection

variable {ctx ctx' : TcpImpl} {m : Connections}

theorem Tracks.lookup (h : ctx.Tracks m) (key : UInt64) : ctx.tcbTable.lookup key = m.lookup key :=
  h.models.lookup key

/-- After a step, the client of the event has what its automaton says. -/
theorem Tracks.lookup_step (h : ctx.Tracks m) {event : TcpEvent}
    (hStep : ctx.step event = some ctx')
    (key : UInt64) : ctx'.tcbTable.lookup key =
      if key = event.client then
        Connection.next (decide (BoundedMap.size m < maxTcpClient)) event (m.lookup event.client)
      else m.lookup key := by
  rw [(h.step hStep).lookup, Connections.next, BoundedMap.lookup_assign]

/-- The callback of a timer runs on the block that the timer belongs to. -/
theorem Tracks.timerDispatch (h : ctx.Tracks m) {key : UInt64} {tmrId : Fin tcpMaxTmr}
    {cbPtr : UInt64} (hPending : ctx.pendingTimer key tmrId = some cbPtr) :
    ∃ p tcb, m.lookup key = some tcb ∧
      (ctx.clearTimer key tmrId).timerDispatch cbPtr = some (.slot p, tcb.state) := by
  obtain ⟨p, tcb, hLookup, _, _, _, hFind, hCell⟩ := h.fired hPending
  refine ⟨p, tcb, hLookup, ?_⟩
  simp [TcpImpl.timerDispatch, hFind, block_slot hCell]

/-- In every context that a run reaches from an empty table, the connections
are in order: blocks are filed under their client, move only along the edges of the
state machine, enter by a SYN, and are what segments and timers are dispatched to. -/
theorem reached_connectionsInOrder (h : ctx.Reached) : ctx.ConnectionsInOrder := by
  obtain ⟨m, hTracks⟩ := h.tracks
  constructor
  case stored =>
    intro p key tcb hCell
    have hGood := hTracks.good key tcb ((hTracks.models.represents key tcb).mpr ⟨p, hCell⟩)
    exact ⟨hGood.clientId, hGood.state⟩
  case moves =>
    intro event ctx' hStep key tcb hLookup
    rw [hTracks.lookup] at hLookup
    rw [hTracks.lookup_step hStep]
    by_cases hKey : key = event.client
    · subst hKey
      rw [if_pos rfl, hLookup]
      exact Connection.next_some (hTracks.good _ _ hLookup)
    · rw [if_neg hKey]
      exact Or.inl ⟨tcb, hLookup, Or.inl rfl⟩
  case enters =>
    intro event ctx' hStep key tcb hBefore hAfter
    rw [hTracks.lookup] at hBefore
    rw [hTracks.lookup_step hStep] at hAfter
    split at hAfter
    · rename_i hKey
      rw [← hKey, hBefore] at hAfter
      exact ⟨hKey.symm, Connection.next_none hAfter⟩
    · rw [hBefore] at hAfter
      cases hAfter
  case dispatched =>
    intro clientId
    cases hLookup : m.lookup clientId with
    | none => exact Or.inl (hTracks.dispatch_none hLookup)
    | some tcb =>
        obtain ⟨p, _, hDispatch⟩ := hTracks.dispatch_some hLookup
        exact Or.inr ⟨p, tcb.state, hDispatch, (hTracks.good _ _ hLookup).state⟩
  case timers =>
    intro key tmrId cbPtr hPending
    obtain ⟨p, tcb, hLookup, hDispatch⟩ := hTracks.timerDispatch hPending
    exact ⟨p, tcb.state, hDispatch, (hTracks.good _ _ hLookup).state⟩

/-- A connection that is opened, closed and removed. -/
theorem reached_connectionsInOrder_exchange :
    ∃ ctx ctx', Transition.run step init [.segment (fun _ _ => true) (sampleSegment 2 100),
        .segment (fun _ _ => true) (sampleSegment 16 101),
        .segment (fun _ _ => true) (sampleSegment 1 500),
        .segment (fun _ _ => true) (sampleSegment 16 500)] = some ctx ∧
      ctx.step (.segment (fun _ _ => true) (sampleSegment 16 501)) = some ctx' ∧
      ctx.tcbTable.size = 1 ∧ ctx'.tcbTable.size = 0 ∧
      ctx.ConnectionsInOrder ∧ ctx'.ConnectionsInOrder := by
  have hSizes : ((Transition.run step init [.segment (fun _ _ => true) (sampleSegment 2 100),
      .segment (fun _ _ => true) (sampleSegment 16 101),
      .segment (fun _ _ => true) (sampleSegment 1 500),
      .segment (fun _ _ => true) (sampleSegment 16 500)]).bind fun ctx =>
        (ctx.step (.segment (fun _ _ => true) (sampleSegment 16 501))).map fun ctx' =>
          (ctx.tcbTable.size, ctx'.tcbTable.size)) = some (1, 0) := by decide
  obtain ⟨ctx, hRun, hSizes⟩ := Option.bind_eq_some_iff.mp hSizes
  obtain ⟨ctx', hStep, hSizes⟩ := Option.map_eq_some_iff.mp hSizes
  obtain ⟨hOne, hNone⟩ := Prod.mk.inj hSizes
  have hStart : Reached init := .start rfl
  have hReached : ctx.Reached := hStart.run hRun
  exact ⟨ctx, ctx', hRun, hStep, hOne, hNone, reached_connectionsInOrder hReached,
    reached_connectionsInOrder (.next hReached hStep)⟩

/-- An event touches no connection but that of its client. -/
theorem Tracks.other_lookup (h : ctx.Tracks m) {event : TcpEvent}
    (hStep : ctx.step event = some ctx') {key : UInt64} (hKey : key ≠ event.client) :
    ctx'.tcbTable.entry key = ctx.tcbTable.entry key := by
  rw [(h.step hStep).models.entry, h.models.entry, Connections.next, BoundedMap.lookup_assign,
    if_neg hKey]

theorem next_of_room (event : TcpEvent) (hRoom : BoundedMap.size m < maxTcpClient) :
    m.next event = BoundedMap.assign m event.client
      (Connection.next true event (m.lookup event.client)) := by
  rw [Connections.next, decide_eq_true hRoom]

/-- With room for both, the second of two events of different clients finds
what it would have found without the first. -/
theorem next_next {first second : TcpEvent} (hClients : first.client ≠ second.client)
    (hRoom : BoundedMap.size m + 2 ≤ maxTcpClient) :
    (m.next first).next second = BoundedMap.assign (BoundedMap.assign m first.client
      (Connection.next true first (m.lookup first.client))) second.client
      (Connection.next true second (m.lookup second.client)) := by
  have hSize := BoundedMap.size_assign_le m first.client
    (Connection.next true first (m.lookup first.client))
  rw [next_of_room first (by omega), next_of_room second (by omega), BoundedMap.lookup_assign,
    if_neg hClients.symm]

/-- Two events of different clients commute in every reached context with two
free slots, and neither touches a connection of another client. Without the room the
order may decide which of two new clients gets the last slot. -/
theorem events_commute {first second : TcpEvent} {ctx₁₂ ctx₂₁ : TcpImpl} (h : ctx.Reached)
    (hRoom : ctx.tcbTable.size + 2 ≤ maxTcpClient) (hClients : first.client ≠ second.client)
    (hOne : run step ctx [first, second] = some ctx₁₂)
    (hTwo : run step ctx [second, first] = some ctx₂₁) :
    (∀ key, ctx₁₂.tcbTable.entry key = ctx₂₁.tcbTable.entry key) ∧
    ctx₁₂.tcbTable.size = ctx₂₁.tcbTable.size ∧
    ∀ event ∈ [first, second], ∀ ctx', ctx.step event = some ctx' →
      ∀ key, key ≠ event.client → ctx'.tcbTable.entry key = ctx.tcbTable.entry key := by
  obtain ⟨m, hTracks⟩ := h.tracks
  have hFree : BoundedMap.size m + 2 ≤ maxTcpClient := hTracks.models.cnt_eq ▸ hRoom
  have hSame : (m.next first).next second = (m.next second).next first := by
    rw [next_next hClients hFree, next_next hClients.symm hFree, BoundedMap.assign_comm hClients]
  have hModels₁₂ := (hTracks.run hOne).models
  have hModels₂₁ := (hTracks.run hTwo).models
  simp only [List.foldl_cons, List.foldl_nil, hSame] at hModels₁₂ hModels₂₁
  refine ⟨fun key => ?_, ?_, fun event _ ctx' hStep key hKey => ?_⟩
  · rw [hModels₁₂.entry, hModels₂₁.entry]
  · rw [FixedDict.size, FixedDict.size, hModels₁₂.cnt_eq, hModels₂₁.cnt_eq]
  · exact hTracks.other_lookup hStep hKey

theorem events_commute_two :
    ∃ ctx₁₂ ctx₂₁, run step init [.segment (fun _ _ => true) (sampleSegment 2 100),
        .segment (fun _ _ => true) { sampleSegment 2 200 with sport := 8 }] = some ctx₁₂ ∧
      run step init [.segment (fun _ _ => true) { sampleSegment 2 200 with sport := 8 },
        .segment (fun _ _ => true) (sampleSegment 2 100)] = some ctx₂₁ ∧
      ctx₁₂.tcbTable.size = ctx₂₁.tcbTable.size := by
  have hOne : (run step init [.segment (fun _ _ => true) (sampleSegment 2 100),
      .segment (fun _ _ => true) { sampleSegment 2 200 with sport := 8 }]).isSome := by decide
  have hTwo : (run step init [.segment (fun _ _ => true) { sampleSegment 2 200 with sport := 8 },
      .segment (fun _ _ => true) (sampleSegment 2 100)]).isSome := by decide
  have hStart : init.EmptyTable := rfl
  obtain ⟨ctx₁₂, hOne⟩ := Option.isSome_iff_exists.mp hOne
  obtain ⟨ctx₂₁, hTwo⟩ := Option.isSome_iff_exists.mp hTwo
  exact ⟨ctx₁₂, ctx₂₁, hOne, hTwo,
    (events_commute (.start hStart) (by decide) (by decide) hOne hTwo).2.1⟩

end TcpImpl
end Nginz
