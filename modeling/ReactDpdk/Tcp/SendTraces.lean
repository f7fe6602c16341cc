import ReactDpdk.Tcp.ConnectionStates

/-! What the service sends. The automaton of a client gets outputs: the calls of
`sendSynAck`, `sendFinAck` and `sendFin` that each of its events brings about. -/
namespace Nginz
open Transition

/-- The client that a call of the transmit side is for. -/
def TcpSend.client : TcpSend → UInt64
  | .synAck clientId _ => clientId
  | .finAck clientId _ => clientId
  | .fin clientId _ => clientId

namespace Connection

/-- What is sent when an event reaches a connection. A SYN is answered before the
timer of the new block is started. -/
def sends (room : Bool) : TcpEvent → Connection → List TcpSend
  | .segment _ header, none =>
      if header.has TcpMask.syn && room then [.synAck header.clientId header] else []
  | .segment _ header, some tcb =>
      match tcb.state with
      | .synSent => if acknowledges header tcb then [.synAck tcb.clientId header] else []
      | .established => if header.has TcpMask.fin then [.finAck tcb.clientId header] else []
      | .closeWait =>
          if acknowledges header tcb then [.fin tcb.clientId (tcb.expseq + 1).toUInt16] else []
      | _ => []
  | .expire _ _ _, none => []
  | .expire _ _ tmrId, some tcb =>
      if tcb.state = .closeWait ∧ tmrId = tcpFinalTmr1 then
        [.fin tcb.clientId (tcb.expseq + 1).toUInt16]
      else []

variable {key : UInt64} {tcb : TcpControlBlock}

/-- All of it goes to the client of the event. -/
theorem sends_client {room : Bool} {event : TcpEvent} {connection : Connection}
    (hGood : ∀ tcb, connection = some tcb → Good event.client tcb) {call : TcpSend}
    (hCall : call ∈ sends room event connection) : call.client = event.client := by
  cases event with
  | segment env header =>
      cases connection with
      | none =>
          simp only [sends] at hCall
          split at hCall
          · rw [List.mem_singleton.mp hCall]
            rfl
          · cases hCall
      | some tcb =>
          have hClient := (hGood tcb rfl).clientId
          simp only [sends] at hCall
          split at hCall
          case h_4 => cases hCall
          all_goals
            split at hCall
            · rw [List.mem_singleton.mp hCall]
              exact hClient
            · cases hCall
  | expire env key tmrId =>
      cases connection with
      | none => cases hCall
      | some tcb =>
          have hClient := (hGood tcb rfl).clientId
          simp only [sends] at hCall
          split at hCall
          · rw [List.mem_singleton.mp hCall]
            exact hClient
          · cases hCall

end Connection

/-- The connections with what an event makes them send. -/
def Connections.respond (m : Connections) (event : TcpEvent) : Connections × List TcpSend :=
  (m.next event, Connection.sends (decide (BoundedMap.size m < maxTcpClient)) event
    (m.lookup event.client))

namespace TcpImpl
variable {ctx ctx' : TcpImpl} {m : Connections} {key : UInt64} {p : Fin maxTcpClient}
  {tcb : TcpControlBlock} {env : TcpTimerEnv} {header : TcpSegmentHeader}

/-- The slot where a client belongs. -/
def homeSlot (key : UInt64) : Fin maxTcpClient := FixedDict.calcPos maxTcpClient 39 key

/-- The context once the fresh block of a client is `i` slots behind its home. -/
def storedAt (ctx : TcpImpl) (key : UInt64) (i : Nat) : TcpImpl :=
  { ctx with tcbTable := ctx.tcbTable.insertAt (homeSlot key) (Cyclic.advance (homeSlot key) i) key
               (.new key) }

theorem cells_storedAt (ctx : TcpImpl) (key : UInt64) (i : Nat) :
    (ctx.storedAt key i).tcbTable.cells = Function.update ctx.tcbTable.cells
      (Cyclic.advance (homeSlot key) i) (some (key, .new key)) :=
  FixedDict.cells_insertAt ..

theorem sent_acceptConnection
    (hBody : acceptConnection env ctx p header.clientId header = some ctx')
    (hCell : ctx.tcbTable.cells p = some (header.clientId, .new header.clientId)) :
    ctx'.sent = ctx.sent ++ [.synAck header.clientId header] := by
  have hStart := startTmr_eq
    { TcpControlBlock.new header.clientId with expseq := header.seqno + 1 } env tcpConnectionTmr
  simp only [acceptConnection, block_slot hCell, Option.bind_eq_bind, Option.bind_some,
    hStart] at hBody
  split at hBody
  · cases hBody
    exact sent_setBlock ..
  · cases hBody
    exact sent_setBlock ..

/-- The SYN of a client without a connection is stored in the first free slot and
accepted there, or there is no room for it. -/
theorem listen_cases (h : ctx.tcbTable.Models m) (hLookup : m.lookup header.clientId = none)
    (hSyn : header.has TcpMask.syn = true) {ref : TcbRef}
    (hBody : makeTcpFsmCallbackListen.body env ctx ref header = some ctx') :
    (BoundedMap.size m < maxTcpClient ∧ ∃ i, ctx.tcbTable.FirstFree header.clientId i ∧
      acceptConnection env (ctx.storedAt header.clientId i)
        (Cyclic.advance (homeSlot header.clientId) i) header.clientId header = some ctx') ∨
    (maxTcpClient ≤ BoundedMap.size m ∧ ctx' = ctx) := by
  simp only [makeTcpFsmCallbackListen, makeClientId_header, hSyn, if_true] at hBody
  by_cases hRoom : BoundedMap.size m < maxTcpClient
  · have hAbsent := (h.represents.absent_iff header.clientId).mp hLookup
    have hCount : ctx.tcbTable.cnt < maxTcpClient := h.cnt_eq ▸ hRoom
    rcases h.valid.emplace_absent (.new header.clientId) hCount hAbsent with
      ⟨i, hFirst, hStore⟩ | ⟨_, hNone⟩
    · simp only [hStore] at hBody
      split at hBody
      · rename_i hInside
        refine Or.inl ⟨hRoom, i, hFirst, ?_⟩
        have hSlot : (⟨i + FixedDict.calcPos maxTcpClient 39 header.clientId, hInside⟩ :
            Fin maxTcpClient) = Cyclic.advance (homeSlot header.clientId) i := by
          apply Fin.ext
          rw [Cyclic.advance_val, homeSlot, Nat.mod_eq_of_lt hInside]
        rw [hSlot] at hBody
        exact hBody
      · cases hBody
    · simp only [hNone] at hBody
      cases hBody
  · have hFull : maxTcpClient ≤ BoundedMap.size m := Nat.le_of_not_lt hRoom
    rw [FixedDict.emplace_full (by rwa [h.cnt_eq])] at hBody
    simp only [Option.some.injEq] at hBody
    exact Or.inr ⟨hFull, hBody.symm⟩

/-- The LISTEN callback answers the SYN of a client without a connection, if there is
room. -/
theorem sent_listen (h : ctx.tcbTable.Models m) (hLookup : m.lookup header.clientId = none)
    {ref : TcbRef} (hBody : makeTcpFsmCallbackListen.body env ctx ref header = some ctx') :
    ctx'.sent = ctx.sent ++
      Connection.sends (decide (BoundedMap.size m < maxTcpClient)) (.segment env header) none := by
  cases hSyn : header.has TcpMask.syn with
  | false =>
      simp only [makeTcpFsmCallbackListen, hSyn, Bool.false_eq_true, if_false,
        Option.some.injEq] at hBody
      simp [Connection.sends, hSyn, hBody]
  | true =>
      rcases listen_cases h hLookup hSyn hBody with
        ⟨hRoom, i, _, hAccept⟩ | ⟨hFull, hSame⟩
      · have hCell := congrFun (cells_storedAt ctx header.clientId i)
          (Cyclic.advance (homeSlot header.clientId) i)
        rw [Function.update_self] at hCell
        rw [sent_acceptConnection hAccept hCell]
        simp [Connection.sends, hSyn, hRoom, storedAt]
      · have hNone : ¬ BoundedMap.size m < maxTcpClient := Nat.not_lt_of_le hFull
        simp only [Connection.sends, hSyn, hNone, decide_false, Bool.and_false,
          Bool.false_eq_true, if_false, List.append_nil, hSame]

/-- The callback of each state of a connection, on the block in its slot. -/
theorem sent_callback (hCell : ctx.tcbTable.cells p = some (key, tcb)) (room : Bool)
    (hState : tcb.state.IsConnection) {callback : TcpFsmCallback}
    (hCallback : tcpFsm tcb.state = some callback)
    (hBody : callback.body env ctx (.slot p) header = some ctx') :
    ctx'.sent = ctx.sent ++ Connection.sends room (.segment env header) (some tcb) := by
  have hBlock := block_slot hCell
  cases hCase : tcb.state with
  | synSent =>
      cases (hCase ▸ hCallback : tcpFsm .synSent = some callback)
      simp only [makeTcpFsmCallbackSynSent, hBlock, Option.bind_eq_bind, Option.bind_some] at hBody
      split at hBody
      · rename_i hAck
        cases hBody
        simp [Connection.sends, hCase, hAck, sendSynAck, send]
      · rename_i hAck
        cases hBody
        simp [Connection.sends, hCase, hAck]
  | established =>
      cases (hCase ▸ hCallback : tcpFsm .established = some callback)
      simp only [makeTcpFsmCallbackEstablished, hBlock, Option.bind_eq_bind, Option.bind_some,
        startTmr_eq] at hBody
      split at hBody
      · rename_i hFin
        split at hBody <;> cases hBody
        · simp [Connection.sends, hCase, hFin, sendFinAck, send]
        · simp [Connection.sends, hCase, hFin, sendFinAck, send]
      · rename_i hFin
        cases hBody
        simp [Connection.sends, hCase, hFin]
  | closeWait =>
      cases (hCase ▸ hCallback : tcpFsm .closeWait = some callback)
      simp only [makeTcpFsmCallbackCloseWait, hBlock, Option.bind_eq_bind, Option.bind_some,
        startTmr_eq] at hBody
      split at hBody
      · rename_i hAck
        split at hBody <;> cases hBody
        · simp [Connection.sends, hCase, hAck, sendFin, send]
        · simp [Connection.sends, hCase, hAck, sendFin, send, eraseClient]
      · rename_i hAck
        cases hBody
        simp [Connection.sends, hCase, hAck]
  | lastAck =>
      cases (hCase ▸ hCallback : tcpFsm .lastAck = some callback)
      simp only [makeTcpFsmCallbackLastAck, hBlock, Option.bind_eq_bind, Option.bind_some] at hBody
      split at hBody <;> cases hBody
      · simp [Connection.sends, hCase, eraseClient]
      · simp [Connection.sends, hCase]
  | _ => simp [hCase, TcpState.IsConnection] at hState

/-- The timer callback of each state. The block in the slot has the fired timer
already cleared. -/
theorem sent_timer {tmrId : Fin tcpMaxTmr}
    (hCell : ctx.tcbTable.cells p = some (key, { tcb with tmr := tcb.tmr.clear tmrId }))
    (room : Bool) (hState : tcb.state.IsConnection) {callback : TcpFsmTmr}
    (hCallback : tcpFsmTmr tcb.state = some callback)
    (hBody : callback.body env ctx (.slot p) (tmrCase tmrId) = some ctx') :
    ctx'.sent = ctx.sent ++ Connection.sends room (.expire env key tmrId) (some tcb) := by
  have hBlock := block_slot hCell
  cases hCase : tcb.state with
  | synSent =>
      cases (hCase ▸ hCallback : tcpFsmTmr .synSent = some callback)
      cases hBody
      simp [Connection.sends, hCase]
  | established =>
      cases (hCase ▸ hCallback : tcpFsmTmr .established = some callback)
      cases hBody
      simp [Connection.sends, hCase]
  | closeWait =>
      cases (hCase ▸ hCallback : tcpFsmTmr .closeWait = some callback)
      simp only [makeTcpFsmTmrCloseWait, hBlock, Option.bind_eq_bind, Option.bind_some,
        tmrCase_eq_iff] at hBody
      split at hBody
      · rename_i hTmr
        cases hBody
        simp [Connection.sends, hCase, hTmr, sendFin, send]
      · rename_i hTmr
        cases hBody
        simp [Connection.sends, hCase, hTmr]
  | lastAck =>
      cases (hCase ▸ hCallback : tcpFsmTmr .lastAck = some callback)
      simp only [makeTcpFsmTmrLastAck, hBlock, Option.bind_eq_bind, Option.bind_some] at hBody
      split at hBody <;> cases hBody
      · simp [Connection.sends, hCase, eraseClient]
      · simp [Connection.sends, hCase]
  | _ => simp [hCase, TcpState.IsConnection] at hState

@[simp]
theorem sent_clearTimer (ctx : TcpImpl) (key : UInt64) (tmrId : Fin tcpMaxTmr) :
    (ctx.clearTimer key tmrId).sent = ctx.sent := by
  unfold clearTimer
  split
  · rfl
  · split
    · rfl
    · exact sent_setBlock ..

theorem Tracks.sent_segment (h : ctx.Tracks m) (hStep : ctx.segment env header = some ctx') :
    ctx'.sent = ctx.sent ++ (m.respond (.segment env header)).2 := by
  cases hLookup : m.lookup header.clientId with
  | none =>
      simp only [TcpImpl.segment, h.dispatch_none hLookup, Option.bind_eq_bind, Option.bind_some,
        reduceCtorEq, if_false, tcpFsm] at hStep
      have hSent := sent_listen h.models hLookup hStep
      rwa [← hLookup] at hSent
  | some tcb =>
      obtain ⟨p, hCell, hDispatch⟩ := h.dispatch_some hLookup
      have hGood := h.good _ _ hLookup
      have hState : tcb.state ≠ .max := fun hMax =>
        (hMax ▸ hGood.state : TcpState.max.IsConnection)
      simp only [TcpImpl.segment, hDispatch, Option.bind_eq_bind, Option.bind_some, if_neg hState,
        Option.bind_eq_some_iff] at hStep
      obtain ⟨callback, hCallback, hBody⟩ := hStep
      have hSent := sent_callback hCell (decide (BoundedMap.size m < maxTcpClient)) hGood.state
        hCallback hBody
      rwa [← hLookup] at hSent

theorem Tracks.sent_expire {tmrId : Fin tcpMaxTmr} (h : ctx.Tracks m)
    (hStep : ctx.expire env key tmrId = some ctx') :
    ctx'.sent = ctx.sent ++ (m.respond (.expire env key tmrId)).2 := by
  obtain ⟨cbPtr, hPending, hFire⟩ := Option.bind_eq_some_iff.mp hStep
  obtain ⟨p, tcb, hLookup, _, hArg, _, hFind, hCell⟩ := h.fired hPending
  have hGood := h.good key tcb hLookup
  simp only [onTcpCbTimerExpire, hFind] at hFire
  simp only [processTimer, block_slot hCell, hArg, timerEvent_packed hGood.isClient,
    Option.bind_eq_bind, Option.bind_some, Option.bind_eq_some_iff] at hFire
  obtain ⟨callback, hCallback, hBody⟩ := hFire
  have hSent := sent_timer hCell (decide (BoundedMap.size m < maxTcpClient)) hGood.state
    hCallback hBody
  rw [sent_clearTimer, ← hLookup] at hSent
  exact hSent

/-- A step sends what the automaton of its client says. -/
theorem Tracks.sent_step {event : TcpEvent} (h : ctx.Tracks m)
    (hStep : ctx.step event = some ctx') : ctx'.sent = ctx.sent ++ (m.respond event).2 := by
  cases event with
  | segment env header => exact h.sent_segment hStep
  | expire env key tmrId => exact h.sent_expire hStep

/-- And a run sends what they say one after the other. -/
theorem Tracks.sent_run {events : List TcpEvent} (h : ctx.Tracks m)
    (hRun : Transition.run TcpImpl.step ctx events = some ctx') :
    ctx'.sent = ctx.sent ++ (specTrace Connections.respond m events).flatten := by
  induction events generalizing ctx m with
  | nil =>
      cases hRun
      simp [specTrace]
  | cons event events ih =>
      obtain ⟨ctx₁, hStep, hRest⟩ := Option.bind_eq_some_iff.mp hRun
      rw [ih (h.step hStep) hRest, h.sent_step hStep, specTrace, List.flatten_cons,
        List.append_assoc]
      rfl

/-- In every run from an empty table, the transmit side is called as the automata
of the clients say, in the order of the events. The two lists are equal, so no call is
missing, doubled or made with other arguments. -/
theorem run_sends {events : List TcpEvent} (h : ctx.EmptyTable)
    (hRun : Transition.run TcpImpl.step ctx events = some ctx') :
    ctx'.sent = ctx.sent ++ (specTrace Connections.respond ∅ events).flatten :=
  h.tracks.sent_run hRun

/-- A FIN of one client comes between the SYN and the segment that acknowledges it. -/
theorem run_sends_two :
    ∃ ctx, Transition.run TcpImpl.step init
        [.segment (fun _ _ => true) (sampleSegment 2 100),
          .segment (fun _ _ => true) { sampleSegment 1 200 with sport := 8 },
          .segment (fun _ _ => true) (sampleSegment 16 101)] = some ctx ∧
      ctx.sent = [.synAck (sampleSegment 2 100).clientId (sampleSegment 2 100),
        .synAck (sampleSegment 2 100).clientId (sampleSegment 16 101)] := by
  have hSome : (Transition.run TcpImpl.step init
      [.segment (fun _ _ => true) (sampleSegment 2 100),
        .segment (fun _ _ => true) { sampleSegment 1 200 with sport := 8 },
        .segment (fun _ _ => true) (sampleSegment 16 101)]).isSome := by decide
  obtain ⟨ctx, hRun⟩ := Option.isSome_iff_exists.mp hSome
  have hStart : init.EmptyTable := rfl
  exact ⟨ctx, hRun, run_sends hStart hRun⟩

end TcpImpl
end Nginz
