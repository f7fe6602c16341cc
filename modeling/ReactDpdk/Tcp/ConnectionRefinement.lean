import ReactDpdk.Tcp.Connections

/-! The table of one thread follows the automata of its clients: an event
changes the connection of its own client as the automaton says, and no other. -/
namespace Nginz
open BoundedMap (assign assign_assign assign_lookup)

/-- The connections of all clients. -/
abbrev Connections := BoundedMap.Contents UInt64 TcpControlBlock

/-- An event on the connections: only that of its client changes. -/
def Connections.next (m : Connections) (event : TcpEvent) : Connections :=
  assign m event.client
    (Connection.next (decide (BoundedMap.size m < maxTcpClient)) event (m.lookup event.client))

namespace TcpImpl

/-- A context whose table stands for connections in good order. -/
structure Tracks (ctx : TcpImpl) (m : Connections) : Prop where
  models : ctx.tcbTable.Models m
  good : ∀ key tcb, m.lookup key = some tcb → Connection.Good key tcb

variable {ctx ctx' : TcpImpl} {m : Connections} {key : UInt64} {p : Fin maxTcpClient}
  {tcb old : TcpControlBlock} {env : TcpTimerEnv} {header : TcpSegmentHeader}

theorem block_slot (hCell : ctx.tcbTable.cells p = some (key, tcb)) :
    ctx.block (.slot p) = some tcb := by
  simp [block, hCell]

theorem models_setBlock (h : ctx.tcbTable.Models m)
    (hCell : ctx.tcbTable.cells p = some (key, old)) (tcb : TcpControlBlock) :
    (ctx.setBlock (.slot p) tcb).tcbTable.Models (assign m key (some tcb)) := by
  simp only [setBlock, hCell, Option.map_some]
  exact h.write tcb hCell

theorem models_eraseClient (h : ctx.tcbTable.Models m) (key : UInt64) :
    (ctx.eraseClient key).tcbTable.Models (assign m key none) := (h.erase key).1

/-- A block that was stored and then erased leaves no trace. -/
theorem models_eraseClient_setBlock (h : ctx.tcbTable.Models m)
    (hCell : ctx.tcbTable.cells p = some (key, old)) (tcb : TcpControlBlock) :
    ((ctx.setBlock (.slot p) tcb).eraseClient key).tcbTable.Models (assign m key none) := by
  have hErased := models_eraseClient (models_setBlock h hCell tcb) key
  rw [assign_assign] at hErased
  exact hErased

theorem startTmr_eq (tcb : TcpControlBlock) (env : TcpTimerEnv) (tmrId : Fin tcpMaxTmr) :
    tcb.startTmr env tmrId tcpControlBlockDefaultMs =
      ({ tcb with tmr := tcb.tmr.restarted env tmrId }, env tcb.tmr.srcAddr tmrId) := by
  rw [TcpControlBlock.startTmr, MultiTimer.start_eq _ _ _ (by decide)]

/-- Only the hanging state brings more than the new state. -/
theorem changeState_eq (tcb : TcpControlBlock) (env : TcpTimerEnv) {newState : TcpState}
    (hState : newState ≠ .exceptionHang) :
    tcb.changeState env newState = { tcb with state := newState } := by
  by_cases hSame : tcb.state = newState
  · rw [TcpControlBlock.changeState, if_pos hSame, ← hSame]
  · simp only [TcpControlBlock.changeState, if_neg hSame, if_neg hState]

/-- The entry that `emplace` stored becomes a connection, or is taken back. -/
theorem models_acceptConnection
    (hBody : acceptConnection env ctx p header.clientId header = some ctx')
    (h : ctx.tcbTable.Models m)
    (hCell : ctx.tcbTable.cells p = some (header.clientId, .new header.clientId)) :
    ctx'.tcbTable.Models (assign m header.clientId
      (if env header.clientId tcpConnectionTmr then some (Connection.accepted env header)
      else none)) := by
  have hStart := startTmr_eq
    { TcpControlBlock.new header.clientId with expseq := header.seqno + 1 } env tcpConnectionTmr
  simp only [acceptConnection, block_slot hCell, Option.bind_eq_bind, Option.bind_some,
    hStart] at hBody
  cases hOk : env header.clientId tcpConnectionTmr with
  | true =>
      have hOk' : env (TcpControlBlock.new header.clientId).tmr.srcAddr tcpConnectionTmr =
          true := hOk
      simp only [hOk', Option.some.injEq] at hBody
      rw [if_pos rfl, ← hBody, changeState_eq _ _ (by decide)]
      exact models_setBlock h hCell _
  | false =>
      have hOk' : env (TcpControlBlock.new header.clientId).tmr.srcAddr tcpConnectionTmr =
          false := hOk
      simp only [hOk', Option.some.injEq] at hBody
      rw [if_neg Bool.false_ne_true, ← hBody]
      exact models_eraseClient_setBlock h hCell _

/-- The LISTEN callback, for a client without a connection. -/
theorem models_listen (h : ctx.tcbTable.Models m) (hLookup : m.lookup header.clientId = none)
    {ref : TcbRef} (hBody : makeTcpFsmCallbackListen.body env ctx ref header = some ctx') :
    ctx'.tcbTable.Models (assign m header.clientId
      (Connection.onSegment env (decide (BoundedMap.size m < maxTcpClient)) header none)) := by
  simp only [makeTcpFsmCallbackListen, makeClientId_header] at hBody
  cases hSyn : header.has TcpMask.syn with
  | false =>
      simp only [hSyn, Bool.false_eq_true, if_false, Option.some.injEq] at hBody
      simp only [Connection.onSegment, hSyn, Bool.false_and, Bool.false_eq_true, if_false]
      rw [assign_lookup hLookup, ← hBody]
      exact h
  | true =>
      simp only [hSyn, if_true] at hBody
      by_cases hRoom : BoundedMap.size m < maxTcpClient
      · have hAbsent := (h.represents.absent_iff header.clientId).mp hLookup
        have hCount : ctx.tcbTable.cnt < maxTcpClient := h.cnt_eq ▸ hRoom
        rcases h.valid.emplace_absent (.new header.clientId) hCount hAbsent with
          ⟨i, hFirst, hStore⟩ | ⟨_, hNone⟩
        · simp only [hStore] at hBody
          split at hBody
          · rename_i hInside
            have hSlot : (⟨i + FixedDict.calcPos maxTcpClient 39 header.clientId, hInside⟩ :
                Fin maxTcpClient) =
                Cyclic.advance (FixedDict.calcPos maxTcpClient 39 header.clientId) i := by
              apply Fin.ext
              rw [Cyclic.advance_val, Nat.mod_eq_of_lt hInside]
            rw [hSlot] at hBody
            have hStored := h.insertAt (TcpControlBlock.new header.clientId) hFirst.free hLookup
            have hNext := models_acceptConnection hBody hStored (by
              rw [FixedDict.cells_insertAt]
              exact Function.update_self ..)
            have hInsert : m.insert header.clientId (TcpControlBlock.new header.clientId) =
                assign m header.clientId (some (.new header.clientId)) := rfl
            rw [hInsert, assign_assign] at hNext
            simpa only [Connection.onSegment, hSyn, hRoom, decide_true, Bool.true_and] using hNext
          · cases hBody
        · simp only [hNone] at hBody
          cases hBody
      · rw [FixedDict.emplace_full (by rw [h.cnt_eq]; omega)] at hBody
        simp only [Option.some.injEq] at hBody
        simp only [Connection.onSegment, hRoom, decide_false, Bool.and_false, Bool.false_and,
          Bool.false_eq_true, if_false]
        rw [assign_lookup hLookup, ← hBody]
        exact h

section Callbacks
variable (h : ctx.tcbTable.Models m) (hCell : ctx.tcbTable.cells p = some (key, tcb)) (room : Bool)
include h hCell

/-- A callback that leaves the context alone leaves the connection alone. -/
theorem models_unchanged : ctx.tcbTable.Models (assign m key (some tcb)) := by
  rw [assign_lookup ((h.represents key tcb).mpr ⟨p, hCell⟩)]
  exact h

theorem models_synSent (hState : tcb.state = .synSent)
    (hBody : makeTcpFsmCallbackSynSent.body env ctx (.slot p) header = some ctx') :
    ctx'.tcbTable.Models (assign m key (Connection.onSegment env room header (some tcb))) := by
  simp only [makeTcpFsmCallbackSynSent, block_slot hCell, Option.bind_eq_bind,
    Option.bind_some] at hBody
  cases hAck : acknowledges header tcb with
  | true =>
      simp only [hAck, if_true, Option.some.injEq] at hBody
      simp only [Connection.onSegment, hState, hAck, if_true]
      rw [← hBody, changeState_eq _ _ (by decide)]
      exact models_setBlock h hCell _
  | false =>
      simp only [hAck, Bool.false_eq_true, if_false, Option.some.injEq] at hBody
      simp only [Connection.onSegment, hState, hAck, Bool.false_eq_true, if_false]
      exact hBody ▸ models_unchanged h hCell

theorem models_established (hState : tcb.state = .established)
    (hBody : makeTcpFsmCallbackEstablished.body env ctx (.slot p) header = some ctx') :
    ctx'.tcbTable.Models (assign m key (Connection.onSegment env room header (some tcb))) := by
  simp only [makeTcpFsmCallbackEstablished, block_slot hCell, Option.bind_eq_bind,
    Option.bind_some, startTmr_eq] at hBody
  cases hFin : header.has TcpMask.fin with
  | true =>
      simp only [hFin, if_true] at hBody
      simp only [Connection.onSegment, hState, hFin, if_true]
      cases hStart : env tcb.tmr.srcAddr tcpFinalTmr1 with
      | true =>
          simp only [hStart, Option.some.injEq] at hBody
          rw [← hBody, changeState_eq _ _ (by decide), if_pos rfl]
          exact models_setBlock h hCell _
      | false =>
          simp only [hStart, Option.some.injEq] at hBody
          rw [← hBody, if_neg Bool.false_ne_true, ← hState]
          exact models_setBlock h hCell _
  | false =>
      simp only [hFin, Bool.false_eq_true, if_false, Option.some.injEq] at hBody
      simp only [Connection.onSegment, hState, hFin, Bool.false_eq_true, if_false]
      exact hBody ▸ models_unchanged h hCell

theorem models_closeWait (hState : tcb.state = .closeWait) (hKey : tcb.clientId = key)
    (hBody : makeTcpFsmCallbackCloseWait.body env ctx (.slot p) header = some ctx') :
    ctx'.tcbTable.Models (assign m key (Connection.onSegment env room header (some tcb))) := by
  simp only [makeTcpFsmCallbackCloseWait, block_slot hCell, Option.bind_eq_bind,
    Option.bind_some, startTmr_eq] at hBody
  cases hAck : acknowledges header tcb with
  | true =>
      simp only [hAck, if_true] at hBody
      simp only [Connection.onSegment, hState, hAck, if_true]
      cases hStart : env tcb.tmr.srcAddr tcpFinalTmr2 with
      | true =>
          simp only [hStart, Option.some.injEq] at hBody
          rw [← hBody, changeState_eq _ _ (by decide), if_pos rfl]
          exact models_setBlock h hCell _
      | false =>
          simp only [hStart, Option.some.injEq] at hBody
          rw [← hBody, if_neg Bool.false_ne_true, hKey]
          exact models_eraseClient_setBlock h hCell _
  | false =>
      simp only [hAck, Bool.false_eq_true, if_false, Option.some.injEq] at hBody
      simp only [Connection.onSegment, hState, hAck, Bool.false_eq_true, if_false]
      exact hBody ▸ models_unchanged h hCell

theorem models_lastAck (hState : tcb.state = .lastAck) (hKey : tcb.clientId = key)
    (hBody : makeTcpFsmCallbackLastAck.body env ctx (.slot p) header = some ctx') :
    ctx'.tcbTable.Models (assign m key (Connection.onSegment env room header (some tcb))) := by
  simp only [makeTcpFsmCallbackLastAck, block_slot hCell, Option.bind_eq_bind,
    Option.bind_some] at hBody
  cases hAck : acknowledges header tcb with
  | true =>
      simp only [hAck, if_true, Option.some.injEq] at hBody
      simp only [Connection.onSegment, hState, hAck, if_true]
      rw [← hBody, hKey]
      exact models_eraseClient h key
  | false =>
      simp only [hAck, Bool.false_eq_true, if_false, Option.some.injEq] at hBody
      simp only [Connection.onSegment, hState, hAck, Bool.false_eq_true, if_false]
      exact hBody ▸ models_unchanged h hCell

/-- The callback of each state of a connection, on the block in its slot. -/
theorem models_callback (hGood : Connection.Good key tcb) {callback : TcpFsmCallback}
    (hCallback : tcpFsm tcb.state = some callback)
    (hBody : callback.body env ctx (.slot p) header = some ctx') :
    ctx'.tcbTable.Models (assign m key (Connection.onSegment env room header (some tcb))) := by
  have hState := hGood.state
  cases hCase : tcb.state with
  | synSent =>
      cases (hCase ▸ hCallback : tcpFsm .synSent = some callback)
      exact models_synSent h hCell room hCase hBody
  | established =>
      cases (hCase ▸ hCallback : tcpFsm .established = some callback)
      exact models_established h hCell room hCase hBody
  | closeWait =>
      cases (hCase ▸ hCallback : tcpFsm .closeWait = some callback)
      exact models_closeWait h hCell room hCase hGood.clientId hBody
  | lastAck =>
      cases (hCase ▸ hCallback : tcpFsm .lastAck = some callback)
      exact models_lastAck h hCell room hCase hGood.clientId hBody
  | _ => simp [hCase, TcpState.IsConnection] at hState

end Callbacks

theorem tmrCase_eq_iff (tmrId other : Fin tcpMaxTmr) :
    tmrCase tmrId = tmrCase other ↔ tmrId = other := by
  revert tmrId other
  decide

/-- The timer callback of each state. The block in the slot has the fired timer
already cleared. -/
theorem models_timer {tmrId : Fin tcpMaxTmr} (h : ctx.tcbTable.Models m)
    (hCell : ctx.tcbTable.cells p = some (key, { tcb with tmr := tcb.tmr.clear tmrId }))
    (hGood : Connection.Good key tcb) {callback : TcpFsmTmr}
    (hCallback : tcpFsmTmr tcb.state = some callback)
    (hBody : callback.body env ctx (.slot p) (tmrCase tmrId) = some ctx') :
    ctx'.tcbTable.Models (assign m key (Connection.onExpire tmrId tcb)) := by
  have hState := hGood.state
  cases hCase : tcb.state with
  | synSent =>
      cases (hCase ▸ hCallback : tcpFsmTmr .synSent = some callback)
      cases hBody
      simp only [Connection.onExpire, hCase]
      rw [← hCase]
      exact models_unchanged h hCell
  | established =>
      cases (hCase ▸ hCallback : tcpFsmTmr .established = some callback)
      cases hBody
      simp only [Connection.onExpire, hCase]
      rw [← hCase]
      exact models_unchanged h hCell
  | closeWait =>
      cases (hCase ▸ hCallback : tcpFsmTmr .closeWait = some callback)
      simp only [makeTcpFsmTmrCloseWait, block_slot hCell, Option.bind_eq_bind, Option.bind_some,
        tmrCase_eq_iff] at hBody
      simp only [Connection.onExpire, hCase]
      by_cases hTmr : tmrId = tcpFinalTmr1
      · simp only [if_pos hTmr, Option.some.injEq] at hBody
        rw [if_pos hTmr, ← hBody, changeState_eq _ _ (by decide)]
        exact models_setBlock h hCell _
      · simp only [if_neg hTmr, Option.some.injEq] at hBody
        rw [if_neg hTmr, ← hBody, ← hCase]
        exact models_unchanged h hCell
  | lastAck =>
      cases (hCase ▸ hCallback : tcpFsmTmr .lastAck = some callback)
      simp only [makeTcpFsmTmrLastAck, block_slot hCell, Option.bind_eq_bind, Option.bind_some,
        tmrCase_eq_iff] at hBody
      simp only [Connection.onExpire, hCase]
      by_cases hTmr : tmrId = tcpFinalTmr2
      · simp only [if_pos hTmr, Option.some.injEq] at hBody
        rw [if_pos hTmr, ← hBody, hGood.clientId]
        exact models_eraseClient h key
      · simp only [if_neg hTmr, Option.some.injEq] at hBody
        rw [if_neg hTmr, ← hBody, ← hCase]
        exact models_unchanged h hCell
  | _ => simp [hCase, TcpState.IsConnection] at hState

/-- The argument of a timer names the client that started it. -/
theorem timerClient_packed (hKey : key.toNat < 2 ^ 48) (tmrId : Fin tcpMaxTmr) :
    timerClient (MultiTimer.packed key tmrId) = key := by
  have hMask : (~~~((0xFF : UInt64) <<< 56)).toNat = 2 ^ 56 - 1 := by decide
  have hEvent : ∀ i : Fin tcpMaxTmr,
      ((0xFF &&& UInt32.ofNat i).toUInt64 <<< 56).toNat % 2 ^ 56 = 0 := by decide
  apply UInt64.toNat_inj.mp
  rw [timerClient, MultiTimer.packed, UInt64.toNat_and, UInt64.toNat_or, hMask, Nat.and_comm,
    Nat.and_two_pow_sub_one_eq_mod, Nat.or_mod_two_pow, hEvent, Nat.or_zero,
    Nat.mod_eq_of_lt (by omega)]

/-- The argument of a timer names the timer. -/
theorem timerEvent_packed (hKey : key.toNat < 2 ^ 48) (tmrId : Fin tcpMaxTmr) :
    timerEvent (MultiTimer.packed key tmrId) = tmrCase tmrId := by
  have hEvent : ∀ i : Fin tcpMaxTmr,
      ((0xFF &&& UInt32.ofNat i).toUInt64 <<< 56) >>> 56 &&& 0xFF = UInt64.ofNat i := by decide
  have hCase : ∀ i : Fin tcpMaxTmr, (UInt64.ofNat i).toUInt8 = tmrCase i := by decide
  have hShift : key >>> 56 = 0 := by
    apply UInt64.toNat_inj.mp
    have hCount : (56 : UInt64).toNat % 64 = 56 := rfl
    rw [UInt64.toNat_shiftRight, hCount, Nat.shiftRight_eq_div_pow]
    exact Nat.div_eq_of_lt (by omega)
  rw [timerEvent, MultiTimer.packed, UInt64.shiftRight_or, hShift, UInt64.zero_or, hEvent, hCase]

/-- A known client's segment goes to its own block, under the block's state. -/
theorem Tracks.dispatch_some (h : ctx.Tracks m) (hLookup : m.lookup key = some tcb) :
    ∃ p, ctx.tcbTable.cells p = some (key, tcb) ∧ ctx.dispatch key = some (.slot p, tcb.state) := by
  obtain ⟨p, hFind, hCell⟩ := h.models.find_some hLookup
  exact ⟨p, hCell, by simp [dispatch, hFind, block_slot hCell]⟩

/-- An unknown client's segment goes to the listen block. -/
theorem Tracks.dispatch_none (h : ctx.Tracks m) (hLookup : m.lookup key = none) :
    ctx.dispatch key = some (.listen, .listen) := by
  simp [dispatch, h.models.find_none hLookup]

theorem Tracks.segment (h : ctx.Tracks m) (hStep : ctx.segment env header = some ctx') :
    ctx'.tcbTable.Models (m.next (.segment env header)) := by
  cases hLookup : m.lookup header.clientId with
  | none =>
      simp only [TcpImpl.segment, h.dispatch_none hLookup, Option.bind_eq_bind, Option.bind_some,
        reduceCtorEq, if_false, tcpFsm] at hStep
      have hNext := models_listen h.models hLookup hStep
      rwa [← hLookup] at hNext
  | some tcb =>
      obtain ⟨p, hCell, hDispatch⟩ := h.dispatch_some hLookup
      have hGood := h.good _ _ hLookup
      have hState : tcb.state ≠ .max := fun hMax =>
        (hMax ▸ hGood.state : TcpState.max.IsConnection)
      simp only [TcpImpl.segment, hDispatch, Option.bind_eq_bind, Option.bind_some, if_neg hState,
        Option.bind_eq_some_iff] at hStep
      obtain ⟨callback, hCallback, hBody⟩ := hStep
      have hNext := models_callback h.models hCell
        (decide (BoundedMap.size m < maxTcpClient)) hGood hCallback hBody
      rwa [← hLookup] at hNext

theorem Tracks.pendingTimer (h : ctx.Tracks m) (key : UInt64) (tmrId : Fin tcpMaxTmr) :
    ctx.pendingTimer key tmrId = (m.lookup key).bind fun tcb => tcb.tmr.pending tmrId := by
  rw [TcpImpl.pendingTimer, h.models.lookup]
  rfl

/-- A timer that fires is cleared, and its argument leads back to the slot of
the block it belongs to. -/
theorem Tracks.fired {tmrId : Fin tcpMaxTmr} {cbPtr : UInt64} (h : ctx.Tracks m)
    (hPending : ctx.pendingTimer key tmrId = some cbPtr) :
    ∃ p tcb, m.lookup key = some tcb ∧ ctx.tcbTable.cells p = some (key, tcb) ∧
      cbPtr = MultiTimer.packed key tmrId ∧
      (ctx.clearTimer key tmrId).tcbTable.Models
        (assign m key (some { tcb with tmr := tcb.tmr.clear tmrId })) ∧
      (ctx.clearTimer key tmrId).tcbTable.find (timerClient cbPtr) = some p ∧
      (ctx.clearTimer key tmrId).tcbTable.cells p =
        some (key, { tcb with tmr := tcb.tmr.clear tmrId }) := by
  rw [h.pendingTimer] at hPending
  obtain ⟨tcb, hLookup, hPending⟩ := Option.bind_eq_some_iff.mp hPending
  have hGood := h.good key tcb hLookup
  have hArg := hGood.pending tmrId cbPtr hPending
  obtain ⟨p, hFind, hCell⟩ := h.models.find_some hLookup
  have hClear : ctx.clearTimer key tmrId =
      ctx.setBlock (.slot p) { tcb with tmr := tcb.tmr.clear tmrId } := by
    simp [clearTimer, hFind, block_slot hCell]
  have hModels := models_setBlock h.models hCell { tcb with tmr := tcb.tmr.clear tmrId }
  have hCellNow : (ctx.clearTimer key tmrId).tcbTable.cells p =
      some (key, { tcb with tmr := tcb.tmr.clear tmrId }) := by
    simp [hClear, setBlock, hCell]
  rw [← hClear] at hModels
  refine ⟨p, tcb, hLookup, hCell, hArg, hModels, ?_, hCellNow⟩
  rw [hArg, timerClient_packed hGood.isClient]
  exact (hModels.valid.find_eq_some_iff key p).mpr ⟨_, hCellNow⟩

theorem Tracks.expire {tmrId : Fin tcpMaxTmr} (h : ctx.Tracks m)
    (hStep : ctx.expire env key tmrId = some ctx') :
    ctx'.tcbTable.Models (m.next (.expire env key tmrId)) := by
  obtain ⟨cbPtr, hPending, hFire⟩ := Option.bind_eq_some_iff.mp hStep
  obtain ⟨p, tcb, hLookup, _, hArg, hModels, hFind, hCell⟩ := h.fired hPending
  have hGood := h.good key tcb hLookup
  simp only [onTcpCbTimerExpire, hFind] at hFire
  simp only [processTimer, block_slot hCell, hArg, timerEvent_packed hGood.isClient,
    Option.bind_eq_bind, Option.bind_some, Option.bind_eq_some_iff] at hFire
  obtain ⟨callback, hCallback, hBody⟩ := hFire
  have hNext := models_timer hModels hCell hGood hCallback hBody
  rw [assign_assign] at hNext
  simpa only [Connections.next, TcpEvent.client, Connection.next, hLookup, Option.bind_some]
    using hNext

/-- The expiry of a pending timer is always defined. -/
theorem Tracks.expire_defined {tmrId : Fin tcpMaxTmr} {cbPtr : UInt64} (h : ctx.Tracks m)
    (env : TcpTimerEnv) (hPending : ctx.pendingTimer key tmrId = some cbPtr) :
    ∃ ctx', ctx.expire env key tmrId = some ctx' := by
  obtain ⟨p, tcb, hLookup, _, _, _, hFind, hCell⟩ := h.fired hPending
  have hState := (h.good key tcb hLookup).state
  simp only [TcpImpl.expire, hPending, Option.bind_eq_bind, Option.bind_some, onTcpCbTimerExpire,
    hFind, processTimer, block_slot hCell]
  rw [← Option.isSome_iff_exists]
  cases hCase : tcb.state with
  | closeWait => simp [tcpFsmTmr, makeTcpFsmTmrCloseWait, block_slot hCell, apply_ite]
  | lastAck => simp [tcpFsmTmr, makeTcpFsmTmrLastAck, block_slot hCell, apply_ite]
  | synSent => rfl
  | established => rfl
  | _ => simp [hCase, TcpState.IsConnection] at hState

/-- Every defined step follows the automaton of the client it belongs to. -/
theorem Tracks.step {event : TcpEvent} (h : ctx.Tracks m) (hStep : ctx.step event = some ctx') :
    ctx'.Tracks (m.next event) where
  models := by
    cases event with
    | segment env header => exact h.segment hStep
    | expire env key tmrId => exact h.expire hStep
  good := by
    intro key tcb hLookup
    rw [Connections.next, BoundedMap.lookup_assign] at hLookup
    split at hLookup
    · rename_i hKey
      rw [hKey]
      exact Connection.good_next (fun tcb hBefore => h.good _ _ hBefore) hLookup
    · exact h.good key tcb hLookup

/-- So does a whole run. -/
theorem Tracks.run {events : List TcpEvent} (h : ctx.Tracks m)
    (hRun : Transition.run TcpImpl.step ctx events = some ctx') :
    ctx'.Tracks (events.foldl Connections.next m) := by
  induction events generalizing ctx m with
  | nil =>
      cases hRun
      exact h
  | cons event events ih =>
      obtain ⟨ctx₁, hStep, hRest⟩ := Option.bind_eq_some_iff.mp hRun
      exact ih (h.step hStep) hRest

/-- A context with an empty table, whatever its listen block. -/
def EmptyTable (ctx : TcpImpl) : Prop := ctx.tcbTable = .empty

theorem EmptyTable.tracks (h : ctx.EmptyTable) : ctx.Tracks ∅ where
  models := by
    rw [h]
    exact FixedDict.models_empty
  good := by
    intro key tcb hLookup
    simp at hLookup

/-- The contexts that any run of events reaches from an empty table. -/
abbrev Reached (ctx : TcpImpl) : Prop := Transition.Reachable step EmptyTable ctx

/-- A reached context stands for connections in good order. -/
theorem Reached.tracks (h : ctx.Reached) : ∃ m, ctx.Tracks m :=
  Transition.Reachable.invariant h (fun ctx => ∃ m, ctx.Tracks m)
    (fun _ hEmpty => ⟨∅, EmptyTable.tracks hEmpty⟩)
    fun _ event _ ⟨m, hTracks⟩ hStep => ⟨m.next event, hTracks.step hStep⟩

end TcpImpl
end Nginz
