import ReactDpdk.Tcp.OutOfSequence

/-! The two ways out of CLOSE_WAIT, by a segment and by the expiry of a timer. The
transition is written twice, and only the first starts the next timer. -/
namespace Nginz.TcpImpl
open MultiTimer (packed)

variable {ctx : TcpImpl} {env : TcpTimerEnv} {ref : TcbRef} {header : TcpSegmentHeader}
  {tcb : TcpControlBlock}

/-- The exit by a segment: the callback of the state of the block. -/
def exitByAck (ctx : TcpImpl) (env : TcpTimerEnv) (ref : TcbRef) (tcb : TcpControlBlock)
    (header : TcpSegmentHeader) : Option TcpImpl := do
  let callback ← tcpFsm tcb.state
  callback.body env ctx ref header

/-- The block when `TCP_FINAL_TMR_1` fires: that timer is no longer pending. -/
def firedBlock (tcb : TcpControlBlock) : TcpControlBlock :=
  { tcb with tmr := tcb.tmr.clear tcpFinalTmr1 }

/-- The exit by `TCP_FINAL_TMR_1`. -/
def exitByTimer (ctx : TcpImpl) (env : TcpTimerEnv) (ref : TcbRef) (tcb : TcpControlBlock) :
    Option TcpImpl :=
  (ctx.setBlock ref (firedBlock tcb)).processTimer env ref (tmrCase tcpFinalTmr1)

/-- An exit that leaves the block in LAST_ACK with the next number expected and
`TCP_FINAL_TMR_2` pending, and sends a FIN with that number in full. -/
structure EntersLastAck (ctx after : TcpImpl) (ref : TcbRef) (tcb block : TcpControlBlock) :
    Prop where
  stored : after.block ref = some block
  state : block.state = .lastAck
  expseq : block.expseq = tcb.expseq + 1
  timer : block.tmr.pending tcpFinalTmr2 ≠ none
  sent : ∃ seqno, after.sent = ctx.sent ++ [.fin tcb.clientId seqno] ∧
    seqno.toNat = (tcb.expseq + 1).toNat

/-- Both exits do, and leave the same block but for the timer that fired. -/
def ExitsAgree (ctx : TcpImpl) (env : TcpTimerEnv) (ref : TcbRef) (tcb : TcpControlBlock)
    (header : TcpSegmentHeader) : Prop :=
  ∃ byAck byTimer acked expired, ctx.exitByAck env ref tcb header = some byAck ∧
    ctx.exitByTimer env ref tcb = some byTimer ∧ ctx.EntersLastAck byAck ref tcb acked ∧
    ctx.EntersLastAck byTimer ref tcb expired ∧
    expired = firedBlock acked

theorem block_setBlock {old : TcpControlBlock} (h : ctx.block ref = some old)
    (block : TcpControlBlock) : (ctx.setBlock ref block).block ref = some block := by
  cases ref with
  | listen => rfl
  | slot p =>
      obtain ⟨⟨key, stored⟩, hCell, _⟩ := Option.map_eq_some_iff.mp h
      have hNow : (ctx.setBlock (.slot p) block).tcbTable.cells p = some (key, block) := by
        simp [setBlock, hCell]
      exact block_slot hNow

/-- The block after an acknowledgement. -/
def ackedBlock (env : TcpTimerEnv) (tcb : TcpControlBlock) : TcpControlBlock :=
  { tcb with state := .lastAck, expseq := tcb.expseq + 1
             tmr := tcb.tmr.restarted env tcpFinalTmr2 }

/-- The block after the expiry. -/
def expiredBlock (tcb : TcpControlBlock) : TcpControlBlock :=
  { tcb with state := .lastAck, expseq := tcb.expseq + 1, tmr := tcb.tmr.clear tcpFinalTmr1 }

theorem block_sendFin (ctx : TcpImpl) (tcb : TcpControlBlock) (seqno : UInt16) (ref : TcbRef) :
    (ctx.sendFin tcb seqno).block ref = ctx.block ref := by
  cases ref <;> rfl

theorem exitByAck_eq (hBlock : ctx.block ref = some tcb) (hState : tcb.state = .closeWait)
    (hAck : acknowledges header tcb = true) (hStart : env tcb.tmr.srcAddr tcpFinalTmr2 = true) :
    ∃ after, ctx.exitByAck env ref tcb header = some after ∧
      after.block ref = some (ackedBlock env tcb) ∧
      after.sent = ctx.sent ++ [.fin tcb.clientId (tcb.expseq + 1).toUInt16] := by
  have hSent := (block_sendFin ctx tcb (tcb.expseq + 1).toUInt16 ref).trans hBlock
  refine ⟨_, ?_, block_setBlock hSent (ackedBlock env tcb), sent_setBlock ..⟩
  simp only [exitByAck, hState, tcpFsm, makeTcpFsmCallbackCloseWait, hBlock,
    Option.bind_eq_bind, Option.bind_some, hAck, if_true, startTmr_eq, hStart]
  rw [changeState_eq _ _ (by decide)]
  rfl

theorem exitByTimer_eq (env : TcpTimerEnv) (hBlock : ctx.block ref = some tcb)
    (hState : tcb.state = .closeWait) :
    ∃ after, ctx.exitByTimer env ref tcb = some after ∧
      after.block ref = some (expiredBlock tcb) ∧
      after.sent = ctx.sent ++ [.fin tcb.clientId (tcb.expseq + 1).toUInt16] := by
  have hFired := block_setBlock hBlock (firedBlock tcb)
  have hSent := (block_sendFin (ctx.setBlock ref (firedBlock tcb)) (firedBlock tcb)
    (tcb.expseq + 1).toUInt16 ref).trans hFired
  have hCalls : ((ctx.setBlock ref (firedBlock tcb)).sendFin (firedBlock tcb)
      (tcb.expseq + 1).toUInt16).sent =
        ctx.sent ++ [.fin tcb.clientId (tcb.expseq + 1).toUInt16] :=
    congrArg (· ++ _) (sent_setBlock ..)
  refine ⟨_, ?_, block_setBlock hSent (expiredBlock tcb), (sent_setBlock ..).trans hCalls⟩
  have hIndex : (firedBlock tcb).state = .closeWait := hState
  simp only [exitByTimer, processTimer, hFired, Option.bind_eq_bind, Option.bind_some, hIndex,
    tcpFsmTmr, makeTcpFsmTmrCloseWait, if_true]
  rw [changeState_eq _ _ (by decide)]
  rfl

/-- What the block after the expiry lacks: the timer that only a segment starts. -/
theorem pending_expiredBlock (tcb : TcpControlBlock) :
    (expiredBlock tcb).tmr.pending tcpFinalTmr2 = tcb.tmr.pending tcpFinalTmr2 := by
  rw [expiredBlock, MultiTimer.pending_clear, if_neg (by decide)]

/-- With the timer pending already, an acknowledgement changes nothing else. -/
theorem expiredBlock_eq_iff (hStart : env tcb.tmr.srcAddr tcpFinalTmr2 = true) :
    expiredBlock tcb = firedBlock (ackedBlock env tcb) ↔
      tcb.tmr.pending tcpFinalTmr2 = some (packed tcb.tmr.srcAddr tcpFinalTmr2) := by
  constructor
  · intro hSame
    have hTimer := congrArg (fun block => block.tmr.pending tcpFinalTmr2) hSame
    rw [pending_expiredBlock, firedBlock, MultiTimer.pending_clear, if_neg (by decide), ackedBlock,
      MultiTimer.pending_restarted, if_pos rfl, hStart, if_pos rfl] at hTimer
    exact hTimer
  · intro hPending
    rw [ackedBlock, MultiTimer.restarted_eq_self (by rw [hPending, hStart, if_pos rfl])]
    rfl

/-- A 16-bit parameter takes a number in full exactly when it is below 2^16. -/
theorem toUInt16_full_iff (n : UInt32) : n.toUInt16.toNat = n.toNat ↔ n.toNat < UInt16.size := by
  rw [UInt32.toNat_toUInt16]
  exact Nat.mod_eq_iff_lt (by decide)

/-- Where the exits agree, the timer was pending before. -/
theorem ExitsAgree.timer (hBlock : ctx.block ref = some tcb) (hState : tcb.state = .closeWait)
    (h : ctx.ExitsAgree env ref tcb header) : tcb.tmr.pending tcpFinalTmr2 ≠ none := by
  obtain ⟨byAck, byTimer, acked, expired, _, hTimer, _, hExpired, _⟩ := h
  obtain ⟨after, hAfter, hStored, _⟩ := exitByTimer_eq env hBlock hState
  obtain rfl : after = byTimer := Option.some.inj (hAfter.symm.trans hTimer)
  obtain rfl : expiredBlock tcb = expired := Option.some.inj (hStored.symm.trans hExpired.stored)
  rw [← pending_expiredBlock]
  exact hExpired.timer

/-- For every block in CLOSE_WAIT and all numbers: the two exits agree exactly when
`TCP_FINAL_TMR_2` is already pending and the next number fits in 16 bits. Only the
exit by an ACK starts that timer, and `sendFin` takes 16 bits of the number. -/
theorem close_wait_exits_agree_iff (hBlock : ctx.block ref = some tcb)
    (hState : tcb.state = .closeWait) (hAck : acknowledges header tcb = true)
    (hStart : env tcb.tmr.srcAddr tcpFinalTmr2 = true) :
    ctx.ExitsAgree env ref tcb header ↔
      tcb.tmr.pending tcpFinalTmr2 = some (packed tcb.tmr.srcAddr tcpFinalTmr2) ∧
        (tcb.expseq + 1).toNat < UInt16.size := by
  obtain ⟨byAck, hAcked, hAckBlock, hAckSent⟩ := exitByAck_eq hBlock hState hAck hStart
  obtain ⟨byTimer, hExpired, hTimerBlock, hTimerSent⟩ := exitByTimer_eq env hBlock hState
  constructor
  · rintro ⟨byAck', byTimer', acked, expired, hAcked', hExpired', hEnters, hEnters', hSame⟩
    obtain rfl : byAck = byAck' := Option.some.inj (hAcked.symm.trans hAcked')
    obtain rfl : byTimer = byTimer' := Option.some.inj (hExpired.symm.trans hExpired')
    obtain rfl : ackedBlock env tcb = acked :=
      Option.some.inj (hAckBlock.symm.trans hEnters.stored)
    obtain rfl : expiredBlock tcb = expired :=
      Option.some.inj (hTimerBlock.symm.trans hEnters'.stored)
    obtain ⟨seqno, hSent, hFull⟩ := hEnters.sent
    rw [hAckSent, List.append_cancel_left_eq, List.cons.injEq, TcpSend.fin.injEq] at hSent
    rw [← hSent.1.2, toUInt16_full_iff] at hFull
    exact ⟨(expiredBlock_eq_iff hStart).mp hSame, hFull⟩
  · rintro ⟨hPending, hFits⟩
    have hFull := (toUInt16_full_iff (tcb.expseq + 1)).mpr hFits
    have hSame := (expiredBlock_eq_iff hStart).mpr hPending
    refine ⟨byAck, byTimer, ackedBlock env tcb, expiredBlock tcb, hAcked, hExpired,
      ⟨hAckBlock, rfl, rfl, ?_, _, hAckSent, hFull⟩,
      ⟨hTimerBlock, rfl, rfl, ?_, _, hTimerSent, hFull⟩, hSame⟩
    · rw [ackedBlock, MultiTimer.pending_restarted, if_pos rfl, hStart, if_pos rfl]
      exact Option.some_ne_none _
    · rw [pending_expiredBlock, hPending]
      exact Option.some_ne_none _

/-- In the contexts that runs reach, these exits are what the events of the client do,
and they never agree: no block in CLOSE_WAIT has the timer pending. -/
theorem exits_disagree_of_reached (hReached : ctx.Reached) {cbPtr : UInt64}
    (hLookup : ctx.tcbTable.lookup header.clientId = some tcb) (hState : tcb.state = .closeWait)
    (hPending : ctx.pendingTimer header.clientId tcpFinalTmr1 = some cbPtr) (env : TcpTimerEnv) :
    ∃ p, ctx.segment env header = ctx.exitByAck env (.slot p) tcb header ∧
      ctx.expire env header.clientId tcpFinalTmr1 = ctx.exitByTimer env (.slot p) tcb ∧
      ¬ ctx.ExitsAgree env (.slot p) tcb header := by
  obtain ⟨m, hTracks⟩ := hReached.tracks
  obtain ⟨p, hFind, hCell, hDispatch⟩ := dispatch_of_lookup hLookup
  obtain ⟨q, stored, _, hStored, hArg, _, hFindNow, _⟩ := hTracks.fired hPending
  have hGood := hTracks.good _ tcb ((hTracks.models.represents _ tcb).mpr ⟨p, hCell⟩)
  have hSlot : q = p := hTracks.models.valid.distinct q p _ _ _ hStored hCell
  subst q
  have hClear : ctx.clearTimer header.clientId tcpFinalTmr1 =
      ctx.setBlock (.slot p) (firedBlock tcb) := by
    simp [clearTimer, hFind, block_slot hCell, firedBlock]
  refine ⟨p, ?_, ?_, ?_⟩
  · simp only [TcpImpl.segment, hDispatch, hState, Option.bind_eq_bind, Option.bind_some,
      reduceCtorEq, if_false, exitByAck]
  · have hEvent : timerEvent cbPtr = tmrCase tcpFinalTmr1 := by
      rw [hArg, timerEvent_packed hGood.isClient]
    rw [hClear] at hFindNow
    simp only [TcpImpl.expire, hPending, Option.bind_eq_bind, Option.bind_some, onTcpCbTimerExpire,
      hClear, hFindNow, hEvent, exitByTimer]
  · intro hAgree
    have hLast := hGood.lastTimer (hAgree.timer (block_slot hCell) hState)
    cases hState.symm.trans hLast

/-- The block of the sample client after its FIN. -/
def closingBlock : TcpControlBlock :=
  { establishedBlock with state := .closeWait, expseq := 101
                          tmr := establishedBlock.tmr.restarted startsSucceed tcpFinalTmr1 }

/-- The same with the second timer pending, in the first slot of a table. -/
def bothPending : TcpControlBlock :=
  { closingBlock with tmr := closingBlock.tmr.restarted startsSucceed tcpFinalTmr2 }

theorem close_wait_exits_agree_iff_both :
    ({ init with tcbTable := init.tcbTable.write 0 (some (bothPending.clientId, bothPending)) } :
      TcpImpl).ExitsAgree startsSucceed (.slot 0) bothPending (sampleSegment 16 101) :=
  (close_wait_exits_agree_iff rfl rfl (by decide) rfl).mpr ⟨by decide, by decide⟩

/-- After SYN, ACK and FIN the expiry enters LAST_ACK without a timer. -/
theorem close_wait_exits_disagree :
    ¬ ∀ (ctx : TcpImpl) (env : TcpTimerEnv) (ref : TcbRef) (tcb : TcpControlBlock)
      (header : TcpSegmentHeader), ctx.block ref = some tcb → tcb.state = .closeWait →
      acknowledges header tcb = true → env tcb.tmr.srcAddr tcpFinalTmr2 = true →
      ctx.ExitsAgree env ref tcb header := by
  intro hAll
  let events : List TcpEvent := [.segment startsSucceed (sampleSegment 2 100),
    .segment startsSucceed (sampleSegment 16 101), .segment startsSucceed (sampleSegment 1 101)]
  have hDefined : (Transition.run step init events).isSome := by decide
  obtain ⟨ctx, hRun⟩ := Option.isSome_iff_exists.mp hDefined
  have hStart : init.EmptyTable := rfl
  have hTracks := hStart.tracks.run hRun
  have hLookup : (events.foldl Connections.next ∅).lookup (sampleSegment 2 100).clientId =
      some closingBlock := rfl
  obtain ⟨p, _, hCell⟩ := hTracks.models.find_some hLookup
  have hAgree := hAll ctx startsSucceed (.slot p) closingBlock (sampleSegment 16 101)
    (block_slot hCell) rfl (by decide) rfl
  exact hAgree.timer (block_slot hCell) rfl (by decide)

end Nginz.TcpImpl
