import ReactDpdk.Tcp.ConnectionRefinement
import ReactDpdk.Tcp.ContextEdits

/-! Segments whose number is not the expected one, on a block of the table. Four
of the five states that go by the number ignore them. In ESTABLISHED a FIN takes
effect whatever its number. -/
namespace Nginz.TcpImpl

variable {ctx : TcpImpl} {env : TcpTimerEnv} {header : TcpSegmentHeader} {tcb : TcpControlBlock}

/-- A segment of a known client goes to its block. -/
theorem dispatch_of_lookup {clientId : UInt64} (h : ctx.tcbTable.lookup clientId = some tcb) :
    ∃ p, ctx.tcbTable.find clientId = some p ∧ ctx.tcbTable.cells p = some (clientId, tcb) ∧
      ctx.dispatch clientId = some (.slot p, tcb.state) := by
  obtain ⟨p, hFind, hCell⟩ := find_of_lookup h
  exact ⟨p, hFind, hCell, by simp [dispatch, hFind, block_slot hCell]⟩

/-- A store through the reference of a block is what the next lookup finds. -/
theorem lookup_setBlock {clientId : UInt64} {p : Fin maxTcpClient}
    (hFind : ctx.tcbTable.find clientId = some p)
    (hCell : ctx.tcbTable.cells p = some (clientId, tcb)) (stored : TcpControlBlock) :
    (ctx.setBlock (.slot p) stored).tcbTable.lookup clientId = some stored := by
  have hFindNow := FixedDict.find_write hCell stored clientId
  simp [setBlock, hCell, FixedDict.lookup, FixedDict.entry, hFindNow, hFind]

/-- A store of what is there changes nothing. -/
theorem setBlock_same {key : UInt64} {p : Fin maxTcpClient}
    (hCell : ctx.tcbTable.cells p = some (key, tcb)) :
    (ctx.setBlock (.slot p) tcb).tcbTable = ctx.tcbTable := by
  have hContent : (ctx.tcbTable.data p).content = some (key, tcb) := hCell
  have hSlot : { ctx.tcbTable.data p with content := some (key, tcb) } = ctx.tcbTable.data p := by
    rw [← hContent]
  simp only [setBlock, hCell, Option.map_some, FixedDict.write, hSlot, Function.update_eq_self]

/-- The states in which a segment should carry the expected number. -/
def sequencedStates : List TcpState := [.synSent, .synRcvd, .established, .closeWait, .lastAck]

/-- Those whose callbacks look at it. -/
theorem segment_ignored (hLookup : ctx.tcbTable.lookup header.clientId = some tcb)
    (hState : tcb.state ∈ sequencedStates) (hOther : tcb.state ≠ .established)
    (hSeqno : header.seqno ≠ tcb.expseq) (env : TcpTimerEnv) :
    ctx.segment env header = some ctx := by
  obtain ⟨p, _, hCell, hDispatch⟩ := dispatch_of_lookup hLookup
  have hIgnored : acknowledges header tcb = false := by
    simp [acknowledges, hSeqno]
  simp only [segment, hDispatch, Option.bind_eq_bind, Option.bind_some]
  cases hIndex : tcb.state <;> simp [hIndex, sequencedStates] at hState hOther
  case synSent => simp [tcpFsm, makeTcpFsmCallbackSynSent, block_slot hCell, hIgnored]
  case synRcvd => simp [tcpFsm, makeTcpFsmCallbackSynRcvd, block_slot hCell, hIgnored]
  case closeWait => simp [tcpFsm, makeTcpFsmCallbackCloseWait, block_slot hCell, hIgnored]
  case lastAck => simp [tcpFsm, makeTcpFsmCallbackLastAck, block_slot hCell, hIgnored]

/-- The block after a FIN in ESTABLISHED, which looks at no number. -/
def finReceived (env : TcpTimerEnv) (header : TcpSegmentHeader) (tcb : TcpControlBlock) :
    TcpControlBlock :=
  if env tcb.tmr.srcAddr tcpFinalTmr1 then
    { tcb with state := .closeWait, expseq := header.seqno
               tmr := tcb.tmr.restarted env tcpFinalTmr1 }
  else { tcb with tmr := tcb.tmr.restarted env tcpFinalTmr1 }

theorem segment_established (hLookup : ctx.tcbTable.lookup header.clientId = some tcb)
    (hState : tcb.state = .established) (env : TcpTimerEnv) :
    ∃ p, ctx.tcbTable.find header.clientId = some p ∧
      ctx.tcbTable.cells p = some (header.clientId, tcb) ∧
      ctx.segment env header = some (if header.has TcpMask.fin then
        (ctx.sendFinAck tcb header).setBlock (.slot p) (finReceived env header tcb) else ctx) := by
  obtain ⟨p, hFind, hCell, hDispatch⟩ := dispatch_of_lookup hLookup
  refine ⟨p, hFind, hCell, ?_⟩
  simp only [segment, hDispatch, hState, Option.bind_eq_bind, Option.bind_some, reduceCtorEq,
    if_false, tcpFsm, makeTcpFsmCallbackEstablished, block_slot hCell, startTmr_eq, finReceived]
  cases hFin : header.has TcpMask.fin with
  | false => rfl
  | true =>
      cases hStart : env tcb.tmr.srcAddr tcpFinalTmr1 with
      | false => rfl
      | true =>
          simp only [if_true]
          rw [changeState_eq _ _ (by decide)]

/-- The table stays as it is. -/
def LeavesTable (ctx : TcpImpl) (env : TcpTimerEnv) (header : TcpSegmentHeader) : Prop :=
  ∃ ctx', ctx.segment env header = some ctx' ∧ ctx'.tcbTable = ctx.tcbTable

/-- A FIN in ESTABLISHED that starts the timer, or fails to and stops it. -/
def FinTakesEffect (env : TcpTimerEnv) (header : TcpSegmentHeader) (tcb : TcpControlBlock) :
    Prop :=
  tcb.state = .established ∧ header.has TcpMask.fin = true ∧
    (env tcb.tmr.srcAddr tcpFinalTmr1 = true ∨ tcb.tmr.pending tcpFinalTmr1 ≠ none)

/-- The block changes exactly when the timer is started, or was pending. -/
theorem finReceived_eq_iff (hState : tcb.state = .established) :
    finReceived env header tcb = tcb ↔
      ¬ (env tcb.tmr.srcAddr tcpFinalTmr1 = true ∨ tcb.tmr.pending tcpFinalTmr1 ≠ none) := by
  cases hStart : env tcb.tmr.srcAddr tcpFinalTmr1 with
  | true =>
      constructor
      · intro hSame
        have hMoved := congrArg TcpControlBlock.state hSame
        rw [finReceived, hStart, if_pos rfl, hState] at hMoved
        cases hMoved
      · intro hNever
        exact absurd (Or.inl rfl) hNever
  | false =>
      have hFailed : finReceived env header tcb =
          { tcb with tmr := tcb.tmr.restarted env tcpFinalTmr1 } := by
        rw [finReceived, hStart, if_neg Bool.false_ne_true]
      rw [hFailed]
      constructor
      · rintro hSame (hStarted | hPending)
        · cases hStarted
        · have hTmr := congrArg (fun block => block.tmr.pending tcpFinalTmr1) hSame
          dsimp only at hTmr
          rw [MultiTimer.pending_restarted, if_pos rfl, hStart, if_neg Bool.false_ne_true] at hTmr
          exact hPending hTmr.symm
      · intro hNever
        have hStopped : tcb.tmr.pending tcpFinalTmr1 = none := by
          by_contra hPending
          exact hNever (Or.inr hPending)
        rw [MultiTimer.restarted_eq_self (by rw [hStopped, hStart, if_neg Bool.false_ne_true])]

/-- For every block in one of the five states and every segment whose number is
not the expected one, with any flags: the table stays as it is unless the block
is established and a FIN takes effect. -/
theorem out_of_sequence_ignored_iff (hLookup : ctx.tcbTable.lookup header.clientId = some tcb)
    (hState : tcb.state ∈ sequencedStates) (hSeqno : header.seqno ≠ tcb.expseq)
    (env : TcpTimerEnv) : ctx.LeavesTable env header ↔ ¬ FinTakesEffect env header tcb := by
  by_cases hEstablished : tcb.state = .established
  · obtain ⟨p, hFind, hCell, hSegment⟩ := segment_established hLookup hEstablished env
    rw [LeavesTable, hSegment]
    cases hFin : header.has TcpMask.fin with
    | false => simp [FinTakesEffect, hFin]
    | true =>
        have hBlock : finReceived env header tcb = tcb ↔ _ := finReceived_eq_iff hEstablished
        constructor
        · rintro ⟨ctx', hStep, hTable⟩ ⟨_, _, hEffect⟩
          have hNow : ((ctx.sendFinAck tcb header).setBlock (.slot p)
              (finReceived env header tcb)).tcbTable.lookup header.clientId =
                some (finReceived env header tcb) := lookup_setBlock hFind hCell _
          rw [if_pos rfl, Option.some.injEq] at hStep
          rw [hStep, hTable, hLookup, Option.some.injEq] at hNow
          exact hBlock.mp hNow.symm hEffect
        · intro hNever
          have hSame := hBlock.mpr fun hEffect => hNever ⟨hEstablished, hFin, hEffect⟩
          rw [if_pos rfl, hSame]
          exact ⟨_, rfl, setBlock_same hCell⟩
  · constructor
    · rintro _ ⟨hHere, _⟩
      exact hEstablished hHere
    · intro _
      exact ⟨ctx, segment_ignored hLookup hState hEstablished hSeqno env, rfl⟩

/-- Every timer start succeeds. -/
def startsSucceed : TcpTimerEnv := fun _ _ => true

/-- What the block of the sample client is after its handshake. -/
def establishedBlock : TcpControlBlock :=
  { Connection.accepted startsSucceed (sampleSegment 2 100) with state := .established }

/-- A run of a SYN and its acknowledgement leads there. -/
theorem exists_established : ∃ ctx : TcpImpl, ctx.Reached ∧
    ctx.tcbTable.lookup (sampleSegment 1 101).clientId = some establishedBlock := by
  let events : List TcpEvent := [.segment startsSucceed (sampleSegment 2 100),
    .segment startsSucceed (sampleSegment 16 101)]
  have hDefined : (Transition.run step init events).isSome := by decide
  obtain ⟨ctx, hRun⟩ := Option.isSome_iff_exists.mp hDefined
  have hStart : init.EmptyTable := rfl
  have hTracks := hStart.tracks.run hRun
  refine ⟨ctx, (Transition.Reachable.start hStart).run hRun, ?_⟩
  rw [hTracks.models.lookup]
  rfl

/-- A late SYN on the established connection. -/
theorem out_of_sequence_ignored_iff_syn :
    ∃ ctx : TcpImpl, ctx.Reached ∧ ctx.LeavesTable startsSucceed (sampleSegment 2 500) := by
  obtain ⟨ctx, hReached, hLookup⟩ := exists_established
  have hFound : ctx.tcbTable.lookup (sampleSegment 2 500).clientId = some establishedBlock :=
    hLookup
  have hNoFin : ¬ FinTakesEffect startsSucceed (sampleSegment 2 500) establishedBlock :=
    fun hEffect => absurd hEffect.2.1 (by decide)
  exact ⟨ctx, hReached, (out_of_sequence_ignored_iff hFound (by decide) (by decide) _).mpr hNoFin⟩

/-- A blind FIN closes it. -/
theorem blind_fin_closes_connection :
    ¬ ∀ (ctx : TcpImpl) (env : TcpTimerEnv) (header : TcpSegmentHeader) (tcb : TcpControlBlock),
      ctx.tcbTable.lookup header.clientId = some tcb → tcb.state ∈ sequencedStates →
      header.seqno ≠ tcb.expseq → ctx.LeavesTable env header := by
  intro hAll
  obtain ⟨ctx, _, hLookup⟩ := exists_established
  have hFound : ctx.tcbTable.lookup (sampleSegment 1 500).clientId = some establishedBlock :=
    hLookup
  obtain ⟨ctx', hStep, hTable⟩ := hAll ctx startsSucceed (sampleSegment 1 500) establishedBlock
    hFound (by decide) (by decide)
  obtain ⟨p, hFind, hCell, hSegment⟩ := segment_established hFound rfl startsSucceed
  have hNow : ((ctx.sendFinAck establishedBlock (sampleSegment 1 500)).setBlock (.slot p)
      (finReceived startsSucceed (sampleSegment 1 500) establishedBlock)).tcbTable.lookup
        (sampleSegment 1 500).clientId =
          some (finReceived startsSucceed (sampleSegment 1 500) establishedBlock) :=
    lookup_setBlock hFind hCell _
  have hFin : (sampleSegment 1 500).has TcpMask.fin = true := by decide
  rw [hStep, if_pos hFin, Option.some.injEq] at hSegment
  rw [← hSegment, hTable, hFound, Option.some.injEq] at hNow
  have hMoved := congrArg TcpControlBlock.state hNow
  exact absurd hMoved (by decide)

end Nginz.TcpImpl
