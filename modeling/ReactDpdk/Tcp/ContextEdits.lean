import ReactDpdk.Core.FixedTableInvariant
import ReactDpdk.Tcp.Receive

/-! What an event can do to any context at all, also to one that no run reaches:
it is a sequence of a few edits, and a block becomes established only on a
segment that carries ACK. -/
namespace Nginz

theorem TcpControlBlock.state_changeState (tcb : TcpControlBlock) (env : TcpTimerEnv)
    (newState : TcpState) : (tcb.changeState env newState).state = newState := by
  unfold changeState
  split
  · assumption
  · dsimp only
    split <;> rfl

theorem TcpControlBlock.state_startTmr {tcb tcb' : TcpControlBlock} {env : TcpTimerEnv}
    {tmrId : Fin tcpMaxTmr} {givenMs : UInt32} {started : Bool}
    (h : tcb.startTmr env tmrId givenMs = (tcb', started)) : tcb'.state = tcb.state :=
  (congrArg (fun result => result.1.state) h).symm

namespace TcpImpl

theorem find_block {ctx : TcpImpl} {key : UInt64} {p : Fin maxTcpClient}
    (h : ctx.tcbTable.find key = some p) :
    ∃ tcb, ctx.tcbTable.cells p = some (key, tcb) ∧ ctx.block (.slot p) = some tcb := by
  obtain ⟨tcb, hCell⟩ := FixedDict.searchLoop_sound h
  exact ⟨tcb, hCell, by simp [block, hCell]⟩

theorem find_of_lookup {ctx : TcpImpl} {key : UInt64} {tcb : TcpControlBlock}
    (h : ctx.tcbTable.lookup key = some tcb) :
    ∃ p, ctx.tcbTable.find key = some p ∧ ctx.tcbTable.cells p = some (key, tcb) := by
  obtain ⟨entry, hEntry, rfl⟩ := Option.map_eq_some_iff.mp h
  obtain ⟨p, hFind, hCell⟩ := Option.bind_eq_some_iff.mp hEntry
  obtain ⟨stored, hStored, _⟩ := find_block hFind
  cases hCell.symm.trans hStored
  exact ⟨p, hFind, hCell⟩

/-- A segment goes to the listen block or to the block that `find` reaches. -/
theorem dispatch_cases (ctx : TcpImpl) (clientId : UInt64) :
    ctx.tcbTable.find clientId = none ∧ ctx.dispatch clientId = some (.listen, .listen) ∨
    ∃ p tcb, ctx.tcbTable.find clientId = some p ∧ ctx.tcbTable.cells p = some (clientId, tcb) ∧
      ctx.block (.slot p) = some tcb ∧ ctx.dispatch clientId = some (.slot p, tcb.state) := by
  cases hFind : ctx.tcbTable.find clientId with
  | none => exact Or.inl ⟨rfl, by simp [dispatch, hFind]⟩
  | some p =>
      obtain ⟨tcb, hCell, hBlock⟩ := find_block hFind
      exact Or.inr ⟨p, tcb, rfl, hCell, hBlock, by simp [dispatch, hFind, hBlock]⟩

/-- The new state of a block is established only if it was, or on an ACK. -/
def EstablishedByAck (acked : Bool) (old new : TcpState) : Prop :=
  new = .established → old = .established ∨ acked = true

/-- A sequence of edits of a context. `acked` tells whether the event carries
ACK. -/
inductive Edits (acked : Bool) : TcpImpl → TcpImpl → Prop where
  | refl (ctx : TcpImpl) : Edits acked ctx ctx
  | send {ctx ctx' : TcpImpl} (prior : Edits acked ctx ctx') (call : TcpSend) :
      Edits acked ctx (ctx'.send call)
  | setBlock {ctx ctx' : TcpImpl} {p : Fin maxTcpClient} {old tcb : TcpControlBlock}
      (prior : Edits acked ctx ctx') (hOld : ctx'.block (.slot p) = some old)
      (hState : EstablishedByAck acked old.state tcb.state) :
      Edits acked ctx (ctx'.setBlock (.slot p) tcb)
  | eraseClient {ctx ctx' : TcpImpl} (prior : Edits acked ctx ctx') (clientId : UInt64) :
      Edits acked ctx (ctx'.eraseClient clientId)
  | emplace {ctx ctx' : TcpImpl} {clientId : UInt64}
      {ret : FixedDict.Emplaced TcpControlBlock maxTcpClient 39} (prior : Edits acked ctx ctx')
      (hEmplace : ctx'.tcbTable.emplace clientId (.new clientId) = some ret) :
      Edits acked ctx { ctx' with tcbTable := ret.table }

variable {ctx ctx' : TcpImpl} {env : TcpTimerEnv} {header : TcpSegmentHeader} {acked : Bool}

/-- No edit changes the listen block. -/
theorem Edits.listen_eq (h : Edits acked ctx ctx') : ctx'.listen = ctx.listen := by
  induction h with
  | refl => rfl
  | send _ _ ih => exact ih
  | setBlock _ _ _ ih => exact ih
  | eraseClient _ _ ih => exact ih
  | emplace _ _ ih => exact ih

theorem acknowledges_has {tcb : TcpControlBlock} (h : acknowledges header tcb = true) :
    header.has TcpMask.ack = true := by
  rw [acknowledges, Bool.and_eq_true] at h
  exact h.1

section SetBlock
variable {ctx₀ : TcpImpl} {p : Fin maxTcpClient} {old tcb : TcpControlBlock}

/-- A block may enter any state but ESTABLISHED. -/
theorem Edits.changeState (prior : Edits acked ctx₀ ctx) (hOld : ctx.block (.slot p) = some old)
    {newState : TcpState} (hState : newState ≠ .established) :
    Edits acked ctx₀ (ctx.setBlock (.slot p) (tcb.changeState env newState)) := by
  refine prior.setBlock hOld ?_
  rw [EstablishedByAck, TcpControlBlock.state_changeState]
  exact fun hNew => absurd hNew hState

/-- A start of a timer leaves the state. -/
theorem Edits.startTmr (prior : Edits acked ctx₀ ctx) (hOld : ctx.block (.slot p) = some old)
    {started : TcpControlBlock} {tmrId : Fin tcpMaxTmr} {givenMs : UInt32} {result : Bool}
    (hStart : tcb.startTmr env tmrId givenMs = (started, result)) (hState : tcb.state = old.state) :
    Edits acked ctx₀ (ctx.setBlock (.slot p) started) := by
  refine prior.setBlock hOld ?_
  rw [EstablishedByAck, TcpControlBlock.state_startTmr hStart, hState]
  exact Or.inl

/-- A segment with ACK may do anything to a block. -/
theorem Edits.acknowledged (prior : Edits (header.has TcpMask.ack) ctx₀ ctx)
    (hOld : ctx.block (.slot p) = some old) (hAck : acknowledges header old = true) :
    Edits (header.has TcpMask.ack) ctx₀ (ctx.setBlock (.slot p) tcb) :=
  prior.setBlock hOld fun _ => Or.inr (acknowledges_has hAck)

end SetBlock

theorem edits_acceptConnection {ctx₀ : TcpImpl} {q : Fin maxTcpClient} {clientId : UInt64}
    (prior : Edits acked ctx₀ ctx)
    (h : acceptConnection env ctx q clientId header = some ctx') : Edits acked ctx₀ ctx' := by
  obtain ⟨connCb, hBlock, hRest⟩ := Option.bind_eq_some_iff.mp h
  dsimp only at hRest
  split at hRest
  · cases hRest
    exact (prior.send _).changeState hBlock nofun
  · rename_i hStart
    cases hRest
    exact ((prior.send _).startTmr hBlock hStart rfl).eraseClient clientId

theorem edits_listenCallback {ref : TcbRef}
    (h : makeTcpFsmCallbackListen.body env ctx ref header = some ctx') :
    Edits (header.has TcpMask.ack) ctx ctx' := by
  simp only [makeTcpFsmCallbackListen] at h
  split at h
  · split at h
    · cases h
    · rename_i ret hEmplace
      split at h
      · cases h
        exact (Edits.refl ctx).emplace hEmplace
      · split at h
        · exact edits_acceptConnection ((Edits.refl ctx).emplace hEmplace) h
        · cases h
  · cases h
    exact .refl ctx

/-- Every callback for segments, on a block of the table. -/
theorem edits_callback {index : TcpState} {callback : TcpFsmCallback} {p : Fin maxTcpClient}
    (hCallback : tcpFsm index = some callback)
    (h : callback.body env ctx (.slot p) header = some ctx') :
    Edits (header.has TcpMask.ack) ctx ctx' := by
  have hSame : Edits (header.has TcpMask.ack) ctx ctx := .refl ctx
  cases index <;> cases hCallback
  case listen => exact edits_listenCallback h
  case synSent =>
    obtain ⟨tcb, hBlock, h⟩ := Option.bind_eq_some_iff.mp h
    split at h
    · rename_i hAck
      cases h
      exact (hSame.send _).acknowledged hBlock hAck
    · cases h
      exact hSame
  case synRcvd =>
    obtain ⟨tcb, hBlock, h⟩ := Option.bind_eq_some_iff.mp h
    split at h
    · rename_i hAck
      dsimp only at h
      split at h <;> cases h
      · exact (hSame.send _).acknowledged hBlock hAck
      · exact (hSame.send _).acknowledged hBlock hAck
    · cases h
      exact hSame
  case established =>
    obtain ⟨tcb, hBlock, h⟩ := Option.bind_eq_some_iff.mp h
    split at h
    · dsimp only at h
      split at h <;> cases h
      · exact (hSame.send _).changeState hBlock nofun
      · rename_i hStart
        exact (hSame.send _).startTmr hBlock hStart rfl
    · cases h
      exact hSame
  case closeWait =>
    obtain ⟨tcb, hBlock, h⟩ := Option.bind_eq_some_iff.mp h
    split at h
    · rename_i hAck
      dsimp only at h
      split at h <;> cases h
      · exact (hSame.send _).acknowledged hBlock hAck
      · apply Edits.eraseClient
        exact (hSame.send _).acknowledged hBlock hAck
    · cases h
      exact hSame
  case lastAck =>
    obtain ⟨tcb, _, h⟩ := Option.bind_eq_some_iff.mp h
    split at h <;> cases h
    · exact hSame.eraseClient _
    · exact hSame
  all_goals
    cases h
    exact hSame

/-- A segment in any context. -/
theorem edits_segment (h : ctx.segment env header = some ctx') :
    Edits (header.has TcpMask.ack) ctx ctx' := by
  simp only [segment, Option.bind_eq_bind] at h
  rcases ctx.dispatch_cases header.clientId with ⟨_, hDispatch⟩ | ⟨p, tgt, _, _, hBlock, hDispatch⟩
  · simp only [hDispatch, Option.bind_some, reduceCtorEq, if_false, tcpFsm] at h
    exact edits_listenCallback h
  · simp only [hDispatch, Option.bind_some] at h
    split at h
    · rw [hBlock] at h
      cases h
      exact (Edits.refl ctx).changeState hBlock nofun
    · obtain ⟨callback, hCallback, hBody⟩ := Option.bind_eq_some_iff.mp h
      exact edits_callback hCallback hBody

/-- Every timer callback, on a block of the table. -/
theorem edits_timer {index : TcpState} {callback : TcpFsmTmr} {p : Fin maxTcpClient} {evtId : UInt8}
    (prior : Edits false ctx ctx') {ctx'' : TcpImpl} (hCallback : tcpFsmTmr index = some callback)
    (h : callback.body env ctx' (.slot p) evtId = some ctx'') : Edits false ctx ctx'' := by
  cases index <;> cases hCallback
  case closeWait =>
    obtain ⟨tcb, hBlock, h⟩ := Option.bind_eq_some_iff.mp h
    split at h <;> cases h
    · exact (prior.send _).changeState hBlock nofun
    · exact prior
  case lastAck =>
    obtain ⟨tcb, _, h⟩ := Option.bind_eq_some_iff.mp h
    split at h <;> cases h
    · exact prior.eraseClient _
    · exact prior
  all_goals
    cases h
    exact prior

theorem edits_clearTimer (ctx : TcpImpl) (key : UInt64) (tmrId : Fin tcpMaxTmr) :
    Edits false ctx (ctx.clearTimer key tmrId) := by
  unfold clearTimer
  split
  · exact .refl ctx
  · split
    · exact .refl ctx
    · rename_i hBlock
      exact (Edits.refl ctx).setBlock hBlock Or.inl

/-- The expiry of a timer in any context. -/
theorem edits_expire {key : UInt64} {tmrId : Fin tcpMaxTmr}
    (h : ctx.expire env key tmrId = some ctx') : Edits false ctx ctx' := by
  obtain ⟨cbPtr, _, hFire⟩ := Option.bind_eq_some_iff.mp h
  have hClear := edits_clearTimer ctx key tmrId
  unfold onTcpCbTimerExpire at hFire
  split at hFire
  · cases hFire
    exact hClear
  · obtain ⟨block, _, hFire⟩ := Option.bind_eq_some_iff.mp hFire
    obtain ⟨callback, hCallback, hBody⟩ := Option.bind_eq_some_iff.mp hFire
    exact edits_timer hClear hCallback hBody

/-- A frame or an expiry in any context. -/
theorem edits_rxStep {event : RxEvent} (h : ctx.rxStep event = some ctx') :
    ∃ acked, Edits acked ctx ctx' := by
  cases event with
  | frame env junk frame =>
      simp only [rxStep, handleTcpRx] at h
      split at h
      · cases h
        exact ⟨false, .refl ctx⟩
      · exact ⟨_, edits_segment h⟩
  | expire env key tmrId => exact ⟨false, edits_expire h⟩

/-- A SYN of a client that is not found, in a table with room: the probe sequence from
its home meets the first free slot behind the end of the array, so the LISTEN callback
is left with a pointer past the table. -/
def InsertsPastTable (ctx : TcpImpl) (header : TcpSegmentHeader) : Prop :=
  header.has TcpMask.syn = true ∧ ctx.tcbTable.cnt < maxTcpClient ∧
    ctx.tcbTable.find header.clientId = none ∧
    ∃ i, ctx.tcbTable.FirstFree header.clientId i ∧
      maxTcpClient ≤ i + FixedDict.calcPos maxTcpClient 39 header.clientId

theorem acceptConnection_defined {q : Fin maxTcpClient} {tcb : TcpControlBlock}
    (hBlock : ctx.block (.slot q) = some tcb) (clientId : UInt64) :
    ∃ ctx', acceptConnection env ctx q clientId header = some ctx' := by
  simp only [acceptConnection, hBlock, Option.bind_eq_bind, Option.bind_some]
  split <;> exact ⟨_, rfl⟩

/-- The LISTEN callback is undefined only when its pointer lies past the table. -/
theorem listen_defined_iff {ref : TcbRef} :
    (∃ ctx', makeTcpFsmCallbackListen.body env ctx ref header = some ctx') ↔
      ¬ ctx.InsertsPastTable header := by
  rw [InsertsPastTable, ← FixedDict.emplace_past_iff header.clientId (.new header.clientId)]
  obtain ⟨ret, hEmplace⟩ := ctx.tcbTable.emplace_defined (by decide) header.clientId
    (.new header.clientId)
  simp only [makeTcpFsmCallbackListen, makeClientId_header, hEmplace, Option.some.injEq]
  cases header.has TcpMask.syn with
  | false => simp
  | true =>
      simp only [if_true, true_and]
      cases hPosition : ret.position with
      | none => simp [hPosition]
      | some q =>
          by_cases hInside : q < maxTcpClient
          · have hCell := FixedDict.cells_emplace_position hEmplace hPosition hInside
            have hBlock : ({ ctx with tcbTable := ret.table } : TcpImpl).block
                (.slot ⟨q, hInside⟩) = some (.new header.clientId) := by
              simp [block, hCell]
            have hAccept : ∃ ctx', acceptConnection env { ctx with tcbTable := ret.table }
                ⟨q, hInside⟩ header.clientId header = some ctx' :=
              acceptConnection_defined hBlock header.clientId
            simp [hInside, hAccept, hPosition]
          · simp [hInside, hPosition]

/-- Every other callback is defined on a block of the table. -/
theorem callback_defined {index : TcpState} {callback : TcpFsmCallback} {p : Fin maxTcpClient}
    {tcb : TcpControlBlock} (hCallback : tcpFsm index = some callback) (hIndex : index ≠ .listen)
    (hBlock : ctx.block (.slot p) = some tcb) :
    ∃ ctx', callback.body env ctx (.slot p) header = some ctx' := by
  cases index <;> cases hCallback
  case listen => exact absurd rfl hIndex
  case synSent =>
    simp only [makeTcpFsmCallbackSynSent, hBlock, Option.bind_eq_bind, Option.bind_some]
    split <;> exact ⟨_, rfl⟩
  case synRcvd =>
    simp only [makeTcpFsmCallbackSynRcvd, hBlock, Option.bind_eq_bind, Option.bind_some]
    split
    · split <;> exact ⟨_, rfl⟩
    · exact ⟨_, rfl⟩
  case established =>
    simp only [makeTcpFsmCallbackEstablished, hBlock, Option.bind_eq_bind, Option.bind_some]
    split
    · split <;> exact ⟨_, rfl⟩
    · exact ⟨_, rfl⟩
  case closeWait =>
    simp only [makeTcpFsmCallbackCloseWait, hBlock, Option.bind_eq_bind, Option.bind_some]
    split
    · split <;> exact ⟨_, rfl⟩
    · exact ⟨_, rfl⟩
  case lastAck =>
    simp only [makeTcpFsmCallbackLastAck, hBlock, Option.bind_eq_bind, Option.bind_some]
    split <;> exact ⟨_, rfl⟩
  all_goals exact ⟨_, rfl⟩

theorem tcpFsm_defined {index : TcpState} (h : index ≠ .max) :
    ∃ callback, tcpFsm index = some callback := by
  cases index <;> first | exact ⟨_, rfl⟩ | exact absurd rfl h

/-- A segment is undefined only when it inserts past the table. -/
theorem segment_defined_iff : (∃ ctx', ctx.segment env header = some ctx') ↔
    ¬ ctx.InsertsPastTable header := by
  simp only [segment, Option.bind_eq_bind]
  rcases ctx.dispatch_cases header.clientId with
    ⟨hNone, hDispatch⟩ | ⟨p, tcb, hFind, _, hBlock, hDispatch⟩
  · simp only [hDispatch, Option.bind_some, reduceCtorEq, if_false, tcpFsm, listen_defined_iff]
  · have hKnown : ¬ ctx.InsertsPastTable header := fun ⟨_, _, hNone, _⟩ => by
      cases hNone.symm.trans hFind
    simp only [hDispatch, Option.bind_some, hKnown, not_false_eq_true, iff_true]
    split
    · rw [hBlock]
      exact ⟨_, rfl⟩
    · rename_i hMax
      obtain ⟨callback, hCallback⟩ := tcpFsm_defined hMax
      simp only [hCallback, Option.bind_some]
      by_cases hIndex : tcb.state = .listen
      · rw [hIndex] at hCallback
        cases hCallback
        exact listen_defined_iff.mpr hKnown
      · exact callback_defined hCallback hIndex hBlock

end TcpImpl
end Nginz
