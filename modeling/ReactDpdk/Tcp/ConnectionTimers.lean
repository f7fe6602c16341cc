import ReactDpdk.Tcp.ConnectionStates

/-! Which timer guards which state, and the two expiries after which a block is
left in the table with nothing that would ever remove it. -/
namespace Nginz
open Transition

/-- The timer that a block in a transitional state waits for. -/
def TcpState.guardTimer : TcpState → Option (Fin tcpMaxTmr)
  | .synSent => some tcpConnectionTmr
  | .closeWait => some tcpFinalTmr1
  | .lastAck => some tcpFinalTmr2
  | _ => none

/-- The timer of the block's state is pending. -/
def TcpControlBlock.Armed (self : TcpControlBlock) : Prop :=
  ∀ tmrId, self.state.guardTimer = some tmrId → self.tmr.pending tmrId ≠ none

namespace Connection
variable {key : UInt64} {tcb tcb' : TcpControlBlock}

/-- A segment leaves a connection armed: each move starts the timer of the
state it enters. -/
theorem SegmentMove.armed {env : TcpTimerEnv} {header : TcpSegmentHeader}
    (hMove : SegmentMove env header tcb (some tcb')) (hArmed : tcb.Armed) : tcb'.Armed := by
  cases hMove with
  | ignored => exact hArmed
  | established _ _ =>
      intro tmrId hTimer
      cases hTimer
  | closeWait _ hStart =>
      intro tmrId hTimer
      cases hTimer
      simp [hStart]
  | finUnanswered hState _ =>
      intro tmrId hTimer
      rw [hState] at hTimer
      cases hTimer
  | lastAck _ hStart =>
      intro tmrId hTimer
      cases hTimer
      simp [hStart]

/-- The expiry strands the connection: its state has no other way out and the
handler neither leaves it nor starts the next timer. -/
def Strands (tmrId : Fin tcpMaxTmr) (tcb : TcpControlBlock) : Prop :=
  tcb.state = .synSent ∧ tmrId = tcpConnectionTmr ∨ tcb.state = .closeWait ∧ tmrId = tcpFinalTmr1

instance (tmrId : Fin tcpMaxTmr) (tcb : TcpControlBlock) : Decidable (Strands tmrId tcb) :=
  inferInstanceAs (Decidable (_ ∨ _))

theorem Strands.guardTimer {tmrId : Fin tcpMaxTmr} (h : Strands tmrId tcb) :
    tcb.state.guardTimer = some tmrId := by
  rcases h with ⟨hState, rfl⟩ | ⟨hState, rfl⟩
  · rw [hState]
    rfl
  · rw [hState]
    rfl

/-- An expiry leaves what remains of a connection armed unless it strands it. -/
theorem ExpireMove.armed_iff {tmrId : Fin tcpMaxTmr} {connection : Connection}
    (hMove : ExpireMove tmrId tcb connection) (hGood : Good key tcb) (hArmed : tcb.Armed) :
    ¬ Strands tmrId tcb ↔ ∀ tcb', connection = some tcb' → tcb'.Armed := by
  cases hMove with
  | logged hFinal1 hFinal2 =>
      simp only [Option.some.injEq, forall_eq']
      constructor
      · intro hNot other hTimer
        rw [MultiTimer.pending_clear]
        split
        · rename_i hSame
          subst hSame
          have hWaits (guard : Fin tcpMaxTmr) (hGuard : tcb.state.guardTimer = some guard) :
              other = guard := Option.some.inj (hTimer.symm.trans hGuard)
          cases hState : tcb.state with
          | synSent => exact absurd (Or.inl ⟨hState, hWaits _ (by rw [hState]; rfl)⟩) hNot
          | closeWait => exact absurd (hWaits _ (by rw [hState]; rfl)) (hFinal1 hState)
          | lastAck => exact absurd (hWaits _ (by rw [hState]; rfl)) (hFinal2 hState)
          | _ => simp [hState, TcpState.guardTimer] at hTimer
        · exact hArmed other hTimer
      · rintro hNow (⟨hState, hTmr⟩ | ⟨hState, hTmr⟩)
        · exact hNow tmrId (Strands.guardTimer (Or.inl ⟨hState, hTmr⟩)) (by simp)
        · exact hFinal1 hState hTmr
  | lastAck hState hTmr =>
      have hNever : ¬ TcpControlBlock.Armed
          { tcb with state := .lastAck, expseq := tcb.expseq + 1, tmr := tcb.tmr.clear tmrId } := by
        intro hNow
        have hPending := hNow tcpFinalTmr2 rfl
        rw [MultiTimer.pending_clear, if_neg (by rw [hTmr]; decide)] at hPending
        cases hState.symm.trans (hGood.lastTimer hPending)
      simp only [Option.some.injEq, forall_eq', hNever, iff_false, not_not]
      exact Or.inr ⟨hState, hTmr⟩
  | closed hState _ =>
      simp [Strands, hState]

end Connection

namespace TcpImpl

/-- No connection is stranded: each block in a transitional state has the timer
of that state pending. -/
def Unstranded (ctx : TcpImpl) : Prop :=
  ∀ p key tcb, ctx.tcbTable.cells p = some (key, tcb) → tcb.Armed

/-- The event is not one of the two expiries that strand a block. -/
def NotStranding (ctx : TcpImpl) : TcpEvent → Prop
  | .segment _ _ => True
  | .expire _ key tmrId =>
      ∀ tcb, ctx.tcbTable.lookup key = some tcb → ¬ Connection.Strands tmrId tcb

variable {ctx ctx' : TcpImpl} {m : Connections}

theorem Tracks.unstranded_iff (h : ctx.Tracks m) :
    ctx.Unstranded ↔ ∀ key tcb, m.lookup key = some tcb → tcb.Armed := by
  constructor
  · intro hAll key tcb hLookup
    obtain ⟨p, hCell⟩ := (h.models.represents key tcb).mp hLookup
    exact hAll p key tcb hCell
  · intro hAll p key tcb hCell
    exact hAll key tcb ((h.models.represents key tcb).mpr ⟨p, hCell⟩)

/-- Only the connection of the event's client can be stranded by a step. -/
theorem Tracks.unstranded_step_iff (h : ctx.Tracks m) (hAll : ctx.Unstranded) {event : TcpEvent}
    (hStep : ctx.step event = some ctx') :
    ctx'.Unstranded ↔ ∀ tcb, Connection.next (decide (BoundedMap.size m < maxTcpClient)) event
      (m.lookup event.client) = some tcb → tcb.Armed := by
  rw [(h.step hStep).unstranded_iff]
  rw [h.unstranded_iff] at hAll
  simp only [Connections.next, BoundedMap.lookup_assign]
  constructor
  · intro hNow tcb hNext
    exact hNow event.client tcb (by rw [if_pos rfl, hNext])
  · intro hNow key tcb hLookup
    split at hLookup
    · exact hNow tcb hLookup
    · exact hAll key tcb hLookup

theorem armed_accepted (env : TcpTimerEnv) (header : TcpSegmentHeader)
    (hStart : env header.clientId tcpConnectionTmr = true) :
    (Connection.accepted env header).Armed := by
  intro tmrId hTimer
  cases hTimer
  have hSource : (TcpControlBlock.new header.clientId).tmr.srcAddr = header.clientId := rfl
  simp [Connection.accepted, hSource, hStart]

/-- One step keeps every connection unstranded exactly when it is not one of the
two expiries. -/
theorem Tracks.notStranding_iff (h : ctx.Tracks m) (hAll : ctx.Unstranded) (event : TcpEvent) :
    ctx.NotStranding event ↔ ∀ ctx', ctx.step event = some ctx' → ctx'.Unstranded := by
  cases event with
  | segment env header =>
      simp only [NotStranding, true_iff]
      intro ctx' hStep
      rw [h.unstranded_step_iff hAll hStep]
      intro tcb' hNext
      cases hLookup : m.lookup header.clientId with
      | none =>
          simp only [TcpEvent.client, Connection.next, hLookup, Connection.onSegment] at hNext
          split at hNext
          · rename_i hAccepted
            cases hNext
            simp only [Bool.and_eq_true] at hAccepted
            exact armed_accepted env header hAccepted.2
          · cases hNext
      | some tcb =>
          simp only [TcpEvent.client, Connection.next, hLookup] at hNext
          have hMove := Connection.segmentMove env
            (decide (BoundedMap.size m < maxTcpClient)) header tcb
          rw [hNext] at hMove
          exact hMove.armed (h.unstranded_iff.mp hAll _ tcb hLookup)
  | expire env key tmrId =>
      have hLookup := h.lookup key
      cases hConnection : m.lookup key with
      | none =>
          have hUndefined : ctx.expire env key tmrId = none := by
            simp [TcpImpl.expire, h.pendingTimer, hConnection]
          simp [NotStranding, hLookup, hConnection, TcpImpl.step, hUndefined]
      | some tcb =>
          have hGood := h.good key tcb hConnection
          have hArmed := h.unstranded_iff.mp hAll key tcb hConnection
          have hMove := (Connection.expireMove tmrId tcb).armed_iff hGood hArmed
          have hGuard : ctx.NotStranding (.expire env key tmrId) ↔
              ¬ Connection.Strands tmrId tcb := by
            simp [NotStranding, hLookup, hConnection]
          rw [hGuard]
          cases hPending : ctx.pendingTimer key tmrId with
          | none =>
              -- a block that this expiry would strand has the timer pending
              have hUndefined : ctx.expire env key tmrId = none := by
                simp [TcpImpl.expire, hPending]
              rw [h.pendingTimer, hConnection, Option.bind_some] at hPending
              have hNot : ¬ Connection.Strands tmrId tcb := fun hStrands =>
                hArmed tmrId hStrands.guardTimer hPending
              simp [hNot, TcpImpl.step, hUndefined]
          | some cbPtr =>
              obtain ⟨ctx₁, hStep⟩ := h.expire_defined env hPending
              have hNow := h.unstranded_step_iff hAll
                (show ctx.step (.expire env key tmrId) = some ctx₁ from hStep)
              simp only [TcpEvent.client, hConnection, Connection.next, Option.bind_some] at hNow
              simp only [TcpImpl.step, hStep, Option.some.injEq, forall_eq', hNow, hMove]

/-- From an empty table, no connection is ever stranded in a run exactly when
no step of it is one of the two expiries. These let the last timer of a connection
fire without a new one, so a silent peer keeps its slot for ever. -/
theorem unstranded_iff_notStranding (h : ctx.EmptyTable) (events : List TcpEvent) :
    AllStates step Unstranded ctx events ↔ AllSteps step NotStranding ctx events := by
  apply allStates_iff_allSteps fun ctx => ∃ m, ctx.Tracks m
  · rintro s event t ⟨m, hTracks⟩ hStep
    exact ⟨m.next event, hTracks.step hStep⟩
  · rintro s event ⟨m, hTracks⟩ hAll
    exact hTracks.notStranding_iff hAll event
  · exact ⟨∅, h.tracks⟩
  · rw [h.tracks.unstranded_iff]
    intro key tcb hLookup
    simp at hLookup

theorem unstranded_iff_notStranding_fin :
    AllStates step Unstranded init [.segment (fun _ _ => true) (sampleSegment 2 100),
      .segment (fun _ _ => true) (sampleSegment 16 101),
      .segment (fun _ _ => true) (sampleSegment 1 101)] :=
  have hStart : init.EmptyTable := rfl
  (unstranded_iff_notStranding hStart _).mpr
    ⟨trivial, fun _ _ => ⟨trivial, fun _ _ => ⟨trivial, fun _ _ => trivial⟩⟩⟩

/-- The connection timer of a client that sent a SYN and nothing more fires. -/
theorem silent_peer_strands :
    ¬ ∀ (ctx : TcpImpl) (_ : ctx.EmptyTable) (events : List TcpEvent),
      AllStates step Unstranded ctx events := by
  intro hAll
  let syn : TcpEvent := .segment (fun _ _ => true) (sampleSegment 2 100)
  let timeout : TcpEvent :=
    .expire (fun _ _ => true) (sampleSegment 2 100).clientId tcpConnectionTmr
  have hStart : init.EmptyTable := rfl
  have hSyn : (init.step syn).isSome := by decide
  obtain ⟨ctx, hStep⟩ := Option.isSome_iff_exists.mp hSyn
  have hTracks := hStart.tracks.step hStep
  have hSafe := (hAll init hStart [syn, timeout]).2 ctx hStep
  have hNotStranding := (hTracks.notStranding_iff hSafe.1 timeout).mpr hSafe.2
  have hLookup : ctx.tcbTable.lookup (sampleSegment 2 100).clientId =
      some (Connection.accepted (fun _ _ => true) (sampleSegment 2 100)) := by
    rw [hTracks.lookup]
    rfl
  exact hNotStranding _ hLookup (by decide)

end TcpImpl
end Nginz
