import ReactDpdk.Core.FixedTableRefinement
import ReactDpdk.Tcp.Receive

/-! What the service is for, client by client: each connection is an automaton
of its own, which moves only on the segments and timers of its client. Nothing
here mentions slots, references or the table. -/
namespace Nginz

/-- The client an event belongs to. -/
def TcpEvent.client : TcpEvent → UInt64
  | .segment _ header => header.clientId
  | .expire _ key _ => key

/-- The states that a connection passes through. -/
def TcpState.IsConnection : TcpState → Prop
  | .synSent | .established | .closeWait | .lastAck => True
  | _ => False

instance : DecidablePred TcpState.IsConnection := fun state => by
  cases state <;> simp only [TcpState.IsConnection] <;> infer_instance

/-- One step along the path of a connection. -/
inductive TcpState.Follows : TcpState → TcpState → Prop where
  | established : Follows .synSent .established
  | closeWait : Follows .established .closeWait
  | lastAck : Follows .closeWait .lastAck

/-- The block of a connection, or `none` for a client without one. -/
abbrev Connection := Option TcpControlBlock

namespace Connection

/-- The block of a client whose SYN was accepted. -/
def accepted (env : TcpTimerEnv) (header : TcpSegmentHeader) : TcpControlBlock :=
  let fresh := TcpControlBlock.new header.clientId
  { fresh with state := .synSent, expseq := header.seqno + 1
               tmr := fresh.tmr.restarted env tcpConnectionTmr }

/-- A segment reaches a connection. `room` tells whether there is a place for a
new one. -/
def onSegment (env : TcpTimerEnv) (room : Bool) (header : TcpSegmentHeader) :
    Connection → Connection
  | none =>
      if header.has TcpMask.syn && room && env header.clientId tcpConnectionTmr then
        some (accepted env header)
      else none
  | some tcb =>
      match tcb.state with
      | .synSent =>
          some (if acknowledges header tcb then { tcb with state := .established } else tcb)
      | .established =>
          if header.has TcpMask.fin then
            let tmr := tcb.tmr.restarted env tcpFinalTmr1
            if env tcb.tmr.srcAddr tcpFinalTmr1 then
              some { tcb with state := .closeWait, expseq := header.seqno, tmr := tmr }
            else some { tcb with tmr := tmr }
          else some tcb
      | .closeWait =>
          if acknowledges header tcb then
            if env tcb.tmr.srcAddr tcpFinalTmr2 then
              some { tcb with state := .lastAck, expseq := tcb.expseq + 1
                              tmr := tcb.tmr.restarted env tcpFinalTmr2 }
            else none
          else some tcb
      | .lastAck => if acknowledges header tcb then none else some tcb
      | _ => some tcb

/-- A timer of a connection fires. -/
def onExpire (tmrId : Fin tcpMaxTmr) (tcb : TcpControlBlock) : Connection :=
  let fired := { tcb with tmr := tcb.tmr.clear tmrId }
  match tcb.state with
  | .closeWait =>
      if tmrId = tcpFinalTmr1 then
        some { fired with state := .lastAck, expseq := tcb.expseq + 1 }
      else some fired
  | .lastAck => if tmrId = tcpFinalTmr2 then none else some fired
  | _ => some fired

/-- What an event makes of the connection of its client. -/
def next (room : Bool) : TcpEvent → Connection → Connection
  | .segment env header, connection => onSegment env room header connection
  | .expire _ _ tmrId, connection => connection.bind (onExpire tmrId)

/-- The invariant of one connection. `key` is what it is stored under. -/
structure Good (key : UInt64) (tcb : TcpControlBlock) : Prop where
  isClient : key.toNat < 2 ^ 48
  clientId : tcb.clientId = key
  srcAddr : tcb.tmr.srcAddr = key
  state : tcb.state.IsConnection
  pending : ∀ tmrId arg, tcb.tmr.pending tmrId = some arg → arg = MultiTimer.packed key tmrId
  lastTimer : tcb.tmr.pending tcpFinalTmr2 ≠ none → tcb.state = .lastAck

/-- The address and the port lie side by side. -/
theorem makeClientId_toNat (ipv4Addr : UInt32) (port : UInt16) :
    (makeClientId ipv4Addr port).toNat = ipv4Addr.toNat * 65536 + port.toNat := by
  have hAddr := ipv4Addr.toNat_lt
  have hPort := port.toNat_lt
  have hShift : (16 : UInt64).toNat % 64 = 16 := rfl
  have hHigh : (ipv4Addr.toUInt64 <<< 16).toNat = ipv4Addr.toNat <<< 16 := by
    rw [UInt64.toNat_shiftLeft, hShift, UInt32.toNat_toUInt64, Nat.shiftLeft_eq]
    omega
  rw [makeClientId, UInt64.toNat_or, hHigh, UInt16.toNat_toUInt64,
    ← Nat.shiftLeft_add_eq_or_of_lt hPort, Nat.shiftLeft_eq]

theorem makeClientId_toNat_lt (ipv4Addr : UInt32) (port : UInt16) :
    (makeClientId ipv4Addr port).toNat < 2 ^ 48 := by
  have hAddr := ipv4Addr.toNat_lt
  have hPort := port.toNat_lt
  rw [makeClientId_toNat]
  omega

/-- Distinct clients have distinct ids. -/
theorem makeClientId_injective {ipv4Addr ipv4Addr' : UInt32} {port port' : UInt16}
    (h : makeClientId ipv4Addr port = makeClientId ipv4Addr' port') :
    ipv4Addr = ipv4Addr' ∧ port = port' := by
  have hSame := congrArg UInt64.toNat h
  have hPort := port.toNat_lt
  have hPort' := port'.toNat_lt
  rw [makeClientId_toNat, makeClientId_toNat] at hSame
  exact ⟨UInt32.toNat_inj.mp (by omega), UInt16.toNat_inj.mp (by omega)⟩

/-- Every number of 48 bits is the id of a client. -/
theorem exists_makeClientId {key : UInt64} (hKey : key.toNat < 2 ^ 48) :
    ∃ ipv4Addr port, key = makeClientId ipv4Addr port := by
  refine ⟨UInt32.ofNat (key.toNat / 65536), UInt16.ofNat (key.toNat % 65536), ?_⟩
  apply UInt64.toNat_inj.mp
  rw [makeClientId_toNat, UInt32.toNat_ofNat_of_lt' (by simp only [UInt32.size]; omega),
    UInt16.toNat_ofNat_of_lt' (by simp only [UInt16.size]; omega)]
  omega

variable {key : UInt64} {tcb tcb' : TcpControlBlock}

/-- Restarting a timer packs the source address, or leaves nothing pending. -/
theorem Good.pending_restarted (h : Good key tcb) (env : TcpTimerEnv)
    {tmrId other : Fin tcpMaxTmr} {arg : UInt64}
    (hPending : (tcb.tmr.restarted env tmrId).pending other = some arg) :
    arg = MultiTimer.packed key other := by
  rw [MultiTimer.pending_restarted, h.srcAddr] at hPending
  split at hPending
  · rename_i hSame
    split at hPending
    · cases hPending
      rw [hSame]
    · cases hPending
  · exact h.pending other arg hPending

theorem Good.pending_clear (h : Good key tcb) {tmrId other : Fin tcpMaxTmr} {arg : UInt64}
    (hPending : (tcb.tmr.clear tmrId).pending other = some arg) :
    arg = MultiTimer.packed key other := by
  rw [MultiTimer.pending_clear] at hPending
  split at hPending
  · cases hPending
  · exact h.pending other arg hPending

theorem good_accepted (env : TcpTimerEnv) (header : TcpSegmentHeader) :
    Good header.clientId (accepted env header) where
  isClient := makeClientId_toNat_lt ..
  clientId := rfl
  srcAddr := rfl
  state := trivial
  pending := by
    intro tmrId arg hPending
    rw [accepted, MultiTimer.pending_restarted] at hPending
    split at hPending
    · rename_i hSame
      split at hPending
      · cases hPending
        rw [hSame]
        rfl
      · cases hPending
    · cases hPending
  lastTimer := by
    intro hPending
    exact absurd rfl hPending

/-- Everything a segment can do to the connection of its client. -/
inductive SegmentMove (env : TcpTimerEnv) (header : TcpSegmentHeader) (tcb : TcpControlBlock) :
    Connection → Prop where
  | ignored : SegmentMove env header tcb (some tcb)
  | established (hState : tcb.state = .synSent) (hAck : acknowledges header tcb = true) :
      SegmentMove env header tcb (some { tcb with state := .established })
  | closeWait (hState : tcb.state = .established)
      (hStart : env tcb.tmr.srcAddr tcpFinalTmr1 = true) :
      SegmentMove env header tcb (some { tcb with
        state := .closeWait, expseq := header.seqno, tmr := tcb.tmr.restarted env tcpFinalTmr1 })
  | finUnanswered (hState : tcb.state = .established)
      (hStart : env tcb.tmr.srcAddr tcpFinalTmr1 = false) :
      SegmentMove env header tcb (some { tcb with tmr := tcb.tmr.restarted env tcpFinalTmr1 })
  | lastAck (hState : tcb.state = .closeWait) (hStart : env tcb.tmr.srcAddr tcpFinalTmr2 = true) :
      SegmentMove env header tcb (some { tcb with
        state := .lastAck, expseq := tcb.expseq + 1, tmr := tcb.tmr.restarted env tcpFinalTmr2 })
  | dropped (hState : tcb.state = .closeWait) (hStart : env tcb.tmr.srcAddr tcpFinalTmr2 = false) :
      SegmentMove env header tcb none
  | closed (hState : tcb.state = .lastAck) : SegmentMove env header tcb none

theorem segmentMove (env : TcpTimerEnv) (room : Bool) (header : TcpSegmentHeader)
    (tcb : TcpControlBlock) :
    SegmentMove env header tcb (onSegment env room header (some tcb)) := by
  cases hState : tcb.state with
  | synSent =>
      cases hAck : acknowledges header tcb with
      | true => simpa [onSegment, hState, hAck] using SegmentMove.established hState hAck
      | false => simpa [onSegment, hState, hAck] using SegmentMove.ignored
  | established =>
      cases hFin : header.has TcpMask.fin with
      | false => simpa [onSegment, hState, hFin] using SegmentMove.ignored
      | true =>
          cases hStart : env tcb.tmr.srcAddr tcpFinalTmr1 with
          | true =>
              simpa [onSegment, hState, hFin, hStart] using SegmentMove.closeWait hState hStart
          | false =>
              simpa [onSegment, hState, hFin, hStart] using SegmentMove.finUnanswered hState hStart
  | closeWait =>
      cases hAck : acknowledges header tcb with
      | false => simpa [onSegment, hState, hAck] using SegmentMove.ignored
      | true =>
          cases hStart : env tcb.tmr.srcAddr tcpFinalTmr2 with
          | true => simpa [onSegment, hState, hAck, hStart] using SegmentMove.lastAck hState hStart
          | false => simpa [onSegment, hState, hAck, hStart] using SegmentMove.dropped hState hStart
  | lastAck =>
      cases hAck : acknowledges header tcb with
      | true => simpa [onSegment, hState, hAck] using SegmentMove.closed hState
      | false => simpa [onSegment, hState, hAck] using SegmentMove.ignored
  | _ => simpa [onSegment, hState] using SegmentMove.ignored

/-- Everything the expiry of a timer can do to its connection. -/
inductive ExpireMove (tmrId : Fin tcpMaxTmr) (tcb : TcpControlBlock) : Connection → Prop where
  | logged (hFinal1 : tcb.state = .closeWait → tmrId ≠ tcpFinalTmr1)
      (hFinal2 : tcb.state = .lastAck → tmrId ≠ tcpFinalTmr2) :
      ExpireMove tmrId tcb (some { tcb with tmr := tcb.tmr.clear tmrId })
  | lastAck (hState : tcb.state = .closeWait) (hTmr : tmrId = tcpFinalTmr1) :
      ExpireMove tmrId tcb (some { tcb with
        state := .lastAck, expseq := tcb.expseq + 1, tmr := tcb.tmr.clear tmrId })
  | closed (hState : tcb.state = .lastAck) (hTmr : tmrId = tcpFinalTmr2) : ExpireMove tmrId tcb none

theorem expireMove (tmrId : Fin tcpMaxTmr) (tcb : TcpControlBlock) :
    ExpireMove tmrId tcb (onExpire tmrId tcb) := by
  unfold onExpire
  dsimp only
  split
  · rename_i hState
    split
    · rename_i hTmr
      exact .lastAck hState hTmr
    · rename_i hTmr
      exact .logged (fun _ => hTmr) fun hOther => by cases hState.symm.trans hOther
  · rename_i hState
    split
    · rename_i hTmr
      exact .closed hState hTmr
    · rename_i hTmr
      exact .logged (fun hOther => by cases hState.symm.trans hOther) fun _ => hTmr
  · rename_i hFinal1 hFinal2
    exact .logged (fun hState => absurd hState hFinal1) fun hState => absurd hState hFinal2

/-- A segment keeps the invariant of its connection. -/
theorem Good.segmentMove (h : Good key tcb) {env : TcpTimerEnv} {header : TcpSegmentHeader}
    (hMove : SegmentMove env header tcb (some tcb')) : Good key tcb' := by
  cases hMove with
  | ignored => exact h
  | established hState _ =>
      exact { h with
        state := trivial
        lastTimer := fun hTimer => by cases hState.symm.trans (h.lastTimer hTimer) }
  | closeWait hState _ =>
      exact { h with
        state := trivial
        pending := fun _ _ hPending => h.pending_restarted env hPending
        lastTimer := fun hTimer => by cases hState.symm.trans (h.lastTimer hTimer) }
  | finUnanswered _ _ =>
      exact { h with
        pending := fun _ _ hPending => h.pending_restarted env hPending
        lastTimer := h.lastTimer }
  | lastAck _ _ =>
      exact { h with
        state := trivial
        pending := fun _ _ hPending => h.pending_restarted env hPending
        lastTimer := fun _ => rfl }

/-- So does the expiry of a timer. -/
theorem Good.expireMove (h : Good key tcb) {tmrId : Fin tcpMaxTmr}
    (hMove : ExpireMove tmrId tcb (some tcb')) : Good key tcb' := by
  have hCleared : (tcb.tmr.clear tmrId).pending tcpFinalTmr2 ≠ none → tcb.state = .lastAck := by
    intro hTimer
    rw [MultiTimer.pending_clear] at hTimer
    split at hTimer
    · exact absurd rfl hTimer
    · exact h.lastTimer hTimer
  cases hMove with
  | logged _ _ =>
      exact { h with
        pending := fun _ _ hPending => h.pending_clear hPending
        lastTimer := hCleared }
  | lastAck _ _ =>
      exact { h with
        state := trivial
        pending := fun _ _ hPending => h.pending_clear hPending
        lastTimer := fun _ => rfl }

/-- The invariant of every connection survives an event of its client. -/
theorem good_next {room : Bool} {event : TcpEvent} {connection : Connection}
    (h : ∀ tcb, connection = some tcb → Good event.client tcb)
    (hNext : next room event connection = some tcb') : Good event.client tcb' := by
  cases event with
  | segment env header =>
      cases connection with
      | none =>
          simp only [next, onSegment] at hNext
          split at hNext
          · cases hNext
            exact good_accepted env header
          · cases hNext
      | some tcb =>
          have hMove := Connection.segmentMove env room header tcb
          rw [show onSegment env room header (some tcb) = some tcb' from hNext] at hMove
          exact (h tcb rfl).segmentMove hMove
  | expire env key tmrId =>
      obtain ⟨tcb, rfl, hExpire⟩ := Option.bind_eq_some_iff.mp hNext
      have hMove := Connection.expireMove tmrId tcb
      exact (h tcb rfl).expireMove (hExpire ▸ hMove)

end Connection
end Nginz
