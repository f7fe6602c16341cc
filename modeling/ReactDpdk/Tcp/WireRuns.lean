import ReactDpdk.Tcp.Handshake
import ReactDpdk.Tcp.SendTraces

/-! The service as it is seen from the wire. No frame carries ACK past the event
mask, so all that frames and timers can do to the connections is to register a
client once, as long as there is room. -/
namespace Nginz
open Transition

/-- The clients that sent a SYN, with the number that each is expected to go on
with. -/
abbrev Registry := BoundedMap.Contents UInt64 UInt32

namespace Registry

/-- A new client registers with a SYN and is answered, while there is room. It stays
if its timer starts. -/
def register (r : Registry) (env : TcpTimerEnv) (header : TcpSegmentHeader) :
    Registry × List TcpSend :=
  if header.has TcpMask.syn = true ∧ r.lookup header.clientId = none ∧
      BoundedMap.size r < maxTcpClient then
    (if env header.clientId tcpConnectionTmr then r.insert header.clientId (header.seqno + 1)
      else r, [.synAck header.clientId header])
  else (r, [])

/-- Only a frame that is accepted can register a client. -/
def respond (listen : TcpControlBlock) (r : Registry) : RxEvent → Registry × List TcpSend
  | .frame env junk frame =>
      match parseFrame junk listen frame with
      | none => (r, [])
      | some parsed => r.register env parsed.header
  | .expire _ _ _ => (r, [])

/-- The connections all wait in SYN_SENT, for the numbers in the registry. -/
structure Waits (r : Registry) (m : Connections) : Prop where
  expseq : ∀ key, (m.lookup key).map TcpControlBlock.expseq = r.lookup key
  state : ∀ key tcb, m.lookup key = some tcb → tcb.state = .synSent

variable {r : Registry} {m : Connections} {env : TcpTimerEnv} {header : TcpSegmentHeader}

theorem Waits.size_eq (h : Waits r m) : BoundedMap.size m = BoundedMap.size r := by
  apply BoundedMap.size_congr
  intro key
  rw [← h.expseq, Option.isSome_map]

theorem Waits.lookup_none_iff (h : Waits r m) (key : UInt64) :
    r.lookup key = none ↔ m.lookup key = none := by
  rw [← h.expseq, Option.map_eq_none_iff]

/-- What becomes of one connection, when it waits for the same number as before. -/
theorem Waits.assign (h : Waits r m) {key : UInt64} {connection : Connection}
    (hSame : connection.map TcpControlBlock.expseq = r.lookup key)
    (hState : ∀ tcb, connection = some tcb → tcb.state = .synSent) :
    Waits r (BoundedMap.assign m key connection) where
  expseq := by
    intro k
    rw [BoundedMap.lookup_assign]
    split
    · rename_i hKey
      rw [hKey, hSame]
    · exact h.expseq k
  state := by
    intro k tcb hLookup
    rw [BoundedMap.lookup_assign] at hLookup
    split at hLookup
    · exact hState tcb hLookup
    · exact h.state k tcb hLookup

/-- A client that was accepted waits for the number after its SYN. -/
theorem Waits.insert (h : Waits r m) (env : TcpTimerEnv) (header : TcpSegmentHeader) :
    Waits (r.insert header.clientId (header.seqno + 1))
      (BoundedMap.assign m header.clientId (some (Connection.accepted env header))) where
  expseq := by
    intro key
    rw [BoundedMap.lookup_assign]
    by_cases hKey : key = header.clientId
    · rw [if_pos hKey, hKey, Finmap.lookup_insert]
      rfl
    · rw [if_neg hKey, Finmap.lookup_insert_of_ne _ hKey, h.expseq]
  state := by
    intro key tcb hLookup
    rw [BoundedMap.lookup_assign] at hLookup
    split at hLookup
    · cases hLookup
      rfl
    · exact h.state key tcb hLookup

/-- A segment without ACK leaves a connection that waits as it is. -/
theorem Waits.onSegment (h : Waits r m) (env : TcpTimerEnv) (hAck : header.has TcpMask.ack = false)
    {tcb : TcpControlBlock} (hLookup : m.lookup header.clientId = some tcb) (room : Bool) :
    Connection.onSegment env room header (some tcb) = some tcb ∧
      Connection.sends room (.segment env header) (some tcb) = [] := by
  have hState := h.state _ tcb hLookup
  have hIgnored : acknowledges header tcb = false := by rw [acknowledges, hAck, Bool.false_and]
  simp [Connection.onSegment, Connection.sends, hState, hIgnored]

/-- A segment without ACK registers its client, or does nothing. -/
theorem Waits.segment (h : Waits r m) (env : TcpTimerEnv)
    (hAck : header.has TcpMask.ack = false) :
    Waits (r.register env header).1 (m.next (.segment env header)) ∧
      (m.respond (.segment env header)).2 = (r.register env header).2 := by
  have hNone := h.lookup_none_iff header.clientId
  simp only [Connections.respond, Connections.next, TcpEvent.client, Connection.next, register,
    ← h.size_eq, hNone]
  cases hLookup : m.lookup header.clientId with
  | some tcb =>
      obtain ⟨hStays, hSilent⟩ := h.onSegment env hAck hLookup
        (decide (BoundedMap.size m < maxTcpClient))
      rw [hStays, hSilent, BoundedMap.assign_lookup hLookup]
      simpa using h
  | none =>
      have hAbsent := hNone.mpr hLookup
      simp only [Connection.onSegment, Connection.sends, true_and, Bool.and_eq_true,
        decide_eq_true_eq]
      by_cases hRegisters : header.has TcpMask.syn = true ∧ BoundedMap.size m < maxTcpClient
      · cases hStart : env header.clientId tcpConnectionTmr with
        | true =>
            simp only [hRegisters, and_self, if_true, and_true]
            exact h.insert env header
        | false =>
            simp only [hRegisters, and_self, if_true, Bool.false_eq_true, and_false, if_false]
            rw [BoundedMap.assign_lookup hLookup]
            exact ⟨h, trivial⟩
      · have hRefused : ¬ ((header.has TcpMask.syn = true ∧ BoundedMap.size m < maxTcpClient) ∧
            env header.clientId tcpConnectionTmr = true) := fun hAll => hRegisters hAll.1
        simp only [if_neg hRegisters, if_neg hRefused]
        rw [BoundedMap.assign_lookup hLookup]
        exact ⟨h, trivial⟩

/-- The expiry of a timer leaves every client registered. -/
theorem Waits.expire (h : Waits r m) (env : TcpTimerEnv) (key : UInt64) (tmrId : Fin tcpMaxTmr) :
    Waits r (m.next (.expire env key tmrId)) ∧ (m.respond (.expire env key tmrId)).2 = [] := by
  rw [Connections.respond, Connections.next]
  simp only [TcpEvent.client, Connection.next]
  have hSame := h.expseq key
  cases hLookup : m.lookup key with
  | none =>
      rw [Option.bind_none, BoundedMap.assign_lookup hLookup]
      exact ⟨h, rfl⟩
  | some tcb =>
      have hState := h.state key tcb hLookup
      rw [hLookup] at hSame
      simp only [Option.bind_some, Connection.onExpire, Connection.sends, hState, reduceCtorEq,
        false_and, if_false, and_true]
      refine h.assign hSame ?_
      rintro _ ⟨⟩
      rfl

end Registry

namespace TcpImpl
variable {ctx ctx' : TcpImpl} {r : Registry}

/-- The table stands for connections that all wait, as the registry says. -/
def WireTracks (ctx : TcpImpl) (r : Registry) : Prop :=
  ∃ m, ctx.Tracks m ∧ r.Waits m

theorem EmptyTable.wireTracks (h : ctx.EmptyTable) : ctx.WireTracks ∅ := by
  refine ⟨∅, h.tracks, fun key => ?_, fun key tcb hLookup => ?_⟩
  · simp
  · simp at hLookup

/-- A frame or an expiry does to the table what it does to the registry, and sends
what the registry answers. -/
theorem WireTracks.rxStep {event : RxEvent} (h : ctx.WireTracks r)
    (hStep : ctx.rxStep event = some ctx') :
    ctx'.WireTracks (r.respond ctx.listen event).1 ∧
      ctx'.sent = ctx.sent ++ (r.respond ctx.listen event).2 := by
  obtain ⟨m, hTracks, hWaits⟩ := h
  cases event with
  | frame env junk frame =>
      simp only [TcpImpl.rxStep, handleTcpRx] at hStep
      cases hParsed : parseFrame junk ctx.listen frame with
      | none =>
          simp only [hParsed] at hStep
          cases hStep
          simp only [Registry.respond, hParsed]
          exact ⟨⟨m, hTracks, hWaits⟩, (List.append_nil _).symm⟩
      | some parsed =>
          simp only [hParsed] at hStep
          have hEvent : ctx.step (.segment env parsed.header) = some ctx' := hStep
          obtain ⟨hNext, hSends⟩ := hWaits.segment env (parseFrame_has_ack hParsed)
          simp only [Registry.respond, hParsed]
          rw [← hSends]
          exact ⟨⟨_, hTracks.step hEvent, hNext⟩, hTracks.sent_step hEvent⟩
  | expire env key tmrId =>
      have hEvent : ctx.step (.expire env key tmrId) = some ctx' := hStep
      obtain ⟨hNext, hSends⟩ := hWaits.expire env key tmrId
      rw [Registry.respond, ← hSends]
      exact ⟨⟨_, hTracks.step hEvent, hNext⟩, hTracks.sent_step hEvent⟩

/-- All of a run does, since the listen block stays the same. -/
theorem WireTracks.run {events : List RxEvent} (h : ctx.WireTracks r)
    (hRun : Transition.run TcpImpl.rxStep ctx events = some ctx') :
    ctx'.WireTracks (events.foldl (fun r event => (r.respond ctx.listen event).1) r) ∧
      ctx'.sent = ctx.sent ++ (specTrace (Registry.respond ctx.listen) r events).flatten := by
  induction events generalizing ctx r with
  | nil =>
      cases hRun
      exact ⟨h, (List.append_nil _).symm⟩
  | cons event events ih =>
      obtain ⟨ctx₁, hStep, hRest⟩ := Option.bind_eq_some_iff.mp hRun
      obtain ⟨acked, hEdits⟩ := edits_rxStep hStep
      obtain ⟨hNext, hSends⟩ := h.rxStep hStep
      obtain ⟨hEnd, hRestSends⟩ := ih hNext hRest
      rw [hEdits.listen_eq] at hEnd hRestSends
      refine ⟨hEnd, ?_⟩
      rw [hRestSends, hSends, specTrace, List.flatten_cons, List.append_assoc]

/-- What can be read in the table is the registry. -/
structure Registers (ctx : TcpImpl) (r : Registry) : Prop where
  expseq : ∀ key, (ctx.tcbTable.lookup key).map TcpControlBlock.expseq = r.lookup key
  state : ∀ key tcb, ctx.tcbTable.lookup key = some tcb → tcb.state = .synSent
  size : ctx.tcbTable.size = BoundedMap.size r

theorem WireTracks.registers (h : ctx.WireTracks r) : ctx.Registers r := by
  obtain ⟨m, hTracks, hWaits⟩ := h
  constructor
  case expseq =>
    intro key
    rw [hTracks.models.lookup, hWaits.expseq]
  case state =>
    intro key tcb hLookup
    rw [hTracks.models.lookup] at hLookup
    exact hWaits.state key tcb hLookup
  case size => rw [FixedDict.size, hTracks.models.cnt_eq, hWaits.size_eq]

/-- For every run of frames and timers from an empty table: the service is a
registry that each client enters once, and answers those that enter. Nothing that
comes later changes an entry, since no ACK reaches the state machine. -/
theorem wire_run_registers {events : List RxEvent} (h : ctx.EmptyTable)
    (hRun : Transition.run TcpImpl.rxStep ctx events = some ctx') :
    ctx'.Registers (events.foldl (fun r event => (r.respond ctx.listen event).1) ∅) ∧
      ctx'.sent = ctx.sent ++ (specTrace (Registry.respond ctx.listen) ∅ events).flatten := by
  obtain ⟨hEnd, hSends⟩ := h.wireTracks.run hRun
  exact ⟨hEnd.registers, hSends⟩

/-- The segment that ends the handshake of the sample client is not answered. -/
theorem wire_run_registers_handshake :
    ∃ ctx, Transition.run TcpImpl.rxStep init [.frame (fun _ _ => true) .zero (sampleFrame 2 100),
        .frame (fun _ _ => true) .zero (sampleFrame 16 101)] = some ctx ∧
      ctx.sent.length = 1 := by
  have hSome : (Transition.run TcpImpl.rxStep init
      [.frame (fun _ _ => true) .zero (sampleFrame 2 100),
        .frame (fun _ _ => true) .zero (sampleFrame 16 101)]).isSome := by decide
  obtain ⟨ctx, hRun⟩ := Option.isSome_iff_exists.mp hSome
  have hStart : init.EmptyTable := rfl
  refine ⟨ctx, hRun, ?_⟩
  rw [(wire_run_registers hStart hRun).2]
  decide

end TcpImpl

namespace Registry
variable {r : Registry} {listen : TcpControlBlock}

/-- Nobody is removed, and no number changes. -/
theorem lookup_respond {key : UInt64} {expseq : UInt32} (h : r.lookup key = some expseq)
    (event : RxEvent) : (r.respond listen event).1.lookup key = some expseq := by
  cases event with
  | expire env key tmrId => exact h
  | frame env junk frame =>
      rw [respond]
      split
      · exact h
      · rename_i parsed _
        rw [register]
        split
        · rename_i hNew
          have hOther : key ≠ parsed.header.clientId := by
            rintro rfl
            cases h.symm.trans hNew.2.1
          split
          · rw [Finmap.lookup_insert_of_ne _ hOther, h]
          · exact h
        · exact h

/-- A full registry takes in nobody and answers nobody. -/
theorem respond_full (h : maxTcpClient ≤ BoundedMap.size r) (event : RxEvent) :
    r.respond listen event = (r, []) := by
  cases event with
  | expire env key tmrId => rfl
  | frame env junk frame =>
      rw [respond]
      split
      · rfl
      · rw [register, if_neg fun hNew => absurd hNew.2.2 (not_lt.mpr h)]

end Registry

namespace TcpImpl
variable {ctx ctx' : TcpImpl} {r : Registry}

/-- The contexts that frames and timers reach. -/
abbrev ReachedByWire (ctx : TcpImpl) : Prop := Reachable TcpImpl.rxStep EmptyTable ctx

theorem ReachedByWire.wireTracks (h : ctx.ReachedByWire) : ∃ r, ctx.WireTracks r :=
  Reachable.invariant h (fun ctx => ∃ r, ctx.WireTracks r)
    (fun _ hEmpty => ⟨∅, EmptyTable.wireTracks hEmpty⟩)
    fun _ _ _ ⟨_, hTracks⟩ hStep => ⟨_, (hTracks.rxStep hStep).1⟩

/-- A client stays in the registry over a run. -/
theorem WireTracks.registered {events : List RxEvent} (h : ctx.WireTracks r) {key : UInt64}
    {expseq : UInt32} (hEntry : r.lookup key = some expseq)
    (hRun : Transition.run TcpImpl.rxStep ctx events = some ctx') :
    ∃ r', ctx'.WireTracks r' ∧ r'.lookup key = some expseq :=
  run_invariant (fun ctx : TcpImpl => ∃ r, ctx.WireTracks r ∧ r.lookup key = some expseq)
    (fun _ event _ ⟨_, hTracks, hThere⟩ hStep =>
      ⟨_, (hTracks.rxStep hStep).1, Registry.lookup_respond hThere event⟩)
    ⟨r, h, hEntry⟩ hRun

/-- A full registry stays the same over a run, in silence. -/
theorem WireTracks.full {events : List RxEvent} (h : ctx.WireTracks r)
    (hFull : maxTcpClient ≤ BoundedMap.size r)
    (hRun : Transition.run TcpImpl.rxStep ctx events = some ctx') :
    ctx'.WireTracks r ∧ ctx'.sent = ctx.sent := by
  refine run_invariant (fun other : TcpImpl => other.WireTracks r ∧ other.sent = ctx.sent)
    ?_ ⟨h, rfl⟩ hRun
  rintro s event t ⟨hTracks, hSent⟩ hStep
  obtain ⟨hNext, hSends⟩ := hTracks.rxStep hStep
  rw [Registry.respond_full hFull] at hNext hSends
  exact ⟨hNext, by rw [hSends, hSent, List.append_nil]⟩

/-- For every run of frames and timers from a context that such a run reaches: a
client in the table stays in SYN_SENT for good. Once the table is full, nothing is
ever sent again and no other client ever enters. -/
theorem registered_for_good {events : List RxEvent} (h : ctx.ReachedByWire)
    (hRun : Transition.run TcpImpl.rxStep ctx events = some ctx') :
    (∀ key tcb, ctx.tcbTable.lookup key = some tcb → ∃ tcb',
      ctx'.tcbTable.lookup key = some tcb' ∧ tcb'.state = .synSent ∧
        tcb'.expseq = tcb.expseq) ∧
    (ctx.tcbTable.isFull = true → ctx'.sent = ctx.sent ∧
      ∀ key, ctx.tcbTable.lookup key = none → ctx'.tcbTable.lookup key = none) := by
  obtain ⟨r, hTracks⟩ := h.wireTracks
  have hBefore := hTracks.registers
  refine ⟨fun key tcb hLookup => ?_, fun hFull => ?_⟩
  · have hEntry : r.lookup key = some tcb.expseq := by
      rw [← hBefore.expseq, hLookup, Option.map_some]
    obtain ⟨after, hAfter, hSame⟩ := hTracks.registered hEntry hRun
    have hNow := hAfter.registers
    have hLookup' := hNow.expseq key
    rw [hSame, Option.map_eq_some_iff] at hLookup'
    obtain ⟨tcb', hThere, hExpseq⟩ := hLookup'
    exact ⟨tcb', hThere, hNow.state key tcb' hThere, hExpseq⟩
  · have hSize : maxTcpClient ≤ BoundedMap.size r := by
      rw [← hBefore.size]
      exact Nat.le_of_eq (beq_iff_eq.mp hFull).symm
    obtain ⟨hAfter, hSilent⟩ := hTracks.full hSize hRun
    refine ⟨hSilent, fun key hAbsent => ?_⟩
    have hNow := hAfter.registers.expseq key
    rwa [← hBefore.expseq, hAbsent, Option.map_none, Option.map_eq_none_iff] at hNow

/-- The sample client acknowledges, and stays where it is. -/
theorem registered_for_good_sample :
    ∃ ctx ctx' tcb, Transition.run TcpImpl.rxStep init
        [.frame (fun _ _ => true) .zero (sampleFrame 2 100)] = some ctx ∧
      Transition.run TcpImpl.rxStep ctx
        [.frame (fun _ _ => true) .zero (sampleFrame 16 101)] = some ctx' ∧
      ctx'.tcbTable.lookup (sampleSegment 2 100).clientId = some tcb ∧ tcb.state = .synSent := by
  have hSome : ((Transition.run TcpImpl.rxStep init
      [.frame (fun _ _ => true) .zero (sampleFrame 2 100)]).bind fun ctx =>
        (Transition.run TcpImpl.rxStep ctx
          [.frame (fun _ _ => true) .zero (sampleFrame 16 101)]).bind fun _ =>
            ctx.tcbTable.lookup (sampleSegment 2 100).clientId).isSome := by decide
  obtain ⟨tcb, hAll⟩ := Option.isSome_iff_exists.mp hSome
  obtain ⟨ctx, hSyn, hRest⟩ := Option.bind_eq_some_iff.mp hAll
  obtain ⟨ctx', hAck, hLookup⟩ := Option.bind_eq_some_iff.mp hRest
  have hStart : init.EmptyTable := rfl
  obtain ⟨tcb', hThere, hState, _⟩ :=
    (registered_for_good (Reachable.run (.start hStart) hSyn) hAck).1 _ tcb hLookup
  exact ⟨ctx, ctx', tcb', hSyn, hAck, hThere, hState⟩

end TcpImpl
end Nginz
