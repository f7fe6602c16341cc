import ReactDpdk.Tcp.SendTraces

/-! Clients do not see one another. With room in the table, what the service does
for a client in a run is what it does when only that client is there. -/
namespace Nginz
open Transition

/-- What a client sees of the service: its connection, and what is sent to it. -/
structure ClientView where
  connection : Connection
  sent : List TcpSend

/-- An event of the client, alone with the service. -/
def ClientView.next (view : ClientView) (event : TcpEvent) : ClientView :=
  { connection := Connection.next true event view.connection
    sent := view.sent ++ Connection.sends true event view.connection }

namespace TcpImpl

def view (ctx : TcpImpl) (key : UInt64) : ClientView :=
  { connection := ctx.tcbTable.lookup key, sent := ctx.sent.filter fun call => call.client = key }

/-- The table has a free slot when a client without a connection comes. -/
def RoomFor (key : UInt64) (ctx : TcpImpl) (event : TcpEvent) : Prop :=
  event.client = key → ctx.tcbTable.lookup key = none → ctx.tcbTable.size < maxTcpClient

instance (key : UInt64) (ctx : TcpImpl) (event : TcpEvent) : Decidable (RoomFor key ctx event) :=
  inferInstanceAs (Decidable (_ → _ → _))

variable {ctx ctx' : TcpImpl} {m : Connections} {event : TcpEvent}

/-- Whether there is room matters to a client without a connection only. -/
theorem Tracks.room_eq (h : ctx.Tracks m) (hRoom : RoomFor event.client ctx event) :
    Connection.next (decide (BoundedMap.size m < maxTcpClient)) event (m.lookup event.client) =
        Connection.next true event (m.lookup event.client) ∧
      Connection.sends (decide (BoundedMap.size m < maxTcpClient)) event (m.lookup event.client) =
        Connection.sends true event (m.lookup event.client) := by
  cases hLookup : m.lookup event.client with
  | none =>
      have hFree : BoundedMap.size m < maxTcpClient := by
        rw [← h.models.cnt_eq]
        exact hRoom rfl (h.lookup _ ▸ hLookup)
      rw [decide_eq_true hFree]
      exact ⟨rfl, rfl⟩
  | some tcb => cases event <;> exact ⟨rfl, rfl⟩

/-- The calls of a step are for the client of the event. -/
theorem Tracks.sent_client (h : ctx.Tracks m) {call : TcpSend}
    (hCall : call ∈ (m.respond event).2) : call.client = event.client :=
  Connection.sends_client (fun tcb hLookup => h.good _ tcb hLookup) hCall

theorem Tracks.view_own (h : ctx.Tracks m) (hRoom : RoomFor event.client ctx event)
    (hStep : ctx.step event = some ctx') :
    ctx'.view event.client = (ctx.view event.client).next event := by
  obtain ⟨hNext, hSends⟩ := h.room_eq hRoom
  have hAll : (m.respond event).2.filter (fun call => call.client = event.client) =
      (m.respond event).2 :=
    List.filter_eq_self.mpr fun call hCall => decide_eq_true (h.sent_client hCall)
  simp only [view, ClientView.next, h.lookup_step hStep, if_pos, h.sent_step hStep,
    List.filter_append, hAll, hNext, h.lookup]
  rw [Connections.respond, hSends]

theorem Tracks.view_other (h : ctx.Tracks m) (hStep : ctx.step event = some ctx') {key : UInt64}
    (hKey : event.client ≠ key) : ctx'.view key = ctx.view key := by
  have hNone : (m.respond event).2.filter (fun call => call.client = key) = [] := by
    rw [List.filter_eq_nil_iff]
    intro call hCall hSame
    exact hKey ((h.sent_client hCall).symm.trans (of_decide_eq_true hSame))
  simp only [view, h.lookup_step hStep, if_neg (Ne.symm hKey), h.sent_step hStep,
    List.filter_append, hNone, List.append_nil, h.lookup]

/-- For every run from a reached context and every client that finds room: its
connection and all that is sent to it are as if the events of the others had not
been there. -/
theorem client_isolated (h : ctx.Reached) (key : UInt64) {events : List TcpEvent}
    (hRoom : AllSteps TcpImpl.step (RoomFor key) ctx events)
    (hRun : run TcpImpl.step ctx events = some ctx') :
    ctx'.view key = (events.filter fun event => event.client = key).foldl ClientView.next
      (ctx.view key) := by
  have hAlone : run (fun view event => some (ClientView.next view event)) (ctx.view key)
      (events.filterMap (Option.guard fun event => event.client = key)) = some (ctx'.view key) := by
    refine run_filterMap (fun ctx : TcpImpl => ctx.view key) _ (fun ctx => ∃ m, ctx.Tracks m)
      ?_ ?_ ?_ hRoom h.tracks hRun
    case refine_1 =>
      rintro s event t ⟨m, hTracks⟩ hStep
      exact ⟨m.next event, hTracks.step hStep⟩
    case refine_2 =>
      rintro s event t own ⟨m, hTracks⟩ hFree hStep hLabel
      obtain ⟨rfl, hOwn⟩ := Option.guard_eq_some_iff.mp hLabel
      obtain rfl : event.client = key := of_decide_eq_true hOwn
      rw [hTracks.view_own hFree hStep]
    case refine_3 =>
      rintro s event t ⟨m, hTracks⟩ hStep hLabel
      have hClient : event.client ≠ key := by simpa using hLabel
      exact hTracks.view_other hStep hClient
  rw [run_total, Option.some.injEq, List.filterMap_eq_filter] at hAlone
  exact hAlone.symm

/-- Two clients, one of them behind the other's back. -/
theorem client_isolated_two :
    ∃ ctx, run TcpImpl.step init
        [.segment (fun _ _ => true) (sampleSegment 2 100),
          .segment (fun _ _ => true) { sampleSegment 2 200 with sport := 8 },
          .segment (fun _ _ => true) (sampleSegment 16 101)] = some ctx ∧
      ctx.view (sampleSegment 2 100).clientId =
        [TcpEvent.segment (fun _ _ => true) (sampleSegment 2 100),
          .segment (fun _ _ => true) (sampleSegment 16 101)].foldl ClientView.next ⟨none, []⟩ := by
  have hSome : (run TcpImpl.step init
      [.segment (fun _ _ => true) (sampleSegment 2 100),
        .segment (fun _ _ => true) { sampleSegment 2 200 with sport := 8 },
        .segment (fun _ _ => true) (sampleSegment 16 101)]).isSome := by decide
  obtain ⟨ctx, hRun⟩ := Option.isSome_iff_exists.mp hSome
  have hStart : init.EmptyTable := rfl
  exact ⟨ctx, hRun, client_isolated (.start hStart) (sampleSegment 2 100).clientId (by decide) hRun⟩

end TcpImpl

/-- Five segments that open and close a connection, with the numbers that the
callbacks wait for: the one after the SYN, that of the FIN, the one after the FIN. -/
structure FullExchange (key : UInt64) (x y : UInt32) (syn ack fin ack₁ ack₂ : TcpSegmentHeader) :
    Prop where
  clients : ∀ header ∈ [syn, ack, fin, ack₁, ack₂], header.clientId = key
  syn_has : syn.has TcpMask.syn = true
  syn_seqno : syn.seqno = x
  ack_has : ack.has TcpMask.ack = true
  ack_seqno : ack.seqno = x + 1
  fin_has : fin.has TcpMask.fin = true
  fin_seqno : fin.seqno = y
  ack₁_has : ack₁.has TcpMask.ack = true
  ack₁_seqno : ack₁.seqno = y
  ack₂_has : ack₂.has TcpMask.ack = true
  ack₂_seqno : ack₂.seqno = y + 1

namespace ClientView
variable {env : TcpTimerEnv} {header : TcpSegmentHeader} {tcb : TcpControlBlock}
  {sent : List TcpSend}

theorem next_syn (hSyn : header.has TcpMask.syn = true)
    (hStart : env header.clientId tcpConnectionTmr = true) :
    next ⟨none, sent⟩ (.segment env header) =
      ⟨some (Connection.accepted env header), sent ++ [.synAck header.clientId header]⟩ := by
  simp [next, Connection.next, Connection.onSegment, Connection.sends, hSyn, hStart]

theorem next_synSent (hState : tcb.state = .synSent) (hAck : acknowledges header tcb = true) :
    next ⟨some tcb, sent⟩ (.segment env header) =
      ⟨some { tcb with state := .established }, sent ++ [.synAck tcb.clientId header]⟩ := by
  simp [next, Connection.next, Connection.onSegment, Connection.sends, hState, hAck]

theorem next_established (hState : tcb.state = .established) (hFin : header.has TcpMask.fin = true)
    (hStart : env tcb.tmr.srcAddr tcpFinalTmr1 = true) :
    next ⟨some tcb, sent⟩ (.segment env header) =
      ⟨some { tcb with state := .closeWait, expseq := header.seqno
                       tmr := tcb.tmr.restarted env tcpFinalTmr1 },
        sent ++ [.finAck tcb.clientId header]⟩ := by
  simp [next, Connection.next, Connection.onSegment, Connection.sends, hState, hFin, hStart]

theorem next_closeWait (hState : tcb.state = .closeWait) (hAck : acknowledges header tcb = true)
    (hStart : env tcb.tmr.srcAddr tcpFinalTmr2 = true) :
    next ⟨some tcb, sent⟩ (.segment env header) =
      ⟨some { tcb with state := .lastAck, expseq := tcb.expseq + 1
                       tmr := tcb.tmr.restarted env tcpFinalTmr2 },
        sent ++ [.fin tcb.clientId (tcb.expseq + 1).toUInt16]⟩ := by
  simp [next, Connection.next, Connection.onSegment, Connection.sends, hState, hAck, hStart]

theorem next_lastAck (hState : tcb.state = .lastAck) (hAck : acknowledges header tcb = true) :
    next ⟨some tcb, sent⟩ (.segment env header) = ⟨none, sent⟩ := by
  simp [next, Connection.next, Connection.onSegment, Connection.sends, hState, hAck]

end ClientView

theorem acknowledges_of {header : TcpSegmentHeader} {tcb : TcpControlBlock}
    (hAck : header.has TcpMask.ack = true) (hSeqno : header.seqno = tcb.expseq) :
    acknowledges header tcb = true := by
  simp [acknowledges, hAck, hSeqno]

/-- Alone with the service, the client gets all its answers and leaves no block. -/
theorem FullExchange.alone {key : UInt64} {x y : UInt32}
    {syn ack fin ack₁ ack₂ : TcpSegmentHeader}
    (h : FullExchange key x y syn ack fin ack₁ ack₂) {e₁ e₂ e₃ e₄ e₅ : TcpTimerEnv}
    (hStarts : e₁ key tcpConnectionTmr ∧ e₃ key tcpFinalTmr1 ∧ e₄ key tcpFinalTmr2)
    (sent : List TcpSend) :
    [TcpEvent.segment e₁ syn, .segment e₂ ack, .segment e₃ fin, .segment e₄ ack₁,
        .segment e₅ ack₂].foldl ClientView.next ⟨none, sent⟩ =
      ⟨none, sent ++ [.synAck key syn, .synAck key ack, .finAck key fin,
        .fin key (y + 1).toUInt16]⟩ := by
  obtain ⟨hConnection, hFinal1, hFinal2⟩ := hStarts
  obtain rfl : syn.clientId = key := h.clients syn (by simp)
  have hNumber : (Connection.accepted e₁ syn).expseq = x + 1 := by
    rw [Connection.accepted, h.syn_seqno]
  simp only [List.foldl_cons, List.foldl_nil]
  rw [ClientView.next_syn h.syn_has hConnection,
    ClientView.next_synSent rfl (acknowledges_of h.ack_has (h.ack_seqno.trans hNumber.symm)),
    ClientView.next_established rfl h.fin_has hFinal1,
    ClientView.next_closeWait rfl
      (acknowledges_of h.ack₁_has (h.ack₁_seqno.trans h.fin_seqno.symm)) hFinal2,
    ClientView.next_lastAck rfl
      (acknowledges_of h.ack₂_has (by rw [h.ack₂_seqno, ← h.fin_seqno])), h.fin_seqno]
  simp [Connection.accepted, TcpControlBlock.new]

namespace TcpImpl
variable {ctx ctx' : TcpImpl} {key : UInt64}

/-- For every run from a reached context: if the events of a client are a full
exchange, however the events of the others lie between them, the client is answered
four times and has no block in the end. -/
theorem full_exchange_completes (h : ctx.Reached) (hNew : ctx.tcbTable.lookup key = none)
    {x y : UInt32} {syn ack fin ack₁ ack₂ : TcpSegmentHeader}
    (hExchange : FullExchange key x y syn ack fin ack₁ ack₂) {e₁ e₂ e₃ e₄ e₅ : TcpTimerEnv}
    (hStarts : e₁ key tcpConnectionTmr ∧ e₃ key tcpFinalTmr1 ∧ e₄ key tcpFinalTmr2)
    {events : List TcpEvent}
    (hOwn : (events.filter fun event => event.client = key) =
      [.segment e₁ syn, .segment e₂ ack, .segment e₃ fin, .segment e₄ ack₁, .segment e₅ ack₂])
    (hRoom : AllSteps TcpImpl.step (RoomFor key) ctx events)
    (hRun : run TcpImpl.step ctx events = some ctx') :
    ctx'.tcbTable.lookup key = none ∧ (ctx'.sent.filter fun call => call.client = key) =
      (ctx.sent.filter fun call => call.client = key) ++
        [.synAck key syn, .synAck key ack, .finAck key fin, .fin key (y + 1).toUInt16] := by
  have hView := client_isolated h key hRoom hRun
  have hBefore : ctx.view key = ⟨none, ctx.sent.filter fun call => call.client = key⟩ := by
    rw [view, hNew]
  rw [hOwn, hBefore, hExchange.alone hStarts] at hView
  exact ⟨congrArg ClientView.connection hView, congrArg ClientView.sent hView⟩

/-- The exchange of client `10.0.0.1:7`. -/
theorem sample_fullExchange :
    FullExchange (sampleSegment 2 100).clientId 100 500 (sampleSegment 2 100)
      (sampleSegment 16 101) (sampleSegment 1 500) (sampleSegment 16 500) (sampleSegment 16 501) :=
  ⟨by decide, by decide, rfl, by decide, rfl, by decide, rfl, by decide, rfl, by decide, rfl⟩

/-- The SYN of another client comes in the middle. -/
def sampleEvents : List TcpEvent :=
  [.segment (fun _ _ => true) (sampleSegment 2 100),
    .segment (fun _ _ => true) (sampleSegment 16 101),
    .segment (fun _ _ => true) { sampleSegment 2 200 with sport := 8 },
    .segment (fun _ _ => true) (sampleSegment 1 500),
    .segment (fun _ _ => true) (sampleSegment 16 500),
    .segment (fun _ _ => true) (sampleSegment 16 501)]

theorem full_exchange_completes_between :
    ∃ ctx, run TcpImpl.step init sampleEvents = some ctx ∧
      ctx.tcbTable.lookup (sampleSegment 2 100).clientId = none := by
  have hSome : (run TcpImpl.step init sampleEvents).isSome := by decide
  obtain ⟨ctx, hRun⟩ := Option.isSome_iff_exists.mp hSome
  have hStart : init.EmptyTable := rfl
  exact ⟨ctx, hRun, (full_exchange_completes (.start hStart) rfl sample_fullExchange
    ⟨rfl, rfl, rfl⟩ rfl (by decide) hRun).1⟩

end TcpImpl
end Nginz
