import ReactDpdk.Tcp.OutOfSequence

/-! The close sequence of an established connection, segment by segment. The
callbacks disagree on what they store as the expected number: the number of the
FIN itself here, the number after the SYN in LISTEN. -/
namespace Nginz.TcpImpl

/-- The client has a block, and it is in the given state. -/
def InState (ctx : TcpImpl) (clientId : UInt64) (state : TcpState) : Prop :=
  ∃ tcb, ctx.tcbTable.lookup clientId = some tcb ∧ tcb.state = state

/-- A FIN on an established connection with number `s`, and the two segments
that follow it in order. The FIN takes up one sequence number. -/
structure ClosingExchange (ctx : TcpImpl) (s : UInt32) (fin ack₁ ack₂ : TcpSegmentHeader) :
    Prop where
  established : ctx.InState fin.clientId .established
  fin_has : fin.has TcpMask.fin = true
  fin_seqno : fin.seqno = s
  ack₁_has : ack₁.has TcpMask.ack = true
  ack₂_has : ack₂.has TcpMask.ack = true
  ack₁_seqno : ack₁.seqno = s + 1
  ack₂_seqno : ack₂.seqno = s + 1
  ack₁_clientId : ack₁.clientId = fin.clientId
  ack₂_clientId : ack₂.clientId = fin.clientId

/-- The FIN is accepted, the first segment behind it moves the block to
LAST_ACK, and the second removes it. -/
def TearsDown (ctx : TcpImpl) (fin ack₁ ack₂ : TcpSegmentHeader) : Prop :=
  ∃ ctx₁ ctx₂ ctx₃, ctx.segment startsSucceed fin = some ctx₁ ∧
    ctx₁.InState fin.clientId .closeWait ∧
    ctx₁.segment startsSucceed ack₁ = some ctx₂ ∧ ctx₂.InState fin.clientId .lastAck ∧
    ctx₂.segment startsSucceed ack₂ = some ctx₃ ∧ ctx₃.tcbTable.lookup fin.clientId = none

variable {ctx ctx' : TcpImpl} {header : TcpSegmentHeader} {tcb : TcpControlBlock}

/-- A FIN on an established connection leaves its own number as the expected
one. -/
theorem segment_fin (hLookup : ctx.tcbTable.lookup header.clientId = some tcb)
    (hState : tcb.state = .established) (hFin : header.has TcpMask.fin = true) :
    ∃ ctx', ctx.segment startsSucceed header = some ctx' ∧
      ctx'.tcbTable.lookup header.clientId = some { tcb with
        state := .closeWait, expseq := header.seqno
        tmr := tcb.tmr.restarted startsSucceed tcpFinalTmr1 } := by
  obtain ⟨p, hFind, hCell, hSegment⟩ := segment_established hLookup hState startsSucceed
  rw [if_pos hFin] at hSegment
  refine ⟨_, hSegment, ?_⟩
  exact lookup_setBlock hFind hCell (finReceived startsSucceed header tcb)

theorem seqno_add_one_ne (s : UInt32) : s + 1 ≠ s := by
  intro h
  have hSame := congrArg UInt32.toNat h
  have hOne : (1 : UInt32).toNat = 1 := rfl
  have hBound := s.toNat_lt
  rw [UInt32.toNat_add, hOne] at hSame
  omega

/-- After the FIN, both segments behind it are ignored: the block stays in
CLOSE_WAIT, expecting the number of the FIN. -/
theorem ClosingExchange.stays {s : UInt32} {fin ack₁ ack₂ : TcpSegmentHeader}
    (h : ctx.ClosingExchange s fin ack₁ ack₂) :
    ∃ ctx' tcb', ctx.segment startsSucceed fin = some ctx' ∧
      ctx'.segment startsSucceed ack₁ = some ctx' ∧ ctx'.segment startsSucceed ack₂ = some ctx' ∧
      ctx'.tcbTable.lookup fin.clientId = some tcb' ∧ tcb'.state = .closeWait ∧
      tcb'.expseq = s := by
  obtain ⟨tcb, hLookup, hEstablished⟩ := h.established
  obtain ⟨ctx', hStep, hNext⟩ := segment_fin hLookup hEstablished h.fin_has
  rw [h.fin_seqno] at hNext
  have hState : TcpState.closeWait ∈ sequencedStates := by decide
  have hOther : TcpState.closeWait ≠ .established := by decide
  refine ⟨ctx', _, hStep, ?_, ?_, hNext, rfl, rfl⟩
  · rw [← h.ack₁_clientId] at hNext
    exact segment_ignored hNext hState hOther (h.ack₁_seqno ▸ seqno_add_one_ne s) _
  · rw [← h.ack₂_clientId] at hNext
    exact segment_ignored hNext hState hOther (h.ack₂_seqno ▸ seqno_add_one_ne s) _

theorem ClosingExchange.not_tearsDown {s : UInt32} {fin ack₁ ack₂ : TcpSegmentHeader}
    (h : ctx.ClosingExchange s fin ack₁ ack₂) : ¬ ctx.TearsDown fin ack₁ ack₂ := by
  rintro ⟨ctx₁, ctx₂, _, hFin, _, hAck, ⟨tcb, hLookup, hState⟩, _⟩
  obtain ⟨ctx', tcb', hStep, hStay, _, hNow, hClosing, _⟩ := h.stays
  cases hFin.symm.trans hStep
  cases hAck.symm.trans hStay
  cases hLookup.symm.trans hNow
  cases hState.symm.trans hClosing

/-- For every context, established block and number `s`: the segments of a peer
that counts its FIN do not tear the connection down. ESTABLISHED keeps the number of
the FIN itself, so the acknowledgment after it is one too high for CLOSE_WAIT. -/
theorem closing_exchange_never_tears_down {s : UInt32} {fin ack₁ ack₂ : TcpSegmentHeader}
    (h : ctx.ClosingExchange s fin ack₁ ack₂) : ¬ ctx.TearsDown fin ack₁ ack₂ :=
  h.not_tearsDown

/-- The sample client is in such an exchange after its handshake. -/
theorem exists_closingExchange :
    ∃ ctx : TcpImpl, ctx.Reached ∧
      ctx.ClosingExchange 101 (sampleSegment 1 101) (sampleSegment 16 102)
        (sampleSegment 16 102) := by
  obtain ⟨ctx, hReached, hLookup⟩ := exists_established
  exact ⟨ctx, hReached, ⟨_, hLookup, rfl⟩, by decide, rfl, by decide, by decide, rfl, rfl, rfl, rfl⟩

theorem closing_exchange_sample :
    ∃ ctx : TcpImpl, ctx.Reached ∧
      ¬ ctx.TearsDown (sampleSegment 1 101) (sampleSegment 16 102) (sampleSegment 16 102) := by
  obtain ⟨ctx, hReached, hExchange⟩ := exists_closingExchange
  exact ⟨ctx, hReached, closing_exchange_never_tears_down hExchange⟩

/-- The peer sends FIN with number 101 and goes on with 102. -/
theorem fin_101_then_102_is_stuck :
    ¬ ∀ (ctx : TcpImpl) (s : UInt32) (fin ack₁ ack₂ : TcpSegmentHeader),
      ctx.ClosingExchange s fin ack₁ ack₂ → ctx.TearsDown fin ack₁ ack₂ := by
  intro hAll
  obtain ⟨ctx, _, hExchange⟩ := exists_closingExchange
  exact hExchange.not_tearsDown (hAll ctx 101 _ _ _ hExchange)

end Nginz.TcpImpl
