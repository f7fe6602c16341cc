import ReactDpdk.General.Transition
import ReactDpdk.Tcp.FrameChecks

/-! The event mask keeps four bits of the flags, and ACK is the fifth. So no
frame ever acknowledges anything, and no connection is ever established. -/
namespace Nginz
open Transition

theorem has_ack_of_lowNibble {header : TcpSegmentHeader} {left : UInt16}
    (h : header.evtmask = (left &&& 0xF).toUInt8) : header.has TcpMask.ack = false := by
  have hSmall : (left &&& 0xF).toNat < 16 := by
    rw [UInt16.toNat_and]
    exact Nat.and_lt_two_pow _ (by decide : (0xF : UInt16).toNat < 2 ^ 4)
  have hAll : ∀ n : Fin 16, (UInt16.ofNat n).toUInt8.toUInt16 &&& TcpMask.ack = 0 := by decide
  have hMask := hAll ⟨(left &&& 0xF).toNat, hSmall⟩
  rw [UInt16.ofNat_toNat] at hMask
  rw [TcpSegmentHeader.has, h, hMask]
  rfl

/-- No frame reaches the state machine with ACK in its event mask. -/
theorem parseFrame_has_ack {junk : RxJunk} {listen : TcpControlBlock} {frame : List RteMbuf}
    {parsed : ParsedFrame} (h : parseFrame junk listen frame = some parsed) :
    parsed.header.has TcpMask.ack = false := by
  obtain ⟨iphdr, _, rfl⟩ := parseFrame_eq_some_iff.mp h
  exact has_ack_of_lowNibble rfl

namespace TcpImpl

/-- The client has no control block. -/
def Unknown (ctx : TcpImpl) (clientId : UInt64) : Prop :=
  ∀ p tcb, ctx.tcbTable.cells p ≠ some (clientId, tcb)

/-- No slot holds an established block of the client. -/
def NotEstablished (ctx : TcpImpl) (clientId : UInt64) : Prop :=
  ∀ p tcb, ctx.tcbTable.cells p = some (clientId, tcb) → tcb.state ≠ .established

variable {ctx ctx' : TcpImpl} {clientId : UInt64}

/-- Edits without an ACK establish nothing. -/
theorem Edits.notEstablished (h : Edits false ctx ctx') (hBefore : ctx.NotEstablished clientId) :
    ctx'.NotEstablished clientId := by
  induction h with
  | refl => exact hBefore
  | send _ _ ih => exact ih
  | setBlock prior hOld hState ih =>
      rename_i middle p old tcb
      intro q block hCell hEstablished
      obtain ⟨entry, hEntry, rfl⟩ := Option.map_eq_some_iff.mp hOld
      simp only [TcpImpl.setBlock, hEntry, Option.map_some, FixedDict.cells_write,
        Function.update_apply] at hCell
      split at hCell
      · cases hCell
        rcases hState hEstablished with hBoth | hAck
        · exact ih p entry.2 hEntry hBoth
        · cases hAck
      · exact ih q block hCell hEstablished
  | eraseClient _ _ ih =>
      intro q block hCell
      exact ih q block (FixedDict.cells_of_cells_erase hCell)
  | emplace _ hEmplace ih =>
      intro q block hCell
      rcases FixedDict.cells_of_cells_emplace hEmplace hCell with hOld | hNew
      · exact ih q block hOld
      · cases hNew
        exact fun hState => by cases hState

/-- A frame, with what uninitialised memory holds while it is handled. -/
structure Delivery where
  junk : RxJunk
  frame : List RteMbuf

/-- A frame is delivered, and every timer start succeeds. -/
def deliver (ctx : TcpImpl) (delivery : Delivery) : Option TcpImpl :=
  ctx.handleTcpRx (fun _ _ => true) delivery.junk delivery.frame

theorem deliver_notEstablished (ctx : TcpImpl) (delivery : Delivery) (ctx' : TcpImpl)
    (hBefore : ctx.NotEstablished clientId) (hStep : ctx.deliver delivery = some ctx') :
    ctx'.NotEstablished clientId := by
  simp only [deliver, handleTcpRx] at hStep
  split at hStep
  · cases hStep
    exact hBefore
  · rename_i parsed hParse
    have hEdits := edits_segment hStep
    rw [parseFrame_has_ack hParse] at hEdits
    exact hEdits.notEstablished hBefore

/-- After the deliveries the client's block is in the table, established, and
expects the number after the initial one. -/
def HandshakeCompletes (ctx : TcpImpl) (clientId : UInt64) (x : UInt32)
    (deliveries : List Delivery) : Prop :=
  ∃ ctx' tcb, run deliver ctx deliveries = some ctx' ∧
    ctx'.tcbTable.lookup clientId = some tcb ∧ tcb.state = .established ∧ tcb.expseq = x + 1

/-- Whatever frames are delivered to a context that does not know the client,
its handshake does not complete. -/
theorem not_handshakeCompletes_of_unknown (h : ctx.Unknown clientId) (x : UInt32)
    (deliveries : List Delivery) : ¬ ctx.HandshakeCompletes clientId x deliveries := by
  rintro ⟨ctx', tcb, hRun, hLookup, hState, _⟩
  have hBefore : ctx.NotEstablished clientId := fun p tcb hCell => absurd hCell (h p tcb)
  have hAfter := run_invariant (fun ctx : TcpImpl => ctx.NotEstablished clientId)
    deliver_notEstablished hBefore hRun
  obtain ⟨p, _, hCell⟩ := find_of_lookup hLookup
  exact hAfter p tcb hCell hState

/-- A packet whose bytes are a well-formed frame of a client to the listening
port, with a flag and a sequence number. -/
structure Carries (frame : List RteMbuf) (saddr : UInt32) (sport : UInt16) (flag : UInt8)
    (seqno : UInt32) : Prop where
  wellFormed : TcpFrame.WellFormed (RteMbuf.chainBytes frame)
  length : ∀ first ∈ frame.head?, first.pktLen.toNat = (RteMbuf.chainBytes frame).length
  source : TcpFrame.saddr (RteMbuf.chainBytes frame) = saddr ∧
    TcpFrame.sport (RteMbuf.chainBytes frame) = sport
  port : TcpFrame.dport (RteMbuf.chainBytes frame) = 8000
  flags : TcpFrame.flags (RteMbuf.chainBytes frame) &&& flag = flag
  number : TcpFrame.seqno (RteMbuf.chainBytes frame) = seqno

/-- For every context in which a client has no control block, its handshake
never completes, whatever the frames of the client and of others are: the mask that
makes the event mask drops the ACK that SYN_SENT waits for. -/
theorem handshake_never_completes (ctx : TcpImpl) (saddr : UInt32) (sport : UInt16)
    (hUnknown : ctx.Unknown (makeClientId saddr sport)) (x : UInt32) (syn ack : Delivery)
    (between : List Delivery) :
    ¬ ctx.HandshakeCompletes (makeClientId saddr sport) x (syn :: between ++ [ack]) :=
  not_handshakeCompletes_of_unknown hUnknown x _

theorem unknown_init (clientId : UInt64) : init.Unknown clientId := by
  intro p tcb hCell
  cases hCell

theorem handshake_never_completes_sample :
    ¬ init.HandshakeCompletes (makeClientId 0x0A000001 7) 100
      (⟨.zero, sampleFrame 2 100⟩ :: [] ++ [⟨.zero, sampleFrame 16 101⟩]) :=
  handshake_never_completes init 0x0A000001 7 (unknown_init _) 100 ⟨.zero, sampleFrame 2 100⟩
    ⟨.zero, sampleFrame 16 101⟩ []

/-- The handshake of client `10.0.0.1:7` with initial number 100. -/
theorem sample_handshake_fails :
    ¬ ∀ (ctx : TcpImpl) (saddr : UInt32) (sport : UInt16) (x : UInt32) (syn ack : Delivery)
      (between : List Delivery), ctx.listen = init.listen →
      ctx.Unknown (makeClientId saddr sport) → ctx.tcbTable.size < maxTcpClient →
      Carries syn.frame saddr sport 2 x → Carries ack.frame saddr sport 16 (x + 1) →
      (∀ other ∈ between, (TcpFrame.saddr (RteMbuf.chainBytes other.frame),
        TcpFrame.sport (RteMbuf.chainBytes other.frame)) ≠ (saddr, sport)) →
      ctx.HandshakeCompletes (makeClientId saddr sport) x (syn :: between ++ [ack]) := by
  intro hAll
  have hSyn : Carries (sampleFrame 2 100) 0x0A000001 7 2 100 :=
    ⟨by decide, by decide, by decide, by decide, by decide, by decide⟩
  have hAck : Carries (sampleFrame 16 101) 0x0A000001 7 16 (100 + 1) :=
    ⟨by decide, by decide, by decide, by decide, by decide, by decide⟩
  exact not_handshakeCompletes_of_unknown (unknown_init _) 100 _
    (hAll init 0x0A000001 7 100 ⟨.zero, sampleFrame 2 100⟩ ⟨.zero, sampleFrame 16 101⟩ [] rfl
      (unknown_init _) (by decide) hSyn hAck (by simp))

end TcpImpl
end Nginz
