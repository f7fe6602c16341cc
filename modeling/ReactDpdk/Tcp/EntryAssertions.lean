import ReactDpdk.General.Transition
import ReactDpdk.Tcp.ContextEdits

/-! The assertion at the head of each callback against the block it is handed.
Blocks in the table always meet it. The listen block never does: its
constructor leaves it closed, and nothing ever changes it. -/
namespace Nginz
open Transition

/-- The asserted state of a callback is that of its own index in the table. -/
theorem tcpFsm_asserted {index : TcpState} {callback : TcpFsmCallback}
    (h : tcpFsm index = some callback) :
    callback.asserted = none ∨ callback.asserted = some index := by
  cases index <;> cases h <;> first | exact Or.inr rfl | exact Or.inl rfl

theorem tcpFsmTmr_asserted {index : TcpState} {callback : TcpFsmTmr}
    (h : tcpFsmTmr index = some callback) :
    callback.asserted = none ∨ callback.asserted = some index := by
  cases index <;> cases h <;> first | exact Or.inr rfl | exact Or.inl rfl

namespace TcpImpl

/-- `assert(tcb.state == ...)` on the block behind a reference. -/
def EntryHolds (ctx : TcpImpl) (tcb : TcbRef) (asserted : Option TcpState) : Prop :=
  ∀ block state, ctx.block tcb = some block → asserted = some state → block.state = state

/-- The entry assertion of every callback that the event dispatches holds. -/
def AssertionsHold (ctx : TcpImpl) : RxEvent → Prop
  | .frame _ junk frame =>
      ∀ parsed, parseFrame junk ctx.listen frame = some parsed →
        ∀ tcb index callback, ctx.dispatch parsed.header.clientId = some (tcb, index) →
          tcpFsm index = some callback → ctx.EntryHolds tcb callback.asserted
  | .expire _ key tmrId =>
      ∀ cbPtr, ctx.pendingTimer key tmrId = some cbPtr →
        ∀ tcb index callback, (ctx.clearTimer key tmrId).timerDispatch cbPtr = some (tcb, index) →
          tcpFsmTmr index = some callback →
            (ctx.clearTimer key tmrId).EntryHolds tcb callback.asserted

/-- A frame that passes the checks of `handleTcpRx` belongs to a client that
has a control block. -/
def FromKnownClient (ctx : TcpImpl) : RxEvent → Prop
  | .frame _ junk frame =>
      ∀ parsed, parseFrame junk ctx.listen frame = some parsed →
        ctx.tcbTable.find parsed.header.clientId ≠ none
  | .expire _ _ _ => True

variable {ctx ctx' : TcpImpl} {env : TcpTimerEnv} {header : TcpSegmentHeader}

/-- A block under its own state meets the assertion of that state. -/
theorem entryHolds_slot {p : Fin maxTcpClient} {tcb : TcpControlBlock} {asserted : Option TcpState}
    (hBlock : ctx.block (.slot p) = some tcb)
    (hAsserted : asserted = none ∨ asserted = some tcb.state) :
    ctx.EntryHolds (.slot p) asserted := by
  intro block state hSame hState
  rw [hBlock] at hSame
  cases hSame
  rcases hAsserted with hNone | hSome
  · rw [hNone] at hState
    cases hState
  · exact Option.some.inj (hSome.symm.trans hState)

/-- Timer callbacks always meet their assertion. -/
theorem assertionsHold_expire (ctx : TcpImpl) (env : TcpTimerEnv) (key : UInt64)
    (tmrId : Fin tcpMaxTmr) : ctx.AssertionsHold (.expire env key tmrId) := by
  intro cbPtr _ tcb index callback hDispatch hCallback
  obtain ⟨p, _, hDispatch⟩ := Option.bind_eq_some_iff.mp hDispatch
  obtain ⟨block, hBlock, hDispatch⟩ := Option.bind_eq_some_iff.mp hDispatch
  cases hDispatch
  exact entryHolds_slot hBlock (tcpFsmTmr_asserted hCallback)

/-- With the listen block closed, a frame meets the assertions exactly when it
does not go to the listen block. -/
theorem assertionsHold_frame_iff (hListen : ctx.listen.state = .closed) (junk : RxJunk)
    (frame : List RteMbuf) :
    ctx.AssertionsHold (.frame env junk frame) ↔ ctx.FromKnownClient (.frame env junk frame) := by
  constructor
  · intro hHolds parsed hParsed hFind
    rcases ctx.dispatch_cases parsed.header.clientId with ⟨_, hDispatch⟩ | ⟨p, _, hSome, _⟩
    · have hState :=
        hHolds parsed hParsed .listen .listen _ hDispatch rfl ctx.listen .listen rfl rfl
      rw [hListen] at hState
      cases hState
    · rw [hFind] at hSome
      cases hSome
  · intro hKnown parsed hParsed tcb index callback hDispatch hCallback
    rcases ctx.dispatch_cases parsed.header.clientId with
      ⟨hNone, _⟩ | ⟨p, block, _, _, hBlock, hSlot⟩
    · exact absurd hNone (hKnown parsed hParsed)
    · rw [hSlot] at hDispatch
      cases hDispatch
      exact entryHolds_slot hBlock (tcpFsm_asserted hCallback)

/-- The listen block is never written. -/
theorem listen_closed_step {event : RxEvent} (hListen : ctx.listen.state = .closed)
    (hStep : ctx.rxStep event = some ctx') : ctx'.listen.state = .closed := by
  obtain ⟨acked, hEdits⟩ := edits_rxStep hStep
  rw [hEdits.listen_eq, hListen]

/-- So an event meets the assertions exactly when it is no frame for that block. -/
theorem assertionsHold_event_iff (hListen : ctx.listen.state = .closed) (event : RxEvent) :
    ctx.AssertionsHold event ↔ ctx.FromKnownClient event := by
  cases event with
  | frame env junk frame => exact assertionsHold_frame_iff hListen junk frame
  | expire env key tmrId =>
      exact ⟨fun _ => trivial, fun _ => assertionsHold_expire ctx env key tmrId⟩

/-- From the initial context, every dispatched callback of a run finds its block
in the asserted state exactly when no frame that passes the checks comes from a
client without a control block. With assertions compiled out the run goes on, and
so it is for each event by itself in every context that is reached: blocks of the
table and timer callbacks meet their assertion, the listen block never does. -/
theorem assertionsHold_iff_fromKnownClient (events : List RxEvent) :
    (AllSteps rxStep AssertionsHold init events ↔ AllSteps rxStep FromKnownClient init events) ∧
    ∀ ctx event, run rxStep init events = some ctx →
      (ctx.AssertionsHold event ↔ ctx.FromKnownClient event) := by
  constructor
  · exact allSteps_congr (fun ctx => ctx.listen.state = .closed)
      (fun _ _ _ => listen_closed_step) (fun _ event hListen =>
        assertionsHold_event_iff hListen event) rfl events
  · intro ctx event hRun
    have hListen : ctx.listen.state = .closed :=
      run_invariant (fun ctx => ctx.listen.state = .closed)
        (fun _ _ _ hBefore hStep => listen_closed_step hBefore hStep) rfl hRun
    exact assertionsHold_event_iff hListen event

/-- The first frame of a client is handed to the listen block, which is closed. -/
theorem first_frame_fails_assertion :
    ¬ ∀ events : List RxEvent, AllSteps rxStep AssertionsHold init events := by
  intro hAll
  have hHolds := (hAll [.frame (fun _ _ => true) .zero (sampleFrame 2 100)]).1
  have hSome : (parseFrame .zero init.listen (sampleFrame 2 100)).isSome := by decide
  obtain ⟨parsed, hParsed⟩ := Option.isSome_iff_exists.mp hSome
  have hKnown := (assertionsHold_frame_iff rfl .zero (sampleFrame 2 100)).mp hHolds
  exact hKnown parsed hParsed rfl

end TcpImpl
end Nginz
