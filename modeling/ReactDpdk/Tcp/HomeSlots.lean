import ReactDpdk.Tcp.ContextEdits
import ReactDpdk.Tcp.SendTraces

/-! Where the clients lie in the table. The home slot depends on six bits of the
port only. As long as the home slots differ, every client lies in its own, and no
insertion leaves a pointer past the table. -/
namespace Nginz
open Transition

namespace TcpImpl

/-- The address of the client has no part in it, nor the upper bits of the port. -/
theorem homeSlot_val (ipv4Addr : UInt32) (port : UInt16) :
    (homeSlot (makeClientId ipv4Addr port)).val = port.toNat * 39 % 64 := by
  have hPrime : (39 : UInt64).toNat = 39 := rfl
  have hSlot : (homeSlot (makeClientId ipv4Addr port)).val =
      (makeClientId ipv4Addr port * 39).toNat % 64 := rfl
  rw [hSlot, UInt64.toNat_mul, hPrime, Connection.makeClientId_toNat]
  omega

/-- Two clients belong in one slot exactly when their ports agree in six bits. -/
theorem homeSlot_eq_iff (ipv4Addr ipv4Addr' : UInt32) (port port' : UInt16) :
    homeSlot (makeClientId ipv4Addr port) = homeSlot (makeClientId ipv4Addr' port') ↔
      port.toNat % 64 = port'.toNat % 64 := by
  rw [Fin.ext_iff, homeSlot_val, homeSlot_val]
  omega

/-- Only these clients have blocks, and each has it where it belongs. -/
structure OwnSlots (clients : UInt64 → Prop) (ctx : TcpImpl) : Prop where
  atHome : ∀ p key tcb, ctx.tcbTable.cells p = some (key, tcb) → p = homeSlot key
  only : ∀ p key tcb, ctx.tcbTable.cells p = some (key, tcb) → clients key

/-- The slots that are in use have the keys that they had. -/
def KeysKept (ctx ctx' : TcpImpl) : Prop :=
  ∀ p key tcb, ctx'.tcbTable.cells p = some (key, tcb) →
    ∃ old, ctx.tcbTable.cells p = some (key, old)

variable {ctx ctx' ctx₀ : TcpImpl} {m : Connections} {env : TcpTimerEnv}
  {header : TcpSegmentHeader} {p : Fin maxTcpClient} {tcb : TcpControlBlock}

theorem KeysKept.refl (ctx : TcpImpl) : KeysKept ctx ctx := fun _ _ tcb hCell => ⟨tcb, hCell⟩

theorem KeysKept.send (h : KeysKept ctx₀ ctx) (call : TcpSend) : KeysKept ctx₀ (ctx.send call) := h

theorem KeysKept.setBlock (h : KeysKept ctx₀ ctx) (ref : TcbRef) (block : TcpControlBlock) :
    KeysKept ctx₀ (ctx.setBlock ref block) := by
  cases ref with
  | listen => exact h
  | slot p =>
      intro q other stored hCell
      rw [TcpImpl.setBlock, FixedDict.cells_write, Function.update_apply] at hCell
      split at hCell
      · rename_i hHere
        obtain ⟨⟨_, old⟩, hOld, hEntry⟩ := Option.map_eq_some_iff.mp hCell
        cases hEntry
        exact h q _ old (hHere ▸ hOld)
      · exact h q other stored hCell

theorem KeysKept.eraseClient (h : KeysKept ctx₀ ctx) (key : UInt64) :
    KeysKept ctx₀ (ctx.eraseClient key) :=
  fun p other tcb hCell => h p other tcb (FixedDict.cells_of_cells_erase hCell)

theorem KeysKept.ownSlots (h : KeysKept ctx ctx') {clients : UInt64 → Prop}
    (hOwn : ctx.OwnSlots clients) : ctx'.OwnSlots clients where
  atHome := by
    intro p key tcb hCell
    obtain ⟨old, hOld⟩ := h p key tcb hCell
    exact hOwn.atHome p key old hOld
  only := by
    intro p key tcb hCell
    obtain ⟨old, hOld⟩ := h p key tcb hCell
    exact hOwn.only p key old hOld

theorem keysKept_acceptConnection {key : UInt64}
    (hBody : acceptConnection env ctx p key header = some ctx') : KeysKept ctx ctx' := by
  obtain ⟨connCb, _, hRest⟩ := Option.bind_eq_some_iff.mp hBody
  have hSent := (KeysKept.refl ctx).send
    (.synAck connCb.clientId header)
  dsimp only at hRest
  split at hRest <;> cases hRest
  · exact hSent.setBlock _ _
  · exact (hSent.setBlock _ _).eraseClient key

/-- The callback of a connection only writes to its slot and erases. -/
theorem keysKept_callback (hState : tcb.state.IsConnection) {callback : TcpFsmCallback}
    (hCallback : tcpFsm tcb.state = some callback) {ref : TcbRef}
    (hBody : callback.body env ctx ref header = some ctx') : KeysKept ctx ctx' := by
  have hSame := KeysKept.refl ctx
  cases hCase : tcb.state with
  | synSent =>
      cases (hCase ▸ hCallback : tcpFsm .synSent = some callback)
      obtain ⟨block, _, hRest⟩ := Option.bind_eq_some_iff.mp hBody
      split at hRest <;> cases hRest
      · exact (hSame.send _).setBlock _ _
      · exact hSame
  | established =>
      cases (hCase ▸ hCallback : tcpFsm .established = some callback)
      obtain ⟨block, _, hRest⟩ := Option.bind_eq_some_iff.mp hBody
      dsimp only at hRest
      split at hRest
      · split at hRest <;> cases hRest
        · exact (hSame.send _).setBlock _ _
        · exact (hSame.send _).setBlock _ _
      · cases hRest
        exact hSame
  | closeWait =>
      cases (hCase ▸ hCallback : tcpFsm .closeWait = some callback)
      obtain ⟨block, _, hRest⟩ := Option.bind_eq_some_iff.mp hBody
      dsimp only at hRest
      split at hRest
      · split at hRest <;> cases hRest
        · exact (hSame.send _).setBlock _ _
        · exact ((hSame.send _).setBlock _ _).eraseClient _
      · cases hRest
        exact hSame
  | lastAck =>
      cases (hCase ▸ hCallback : tcpFsm .lastAck = some callback)
      obtain ⟨block, _, hRest⟩ := Option.bind_eq_some_iff.mp hBody
      split at hRest <;> cases hRest
      · exact hSame.eraseClient _
      · exact hSame
  | _ => simp [hCase, TcpState.IsConnection] at hState

/-- So does a timer callback. -/
theorem keysKept_timer {callback : TcpFsmTmr} (hCallback : tcpFsmTmr tcb.state = some callback)
    {ref : TcbRef} {evtId : UInt8} (hBody : callback.body env ctx ref evtId = some ctx') :
    KeysKept ctx ctx' := by
  have hSame := KeysKept.refl ctx
  cases hCase : tcb.state with
  | closeWait =>
      cases (hCase ▸ hCallback : tcpFsmTmr .closeWait = some callback)
      obtain ⟨block, _, hRest⟩ := Option.bind_eq_some_iff.mp hBody
      dsimp only at hRest
      split at hRest <;> cases hRest
      · exact (hSame.send _).setBlock _ _
      · exact hSame
  | lastAck =>
      cases (hCase ▸ hCallback : tcpFsmTmr .lastAck = some callback)
      obtain ⟨block, _, hRest⟩ := Option.bind_eq_some_iff.mp hBody
      split at hRest <;> cases hRest
      · exact hSame.eraseClient _
      · exact hSame
  | max => cases (hCase ▸ hCallback : tcpFsmTmr .max = some callback)
  | _ =>
      rw [hCase] at hCallback
      cases hCallback
      cases hBody
      exact hSame

theorem Tracks.keysKept_expire {key : UInt64} {tmrId : Fin tcpMaxTmr} (h : ctx.Tracks m)
    (hStep : ctx.expire env key tmrId = some ctx') : KeysKept ctx ctx' := by
  obtain ⟨cbPtr, hPending, hFire⟩ := Option.bind_eq_some_iff.mp hStep
  obtain ⟨p, tcb, _, _, _, _, hFind, hCell⟩ := h.fired hPending
  have hClear : KeysKept ctx (ctx.clearTimer key tmrId) := by
    unfold clearTimer
    split
    · exact .refl ctx
    · split
      · exact .refl ctx
      · exact (KeysKept.refl ctx).setBlock _ _
  simp only [onTcpCbTimerExpire, hFind] at hFire
  simp only [processTimer, block_slot hCell, Option.bind_eq_bind, Option.bind_some,
    Option.bind_eq_some_iff] at hFire
  obtain ⟨callback, hCallback, hBody⟩ := hFire
  intro q other stored hThere
  obtain ⟨old, hOld⟩ := keysKept_timer hCallback hBody q other stored hThere
  exact hClear q other old hOld

/-- No two of the clients belong in one slot. -/
def Apart (clients : UInt64 → Prop) : Prop :=
  ∀ key other, clients key → clients other → homeSlot key = homeSlot other → key = other

section Clients
variable {clients : UInt64 → Prop} (hApart : Apart clients)
include hApart

/-- The first free slot of a new client is its own. -/
theorem OwnSlots.firstFree (h : ctx.OwnSlots clients) {key : UInt64} (hClient : clients key)
    (hAbsent : ∀ p tcb, ctx.tcbTable.cells p ≠ some (key, tcb)) {i : Nat}
    (hFirst : ctx.tcbTable.FirstFree key i) : i = 0 := by
  by_contra hLater
  have hUsed := hFirst.used 0 (Nat.pos_of_ne_zero hLater)
  rw [Cyclic.advance_zero] at hUsed
  obtain ⟨⟨other, tcb⟩, hCell⟩ := Option.ne_none_iff_exists'.mp hUsed
  have hHome := h.atHome _ other tcb hCell
  have hSame := hApart other key (h.only _ other tcb hCell) hClient hHome.symm
  exact hAbsent _ tcb (hSame ▸ hCell)

/-- So a segment is never undefined. -/
theorem OwnSlots.segment_defined (h : ctx.OwnSlots clients) (hTracks : ctx.Tracks m)
    (hClient : clients header.clientId) (env : TcpTimerEnv) :
    ∃ ctx', ctx.segment env header = some ctx' := by
  rw [segment_defined_iff]
  rintro ⟨_, _, hNone, i, hFirst, hPast⟩
  have hAbsent := (hTracks.models.valid.find_eq_none_iff header.clientId).mp hNone
  obtain rfl := h.firstFree hApart hClient hAbsent hFirst
  have hInside := (FixedDict.calcPos maxTcpClient 39 header.clientId).isLt
  omega

omit hApart in
/-- A new client gets its own slot. -/
theorem OwnSlots.storedAt (h : ctx.OwnSlots clients) {key : UInt64} (hClient : clients key) :
    (ctx.storedAt key 0).OwnSlots clients := by
  constructor
  case atHome =>
    intro p other tcb hCell
    rw [cells_storedAt, Cyclic.advance_zero, Function.update_apply] at hCell
    split at hCell
    · rename_i hHere
      cases hCell
      exact hHere
    · exact h.atHome p other tcb hCell
  case only =>
    intro p other tcb hCell
    rw [cells_storedAt, Function.update_apply] at hCell
    split at hCell
    · cases hCell
      exact hClient
    · exact h.only p other tcb hCell

theorem OwnSlots.segment (h : ctx.OwnSlots clients) (hTracks : ctx.Tracks m)
    (hClient : clients header.clientId) (hStep : ctx.segment env header = some ctx') :
    ctx'.OwnSlots clients := by
  cases hLookup : m.lookup header.clientId with
  | some tcb =>
      obtain ⟨p, hCell, hDispatch⟩ := hTracks.dispatch_some hLookup
      have hState := (hTracks.good _ _ hLookup).state
      have hMax : tcb.state ≠ .max := fun hMax => (hMax ▸ hState : TcpState.max.IsConnection)
      simp only [TcpImpl.segment, hDispatch, Option.bind_eq_bind, Option.bind_some, if_neg hMax,
        Option.bind_eq_some_iff] at hStep
      obtain ⟨callback, hCallback, hBody⟩ := hStep
      exact (keysKept_callback hState hCallback hBody).ownSlots h
  | none =>
      simp only [TcpImpl.segment, hTracks.dispatch_none hLookup, Option.bind_eq_bind,
        Option.bind_some, reduceCtorEq, if_false, tcpFsm] at hStep
      cases hSyn : header.has TcpMask.syn with
      | false =>
          simp only [makeTcpFsmCallbackListen, hSyn, Bool.false_eq_true, if_false,
            Option.some.injEq] at hStep
          exact hStep ▸ h
      | true =>
          have hAbsent := (hTracks.models.represents.absent_iff header.clientId).mp hLookup
          rcases listen_cases hTracks.models hLookup hSyn hStep with
            ⟨_, i, hFirst, hAccept⟩ | ⟨_, hSame⟩
          · obtain rfl := h.firstFree hApart hClient hAbsent hFirst
            exact (keysKept_acceptConnection hAccept).ownSlots (h.storedAt hClient)
          · exact hSame ▸ h

theorem OwnSlots.step (h : ctx.OwnSlots clients) (hTracks : ctx.Tracks m) {event : TcpEvent}
    (hClient : clients event.client) (hStep : ctx.step event = some ctx') :
    ctx'.OwnSlots clients := by
  cases event with
  | segment env header => exact h.segment hApart hTracks hClient hStep
  | expire env key tmrId => exact (hTracks.keysKept_expire hStep).ownSlots h

end Clients

/-- A segment may come at any time, a timer only fires while it is pending. -/
def Possible (ctx : TcpImpl) : TcpEvent → Prop
  | .segment _ _ => True
  | .expire _ key tmrId => ctx.pendingTimer key tmrId ≠ none

variable {clients : UInt64 → Prop}

/-- The invariant of a run with these clients. -/
def ServesApart (clients : UInt64 → Prop) (ctx : TcpImpl) : Prop :=
  (∃ m, ctx.Tracks m) ∧ ctx.OwnSlots clients

theorem EmptyTable.servesApart (h : ctx.EmptyTable) : ctx.ServesApart clients := by
  have hCell (p : Fin maxTcpClient) : ctx.tcbTable.cells p = none := by
    rw [show ctx.tcbTable = .empty from h]
    rfl
  refine ⟨⟨∅, h.tracks⟩, fun p key tcb hThere => ?_, fun p key tcb hThere => ?_⟩
  · cases (hCell p).symm.trans hThere
  · cases (hCell p).symm.trans hThere

theorem ServesApart.step (hApart : Apart clients) (h : ctx.ServesApart clients) {event : TcpEvent}
    (hClient : clients event.client) (hStep : ctx.step event = some ctx') :
    ctx'.ServesApart clients := by
  obtain ⟨⟨m, hTracks⟩, hOwn⟩ := h
  exact ⟨⟨_, hTracks.step hStep⟩, hOwn.step hApart hTracks hClient hStep⟩

theorem ServesApart.defined (hApart : Apart clients) (h : ctx.ServesApart clients)
    {event : TcpEvent} (hClient : clients event.client) (hPossible : ctx.Possible event) :
    (ctx.step event).isSome := by
  obtain ⟨⟨m, hTracks⟩, hOwn⟩ := h
  rw [Option.isSome_iff_exists]
  cases event with
  | segment env header => exact hOwn.segment_defined hApart hTracks hClient env
  | expire env key tmrId =>
      obtain ⟨cbPtr, hPending⟩ := Option.ne_none_iff_exists'.mp hPossible
      exact hTracks.expire_defined env hPending

/-- For every set of clients that belong in different slots and every run of their
events from an empty table: each event that can occur is handled, so no insertion
leaves a pointer past the table, and every block lies where its client belongs. -/
theorem home_slots_suffice (hApart : Apart clients) (h : ctx.EmptyTable) {events : List TcpEvent}
    (hClients : ∀ event ∈ events, clients event.client) :
    AllSteps TcpImpl.step (fun ctx event => ctx.Possible event → (ctx.step event).isSome)
        ctx events ∧
      AllStates TcpImpl.step (OwnSlots clients) ctx events := by
  have hStep (s : TcpImpl) (event : TcpEvent) (t : TcpImpl) (hServes : s.ServesApart clients)
      (hClient : clients event.client) (hNext : s.step event = some t) : t.ServesApart clients :=
    hServes.step hApart hClient hNext
  constructor
  · exact allSteps_of_events (ServesApart clients) hStep
      (fun _ _ hServes hClient hPossible => hServes.defined hApart hClient hPossible)
      h.servesApart hClients
  · have hEvents : AllSteps TcpImpl.step (fun _ event => clients event.client) ctx events :=
      allSteps_of_events (ServesApart clients) hStep (fun _ _ _ hClient => hClient)
        h.servesApart hClients
    exact (hEvents.allStates hStep h.servesApart).mono fun _ hServes => hServes.2

/-- Clients on two ports that follow one another. -/
theorem home_slots_suffice_two :
    AllSteps TcpImpl.step (fun ctx event => ctx.Possible event → (ctx.step event).isSome) init
      [.segment (fun _ _ => true) (sampleSegment 2 100),
        .segment (fun _ _ => true) { sampleSegment 2 200 with sport := 8 }] := by
  have hStart : init.EmptyTable := rfl
  have hApart :
      Apart fun key => key = makeClientId 0x0A000001 7 ∨ key = makeClientId 0x0A000001 8 := by
    rintro key other (rfl | rfl) (rfl | rfl) hSlot
    · rfl
    · exact absurd hSlot (by decide)
    · exact absurd hSlot (by decide)
    · rfl
  refine (home_slots_suffice hApart hStart ?_).1
  intro event hMem
  simp only [List.mem_cons, List.not_mem_nil, or_false] at hMem
  rcases hMem with rfl | rfl
  · exact Or.inl rfl
  · exact Or.inr rfl

end TcpImpl
end Nginz
