import ReactDpdk.Tcp.CompleteFrames
import ReactDpdk.Tcp.HomeSlots
import ReactDpdk.Tcp.WireRuns

/-! A SYN from each of many ports. Every one takes a slot for good, so 64 of them
leave a service that answers nobody. -/
namespace Nginz
open Transition

/-- The SYN of a client, whose timer starts. -/
def TcpEvent.Greets : TcpEvent → Prop
  | .segment env header =>
      header.has TcpMask.syn = true ∧ env header.clientId tcpConnectionTmr = true
  | .expire _ _ _ => False

/-- A segment may come at any time. -/
theorem TcpEvent.Greets.possible {event : TcpEvent} (h : event.Greets) {ctx : TcpImpl} :
    ctx.Possible event := by
  cases event with
  | segment env header => trivial
  | expire env key tmrId => cases h

namespace RxEvent

/-- A complete frame that brings the SYN of a client to the listening port. -/
structure Greets (listen : TcpControlBlock) (event : RxEvent) : Prop where
  complete : event.Complete
  syn : ∃ own, event.decode listen = some own ∧ own.Greets

/-- The client of an event, by the bytes of its frame. -/
def client : RxEvent → UInt64
  | .frame _ _ segments =>
      makeClientId (TcpFrame.saddr (RteMbuf.chainBytes segments))
        (TcpFrame.sport (RteMbuf.chainBytes segments))
  | .expire _ key _ => key

/-- The source port of a frame. -/
def sport : RxEvent → UInt16
  | .frame _ _ segments => TcpFrame.sport (RteMbuf.chainBytes segments)
  | .expire _ _ _ => 0

theorem client_decode {listen : TcpControlBlock} {event : RxEvent} {own : TcpEvent}
    (h : event.decode listen = some own) : own.client = event.client := by
  cases event with
  | expire env key tmrId =>
      cases h
      rfl
  | frame env junk segments =>
      rw [decode] at h
      split at h
      · cases h
        rfl
      · cases h

/-- Clients that share a home slot agree in six bits of their ports. -/
theorem sport_of_homeSlot {listen : TcpControlBlock} {event other : RxEvent}
    (h : event.Greets listen) (hOther : other.Greets listen)
    (hSlot : TcpImpl.homeSlot event.client = TcpImpl.homeSlot other.client) :
    event.sport.toNat % 64 = other.sport.toNat % 64 := by
  obtain ⟨_, own, hOwn, hGreets⟩ := h
  obtain ⟨_, own', hOwn', hGreets'⟩ := hOther
  cases event with
  | expire env key tmrId =>
      cases hOwn
      cases hGreets
  | frame env junk segments =>
      cases other with
      | expire env' key tmrId =>
          cases hOwn'
          cases hGreets'
      | frame env' junk' segments' => exact (TcpImpl.homeSlot_eq_iff ..).mp hSlot

end RxEvent

namespace TcpImpl
variable {ctx ctx' : TcpImpl} {m : Connections}

/-- A client that greets and finds room has a connection then. -/
theorem next_greets {own : TcpEvent} (hGreets : own.Greets) (hNew : m.lookup own.client = none)
    (hRoom : BoundedMap.size m < maxTcpClient) :
    ∃ tcb, m.next own = BoundedMap.assign m own.client (some tcb) := by
  cases own with
  | expire env key tmrId => cases hGreets
  | segment env header =>
      obtain ⟨hSyn, hStart⟩ := hGreets
      rw [next_of_room _ hRoom, hNew]
      exact ⟨_, by rw [Connection.next, Connection.onSegment, hSyn, TcpEvent.client, hStart]; rfl⟩

/-- While there is room and the home slots differ, every client that greets takes
another slot. -/
theorem greets_fill {listen : TcpControlBlock} {clients : UInt64 → Prop} (hApart : Apart clients)
    {events : List RxEvent} (hGreets : ∀ event ∈ events, event.Greets listen)
    (hClients : ∀ event ∈ events, clients event.client)
    (hDistinct : (events.map RxEvent.client).Nodup) (hTracks : ctx.Tracks m)
    (hOwn : ctx.OwnSlots clients) (hListen : ctx.listen = listen)
    (hNew : ∀ event ∈ events, m.lookup event.client = none)
    (hRoom : BoundedMap.size m + events.length ≤ maxTcpClient) :
    ∃ ctx', run rxStep ctx events = some ctx' ∧
      ctx'.tcbTable.size = BoundedMap.size m + events.length := by
  induction events generalizing ctx m with
  | nil => exact ⟨ctx, rfl, hTracks.models.cnt_eq⟩
  | cons event events ih =>
      have hHere : event ∈ event :: events := List.mem_cons_self ..
      obtain ⟨hComplete, own, hDecode, hSyn⟩ := hGreets event hHere
      have hClient := RxEvent.client_decode hDecode
      have hAllowed : clients own.client := hClient ▸ hClients event hHere
      have hAbsent : m.lookup own.client = none := hClient ▸ hNew event hHere
      rw [List.length_cons] at hRoom
      obtain ⟨ctx₁, hStep⟩ : ∃ ctx₁, ctx.step own = some ctx₁ := by
        rw [← Option.isSome_iff_exists]
        exact ServesApart.defined hApart ⟨⟨m, hTracks⟩, hOwn⟩ hAllowed hSyn.possible
      have hRx : ctx.rxStep event = some ctx₁ := by
        rw [rxStep_complete hComplete, hListen, hDecode]
        exact hStep
      obtain ⟨acked, hEdits⟩ := edits_rxStep hRx
      obtain ⟨tcb, hNext⟩ := next_greets hSyn hAbsent (by omega)
      have hSize : BoundedMap.size (m.next own) = BoundedMap.size m + 1 := by
        rw [hNext]
        exact BoundedMap.size_insert_of_absent tcb hAbsent
      rw [List.map_cons, List.nodup_cons] at hDistinct
      have hStillNew (other : RxEvent) (hMem : other ∈ events) :
          (m.next own).lookup other.client = none := by
        have hOther : other.client ≠ own.client := by
          rw [hClient]
          exact fun hSame => hDistinct.1 (hSame ▸ List.mem_map_of_mem hMem)
        rw [hNext, BoundedMap.lookup_assign, if_neg hOther]
        exact hNew other (List.mem_cons_of_mem _ hMem)
      obtain ⟨ctx', hRun, hEnd⟩ :=
        ih (fun other hMem => hGreets other (List.mem_cons_of_mem _ hMem))
          (fun other hMem => hClients other (List.mem_cons_of_mem _ hMem)) hDistinct.2
          (hTracks.step hStep) (hOwn.step hApart hTracks hAllowed hStep)
          (hEdits.listen_eq.trans hListen) hStillNew (by omega)
      refine ⟨ctx', ?_, ?_⟩
      · rw [run, hRx]
        exact hRun
      · rw [hEnd, hSize, List.length_cons]
        omega

/-- For every list of SYN frames from an empty table, one from each of as many ports
that differ in their last six bits: every client gets a slot, whatever the addresses
are. After 64 of them nothing is ever sent again. -/
theorem syn_flood_locks_out (h : ctx.EmptyTable) {events : List RxEvent}
    (hGreets : ∀ event ∈ events, event.Greets ctx.listen)
    (hPorts : (events.map fun event => event.sport.toNat % 64).Nodup) :
    ∃ ctx', run rxStep ctx events = some ctx' ∧ ctx'.tcbTable.size = events.length ∧
      (events.length = maxTcpClient → ∀ later ctx'', run rxStep ctx' later = some ctx'' →
        ctx''.sent = ctx'.sent) := by
  have hInj : ∀ event ∈ events, ∀ other ∈ events,
      event.sport.toNat % 64 = other.sport.toNat % 64 → event = other :=
    fun event hMem other hOther => List.inj_on_of_nodup_map hPorts hMem hOther
  have hSlots : ∀ event ∈ events, ∀ other ∈ events,
      homeSlot event.client = homeSlot other.client → event = other :=
    fun event hMem other hOther hSlot => hInj event hMem other hOther
      (RxEvent.sport_of_homeSlot (hGreets event hMem) (hGreets other hOther) hSlot)
  have hApart : Apart fun key => ∃ event ∈ events, event.client = key := by
    rintro _ _ ⟨event, hMem, rfl⟩ ⟨other, hOther, rfl⟩ hSlot
    rw [hSlots event hMem other hOther hSlot]
  have hNodup : events.Nodup := hPorts.of_map _
  have hDistinct : (events.map RxEvent.client).Nodup :=
    hNodup.map_on fun event hMem other hOther hSame =>
      hSlots event hMem other hOther (congrArg homeSlot hSame)
  have hRoom : events.length ≤ maxTcpClient := by
    have hCount := (hNodup.map_on fun event hMem other hOther hSame =>
      hSlots event hMem other hOther hSame : (events.map fun event =>
        homeSlot event.client).Nodup).length_le_card
    rwa [List.length_map, Fintype.card_fin] at hCount
  obtain ⟨ctx', hRun, hSize⟩ := greets_fill hApart hGreets (fun event hMem => ⟨event, hMem, rfl⟩)
    hDistinct h.tracks h.servesApart.2 rfl (fun event _ => by simp) (by simpa [BoundedMap.size])
  rw [show BoundedMap.size (∅ : Connections) = 0 from rfl, Nat.zero_add] at hSize
  refine ⟨ctx', hRun, hSize, fun hFull later ctx'' hLater => ?_⟩
  have hReached : ctx'.ReachedByWire := Reachable.run (.start h) hRun
  obtain ⟨r, hRegistry⟩ := hReached.wireTracks
  refine (hRegistry.full ?_ hLater).2
  rw [← hRegistry.registers.size, hSize, hFull]

/-- Two clients with one port each. -/
def sampleGreetings : List RxEvent :=
  [.frame (fun _ _ => true) .zero [.ofBytes (TcpFrame.segment 0x0A000001 7 8000 100 2)],
    .frame (fun _ _ => true) .zero [.ofBytes (TcpFrame.segment 0x0B000001 8 8000 200 2)]]

theorem syn_flood_locks_out_two :
    ∃ ctx, run rxStep init sampleGreetings = some ctx ∧ ctx.tcbTable.size = 2 := by
  have hStart : init.EmptyTable := rfl
  have hGreets : ∀ event ∈ sampleGreetings, event.Greets init.listen := by
    intro event hMem
    simp only [sampleGreetings, List.mem_cons, List.not_mem_nil, or_false] at hMem
    rcases hMem with rfl | rfl
    · exact ⟨⟨_, rfl, by decide, by decide, by decide⟩, _, rfl, by decide, rfl⟩
    · exact ⟨⟨_, rfl, by decide, by decide, by decide⟩, _, rfl, by decide, rfl⟩
  obtain ⟨ctx, hRun, hSize, _⟩ := syn_flood_locks_out hStart hGreets (by decide)
  exact ⟨ctx, hRun, hSize⟩

end TcpImpl
end Nginz
