import ReactDpdk.Core.StartUp
import ReactDpdk.Tcp.Polling

/-! The whole process: `main.cc`, and `nginz::pm::run` of `core/plugin.cc`. The cores
take their turns in any order. -/
namespace Nginz
open Transition

variable {TxBuffer Ptr : Type} [DecidableEq Ptr]

/-- `g_threads`, `gl_tcpCtxt`, and the packets that all threads share. -/
structure Process (TxBuffer Ptr : Type) where
  threads : Fin maxThreads → PollThread TxBuffer Ptr
  ctxs : Fin maxThreads → TcpImpl
  packets : Ptr → RteMbuf
  pool : Mempool Ptr

/-- The cores that `rte_eal_mp_remote_launch` starts: all but the main one. -/
def launched (dev : EthDevices TxBuffer) (lcore : Nat) : Bool :=
  dev.lcoreIsEnabled lcore && lcore != dev.mainLcore

namespace Process

/-- What a thread sees, by `g_this_threadId`. -/
def world (self : Process TxBuffer Ptr) (t : Fin maxThreads) : ThreadWorld Ptr :=
  { ctx := self.ctxs t, packets := self.packets, pool := self.pool }

/-- A launched core takes a turn in `run`. Without ports it has returned; a core past
the last thread indexes past the array. -/
def turn (dev : EthDevices TxBuffer) (self : Process TxBuffer Ptr) (event : Nat × Turn Ptr) :
    Option (Process TxBuffer Ptr) := do
  guard (launched dev event.1)
  if h : event.1 < maxThreads then
    let t : Fin maxThreads := ⟨event.1, h⟩
    guard (!(self.threads t).portList.empty)
    let poll ← PollThread.txrxBurst (.ofNat event.1) (self.threads t, self.world t) event.2
    some { threads := Function.update self.threads t poll.1
           ctxs := Function.update self.ctxs t poll.2.ctx
           packets := poll.2.packets, pool := poll.2.pool }
  else none

/-- Only one thread has ports. -/
structure Alone (core : Fin maxThreads) (ports : Nat) (process : Process TxBuffer Ptr) : Prop where
  others : ∀ t, t ≠ core → (process.threads t).portList.size = 0
  size : (process.threads core).portList.size = ports
  buffered : AllBuffered (process.threads core).portList.contents

variable {dev : EthDevices TxBuffer} {self next : Process TxBuffer Ptr} {core : Fin maxThreads}
  {ports : Nat} {event : Nat × Turn Ptr}

/-- Then only that thread takes a turn. -/
theorem Alone.turn_eq_some (h : self.Alone core ports) (hTurn : self.turn dev event = some next) :
    event.1 = core ∧ PollThread.txrxBurst (.ofNat core.val) (self.threads core, self.world core)
        event.2 = some (next.threads core, next.world core) ∧
      ∀ t, t ≠ core → next.threads t = self.threads t ∧ next.ctxs t = self.ctxs t := by
  simp only [turn, Option.bind_eq_bind, Option.bind_eq_some_iff, Option.guard_eq_some',
    exists_const] at hTurn
  obtain ⟨_, hTurn⟩ := hTurn
  split at hTurn
  · rename_i hInside
    simp only [Option.bind_eq_some_iff, Option.guard_eq_some', exists_const, Option.some.injEq]
      at hTurn
    obtain ⟨hPorts, poll, hPoll, rfl⟩ := hTurn
    have hHere : ⟨event.1, hInside⟩ = core := by
      by_contra hOther
      have hNone : (self.threads ⟨event.1, hInside⟩).portList.empty = true :=
        beq_iff_eq.mpr (h.others _ hOther)
      rw [hNone] at hPorts
      cases hPorts
    have hLcore : event.1 = core := congrArg Fin.val hHere
    rw [hHere, hLcore] at hPoll
    refine ⟨hLcore, ?_, ?_⟩
    · rw [hPoll, world]
      simp [hHere]
    · intro t hOther
      rw [← hHere] at hOther
      exact ⟨Function.update_of_ne hOther .., Function.update_of_ne hOther ..⟩
  · cases hTurn

theorem Alone.turn (h : self.Alone core ports) (hTurn : self.turn dev event = some next) :
    next.Alone core ports := by
  obtain ⟨_, hPoll, hOthers⟩ := h.turn_eq_some hTurn
  refine ⟨?_, ?_, PollThread.allBuffered_txrxBurst h.buffered hPoll⟩
  · intro t hOther
    rw [(hOthers t hOther).1]
    exact h.others t hOther
  · rw [← h.size]
    exact PollThread.size_txrxBurst h.buffered hPoll

/-- A run of the process is a run of that thread. -/
theorem Alone.run {events : List (Nat × Turn Ptr)} (h : self.Alone core ports)
    (hRun : Transition.run (Process.turn dev) self events = some next) :
    (∀ event ∈ events, event.1 = core) ∧
      Transition.run (PollThread.txrxBurst (.ofNat core.val)) (self.threads core, self.world core)
        (events.map Prod.snd) = some (next.threads core, next.world core) ∧
      ∀ t, t ≠ core → next.threads t = self.threads t ∧ next.ctxs t = self.ctxs t := by
  induction events generalizing self with
  | nil =>
      cases hRun
      exact ⟨nofun, rfl, fun _ _ => ⟨rfl, rfl⟩⟩
  | cons event events ih =>
      obtain ⟨middle, hTurn, hRest⟩ := Option.bind_eq_some_iff.mp hRun
      obtain ⟨hHere, hPoll, hSame⟩ := h.turn_eq_some hTurn
      obtain ⟨hCores, hPolls, hOthers⟩ := ih (h.turn hTurn) hRest
      refine ⟨List.forall_mem_cons.mpr ⟨hHere, hCores⟩, ?_, ?_⟩
      · rw [List.map_cons, Transition.run, hPoll, Option.bind_some, hPolls]
      · intro t hOther
        obtain ⟨hThread, hCtx⟩ := hSame t hOther
        obtain ⟨hThread', hCtx'⟩ := hOthers t hOther
        exact ⟨hThread'.trans hThread, hCtx'.trans hCtx⟩

end Process

/-- For every machine with distinct ports whose enabled cores all have a thread, and for
every end of `init`, there is one core such that every other launched core finds its
list of ports empty and returns from `run`. However the turns that are taken follow
each other, in every run of them that has an outcome: they are turns of this core, the
threads and contexts of all others stay as they were, and its own context goes through
all TCP frames that are received. -/
theorem single_core_polls {dev : EthDevices TxBuffer} {threads next : Threads TxBuffer} {ret : Int}
    (hCores : ∀ lcore, dev.lcoreIsEnabled lcore = true → lcore < maxThreads)
    (hDistinct : dev.available.Nodup) (hEmpty : ∀ t, (threads t).portIds = [])
    (hInit : Pm.init dev threads = some (ret, next)) :
    ∃ core, (∀ lcore, launched dev lcore = true → ∃ t : Fin maxThreads, t.val = lcore ∧
        (t ≠ core → (next t).portList.empty = true)) ∧
      ∀ (start after : Process TxBuffer Ptr) (events : List (Nat × Turn Ptr)),
      (∀ t, (start.threads t).toInternalThread = next t) →
      run (Process.turn dev) start events = some after →
        (∀ event ∈ events, event.1 = core.val) ∧
        (∀ t, t ≠ core → after.threads t = start.threads t ∧ after.ctxs t = start.ctxs t) ∧
        run TcpImpl.rxStep (start.ctxs core)
          (events.flatMap fun event => event.2.events (next core).portList.size) =
            some (after.ctxs core) := by
  obtain ⟨served, core, _, _, hCollected⟩ := collected_of_init hDistinct hEmpty hInit
  have hNoPorts (t : Fin maxThreads) (hOther : t ≠ core) : (next t).portList.size = 0 := by
    rw [← length_portIds, hCollected.others t hOther]
    rfl
  refine ⟨core, fun lcore hLaunched => ?_, fun start after events hThreads hRun => ?_⟩
  · rw [launched, Bool.and_eq_true] at hLaunched
    exact ⟨⟨lcore, hCores lcore hLaunched.1⟩, rfl, fun hOther => beq_iff_eq.mpr (hNoPorts _ hOther)⟩
  have hBuffered := Pm.allBuffered_init hEmpty hInit core
  have hAlone : start.Alone core (next core).portList.size := by
    refine ⟨?_, ?_, ?_⟩
    · intro t hOther
      rw [hThreads t]
      exact hNoPorts t hOther
    · rw [hThreads core]
    · rw [hThreads core]
      exact hBuffered
  obtain ⟨hCores, hPolls, hOthers⟩ := hAlone.run hRun
  refine ⟨hCores, hOthers, ?_⟩
  have hWorld := PollThread.turns_world hAlone.buffered (.ofNat core.val) (events.map Prod.snd)
    (start.world core)
  rw [hPolls, Option.map_some] at hWorld
  have hCtx := Burst.run_ctx (.ofNat core.val) (start.world core)
    ((events.map Prod.snd).flatMap fun turn => turn.bursts (start.threads core).portList.size)
  rw [← hWorld, Option.map_some, List.flatMap_assoc, List.flatMap_map, hAlone.size] at hCtx
  exact hCtx.symm

/-- The process that is started on these threads, with a UDP packet in its pool. -/
def udpProcess (threads : Threads Unit) : Process Unit Unit where
  threads t := { threads t with pktsBurst := .init fun _ => () }
  ctxs _ := .init
  packets := udpWorld.packets
  pool := udpWorld.pool

theorem single_core_polls_udp :
    ∃ (next : Threads Unit) (core : Fin maxThreads) (after : Process Unit Unit),
      run (Process.turn sampleDevices) (udpProcess next) [(1, sampleTurn (udpWorld.packets ()))] =
        some after ∧ core.val = 1 ∧ after.ctxs core = .init := by
  have hAnswer : ((Pm.init sampleDevices idleThreads).bind fun ret =>
      (run (Process.turn sampleDevices) (udpProcess ret.2)
        [(1, sampleTurn (udpWorld.packets ()))]).map fun _ =>
          (ret.1, (ret.2 ⟨1, by decide⟩).portList.size)) = some (0, 3) := by decide
  obtain ⟨⟨ret, next⟩, hInit, hTurn⟩ := Option.bind_eq_some_iff.mp hAnswer
  obtain ⟨after, hRun, hSize⟩ := Option.map_eq_some_iff.mp hTurn
  rw [Prod.mk.injEq] at hSize
  have hCores : ∀ lcore, sampleDevices.lcoreIsEnabled lcore = true → lcore < maxThreads := by
    intro lcore hEnabled
    simp only [sampleDevices, decide_eq_true_eq] at hEnabled
    exact hEnabled.trans (by decide)
  obtain ⟨core, _, hCore⟩ := @single_core_polls Unit Unit _ sampleDevices idleThreads next ret
    hCores (by decide) (fun _ => rfl) hInit
  obtain ⟨hEvents, _, hFrames⟩ := hCore (udpProcess next) after _ (fun _ => rfl) hRun
  have hHere : 1 = core.val := hEvents _ (List.mem_singleton_self _)
  have hOne : core = ⟨1, by decide⟩ := Fin.ext hHere.symm
  refine ⟨next, core, after, hRun, hHere.symm, ?_⟩
  have hNone : (sampleTurn (udpWorld.packets ())).events 3 = [] := by
    have hUdp : isForTcp [udpWorld.packets ()] = false := by decide
    simp [Turn.events, Turn.bursts, Burst.events, Burst.event, sampleTurn, hUdp, List.range_succ]
  rw [hOne, hSize.2] at hFrames
  rw [List.flatMap_singleton, hNone] at hFrames
  rw [hOne]
  exact (Option.some.inj hFrames).symm

end Nginz
