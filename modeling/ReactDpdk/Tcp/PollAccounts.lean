import ReactDpdk.Tcp.Polling

/-! The accounts of a thread that polls: which packets the pool has, and what is
counted at the ports. -/
namespace Nginz
open Transition

variable {TxBuffer Ptr : Type} [DecidableEq Ptr]

/-- An IPv4 packet that `processRx` has no service for. -/
def isStray (frame : List RteMbuf) : Bool :=
  match ipv4Header frame with
  | none => false
  | some iphdr => ipNextProtoId iphdr != 6

/-- Such a packet is returned once more than others. -/
theorem timesReturned_eq (frame : List RteMbuf) :
    timesReturned frame = 1 + (isStray frame).toNat := by
  rw [timesReturned, isStray]
  cases ipv4Header frame with
  | none => rfl
  | some iphdr =>
      by_cases hTcp : ipNextProtoId iphdr = 6
      · simp [hTcp]
      · simp [hTcp, bne_iff_ne.mpr hTcp]

namespace Burst

def strays (self : Burst Ptr) (packets : List Ptr) : List Ptr :=
  packets.filter fun m => isStray [self.contents m]

/-- No packet is without a service. -/
def Clean (self : Burst Ptr) : Prop := ∀ m ∈ self.packets, isStray [self.contents m] = false

/-- The driver hands out every packet with one reference. The counts that the code
leaves behind are others, so a driver has to reset them. -/
def OneReference (self : Burst Ptr) : Prop := ∀ m ∈ self.packets, self.refcnt m = 1

instance (self : Burst Ptr) : Decidable self.OneReference :=
  inferInstanceAs (Decidable (∀ m ∈ self.packets, _ = _))

variable {self : Burst Ptr} {thisThread : UInt8} {world after : ThreadWorld Ptr}

omit [DecidableEq Ptr] in
theorem strays_cons (self : Burst Ptr) (m : Ptr) (rest : List Ptr) : self.strays (m :: rest) =
    if isStray [self.contents m] then m :: self.strays rest else self.strays rest :=
  List.filter_cons

/-- How often the packets of a burst are returned, from any of them on. -/
theorem returns_run {rest : List Ptr} {it : Nat} (hNodup : rest.Nodup)
    (hContents : ∀ m ∈ rest, world.packets m = self.contents m)
    (hCount : ∀ m ∈ rest, world.pool.refcnt m = 1)
    (hRun : Transition.run (self.processAt thisThread) world (rest.zipIdx it) = some after)
    (p : Ptr) : after.pool.returns p =
      world.pool.returns p + (rest.count p + (self.strays rest).count p) := by
  induction rest generalizing world it with
  | nil =>
      cases hRun
      rfl
  | cons m rest ih =>
      obtain ⟨hNew, hRest⟩ := List.nodup_cons.mp hNodup
      obtain ⟨next, hNext, hRun⟩ := Option.bind_eq_some_iff.mp hRun
      have hSame := packets_processAt hNext
      obtain ⟨pool', hDisposes, hProcess⟩ := processRx_eq (self.env it) (self.junk it) thisThread m
        world
      obtain ⟨ctx', _, rfl⟩ := Option.map_eq_some_iff.mp (hProcess.symm.trans hNext)
      have hKept : ∀ n ∈ rest, pool'.refcnt n = 1 := by
        intro n hMem
        have hOther : n ≠ m := fun hEq => hNew (hEq ▸ hMem)
        rw [(hDisposes.others n hOther).1]
        exact hCount n (List.mem_cons_of_mem _ hMem)
      have hAfter := @ih { world with ctx := ctx', pool := pool' } (it + 1) hRest
        (fun n hMem => hContents n (List.mem_cons_of_mem _ hMem)) hKept hRun
      rw [hAfter]
      by_cases hHere : p = m
      · subst hHere
        have hReturned := hDisposes.returns (hCount p (List.mem_cons_self ..))
        rw [hContents p (List.mem_cons_self ..), timesReturned_eq] at hReturned
        have hNone : (self.strays rest).count p = 0 :=
          List.count_eq_zero.mpr fun hMem => hNew (List.mem_filter.mp hMem).1
        rw [hReturned, List.count_cons_self, List.count_eq_zero.mpr hNew, strays_cons]
        cases isStray [self.contents p] with
        | false => simp [hNone]
        | true => simp [hNone]
      · have hStrays : (self.strays (m :: rest)).count p = (self.strays rest).count p := by
          rw [strays_cons]
          split
          · exact List.count_cons_of_ne (Ne.symm hHere)
          · rfl
        rw [(hDisposes.others p hHere).2, List.count_cons_of_ne (Ne.symm hHere), hStrays]

theorem returns_handle (hNodup : self.packets.Nodup) (hCounts : self.OneReference)
    (h : self.handle thisThread world = some after) (p : Ptr) : after.pool.returns p =
      world.pool.returns p + (self.packets.count p + (self.strays self.packets).count p) := by
  have hContents : ∀ m ∈ self.packets, (self.arrive world).packets m = self.contents m :=
    fun _ hMem => if_pos hMem
  have hArrived : ∀ m ∈ self.packets, (self.arrive world).pool.refcnt m = 1 := by
    intro m hMem
    rw [refcnt_arrive hMem]
    exact hCounts m hMem
  exact returns_run hNodup hContents hArrived h p

/-- A packet that is dropped for its lack of an IPv4 header goes back with one
reference, and is lost with any other count. -/
theorem handle_early {m : Ptr} (hPackets : self.packets = [m])
    (hEarly : ipv4Header [self.contents m] = none)
    (h : self.handle thisThread world = some after) :
    after.pool.returns m = world.pool.returns m + (if self.refcnt m = 1 then 1 else 0) ∧
      after.pool.refcnt m = self.refcnt m - 1 := by
  have hHere : m ∈ self.packets := hPackets ▸ List.mem_singleton_self m
  have hContents : (self.arrive world).packets m = self.contents m := if_pos hHere
  have hArrived : (self.arrive world).pool.refcnt m = self.refcnt m := refcnt_arrive hHere
  have hNone (iphdr : BytePtr) : ¬ IsIpv4 [(self.arrive world).packets m] iphdr := by
    rw [← ipv4Header_eq_some_iff, hContents, hEarly]
    exact nofun
  simp only [handle, hPackets, List.zipIdx_singleton, Transition.run, processAt,
    processRx_early hNone, Option.bind_some, Option.some.injEq] at h
  subst h
  have hReturns : (self.arrive world).pool.returns m = world.pool.returns m := rfl
  by_cases hOne : self.refcnt m = 1
  · have hCount := hArrived.trans hOne
    rw [if_pos hOne, hOne]
    exact ⟨(returns_destroy hCount).trans (by rw [hReturns]),
      refcnt_destroy_owned hCount⟩
  · rw [if_neg hOne, Mempool.destroy_shared (by rwa [hArrived])]
    refine ⟨?_, ?_⟩
    · simp [Mempool.returns, arrive]
    · have hLess (count : UInt16) : count + -1 = count - 1 := by
        rw [UInt16.sub_eq_add_neg]
      rw [Mempool.refcnt_refcntUpdate, Mempool.refcnt_record, hArrived, hLess]

/-- What the counts are for: a driver that hands such a packet out twice and leaves the
count alone gets it back once. -/
theorem lost_without_reset {first second : Burst Ptr} {middle : ThreadWorld Ptr} {m : Ptr}
    (hFirst : first.packets = [m]) (hSecond : second.packets = [m])
    (hEarly : ipv4Header [first.contents m] = none ∧ ipv4Header [second.contents m] = none)
    (hCounts : first.OneReference) (hHandled : first.handle thisThread world = some middle)
    (hKept : second.refcnt m = middle.pool.refcnt m)
    (hAgain : second.handle thisThread middle = some after) :
    after.pool.returns m = world.pool.returns m + 1 := by
  have hOne : first.refcnt m = 1 := hCounts m (hFirst ▸ List.mem_singleton_self m)
  obtain ⟨hOnce, hLeft⟩ := handle_early hFirst hEarly.1 hHandled
  have hZero : second.refcnt m ≠ 1 := by
    rw [hKept, hLeft, hOne]
    decide
  obtain ⟨hNever, _⟩ := handle_early hSecond hEarly.2 hAgain
  rw [hNever, if_neg hZero, Nat.add_zero, hOnce, if_pos hOne]

end Burst

/-- The world of a thread, with how often each packet was handed out. -/
structure Ledger (Ptr : Type) where
  world : ThreadWorld Ptr
  out : Ptr → Nat

namespace Ledger

/-- The burst takes its packets from the pool, which had each of them once before the
first was handed out. -/
def Draws (self : Ledger Ptr) (burst : Burst Ptr) : Prop :=
  ∀ m ∈ burst.packets, self.out m + burst.packets.count m ≤ self.world.pool.returns m + 1

instance (self : Ledger Ptr) (burst : Burst Ptr) : Decidable (self.Draws burst) :=
  inferInstanceAs (Decidable (∀ m ∈ burst.packets, _ ≤ _))

/-- A burst is handled, if the pool had its packets. -/
def step (thisThread : UInt8) (self : Ledger Ptr) (burst : Burst Ptr) : Option (Ledger Ptr) :=
  if self.Draws burst then
    (burst.handle thisThread self.world).map fun world =>
      { world := world, out := fun m => self.out m + burst.packets.count m }
  else none

/-- The pool has every packet, and has it once. -/
def Whole (self : Ledger Ptr) : Prop := ∀ m, self.world.pool.returns m = self.out m

variable {self next : Ledger Ptr} {thisThread : UInt8} {burst : Burst Ptr}

theorem step_eq_some (h : self.step thisThread burst = some next) :
    self.Draws burst ∧ burst.handle thisThread self.world = some next.world ∧
      next.out = fun m => self.out m + burst.packets.count m := by
  rw [step] at h
  split at h
  · rename_i hDraws
    obtain ⟨world, hHandle, rfl⟩ := Option.map_eq_some_iff.mp h
    exact ⟨hDraws, hHandle, rfl⟩
  · cases h

/-- A whole pool hands out no packet twice. -/
theorem Whole.nodup (h : self.Whole) (hDraws : self.Draws burst) : burst.packets.Nodup := by
  rw [List.nodup_iff_count_le_one]
  intro m
  by_cases hMem : m ∈ burst.packets
  · have hOnce := hDraws m hMem
    have hSame := h m
    omega
  · rw [List.count_eq_zero.mpr hMem]
    exact Nat.zero_le 1

/-- A burst of packets with one reference each leaves the pool whole exactly when it
is clean. -/
theorem Whole.step_iff (h : self.Whole) (hCounts : burst.OneReference)
    (hStep : self.step thisThread burst = some next) : burst.Clean ↔ next.Whole := by
  obtain ⟨hDraws, hHandle, hOut⟩ := step_eq_some hStep
  have hReturns := Burst.returns_handle (h.nodup hDraws) hCounts hHandle
  have hSurplus (m : Ptr) : next.world.pool.returns m =
      next.out m + (burst.strays burst.packets).count m := by
    rw [hReturns, hOut, h m]
    exact (Nat.add_assoc ..).symm
  constructor
  · intro hClean m
    have hNone : burst.strays burst.packets = [] :=
      List.filter_eq_nil_iff.mpr fun p hMem => by simp [hClean p hMem]
    rw [hSurplus, hNone]
    rfl
  · intro hWhole m hMem
    have hCount : (burst.strays burst.packets).count m = 0 := by
      have hSame := hWhole m
      have hHere := hSurplus m
      omega
    have hKept := List.count_eq_zero.mp hCount
    rw [Burst.strays, List.mem_filter] at hKept
    exact Bool.eq_false_iff.mpr fun hStray => hKept ⟨hMem, hStray⟩

/-- The ledger watches the world go by. -/
theorem run_world {bursts : List (Burst Ptr)} (h : run (step thisThread) self bursts = some next) :
    run (Burst.handle thisThread) self.world bursts = some next.world := by
  induction bursts generalizing self with
  | nil =>
      cases h
      rfl
  | cons burst bursts ih =>
      obtain ⟨middle, hStep, hRest⟩ := Option.bind_eq_some_iff.mp h
      obtain ⟨_, hHandle, _⟩ := step_eq_some hStep
      rw [run, hHandle]
      exact ih hRest

/-- Over a whole run: the pool stays whole exactly when every burst is clean. -/
theorem whole_iff_clean (h : self.Whole) {bursts : List (Burst Ptr)}
    (hCounts : ∀ burst ∈ bursts, burst.OneReference)
    (hRun : (run (step thisThread) self bursts).isSome) :
    AllStates (step thisThread) Whole self bursts ↔ ∀ burst ∈ bursts, burst.Clean := by
  rw [← allSteps_iff_forall hRun]
  exact allStates_iff_allSteps_of_events Whole
    (fun _ _ _ hWhole hOne hStep => hWhole.step_iff hOne hStep)
    (fun _ _ _ _ _ hWhole => hWhole) h h hCounts hRun

end Ledger

/-- For every machine that `init` set up, every thread and any number of turns in which
the ports draw from the pool, the driver hands out packets with one reference each,
and the TCP service is defined on what it gets: after each burst the pool has every
packet once exactly if no IPv4 packet of another protocol than TCP was received. -/
theorem polled_pool_whole_iff {dev : EthDevices TxBuffer} {threads next : Threads TxBuffer}
    {ret : Int} (hEmpty : ∀ t, (threads t).portIds = [])
    (hInit : Pm.init dev threads = some (ret, next)) (t : Fin maxThreads)
    {thread : PollThread TxBuffer Ptr} (hThread : thread.toInternalThread = next t)
    (tscHz : UInt64) (thisThread : UInt8) {turns : List (Turn Ptr)} {ledger : Ledger Ptr}
    (hWhole : ledger.Whole)
    (hCounts : ∀ turn ∈ turns, ∀ it < (next t).portList.size, (turn.burst it).OneReference)
    (hRun : (run (Ledger.step thisThread) ledger
      (turns.flatMap fun turn => turn.bursts (next t).portList.size)).isSome) :
    (thread.run tscHz thisThread turns ledger.world).isSome ∧
      (AllStates (Ledger.step thisThread) Ledger.Whole ledger
          (turns.flatMap fun turn => turn.bursts (next t).portList.size) ↔
        ∀ turn ∈ turns, ∀ it < (next t).portList.size, (turn.burst it).Clean) := by
  have hBuffered := Pm.allBuffered_init hEmpty hInit t
  obtain ⟨after, hAfter⟩ := Option.isSome_iff_exists.mp hRun
  constructor
  · rw [← hThread] at hBuffered hAfter
    have hWorld := PollThread.run_world hBuffered tscHz thisThread turns ledger.world
    rw [Ledger.run_world hAfter] at hWorld
    rw [← Option.isSome_map, hWorld]
    rfl
  · have hEach : ∀ burst ∈ turns.flatMap fun turn => turn.bursts (next t).portList.size,
        burst.OneReference := by
      intro burst hMem
      obtain ⟨turn, hTurn, hBurst⟩ := List.mem_flatMap.mp hMem
      obtain ⟨it, hLt, rfl⟩ := List.mem_map.mp hBurst
      exact hCounts turn hTurn it (List.mem_range.mp hLt)
    rw [Ledger.whole_iff_clean hWhole hEach hRun]
    simp only [List.mem_flatMap, Turn.bursts, List.mem_map, List.mem_range]
    constructor
    · intro hClean turn hTurn it hLt
      exact hClean _ ⟨turn, hTurn, it, hLt, rfl⟩
    · rintro hClean _ ⟨turn, hTurn, it, hLt, rfl⟩
      exact hClean turn hTurn it hLt

/-- The packet is a UDP packet. -/
def strayTurn : Turn Unit := sampleTurn (udpWorld.packets ())

theorem polled_pool_whole_iff_stray :
    ¬ AllStates (Ledger.step 1) Ledger.Whole { world := udpWorld, out := fun _ => 0 }
      (strayTurn.bursts 3) := by
  have hAnswer : (Pm.init sampleDevices idleThreads).map
      (fun ret => (ret.1, (ret.2 ⟨1, by decide⟩).portList.size)) = some (0, 3) := by decide
  obtain ⟨⟨_, next⟩, hInit, hSize⟩ := Option.map_eq_some_iff.mp hAnswer
  rw [Prod.mk.injEq] at hSize
  let thread : PollThread Unit Unit :=
    { next ⟨1, by decide⟩ with pktsBurst := .init fun _ => () }
  have hThread : thread.toInternalThread = next ⟨1, by decide⟩ := rfl
  have hWhole : Ledger.Whole { world := udpWorld, out := fun _ => 0 } := fun _ => rfl
  have hRun : (run (Ledger.step 1) { world := udpWorld, out := fun _ => 0 }
      ([strayTurn].flatMap fun turn => turn.bursts 3)).isSome = true := by decide
  rw [← hSize.2] at hRun
  have hCounts : ∀ turn ∈ [strayTurn], ∀ it < (next ⟨1, by decide⟩).portList.size,
      (turn.burst it).OneReference := by
    intro turn hTurn it _ m _
    rw [List.mem_singleton.mp hTurn]
    rfl
  obtain ⟨_, hIff⟩ := polled_pool_whole_iff (fun _ => rfl) hInit ⟨1, by decide⟩ hThread 2000000 1
    hWhole hCounts hRun
  rw [hSize.2, List.flatMap_singleton] at hIff
  intro hAll
  have hClean := hIff.mp hAll strayTurn (List.mem_singleton_self _) 0 (by decide)
  have hStray : isStray [udpWorld.packets ()] = true := by decide
  exact Bool.false_ne_true ((hClean () (List.mem_singleton_self _)).symm.trans hStray)

/-- The turns that drain the queues: those long enough after the one before. -/
def drainTurns (drainTsc : UInt64) : UInt64 → List (Turn Ptr) → List (Turn Ptr)
  | _, [] => []
  | prevTsc, turn :: turns =>
      if turn.Drains prevTsc drainTsc then turn :: drainTurns drainTsc turn.curTsc turns
      else drainTurns drainTsc prevTsc turns

/-- What a port has counted after all turns, some of which drained its queue. -/
def PortInfo.counted (self : PortInfo TxBuffer) (it : Nat) (turns drains : List (Turn Ptr)) :
    PortInfo TxBuffer :=
  { self with
    rx := turns.foldl (fun count turn => count + (turn.burst it).nbRx.toUInt64) self.rx
    tx := drains.foldl (fun count turn => count + (turn.flush it).sent.toUInt64) self.tx
    dropped := drains.foldl (fun count turn => count + (turn.flush it).unsent.toUInt64)
      self.dropped }

section Counters
omit [DecidableEq Ptr]

theorem PortInfo.flushed_eq (self : PortInfo TxBuffer) (answer : Flush) :
    self.flushed answer = { self with
      tx := self.tx + answer.sent.toUInt64
      dropped := self.dropped + answer.unsent.toUInt64 } := by
  by_cases hNone : answer.sent = 0
  · have hSame : self.tx + (0 : UInt16).toUInt64 = self.tx := UInt64.add_zero _
    rw [flushed, if_neg (not_not.mpr hNone), hNone, hSame]
  · rw [flushed, if_pos hNone]

/-- The flushes are at least a period apart, so there are not too many of them. -/
theorem drainTurns_rate {drainTsc prevTsc last : UInt64} {turns : List (Turn Ptr)}
    (hClock : (prevTsc :: (turns.map Turn.curTsc ++ [last])).Pairwise (· ≤ ·)) :
    prevTsc.toNat + (drainTurns drainTsc prevTsc turns).length * (drainTsc.toNat + 1) ≤
      last.toNat := by
  induction turns generalizing prevTsc with
  | nil =>
      rw [drainTurns, List.length_nil, Nat.zero_mul]
      exact UInt64.le_iff_toNat_le.mp ((List.pairwise_cons.mp hClock).1 last (by simp))
  | cons turn turns ih =>
      obtain ⟨hFirst, hRest⟩ := List.pairwise_cons.mp hClock
      have hHere : prevTsc ≤ turn.curTsc := hFirst _ (by simp)
      rw [drainTurns]
      split
      · rename_i hDrains
        have hNext := ih hRest
        have hApart := UInt64.lt_iff_toNat_lt.mp hDrains
        rw [UInt64.toNat_sub_of_le _ _ hHere] at hApart
        have hOrder := UInt64.le_iff_toNat_le.mp hHere
        rw [List.length_cons, Nat.succ_mul]
        omega
      · exact ih (hClock.sublist (.cons_cons _ (List.sublist_cons_self ..)))

/-- One turn counts what it received, and what it flushed if it drained. -/
theorem Turn.account_counted (turn : Turn Ptr) (port : PortInfo TxBuffer × Nat)
    (turns : List (Turn Ptr)) (prevTsc drainTsc : UInt64) :
    (turn.account (turn.Drains prevTsc drainTsc) port).counted port.2 turns
        (drainTurns drainTsc
          (if turn.Drains prevTsc drainTsc then turn.curTsc else prevTsc) turns) =
      port.1.counted port.2 (turn :: turns) (drainTurns drainTsc prevTsc (turn :: turns)) := by
  rw [drainTurns, Turn.account]
  split
  · rw [PortInfo.flushed_eq]
    rfl
  · rfl

end Counters

namespace Polled
variable {self after : Polled TxBuffer Ptr} {thisThread : UInt8}

/-- A run counts so at every port. -/
theorem ports_run {turns : List (Turn Ptr)}
    (hRun : run (step thisThread) self turns = some after) (it : Nat) :
    after.ports[it]? = self.ports[it]?.map fun port =>
      port.counted it turns (drainTurns self.drainTsc self.prevTsc turns) := by
  induction turns generalizing self with
  | nil =>
      cases hRun
      exact Option.map_id'.symm
  | cons turn turns ih =>
      obtain ⟨next, hStep, hRest⟩ := Option.bind_eq_some_iff.mp hRun
      obtain ⟨world, _, rfl⟩ := Option.map_eq_some_iff.mp hStep
      rw [ih hRest]
      simp only [List.getElem?_map, List.getElem?_zipIdx, Option.map_map, Nat.zero_add]
      congr 1
      funext port
      exact turn.account_counted (port, it) turns self.prevTsc self.drainTsc

end Polled

/-- So does a thread whose ports have their buffers. -/
theorem PollThread.turns_counted {self : PollThread TxBuffer Ptr} {thisThread : UInt8}
    {turns : List (Turn Ptr)} {world : ThreadWorld Ptr}
    {after : PollThread TxBuffer Ptr × ThreadWorld Ptr} (h : AllBuffered self.portList.contents)
    (hRun : Transition.run (txrxBurst thisThread) (self, world) turns = some after) (it : Nat) :
    after.1.portList.contents[it]? = self.portList.contents[it]?.map fun port =>
      PortInfo.counted port it turns (drainTurns self.drainTsc self.prevTsc turns) := by
  have hPolled := turns_polled h thisThread turns world
  rw [hRun, Option.map_some] at hPolled
  exact Polled.ports_run hPolled.symm it

/-- For every machine that `init` set up, every thread and any number of turns: a port
has counted all that its bursts held, and all that was sent and dropped in the turns
that drained; and there are no more of those than periods went by. -/
theorem polled_counters {dev : EthDevices TxBuffer} {threads next : Threads TxBuffer} {ret : Int}
    (hEmpty : ∀ t, (threads t).portIds = []) (hInit : Pm.init dev threads = some (ret, next))
    (t : Fin maxThreads) {thread : PollThread TxBuffer Ptr}
    (hThread : thread.toInternalThread = next t) {tscHz : UInt64} {thisThread : UInt8}
    {turns : List (Turn Ptr)} {world : ThreadWorld Ptr}
    {after : PollThread TxBuffer Ptr × ThreadWorld Ptr}
    (hRun : thread.run tscHz thisThread turns world = some after) :
    (∀ it, after.1.portList.contents[it]? = (next t).portList.contents[it]?.map fun port =>
        PortInfo.counted port it turns (drainTurns (drainPeriod tscHz) thread.prevTsc turns)) ∧
      ∀ last, (thread.prevTsc :: (turns.map Turn.curTsc ++ [last])).Pairwise (· ≤ ·) →
        (drainTurns (drainPeriod tscHz) thread.prevTsc turns).length *
            ((drainPeriod tscHz).toNat + 1) ≤ last.toNat - thread.prevTsc.toNat := by
  have hBuffered := Pm.allBuffered_init hEmpty hInit t
  refine ⟨fun it => ?_, fun last hClock => Nat.le_sub_of_add_le' (drainTurns_rate hClock)⟩
  rw [← hThread] at hBuffered ⊢
  have hPorts (drainTsc : UInt64) : (thread.setDrainTsc drainTsc).portList = thread.portList := rfl
  have hPrev (drainTsc : UInt64) : (thread.setDrainTsc drainTsc).prevTsc = thread.prevTsc := rfl
  have hTsc (drainTsc : UInt64) : (thread.setDrainTsc drainTsc).drainTsc = drainTsc := rfl
  have hStart := hPorts (drainPeriod tscHz)
  rw [PollThread.run, hStart] at hRun
  rw [← hTsc (drainPeriod tscHz), ← hPrev (drainPeriod tscHz)]
  generalize thread.setDrainTsc (drainPeriod tscHz) = start at hStart hRun ⊢
  split at hRun
  · rename_i hNone
    cases hRun
    have hCnt : thread.portList.cnt = 0 := beq_iff_eq.mp hNone
    have hNothing : thread.portList.contents = [] :=
      List.length_eq_zero_iff.mp ((Arr.length_contents _).trans hCnt)
    rw [hStart, hNothing]
    rfl
  · rw [← hStart] at hBuffered ⊢
    exact PollThread.turns_counted hBuffered hRun it

theorem polled_counters_stray :
    ∃ (thread : PollThread Unit Unit) (after : PollThread Unit Unit × ThreadWorld Unit),
      thread.run 2000000 1 [strayTurn] udpWorld = some after ∧
        after.1.portList.contents[0]?.map (fun port => (port.rx, port.tx, port.dropped)) =
          some (1, 3, 1) := by
  have hAnswer : (Pm.init sampleDevices idleThreads).map (fun ret => (ret.1,
      (ret.2 ⟨1, by decide⟩).portList.size, (ret.2 ⟨1, by decide⟩).portList.contents[0]?.map
        fun port => (port.rx, port.tx, port.dropped))) = some (0, 3, some (0, 0, 0)) := by decide
  obtain ⟨⟨_, next⟩, hInit, hAnswer⟩ := Option.map_eq_some_iff.mp hAnswer
  simp only [Prod.mk.injEq] at hAnswer
  obtain ⟨_, hSize, hPort⟩ := hAnswer
  let thread : PollThread Unit Unit :=
    { next ⟨1, by decide⟩ with pktsBurst := .init fun _ => () }
  have hThread : thread.toInternalThread = next ⟨1, by decide⟩ := rfl
  have hBuffered := Pm.allBuffered_init (fun _ => rfl) hInit ⟨1, by decide⟩
  have hBursts : (run (Burst.handle 1) udpWorld
      ([strayTurn].flatMap fun turn => turn.bursts 3)).isSome = true := by decide
  rw [← hThread] at hBuffered hSize
  have hWorld := PollThread.run_world hBuffered 2000000 1 [strayTurn] udpWorld
  rw [hSize] at hWorld
  rw [← hWorld, Option.isSome_map] at hBursts
  obtain ⟨after, hRun⟩ := Option.isSome_iff_exists.mp hBursts
  obtain ⟨hCounted, _⟩ := polled_counters (fun _ => rfl) hInit ⟨1, by decide⟩ hThread hRun
  refine ⟨thread, after, hRun, ?_⟩
  obtain ⟨port, hFirst, hZero⟩ := Option.map_eq_some_iff.mp hPort
  simp only [Prod.mk.injEq] at hZero
  obtain ⟨hRx, hTx, hDropped⟩ := hZero
  have hDrains : drainTurns (drainPeriod 2000000) thread.prevTsc [strayTurn] = [strayTurn] :=
    if_pos (show strayTurn.Drains 0 (drainPeriod 2000000) by decide)
  rw [hCounted, hFirst, hDrains]
  simp [PortInfo.counted, hRx, hTx, hDropped, strayTurn, sampleTurn, Burst.nbRx]

end Nginz
