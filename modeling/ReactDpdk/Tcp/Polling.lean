import ReactDpdk.Core.PortDistribution
import ReactDpdk.Tcp.PacketDisposal
import ReactDpdk.Tcp.WireRuns

/-! The polling loop of a thread: `internal_thread::txrxBurst` and `internal_thread::run`
of `core/plugin.cc`. What the clock and the ports answer is a parameter, and so is
the number of turns before `g_quit`. Log lines and the prefetch are left out. -/
namespace Nginz
open Transition

def maxPktBurst : Nat := 128

def usPerS : UInt64 := 1000000

def burstTxDrainUs : UInt64 := 100

/-- `BURST_TX_DRAIN_US` in ticks of the clock. -/
def drainPeriod (tscHz : UInt64) : UInt64 := (tscHz + usPerS - 1) / usPerS * burstTxDrainUs

variable {TxBuffer Ptr : Type} [DecidableEq Ptr]

/-- What `rte_eth_rx_burst` hands out: at most as many packets as were asked for. With
them come the bytes and the reference counts that they have by then, and what is met
while they are handled, by their place in the burst. -/
structure Burst (Ptr : Type) where
  packets : List Ptr
  length_le : packets.length ≤ maxPktBurst
  contents : Ptr → RteMbuf
  refcnt : Ptr → UInt16
  env : Nat → TcpTimerEnv
  junk : Nat → RxJunk

/-- What `rte_eth_tx_buffer_flush` answers, and how many packets it hands to the error
callback. -/
structure Flush where
  sent : UInt16
  unsent : UInt16

/-- What one turn of the loop meets: the clock, and the ports by their place in the
list. -/
structure Turn (Ptr : Type) where
  curTsc : UInt64
  flush : Nat → Flush
  burst : Nat → Burst Ptr

/-- A thread with what it needs to poll its ports. -/
structure PollThread (TxBuffer Ptr : Type) extends InternalThread TxBuffer where
  pktsBurst : Arr Ptr maxPktBurst
  prevTsc : UInt64 := 0
  drainTsc : UInt64 := 0

namespace PortInfo

/-- The error callback counts in `dropped`. -/
def flushed (self : PortInfo TxBuffer) (answer : Flush) : PortInfo TxBuffer :=
  let self := { self with dropped := self.dropped + answer.unsent.toUInt64 }
  if answer.sent ≠ 0 then { self with tx := self.tx + answer.sent.toUInt64 } else self

/-- The body of the loop that drains, with its assertion. -/
def drain (self : PortInfo TxBuffer) (answer : Flush) : Option (PortInfo TxBuffer) := do
  guard self.txBuffer.isSome
  some (self.flushed answer)

def received (self : PortInfo TxBuffer) (nbRx : UInt16) : PortInfo TxBuffer :=
  { self with rx := self.rx + nbRx.toUInt64 }

end PortInfo

/-- Every port has a buffer to send from. -/
def AllBuffered (ports : List (PortInfo TxBuffer)) : Prop := ∀ port ∈ ports, port.txBuffer.isSome

namespace Burst

def nbRx (self : Burst Ptr) : UInt16 := UInt16.ofNat self.packets.length

/-- The pointers are stored from `begin()` on, and counted. -/
def fill (self : Burst Ptr) (pktsBurst : Arr Ptr maxPktBurst) : Arr Ptr maxPktBurst where
  data i := self.packets.getD i (pktsBurst.data i)
  cnt := self.packets.length
  cnt_le := self.length_le

/-- A packet that is handed out has its bytes, and the count that the driver left it
with, whatever that is. -/
def arrive (self : Burst Ptr) (world : ThreadWorld Ptr) : ThreadWorld Ptr :=
  { world with
    packets := fun m => if m ∈ self.packets then self.contents m else world.packets m
    pool := { world.pool with
      refcnt := fun m => if m ∈ self.packets then self.refcnt m else world.pool.refcnt m } }

def processAt (self : Burst Ptr) (thisThread : UInt8) (world : ThreadWorld Ptr)
    (packet : Ptr × Nat) : Option (ThreadWorld Ptr) :=
  processRx (threadReactors (self.env packet.2) (self.junk packet.2)) thisThread packet.1 world

/-- The loop over `pkts_burst`. -/
def process (self : Burst Ptr) (thisThread : UInt8) (pktsBurst : Arr Ptr maxPktBurst)
    (world : ThreadWorld Ptr) : Option (ThreadWorld Ptr) :=
  (pktsBurst.forEach (fun it m world =>
    (self.processAt thisThread world (m, it)).map fun world => (m, world)) world).map Prod.snd

end Burst

namespace PollThread

def drain (self : PollThread TxBuffer Ptr) (turn : Turn Ptr) :
    Option (PollThread TxBuffer Ptr) := do
  let (portList, _) ← self.portList.forEach
    (fun it portInfo _ => (portInfo.drain (turn.flush it)).map fun portInfo => (portInfo, ())) ()
  some { self with portList := portList, prevTsc := turn.curTsc }

/-- The body of the loop that receives. -/
def receivePort (thisThread : UInt8) (turn : Turn Ptr) (it : Arr.Iterator)
    (portInfo : PortInfo TxBuffer) (around : Arr Ptr maxPktBurst × ThreadWorld Ptr) :
    Option (PortInfo TxBuffer × Arr Ptr maxPktBurst × ThreadWorld Ptr) := do
  let burst := turn.burst it
  let pktsBurst := burst.fill around.1
  let world ← burst.process thisThread pktsBurst (burst.arrive around.2)
  some (portInfo.received burst.nbRx, pktsBurst, world)

def receive (self : PollThread TxBuffer Ptr) (thisThread : UInt8) (turn : Turn Ptr)
    (world : ThreadWorld Ptr) : Option (PollThread TxBuffer Ptr × ThreadWorld Ptr) := do
  let (portList, pktsBurst, world) ← self.portList.forEach (receivePort thisThread turn)
    (self.pktsBurst, world)
  some ({ self with portList := portList, pktsBurst := pktsBurst }, world)

/-- The queues are drained before anything is received, if the last time is long
enough ago. -/
def txrxBurst (thisThread : UInt8) (poll : PollThread TxBuffer Ptr × ThreadWorld Ptr)
    (turn : Turn Ptr) : Option (PollThread TxBuffer Ptr × ThreadWorld Ptr) := do
  let self ← if poll.1.drainTsc < turn.curTsc - poll.1.prevTsc then poll.1.drain turn
    else some poll.1
  self.receive thisThread turn poll.2

def setDrainTsc (self : PollThread TxBuffer Ptr) (drainTsc : UInt64) : PollThread TxBuffer Ptr :=
  { self with drainTsc := drainTsc }

/-- `run`, for so many turns. -/
def run (self : PollThread TxBuffer Ptr) (tscHz : UInt64) (thisThread : UInt8)
    (turns : List (Turn Ptr)) (world : ThreadWorld Ptr) :
    Option (PollThread TxBuffer Ptr × ThreadWorld Ptr) :=
  let self := self.setDrainTsc (drainPeriod tscHz)
  if self.portList.empty then some (self, world)
  else Transition.run (txrxBurst thisThread) (self, world) turns

end PollThread

namespace Burst

/-- All that is done with a burst. -/
def handle (thisThread : UInt8) (world : ThreadWorld Ptr) (self : Burst Ptr) :
    Option (ThreadWorld Ptr) :=
  Transition.run (self.processAt thisThread) (self.arrive world) self.packets.zipIdx

/-- What a packet is to the TCP service of the thread. -/
def event (self : Burst Ptr) (packet : Ptr × Nat) : Option RxEvent :=
  if isForTcp [self.contents packet.1] then
    some (.frame (self.env packet.2) (self.junk packet.2) [self.contents packet.1])
  else none

/-- The TCP frames in a burst. -/
def events (self : Burst Ptr) : List RxEvent := self.packets.zipIdx.filterMap self.event

omit [DecidableEq Ptr] in
theorem contents_fill (self : Burst Ptr) (pktsBurst : Arr Ptr maxPktBurst) :
    (self.fill pktsBurst).contents = self.packets := by
  apply List.ext_getElem
  · exact Arr.length_contents _
  · intro i hFilled hHere
    simp only [Arr.contents, List.getElem_ofFn]
    exact (List.getElem_eq_getD _).symm

variable {self : Burst Ptr} {thisThread : UInt8} {world : ThreadWorld Ptr}

theorem refcnt_arrive {m : Ptr} (h : m ∈ self.packets) :
    (self.arrive world).pool.refcnt m = self.refcnt m := if_pos h

/-- The loop over the array is one over the packets. -/
theorem process_fill (self : Burst Ptr) (pktsBurst : Arr Ptr maxPktBurst) :
    self.process thisThread (self.fill pktsBurst) (self.arrive world) =
      self.handle thisThread world := by
  have hLoop := (self.fill pktsBurst).forEach_apart
    (fun it m world => (self.processAt thisThread world (m, it)).map fun world => (m, world))
    Prod.fst (self.processAt thisThread) (fun _ _ _ _ => rfl) (self.arrive world)
  rw [contents_fill] at hLoop
  have hWorld := congrArg (Option.map Prod.snd) hLoop
  simp only [Option.map_map] at hWorld
  exact hWorld.trans Option.map_id'

/-- A packet meets the context only if it is for TCP. -/
theorem processAt_ctx (hContents : ∀ m ∈ self.packets, world.packets m = self.contents m)
    {packet : Ptr × Nat} (hMem : packet.1 ∈ self.packets) :
    (self.processAt thisThread world packet).map ThreadWorld.ctx =
      (self.event packet).elim (some world.ctx) world.ctx.rxStep := by
  obtain ⟨pool', _, hProcess⟩ := processRx_eq (self.env packet.2) (self.junk packet.2) thisThread
    packet.1 world
  rw [processAt, hProcess, Option.map_map, hContents _ hMem, receiveCtx, event]
  split
  · exact Option.map_id'
  · rfl

/-- The packets stay what they are while they are handled. -/
theorem packets_processAt {after : ThreadWorld Ptr} {packet : Ptr × Nat}
    (h : self.processAt thisThread world packet = some after) : after.packets = world.packets := by
  obtain ⟨pool', _, hProcess⟩ := processRx_eq (self.env packet.2) (self.junk packet.2) thisThread
    packet.1 world
  rw [processAt, hProcess] at h
  obtain ⟨ctx', _, rfl⟩ := Option.map_eq_some_iff.mp h
  rfl

/-- The context goes through the TCP frames of a burst, in their order. -/
theorem handle_ctx (self : Burst Ptr) (thisThread : UInt8) (world : ThreadWorld Ptr) :
    (self.handle thisThread world).map ThreadWorld.ctx =
      Transition.run TcpImpl.rxStep world.ctx self.events := by
  let contents (other : ThreadWorld Ptr) : Prop :=
    ∀ m ∈ self.packets, other.packets m = self.contents m
  let process (ctx : TcpImpl) (packet : Ptr × Nat) : Option TcpImpl :=
    (self.event packet).elim (some ctx) ctx.rxStep
  have hView : (self.handle thisThread world).map ThreadWorld.ctx =
      Transition.run process (self.arrive world).ctx self.packets.zipIdx := by
    refine run_view ThreadWorld.ctx contents (fun packet => packet.1 ∈ self.packets) ?_ ?_ ?_ ?_
    · intro other packet next hContents hNext m hMem
      rw [packets_processAt hNext]
      exact hContents m hMem
    · exact fun other packet hContents hMem => processAt_ctx hContents hMem
    · exact fun m hMem => if_pos hMem
    · exact fun packet hMem => List.fst_mem_of_mem_zipIdx hMem
  have hAlways : ∀ packet ∈ self.packets.zipIdx, True := fun _ _ => trivial
  rw [hView]
  exact run_eq_filterMap self.event (fun _ => True) (fun _ _ _ _ _ => trivial)
    (fun _ _ _ _ => rfl) trivial hAlways

end Burst

/-- The loop without its arrays and iterators, and without a way to fail of its own. -/
structure Polled (TxBuffer Ptr : Type) where
  ports : List (PortInfo TxBuffer)
  prevTsc : UInt64
  drainTsc : UInt64
  world : ThreadWorld Ptr

namespace Turn

/-- What the first ports of the list hand out. -/
def bursts (self : Turn Ptr) (ports : Nat) : List (Burst Ptr) := (List.range ports).map self.burst

/-- The frames for TCP among that. -/
def events (self : Turn Ptr) (ports : Nat) : List RxEvent :=
  (self.bursts ports).flatMap Burst.events

/-- The turn drains the queues. -/
def Drains (self : Turn Ptr) (prevTsc drainTsc : UInt64) : Prop := drainTsc < self.curTsc - prevTsc

instance (self : Turn Ptr) (prevTsc drainTsc : UInt64) : Decidable (self.Drains prevTsc drainTsc) :=
  inferInstanceAs (Decidable (_ < _))

/-- What is counted at a port. -/
def account (self : Turn Ptr) (drains : Prop) [Decidable drains]
    (port : PortInfo TxBuffer × Nat) : PortInfo TxBuffer :=
  (if drains then port.1.flushed (self.flush port.2) else port.1).received
    (self.burst port.2).nbRx

end Turn

namespace Polled

/-- One turn of the loop, as a whole. -/
def step (thisThread : UInt8) (self : Polled TxBuffer Ptr) (turn : Turn Ptr) :
    Option (Polled TxBuffer Ptr) :=
  let drains := turn.Drains self.prevTsc self.drainTsc
  (Transition.run (Burst.handle thisThread) self.world (turn.bursts self.ports.length)).map
    fun world =>
      { self with
        ports := self.ports.zipIdx.map (turn.account drains)
        prevTsc := if drains then turn.curTsc else self.prevTsc
        world := world }

end Polled

namespace PollThread
variable {self : PollThread TxBuffer Ptr} {thisThread : UInt8} {turn : Turn Ptr}
  {world : ThreadWorld Ptr}

/-- The list behind the array, with what is around it. -/
def polled (poll : PollThread TxBuffer Ptr × ThreadWorld Ptr) : Polled TxBuffer Ptr where
  ports := poll.1.portList.contents
  prevTsc := poll.1.prevTsc
  drainTsc := poll.1.drainTsc
  world := poll.2

omit [DecidableEq Ptr] in
/-- With all buffers there, draining comes to its end. -/
theorem drain_polled (h : AllBuffered self.portList.contents) (turn : Turn Ptr) :
    (self.drain turn).map (fun drained => (drained.toInternalThread.portList.contents,
        drained.pktsBurst, drained.prevTsc, drained.drainTsc)) =
      some (self.portList.contents.zipIdx.map fun port => port.1.flushed (turn.flush port.2),
        self.pktsBurst, turn.curTsc, self.drainTsc) := by
  have hLoop := self.portList.forEach_apart
    (fun it portInfo _ => (portInfo.drain (turn.flush it)).map fun portInfo => (portInfo, ()))
    (fun port => port.1.flushed (turn.flush port.2)) (fun state _ => some state)
    (fun it portInfo hMem _ => by
      have hBuffer : portInfo.txBuffer.isSome := h portInfo hMem
      simp [PortInfo.drain, hBuffer]) ()
  rw [run_total (fun state _ => state)] at hLoop
  simp only [drain]
  obtain ⟨⟨portList, _⟩, hEach, hContents⟩ := Option.map_eq_some_iff.mp hLoop
  rw [hEach]
  simp only [Prod.mk.injEq, and_true] at hContents
  simp [hContents]

/-- The loop that receives, with the bursts in the order of the ports. -/
theorem receive_polled (self : PollThread TxBuffer Ptr) (thisThread : UInt8) (turn : Turn Ptr)
    (world : ThreadWorld Ptr) : (self.receive thisThread turn world).map polled =
      (Transition.run (Burst.handle thisThread) world (turn.bursts self.portList.cnt)).map
        fun world =>
          { ports := self.portList.contents.zipIdx.map fun port =>
              port.1.received (turn.burst port.2).nbRx
            prevTsc := self.prevTsc, drainTsc := self.drainTsc, world := world } := by
  let act (around : Arr Ptr maxPktBurst × ThreadWorld Ptr) (port : PortInfo TxBuffer × Nat) :=
    ((turn.burst port.2).handle thisThread around.2).map fun world =>
      ((turn.burst port.2).fill around.1, world)
  have hLoop := self.portList.forEach_apart (receivePort thisThread turn)
    (fun port => port.1.received (turn.burst port.2).nbRx) act
    (fun it portInfo _ around => by
      simp only [receivePort, Burst.process_fill, act]
      cases (turn.burst it).handle thisThread around.2 <;> rfl)
    (self.pktsBurst, world)
  -- what the array of packets holds has no part in what becomes of the world
  have hWorld : (Transition.run act (self.pktsBurst, world) self.portList.contents.zipIdx).map
      Prod.snd = Transition.run (fun world port => (turn.burst port.2).handle thisThread world)
        world self.portList.contents.zipIdx := by
    refine run_view Prod.snd (fun _ => True) (fun _ => True) (fun _ _ _ _ _ => trivial) ?_ trivial
      fun _ _ => trivial
    intro around port _ _
    rw [Option.map_map]
    exact Option.map_id'
  have hBursts : self.portList.contents.zipIdx.map (fun port => turn.burst port.2) =
      turn.bursts self.portList.cnt := by
    rw [← Arr.length_contents, Turn.bursts, List.range_eq_range', ← List.zipIdx_map_snd,
      List.map_map]
    rfl
  rw [run_map (fun port : PortInfo TxBuffer × Nat => turn.burst port.2), hBursts] at hWorld
  let view (ret : List (PortInfo TxBuffer) × Arr Ptr maxPktBurst × ThreadWorld Ptr) :
      Polled TxBuffer Ptr :=
    { ports := ret.1, prevTsc := self.prevTsc, drainTsc := self.drainTsc, world := ret.2.2 }
  have hPolled := congrArg (Option.map view) hLoop
  rw [Option.map_map, Option.map_map] at hPolled
  rw [← hWorld, Option.map_map]
  refine Eq.trans ?_ hPolled
  rw [receive]
  cases self.portList.forEach (receivePort thisThread turn) (self.pktsBurst, world) <;> rfl

omit [DecidableEq Ptr] in
/-- Draining and then receiving, port by port. -/
theorem account_drained (h : turn.Drains self.prevTsc self.drainTsc) :
    (self.portList.contents.zipIdx.map fun port => port.1.flushed (turn.flush port.2)).zipIdx.map
        (fun port => port.1.received (turn.burst port.2).nbRx) =
      self.portList.contents.zipIdx.map
        (turn.account (turn.Drains self.prevTsc self.drainTsc)) := by
  apply List.ext_getElem
  · simp
  · intro i _ _
    simp [Turn.account, h]

/-- A turn of the loop is a step without the arrays. -/
theorem txrxBurst_polled {poll : PollThread TxBuffer Ptr × ThreadWorld Ptr}
    (h : AllBuffered poll.1.portList.contents) (thisThread : UInt8) (turn : Turn Ptr) :
    (txrxBurst thisThread poll turn).map polled = (polled poll).step thisThread turn := by
  obtain ⟨self, world⟩ := poll
  rw [txrxBurst, Polled.step]
  by_cases hDrains : self.drainTsc < turn.curTsc - self.prevTsc
  · have hStep : turn.Drains (polled (self, world)).prevTsc (polled (self, world)).drainTsc :=
      hDrains
    have hDrain := drain_polled h turn
    obtain ⟨drained, hDrained, hFields⟩ := Option.map_eq_some_iff.mp hDrain
    simp only [Prod.mk.injEq] at hFields
    obtain ⟨hPorts, _, hPrev, hTsc⟩ := hFields
    have hCnt : drained.portList.cnt = self.portList.cnt := by
      rw [← Arr.length_contents, hPorts, List.length_map, List.length_zipIdx, Arr.length_contents]
    simp only [if_pos hDrains, hDrained, Option.bind_eq_bind, Option.bind_some, receive_polled,
      hPorts, hPrev, hTsc, hCnt, if_pos hStep, account_drained hDrains]
    simp only [polled, Arr.length_contents]
    rfl
  · have hStep : ¬ turn.Drains (polled (self, world)).prevTsc (polled (self, world)).drainTsc :=
      hDrains
    have hAccount : turn.account (turn.Drains self.prevTsc self.drainTsc) =
        fun port : PortInfo TxBuffer × Nat => port.1.received (turn.burst port.2).nbRx := by
      funext port
      exact congrArg (PortInfo.received · _) (if_neg hStep)
    simp only [if_neg hDrains, Option.bind_eq_bind, Option.bind_some, receive_polled, if_neg hStep]
    simp only [polled, Arr.length_contents, ← hAccount]
    rfl

omit [DecidableEq Ptr] in
theorem txBuffer_account (turn : Turn Ptr) (drains : Prop) [Decidable drains]
    (port : PortInfo TxBuffer × Nat) : (turn.account drains port).txBuffer = port.1.txBuffer := by
  simp only [Turn.account, PortInfo.received, PortInfo.flushed]
  split <;> [split; skip] <;> rfl

/-- The buffers stay where they are. -/
theorem allBuffered_txrxBurst {poll next : PollThread TxBuffer Ptr × ThreadWorld Ptr}
    (h : AllBuffered poll.1.portList.contents)
    (hStep : txrxBurst thisThread poll turn = some next) :
    AllBuffered next.1.portList.contents := by
  have hPolled := txrxBurst_polled h thisThread turn
  rw [hStep, Option.map_some, Polled.step] at hPolled
  obtain ⟨_, _, hNext⟩ := Option.map_eq_some_iff.mp hPolled.symm
  have hPorts := congrArg Polled.ports hNext
  intro port hMem
  have hMem' : port ∈ (polled next).ports := hMem
  rw [← hPorts] at hMem'
  obtain ⟨⟨before, it⟩, hBefore, rfl⟩ := List.mem_map.mp hMem'
  rw [txBuffer_account]
  exact h before (List.fst_mem_of_mem_zipIdx hBefore)

/-- So a run of the loop is one without the arrays. -/
theorem turns_polled (h : AllBuffered self.portList.contents) (thisThread : UInt8)
    (turns : List (Turn Ptr)) (world : ThreadWorld Ptr) :
    (Transition.run (txrxBurst thisThread) (self, world) turns).map polled =
      Transition.run (Polled.step thisThread) (polled (self, world)) turns :=
  run_view polled (fun poll => AllBuffered poll.1.portList.contents) (fun _ => True)
    (fun _ _ _ hBuffered hStep => allBuffered_txrxBurst hBuffered hStep)
    (fun _ turn hBuffered _ => txrxBurst_polled hBuffered thisThread turn) h fun _ _ => trivial

end PollThread

namespace Polled
variable {self next : Polled TxBuffer Ptr} {thisThread : UInt8} {turn : Turn Ptr}

theorem length_ports_step (h : self.step thisThread turn = some next) :
    next.ports.length = self.ports.length := by
  obtain ⟨_, _, rfl⟩ := Option.map_eq_some_iff.mp h
  simp

/-- To the world, a run of turns is one of bursts. -/
theorem run_world (self : Polled TxBuffer Ptr) (thisThread : UInt8) (turns : List (Turn Ptr)) :
    (Transition.run (step thisThread) self turns).map Polled.world =
      Transition.run (Burst.handle thisThread) self.world
        (turns.flatMap fun turn => turn.bursts self.ports.length) := by
  rw [← run_flatMap]
  refine run_view Polled.world (fun next => next.ports.length = self.ports.length) (fun _ => True)
    ?_ ?_ rfl fun _ _ => trivial
  · exact fun _ _ _ hLength hStep => (length_ports_step hStep).trans hLength
  · intro other turn hLength _
    rw [step, Option.map_map, hLength]
    exact Option.map_id'

end Polled

section Init
variable {dev : EthDevices TxBuffer} {threads next : Threads TxBuffer}

/-- `addPort` stores a buffer with every port. -/
theorem InternalThread.allBuffered_addPort {self after : InternalThread TxBuffer}
    {portId : UInt32} (h : AllBuffered self.portList.contents)
    (hAdd : self.addPort dev portId = some after) : AllBuffered after.portList.contents := by
  simp only [addPort, Option.bind_eq_bind, Option.bind_eq_some_iff, Option.guard_eq_some',
    exists_const, Option.some.injEq] at hAdd
  obtain ⟨pushed, hPush, txBuffer, _, _, _, _, last, hLast, portList, hStore, rfl⟩ := hAdd
  obtain ⟨stored, hStored, hContents⟩ := Arr.setBack_of_room (Arr.room_of_back hLast)
    (Arr.contents_append hPush) { last with txBuffer := some txBuffer }
  rw [hStore, Option.some.injEq] at hStored
  subst hStored
  rw [hContents]
  intro port hMem
  rcases List.mem_append.mp hMem with hBefore | hHere
  · exact h port hBefore
  · rw [List.mem_singleton.mp hHere]
    rfl

theorem allBuffered_portInit {port nbQueues : UInt16} {rx : Fin maxThreads}
    (h : ∀ t, AllBuffered (threads t).portList.contents)
    (hInit : portInit dev threads port nbQueues rx = some next) (t : Fin maxThreads) :
    AllBuffered (next t).portList.contents := by
  obtain ⟨enabled, _, hInit⟩ := Option.bind_eq_some_iff.mp hInit
  cases enabled with
  | false =>
      cases hInit
      exact h t
  | true =>
      simp only [Option.bind_eq_bind, if_true, Option.bind_eq_some_iff, Option.guard_eq_some',
        exists_const] at hInit
      obtain ⟨_, _, _, _, _, thread, hThread, _, hNext⟩ := hInit
      cases hNext
      by_cases hHere : t = rx
      · subst hHere
        rw [Function.update_self]
        exact InternalThread.allBuffered_addPort (h t) hThread
      · rw [Function.update_of_ne hHere]
        exact h t

theorem Pm.allBuffered_assignPorts {ports : List UInt16} {rx : Fin maxThreads} {ret : Int}
    (h : ∀ t, AllBuffered (threads t).portList.contents)
    (hRun : Pm.assignPorts dev ports rx threads = some (ret, next)) (t : Fin maxThreads) :
    AllBuffered (next t).portList.contents := by
  induction ports generalizing rx threads with
  | nil =>
      cases hRun
      exact h t
  | cons port ports ih =>
      obtain ⟨enabled, _, hTurn⟩ := Option.bind_eq_some_iff.mp hRun
      cases enabled with
      | false => exact ih h hTurn
      | true =>
          rw [if_pos rfl] at hTurn
          split at hTurn
          · obtain ⟨found, _, hTurn⟩ := Option.bind_eq_some_iff.mp hTurn
            obtain ⟨middle, hInit, hTurn⟩ := Option.bind_eq_some_iff.mp hTurn
            exact ih (allBuffered_portInit h hInit) hTurn
          · cases hTurn
            exact h t

/-- After `init`, every port that a thread polls has its buffer, whatever `init`
answered. -/
theorem Pm.allBuffered_init {ret : Int} (hEmpty : ∀ t, (threads t).portIds = [])
    (hInit : Pm.init dev threads = some (ret, next)) (t : Fin maxThreads) :
    AllBuffered (next t).portList.contents := by
  simp only [Pm.init, Option.bind_eq_bind, Option.bind_eq_some_iff, Option.guard_eq_some',
    exists_const] at hInit
  refine Pm.allBuffered_assignPorts (fun u => ?_) hInit.2.2.2 t
  have hKept : (threads u).init.1.portList = (threads u).portList := by
    unfold InternalThread.init
    split <;> rfl
  rw [hKept, List.map_eq_nil_iff.mp (hEmpty u)]
  exact fun _ hMem => absurd hMem List.not_mem_nil

end Init

/-- A turn neither adds nor removes a port. -/
theorem PollThread.size_txrxBurst {poll next : PollThread TxBuffer Ptr × ThreadWorld Ptr}
    {thisThread : UInt8} {turn : Turn Ptr} (h : AllBuffered poll.1.portList.contents)
    (hStep : txrxBurst thisThread poll turn = some next) :
    next.1.portList.size = poll.1.portList.size := by
  have hPolled := txrxBurst_polled h thisThread turn
  rw [hStep, Option.map_some] at hPolled
  have hLength := Polled.length_ports_step hPolled.symm
  simp only [polled, Arr.length_contents] at hLength
  exact hLength

/-- A thread whose ports have their buffers: to the world, its turns are the run of all
bursts. -/
theorem PollThread.turns_world {self : PollThread TxBuffer Ptr}
    (h : AllBuffered self.portList.contents) (thisThread : UInt8) (turns : List (Turn Ptr))
    (world : ThreadWorld Ptr) : (Transition.run (txrxBurst thisThread) (self, world) turns).map
        Prod.snd = Transition.run (Burst.handle thisThread) world
      (turns.flatMap fun turn => turn.bursts self.portList.size) := by
  have hPolled := congrArg (Option.map Polled.world) (turns_polled h thisThread turns world)
  rw [Polled.run_world, Option.map_map, polled, Arr.length_contents] at hPolled
  exact hPolled

/-- And so is the polling loop. -/
theorem PollThread.run_world {self : PollThread TxBuffer Ptr}
    (h : AllBuffered self.portList.contents) (tscHz : UInt64) (thisThread : UInt8)
    (turns : List (Turn Ptr)) (world : ThreadWorld Ptr) :
    (self.run tscHz thisThread turns world).map Prod.snd =
      Transition.run (Burst.handle thisThread) world
        (turns.flatMap fun turn => turn.bursts self.portList.size) := by
  have hPorts (drainTsc : UInt64) : (self.setDrainTsc drainTsc).portList = self.portList := rfl
  rw [PollThread.run, hPorts]
  split
  · rename_i hNone
    have hCnt : self.portList.size = 0 := beq_iff_eq.mp hNone
    have hNothing : (turns.flatMap fun turn => turn.bursts self.portList.size) = [] := by
      rw [hCnt]
      exact List.flatMap_eq_nil_iff.mpr fun _ _ => rfl
    rw [hNothing]
    rfl
  · have hStart := hPorts (drainPeriod tscHz)
    generalize self.setDrainTsc (drainPeriod tscHz) = start at hStart ⊢
    rw [← hStart] at h ⊢
    exact turns_world h thisThread turns world

/-- To the context, a run of bursts is one of frames. -/
theorem Burst.run_ctx (thisThread : UInt8) (world : ThreadWorld Ptr) (bursts : List (Burst Ptr)) :
    (Transition.run (Burst.handle thisThread) world bursts).map ThreadWorld.ctx =
      Transition.run TcpImpl.rxStep world.ctx (bursts.flatMap Burst.events) := by
  rw [← run_flatMap]
  exact run_view ThreadWorld.ctx (fun _ => True) (fun _ => True) (fun _ _ _ _ _ => trivial)
    (fun world burst _ _ => burst.handle_ctx thisThread world) trivial fun _ _ => trivial

/-- For every machine that `init` set up, every thread and any number of turns: the
polling loop fails only where the TCP service does, and takes its context through
the TCP frames that the ports handed out, each once, in the order of the turns, the
ports and the bursts. -/
theorem polled_frames_run {dev : EthDevices TxBuffer} {threads next : Threads TxBuffer} {ret : Int}
    (hEmpty : ∀ t, (threads t).portIds = []) (hInit : Pm.init dev threads = some (ret, next))
    (t : Fin maxThreads) {thread : PollThread TxBuffer Ptr}
    (hThread : thread.toInternalThread = next t) (tscHz : UInt64) (thisThread : UInt8)
    (turns : List (Turn Ptr)) (world : ThreadWorld Ptr) :
    (thread.run tscHz thisThread turns world).map (fun poll => poll.2.ctx) =
      run TcpImpl.rxStep world.ctx
        (turns.flatMap fun turn => turn.events (next t).portList.size) := by
  have hBuffered := Pm.allBuffered_init hEmpty hInit t
  rw [← hThread] at hBuffered ⊢
  have hWorld := congrArg (Option.map ThreadWorld.ctx)
    (PollThread.run_world hBuffered tscHz thisThread turns world)
  rw [Burst.run_ctx, Option.map_map, List.flatMap_assoc] at hWorld
  exact hWorld

/-- The first port hands out a packet, the others nothing; every port has four packets
to flush, and drops one of them. -/
def sampleTurn (packet : RteMbuf) : Turn Unit where
  curTsc := 1000
  flush _ := { sent := 3, unsent := 1 }
  burst it :=
    { packets := if it = 0 then [()] else []
      length_le := by split <;> decide
      contents := fun _ => packet
      refcnt := fun _ => 1
      env := fun _ _ _ => true
      junk := fun _ => .zero }

theorem polled_frames_run_three :
    ∃ thread : PollThread Unit Unit, thread.portList.size = 3 ∧
      (thread.run 2000000 1 (List.replicate 2 (sampleTurn (synWorld.packets ()))) synWorld).map
          (fun poll => poll.2.ctx) =
        run TcpImpl.rxStep synWorld.ctx (List.replicate 2
          (.frame (fun _ _ => true) .zero [synWorld.packets ()])) := by
  have hAnswer : (Pm.init sampleDevices idleThreads).map
      (fun ret => (ret.1, (ret.2 ⟨1, by decide⟩).portList.size)) = some (0, 3) := by decide
  obtain ⟨⟨_, next⟩, hInit, hSize⟩ := Option.map_eq_some_iff.mp hAnswer
  rw [Prod.mk.injEq] at hSize
  let thread : PollThread Unit Unit :=
    { next ⟨1, by decide⟩ with pktsBurst := .init fun _ => () }
  have hEvents : (sampleTurn (synWorld.packets ())).events 3 =
      [.frame (fun _ _ => true) .zero [synWorld.packets ()]] := by
    have hTcp : isForTcp [synWorld.packets ()] = true := by decide
    simp [Turn.events, Turn.bursts, Burst.events, Burst.event, sampleTurn, hTcp, List.range_succ]
  refine ⟨thread, hSize.2, ?_⟩
  have hThread : thread.toInternalThread = next ⟨1, by decide⟩ := rfl
  rw [polled_frames_run (fun _ => rfl) hInit ⟨1, by decide⟩ hThread, hSize.2]
  simp [hEvents]

end Nginz
