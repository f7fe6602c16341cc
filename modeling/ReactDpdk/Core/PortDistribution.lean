import ReactDpdk.Core.Arr
import ReactDpdk.Core.RemotePost

/-! The port set-up of `core/plugin.cc`: `internal_thread::addPort`, `port_init` and
`nginz::pm::init`, up to which thread polls which port. What DPDK answers is a
parameter. `none` as a result is an assertion that failed, a panic or an exit. -/
namespace Nginz

def maxRxQueuePerLcore : Nat := 16

def portConfigMask : UInt32 := 1111111

/-- `PORT_CONFIG_MASK & (1 << portid)`, as a condition. A shift by the width of an
`int` or more is undefined. -/
def portEnabled (portid : UInt16) : Option Bool :=
  if portid < 32 then some (portConfigMask &&& ((1 : UInt32) <<< portid.toUInt32) != 0)
  else none

/-- The devices and cores of the machine, and the answers of the calls that set a
device up. -/
structure EthDevices (TxBuffer : Type) where
  lcoreIsEnabled : Nat → Bool
  mainLcore : Nat
  maxLcore : Nat
  available : List UInt16
  mbufPoolCreated : Bool
  isValidPort : UInt16 → Bool
  devInfoGet : UInt16 → Int
  devConfigure : UInt16 → UInt16 → Int
  adjustNbRxTxDesc : UInt16 → Int
  rxQueueSetup : UInt16 → Nat → Int
  txQueueSetup : UInt16 → Int
  zmallocTxBuffer : UInt32 → Option TxBuffer
  txBufferSetErrCallback : UInt32 → Int
  devStart : UInt16 → Int

structure PortInfo (TxBuffer : Type) where
  portId : UInt32 := 0
  tx : UInt64 := 0
  rx : UInt64 := 0
  dropped : UInt64 := 0
  txBuffer : Option TxBuffer := none

/-- A thread, without its queues and reactors. -/
structure InternalThread (TxBuffer : Type) where
  portList : Arr (PortInfo TxBuffer) maxRxQueuePerLcore
  enabled : Bool

/-- `g_threads`. -/
abbrev Threads (TxBuffer : Type) := Fin maxThreads → InternalThread TxBuffer

variable {TxBuffer : Type}

namespace InternalThread

def init (self : InternalThread TxBuffer) : InternalThread TxBuffer × Int :=
  if self.enabled then (self, 0) else ({ self with enabled := true }, 0)

/-- `back` is called right after `push_back`, once for the address of `dropped` and
once to store the buffer. -/
def addPort (self : InternalThread TxBuffer) (dev : EthDevices TxBuffer) (portId : UInt32) :
    Option (InternalThread TxBuffer) := do
  let pushed ← self.portList.pushBack { portId := portId }
  let txBuffer ← dev.zmallocTxBuffer portId
  let _ ← pushed.back 0
  guard (0 ≤ dev.txBufferSetErrCallback portId)
  let last ← pushed.back 0
  let portList ← pushed.setBack 0 { last with txBuffer := some txBuffer }
  some { self with portList := portList }

/-- The ports in the list of a thread. -/
def portIds (self : InternalThread TxBuffer) : List UInt32 :=
  self.portList.contents.map PortInfo.portId

end InternalThread

/-- Disabled ports are skipped here once more. -/
def portInit (dev : EthDevices TxBuffer) (threads : Threads TxBuffer) (portid nbQueues : UInt16)
    (lcoreId : Fin maxThreads) : Option (Threads TxBuffer) := do
  if ← portEnabled portid then
    guard (0 ≤ dev.devInfoGet portid)
    guard (0 ≤ dev.devConfigure portid nbQueues)
    guard (0 ≤ dev.adjustNbRxTxDesc portid)
    guard (∀ i < nbQueues.toNat, 0 ≤ dev.rxQueueSetup portid i)
    guard (0 ≤ dev.txQueueSetup portid)
    let thread ← (threads lcoreId).addPort dev portid.toUInt32
    guard (0 ≤ dev.devStart portid)
    some (Function.update threads lcoreId thread)
  else some threads

namespace Pm

/-- The cores that the search for the core of a port passes over. -/
def skips (dev : EthDevices TxBuffer) (threads : Threads TxBuffer) (rx : Fin maxThreads) : Bool :=
  !dev.lcoreIsEnabled rx || rx == dev.mainLcore ||
    (threads rx).portList.size == maxRxQueuePerLcore

/-- The search from `rx` on, with `left` threads left from there. Behind the last
one, `assert(rx_lcore_id < MAX_THREADS)` fails. -/
def nextLcore (dev : EthDevices TxBuffer) (threads : Threads TxBuffer) :
    Nat → Fin maxThreads → Option (Fin maxThreads)
  | 0, _ => none
  | left + 1, rx =>
      if skips dev threads rx then
        if h : rx + 1 < maxThreads then
          if dev.maxLcore ≤ rx + 1 then none else nextLcore dev threads left ⟨rx + 1, h⟩
        else none
      else some rx

/-- The loop over the available ports, with the threads and the answer of `init`. -/
def assignPorts (dev : EthDevices TxBuffer) :
    List UInt16 → Fin maxThreads → Threads TxBuffer → Option (Int × Threads TxBuffer)
  | [], _, threads => some (0, threads)
  | port :: ports, rx, threads => do
      if ← portEnabled port then
        if dev.isValidPort port then
          let rx ← nextLcore dev threads (maxThreads - rx) rx
          let threads ← portInit dev threads port 1 rx
          assignPorts dev ports rx threads
        else some (-1, threads)
      else assignPorts dev ports rx threads

/-- `rx_lcore_id` before the loop. -/
def firstLcore : Fin maxThreads := ⟨0, by decide⟩

def init (dev : EthDevices TxBuffer) (threads : Threads TxBuffer) :
    Option (Int × Threads TxBuffer) := do
  guard (∀ i, (threads i).init.2 = 0)
  guard (dev.available ≠ [])
  guard dev.mbufPoolCreated
  assignPorts dev dev.available firstLcore fun i => (threads i).init.1

end Pm

/-- The bit of the port in `PORT_CONFIG_MASK` is set. -/
def Configured (port : UInt16) : Prop := portConfigMask.toNat.testBit port.toNat = true

/-- Every configured port is in the list of one thread, once, and no other is in any;
threads with ports are enabled and not the main one, no list is too long, and a
later port is in no earlier thread. -/
structure Distributed (dev : EthDevices TxBuffer) (ports : List UInt16)
    (threads : Threads TxBuffer) : Prop where
  once : ∀ port ∈ ports, Configured port → ∃ t, (threads t).portIds.count port.toUInt32 = 1 ∧
    ∀ u ≠ t, port.toUInt32 ∉ (threads u).portIds
  only : ∀ t, ∀ id ∈ (threads t).portIds, ∃ port ∈ ports, Configured port ∧ port.toUInt32 = id
  lcore : ∀ t, (threads t).portIds ≠ [] →
    t.val < maxThreads ∧ dev.lcoreIsEnabled t = true ∧ t.val ≠ dev.mainLcore
  bounded : ∀ t, (threads t).portList.size ≤ maxRxQueuePerLcore
  ordered : ports.Pairwise fun p q => ∀ t u, p.toUInt32 ∈ (threads t).portIds →
    q.toUInt32 ∈ (threads u).portIds → t ≤ u

/-- The bit is what the code tests. -/
theorem portEnabled_eq_some {port : UInt16} {enabled : Bool}
    (h : portEnabled port = some enabled) : enabled = true ↔ Configured port := by
  have hBits : ∀ n < 32, (portConfigMask &&& ((1 : UInt32) <<< UInt32.ofNat n) != 0) =
      portConfigMask.toNat.testBit n := by decide
  unfold portEnabled at h
  split at h
  · rename_i hSmall
    have hBit := hBits port.toNat hSmall
    cases h
    have hWord : UInt32.ofNat port.toNat = port.toUInt32 := UInt32.toNat_inj.mp (by simp)
    rw [hWord] at hBit
    rw [hBit, Configured]
  · cases h

/-- Wider ids tell ports apart as well. -/
theorem toUInt32_injective {p q : UInt16} (h : p.toUInt32 = q.toUInt32) : p = q := by
  have hNat := congrArg UInt32.toNat h
  rw [UInt16.toNat_toUInt32, UInt16.toNat_toUInt32] at hNat
  exact UInt16.toNat_inj.mp hNat

variable {dev : EthDevices TxBuffer} {threads next : Threads TxBuffer}

/-- A port that is added comes last in the list of its thread. -/
theorem InternalThread.portIds_addPort {self after : InternalThread TxBuffer} {portId : UInt32}
    (h : self.addPort dev portId = some after) : after.portIds = self.portIds ++ [portId] := by
  simp only [addPort, Option.bind_eq_bind, Option.bind_eq_some_iff, Option.guard_eq_some',
    exists_const, Option.some.injEq] at h
  obtain ⟨pushed, hPush, txBuffer, _, _, _, _, last, hLast, portList, hStore, rfl⟩ := h
  have hPushed := Arr.contents_append hPush
  have hRoom := Arr.room_of_back hLast
  have hPort : last.portId = portId := by
    rw [Arr.back_of_room hRoom, hPushed, List.reverse_append] at hLast
    cases hLast
    rfl
  obtain ⟨stored, hStored, hContents⟩ :=
    Arr.setBack_of_room hRoom hPushed { last with txBuffer := some txBuffer }
  rw [hStore, Option.some.injEq] at hStored
  subst hStored
  rw [portIds, portIds, hContents, List.map_append, List.map_singleton, hPort]

/-- A configured port goes to the thread it is meant for. -/
theorem portInit_eq_some {port nbQueues : UInt16} {rx : Fin maxThreads}
    (h : portInit dev threads port nbQueues rx = some next) (hPort : portEnabled port = some true) :
    ∃ thread, thread.portIds = (threads rx).portIds ++ [port.toUInt32] ∧
      next = Function.update threads rx thread := by
  -- the checks of the device passed on both sides of the call of `addPort`
  simp only [portInit, hPort, Option.bind_eq_bind, Option.bind_some, if_true,
    Option.bind_eq_some_iff, Option.guard_eq_some', exists_const] at h
  obtain ⟨_, _, _, _, _, thread, hThread, _, hNext⟩ := h
  exact ⟨thread, InternalThread.portIds_addPort hThread, (Option.some.inj hNext).symm⟩

namespace Pm

theorem nextLcore_eq_some {left : Nat} {rx found : Fin maxThreads}
    (h : nextLcore dev threads left rx = some found) :
    rx ≤ found ∧ skips dev threads found = false := by
  induction left generalizing rx with
  | zero => cases h
  | succ left ih =>
      rw [nextLcore] at h
      split at h
      · split at h
        · split at h
          · cases h
          · obtain ⟨hLe, hFound⟩ := ih h
            exact ⟨Nat.le_trans (Nat.le_succ _) hLe, hFound⟩
        · cases h
      · rename_i hHere
        cases h
        exact ⟨Nat.le_refl _, Bool.eq_false_iff.mpr hHere⟩

/-- The search ends only where no free core is left: the count of threads never
stops it before. -/
theorem nextLcore_isSome_iff (hLcores : maxThreads ≤ dev.maxLcore) {left : Nat}
    {rx : Fin maxThreads} (hLeft : maxThreads ≤ left + rx) :
    (nextLcore dev threads left rx).isSome ↔ ∃ t, rx ≤ t ∧ skips dev threads t = false := by
  induction left generalizing rx with
  | zero =>
      have hInside := rx.isLt
      omega
  | succ left ih =>
      rw [nextLcore]
      cases hHere : skips dev threads rx with
      | false => simpa using ⟨rx, Nat.le_refl _, hHere⟩
      | true =>
          -- A free core ahead is not this one.
          have hAhead {t : Fin maxThreads} (hLe : rx ≤ t) (hFree : skips dev threads t = false) :
              rx.val + 1 ≤ t := by
            refine Nat.lt_of_le_of_ne hLe fun hSame => ?_
            rw [← Fin.ext hSame, hHere] at hFree
            cases hFree
          rw [if_pos rfl]
          split
          · rename_i hNext
            have hRest : maxThreads ≤ left + (rx + 1) := by omega
            have hCore : ¬ dev.maxLcore ≤ rx + 1 := by omega
            rw [if_neg hCore, ih hRest]
            constructor
            · rintro ⟨t, hLe, hFree⟩
              exact ⟨t, Nat.le_trans (Nat.le_succ _) hLe, hFree⟩
            · rintro ⟨t, hLe, hFree⟩
              exact ⟨t, hAhead hLe hFree, hFree⟩
          · rename_i hLast
            refine iff_of_false Bool.false_ne_true ?_
            rintro ⟨t, hLe, hFree⟩
            exact hLast (Nat.lt_of_le_of_lt (hAhead hLe hFree) t.isLt)

end Pm

/-- What holds between two turns of the loop: the ports so far are distributed, and
no thread behind the cursor has one. -/
structure Assigned (dev : EthDevices TxBuffer) (done : List UInt16) (rx : Fin maxThreads)
    (threads : Threads TxBuffer) : Prop extends Distributed dev done threads where
  behind : ∀ t, (threads t).portIds ≠ [] → t ≤ rx

theorem assigned_start (hEmpty : ∀ t, (threads t).portIds = []) (rx : Fin maxThreads) :
    Assigned dev [] rx threads where
  once := nofun
  only := by
    intro t id hMem
    rw [hEmpty t] at hMem
    cases hMem
  lcore := fun t hSome => absurd (hEmpty t) hSome
  bounded := fun t => (threads t).portList.cnt_le
  ordered := List.Pairwise.nil
  behind := fun t hSome => absurd (hEmpty t) hSome

variable {done : List UInt16} {rx found : Fin maxThreads} {port : UInt16}

/-- A port that is not among the ones so far is in no list. -/
theorem Assigned.absent (h : Assigned dev done rx threads) (hNew : port ∉ done)
    (t : Fin maxThreads) : port.toUInt32 ∉ (threads t).portIds := by
  intro hMem
  obtain ⟨other, hDone, _, hSame⟩ := h.only t _ hMem
  exact hNew (toUInt32_injective hSame ▸ hDone)

/-- A port that is not configured changes nothing. -/
theorem Assigned.skip (h : Assigned dev done rx threads) (hNew : port ∉ done)
    (hPort : ¬ Configured port) : Assigned dev (done ++ [port]) rx threads where
  once := by
    intro p hMem hConfigured
    rcases List.mem_append.mp hMem with hDone | hLast
    · exact h.once p hDone hConfigured
    · rw [List.mem_singleton.mp hLast] at hConfigured
      exact absurd hConfigured hPort
  only := by
    intro t id hMem
    obtain ⟨p, hDone, hRest⟩ := h.only t id hMem
    exact ⟨p, List.mem_append_left _ hDone, hRest⟩
  lcore := h.lcore
  bounded := h.bounded
  ordered := by
    rw [List.pairwise_append]
    refine ⟨h.ordered, List.pairwise_singleton .., ?_⟩
    intro p _ q hLast t u _ hMem
    rw [List.mem_singleton.mp hLast] at hMem
    exact absurd hMem (h.absent hNew u)
  behind := h.behind

section Place
variable {thread : InternalThread TxBuffer}

/-- Only the list of one thread changed, and only by the port. -/
theorem mem_portIds_update
    (hThread : thread.portIds = (threads found).portIds ++ [port.toUInt32]) (t : Fin maxThreads)
    (id : UInt32) : id ∈ (Function.update threads found thread t).portIds ↔
      id ∈ (threads t).portIds ∨ t = found ∧ id = port.toUInt32 := by
  by_cases hHere : t = found
  · subst hHere
    rw [Function.update_self, hThread, List.mem_append, List.mem_singleton]
    simp
  · rw [Function.update_of_ne hHere]
    simp [hHere]

/-- The other ports are where they were. -/
theorem mem_portIds_update_of_ne
    (hThread : thread.portIds = (threads found).portIds ++ [port.toUInt32]) {p : UInt16}
    (hNe : p ≠ port) (t : Fin maxThreads) :
    p.toUInt32 ∈ (Function.update threads found thread t).portIds ↔
      p.toUInt32 ∈ (threads t).portIds := by
  rw [mem_portIds_update hThread]
  exact or_iff_left fun hHere => hNe (toUInt32_injective hHere.2)

/-- And there as often. -/
theorem count_portIds_update_of_ne
    (hThread : thread.portIds = (threads found).portIds ++ [port.toUInt32]) {p : UInt16}
    (hNe : p ≠ port) (t : Fin maxThreads) :
    (Function.update threads found thread t).portIds.count p.toUInt32 =
      (threads t).portIds.count p.toUInt32 := by
  by_cases hHere : t = found
  · subst hHere
    have hOther : port.toUInt32 ≠ p.toUInt32 := fun hSame => hNe (toUInt32_injective hSame).symm
    rw [Function.update_self, hThread, List.count_append, List.count_singleton,
      beq_eq_false_iff_ne.mpr hOther]
    rfl
  · rw [Function.update_of_ne hHere]

/-- A configured port goes to a thread at the cursor or ahead of it. -/
theorem Assigned.place (h : Assigned dev done rx threads) (hNew : port ∉ done)
    (hPort : Configured port) (hFound : rx ≤ found) (hFree : Pm.skips dev threads found = false)
    (hThread : thread.portIds = (threads found).portIds ++ [port.toUInt32]) :
    Assigned dev (done ++ [port]) found (Function.update threads found thread) where
  once := by
    intro p hMem hConfigured
    rcases List.mem_append.mp hMem with hDone | hLast
    · have hNe : p ≠ port := fun hSame => hNew (hSame ▸ hDone)
      obtain ⟨t, hCount, hOnly⟩ := h.once p hDone hConfigured
      refine ⟨t, ?_, fun u hu => ?_⟩
      · rw [count_portIds_update_of_ne hThread hNe, hCount]
      · rw [mem_portIds_update_of_ne hThread hNe]
        exact hOnly u hu
    · rw [List.mem_singleton.mp hLast]
      refine ⟨found, ?_, fun u hu => ?_⟩
      · rw [Function.update_self, hThread, List.count_append, List.count_singleton_self,
          List.count_eq_zero.mpr (h.absent hNew found)]
      · rw [Function.update_of_ne hu]
        exact h.absent hNew u
  only := by
    intro t id hMem
    rcases (mem_portIds_update hThread t id).mp hMem with hBefore | ⟨_, hSame⟩
    · obtain ⟨p, hDone, hRest⟩ := h.only t id hBefore
      exact ⟨p, List.mem_append_left _ hDone, hRest⟩
    · exact ⟨port, List.mem_append_right _ (List.mem_singleton_self port), hPort, hSame.symm⟩
  lcore := by
    intro t hSome
    by_cases hHere : t = found
    · subst hHere
      rw [Pm.skips, Bool.or_eq_false_iff, Bool.or_eq_false_iff, Bool.not_eq_false'] at hFree
      exact ⟨t.isLt, hFree.1.1, beq_eq_false_iff_ne.mp hFree.1.2⟩
    · rw [Function.update_of_ne hHere] at hSome
      exact h.lcore t hSome
  bounded := fun t => (Function.update threads found thread t).portList.cnt_le
  ordered := by
    rw [List.pairwise_append]
    refine ⟨?_, List.pairwise_singleton .., ?_⟩
    · apply h.ordered.imp_of_mem
      intro p q hp hq hOrder t u ht hu
      rw [mem_portIds_update_of_ne hThread fun hSame => hNew (hSame ▸ hp)] at ht
      rw [mem_portIds_update_of_ne hThread fun hSame => hNew (hSame ▸ hq)] at hu
      exact hOrder t u ht hu
    · intro p hp q hLast t u ht hu
      rw [mem_portIds_update_of_ne hThread fun hSame => hNew (hSame ▸ hp)] at ht
      rw [List.mem_singleton.mp hLast] at hu
      have hCursor := h.behind t (List.ne_nil_of_mem ht)
      rcases (mem_portIds_update hThread u _).mp hu with hBefore | ⟨hHere, _⟩
      · exact absurd hBefore (h.absent hNew u)
      · rw [hHere]
        exact Nat.le_trans hCursor hFound
  behind := by
    intro t hSome
    by_cases hHere : t = found
    · exact Nat.le_of_eq (congrArg Fin.val hHere)
    · rw [Function.update_of_ne hHere] at hSome
      exact Nat.le_trans (h.behind t hSome) hFound

end Place

/-- Every turn of the loop keeps that. -/
theorem Assigned.assignPorts {ports : List UInt16} (h : Assigned dev done rx threads)
    (hDistinct : (done ++ ports).Nodup)
    (hRun : Pm.assignPorts dev ports rx threads = some (0, next)) :
    ∃ last, Assigned dev (done ++ ports) last next := by
  induction ports generalizing done rx threads with
  | nil =>
      cases hRun
      rw [List.append_nil]
      exact ⟨rx, h⟩
  | cons port ports ih =>
      have hSplit : done ++ port :: ports = (done ++ [port]) ++ ports := by simp
      rw [hSplit] at hDistinct ⊢
      have hNew : port ∉ done := fun hMem =>
        (List.nodup_append.mp (List.nodup_append.mp hDistinct).1).2.2 port hMem port
          (List.mem_singleton_self port) rfl
      obtain ⟨enabled, hEnabled, hTurn⟩ := Option.bind_eq_some_iff.mp hRun
      have hPort := portEnabled_eq_some hEnabled
      cases enabled with
      | false =>
          rw [if_neg Bool.false_ne_true] at hTurn
          exact ih (h.skip hNew fun hConfigured => by cases hPort.mpr hConfigured) hDistinct hTurn
      | true =>
          rw [if_pos rfl] at hTurn
          split at hTurn
          · obtain ⟨found, hFound, hTurn⟩ := Option.bind_eq_some_iff.mp hTurn
            obtain ⟨middle, hInit, hTurn⟩ := Option.bind_eq_some_iff.mp hTurn
            obtain ⟨hLe, hFree⟩ := Pm.nextLcore_eq_some hFound
            obtain ⟨thread, hThread, hMiddle⟩ := portInit_eq_some hInit hEnabled
            subst hMiddle
            exact ih (h.place hNew (hPort.mp rfl) hLe hFree hThread) hDistinct hTurn
          · cases hTurn

/-- For every machine and all distinct ports: if the loop of `init` runs to its end
from empty lists, the configured ports are distributed. Each is polled by one thread,
and no thread polls a port that is not configured. -/
theorem ports_distributed {ports : List UInt16} (hDistinct : ports.Nodup)
    (hEmpty : ∀ t, (threads t).portIds = [])
    (hRun : Pm.assignPorts dev ports Pm.firstLcore threads = some (0, next)) :
    Distributed dev ports next := by
  obtain ⟨_, hAssigned⟩ := (assigned_start hEmpty Pm.firstLcore).assignPorts hDistinct hRun
  exact hAssigned.toDistributed

/-- The same of a whole call of `init`. -/
theorem init_distributes (hDistinct : dev.available.Nodup)
    (hEmpty : ∀ t, (threads t).portIds = []) (hRun : Pm.init dev threads = some (0, next)) :
    Distributed dev dev.available next := by
  simp only [Pm.init, Option.bind_eq_bind, Option.bind_eq_some_iff, Option.guard_eq_some',
    exists_const] at hRun
  obtain ⟨_, _, _, hLoop⟩ := hRun
  have hKept (t : Fin maxThreads) : (threads t).init.1.portIds = (threads t).portIds := by
    unfold InternalThread.init
    split <;> rfl
  have hStart : Assigned dev [] Pm.firstLcore fun t => (threads t).init.1 :=
    assigned_start (fun t => (hKept t).trans (hEmpty t)) Pm.firstLcore
  obtain ⟨_, hAssigned⟩ := hStart.assignPorts hDistinct hLoop
  exact hAssigned.toDistributed

/-- Four ports, the last one not configured, and three cores besides the main one. -/
def sampleDevices : EthDevices Unit where
  lcoreIsEnabled lcore := decide (lcore < 4)
  mainLcore := 0
  maxLcore := 128
  available := [0, 1, 2, 3]
  mbufPoolCreated := true
  isValidPort _ := true
  devInfoGet _ := 0
  devConfigure _ _ := 0
  adjustNbRxTxDesc _ := 0
  rxQueueSetup _ _ := 0
  txQueueSetup _ := 0
  zmallocTxBuffer _ := some ()
  txBufferSetErrCallback _ := 0
  devStart _ := 0

def idleThreads : Threads Unit := fun _ => { portList := .init fun _ => {}, enabled := false }

theorem ports_distributed_four :
    ∃ threads, Pm.assignPorts sampleDevices [0, 1, 2, 3] Pm.firstLcore idleThreads =
        some (0, threads) ∧ Distributed sampleDevices [0, 1, 2, 3] threads := by
  have hAnswer : (Pm.assignPorts sampleDevices [0, 1, 2, 3] Pm.firstLcore idleThreads).map
      Prod.fst = some 0 := by decide
  obtain ⟨⟨_, threads⟩, hRun, rfl⟩ := Option.map_eq_some_iff.mp hAnswer
  exact ⟨threads, hRun, ports_distributed (by decide) (fun _ => rfl) hRun⟩

end Nginz
