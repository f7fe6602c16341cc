import Mathlib.Data.List.Perm.Subperm
import ReactDpdk.Core.PortDistribution

/-! Which of the launched cores get ports at all. `PORT_CONFIG_MASK` is written in
decimal, so fewer ports are configured than one list takes. -/
namespace Nginz

variable {TxBuffer : Type}

/-- The cores on which `main` launches the event loop, of those that have a thread. -/
def Worker (dev : EthDevices TxBuffer) (t : Fin maxThreads) : Prop :=
  dev.lcoreIsEnabled t = true ∧ t.val ≠ dev.mainLcore

instance (dev : EthDevices TxBuffer) (t : Fin maxThreads) : Decidable (Worker dev t) :=
  inferInstanceAs (Decidable (_ ∧ _))

instance (port : UInt16) : Decidable (Configured port) := inferInstanceAs (Decidable (_ = _))

def configuredPorts (ports : List UInt16) : List UInt16 := ports.filter fun port => Configured port

/-- The bits of the mask. -/
def maskPorts : List UInt16 := [0, 1, 2, 6, 10, 12, 13, 14, 15, 20]

theorem mem_maskPorts {port : UInt16} (h : Configured port) : port ∈ maskPorts := by
  have hBits : ∀ n < 21, portConfigMask.toNat.testBit n = true → UInt16.ofNat n ∈ maskPorts := by
    decide
  by_cases hSmall : port.toNat < 21
  · have hMem := hBits port.toNat hSmall h
    rwa [UInt16.ofNat_toNat] at hMem
  · have hMask : portConfigMask.toNat < 2 ^ port.toNat :=
      Nat.lt_of_lt_of_le (by decide) (Nat.pow_le_pow_right Nat.two_pos (not_lt.mp hSmall))
    rw [Configured, Nat.testBit_lt_two_pow hMask] at h
    cases h

/-- No more than ten ports are configured. -/
theorem length_configuredPorts {ports : List UInt16} (h : ports.Nodup) :
    (configuredPorts ports).length ≤ 10 := by
  have hSubset : configuredPorts ports ⊆ maskPorts := by
    intro port hMem
    exact mem_maskPorts (of_decide_eq_true (List.mem_filter.mp hMem).2)
  exact (List.subperm_of_subset (h.filter _) hSubset).length_le

theorem configuredPorts_concat (ports : List UInt16) (port : UInt16) :
    configuredPorts (ports ++ [port]) =
      configuredPorts ports ++ if Configured port then [port] else [] := by
  rw [configuredPorts, List.filter_append, List.filter_singleton]
  by_cases h : Configured port <;> simp [configuredPorts, h]

variable {dev : EthDevices TxBuffer} {threads next : Threads TxBuffer} {done ports : List UInt16}
  {rx found t : Fin maxThreads} {port : UInt16}

theorem length_portIds (self : InternalThread TxBuffer) :
    self.portIds.length = self.portList.size := by
  rw [InternalThread.portIds, List.length_map, Arr.length_contents, Arr.size]

namespace Pm

/-- The search passes over cores that are no workers, and full lists. -/
theorem skips_iff : skips dev threads t = true ↔
    ¬ Worker dev t ∨ (threads t).portList.size = maxRxQueuePerLcore := by
  rw [skips, Worker]
  cases dev.lcoreIsEnabled t <;> simp

theorem nextLcore_passes {left : Nat} (h : nextLcore dev threads left rx = some found)
    (hFrom : rx ≤ t) (hBefore : t < found) : skips dev threads t = true := by
  induction left generalizing rx with
  | zero => cases h
  | succ left ih =>
      rw [nextLcore] at h
      cases hHere : skips dev threads rx with
      | false =>
          rw [hHere, if_neg Bool.false_ne_true, Option.some.injEq] at h
          exact absurd hBefore (not_lt.mpr (h ▸ hFrom))
      | true =>
          rw [hHere, if_pos rfl] at h
          split at h
          · split at h
            · cases h
            · rcases eq_or_lt_of_le hFrom with hSame | hAhead
              · rw [← hSame, hHere]
              · exact ih h hAhead
          · cases h

end Pm

/-- What holds between two turns of the loop: all configured ports so far are in the
list of one core, and no core before it is a worker. -/
structure Collected (dev : EthDevices TxBuffer) (done : List UInt16) (rx : Fin maxThreads)
    (threads : Threads TxBuffer) : Prop where
  ports : (threads rx).portIds = (configuredPorts done).map UInt16.toUInt32
  others : ∀ t, t ≠ rx → (threads t).portIds = []
  before : ∀ t, t < rx → ¬ Worker dev t
  worker : (threads rx).portIds ≠ [] → Worker dev rx

theorem collected_start (hEmpty : ∀ t, (threads t).portIds = []) :
    Collected dev [] Pm.firstLcore threads where
  ports := hEmpty _
  others := fun t _ => hEmpty t
  before := fun _ hBefore => absurd hBefore (Nat.not_lt_zero _)
  worker := fun hSome => absurd (hEmpty _) hSome

/-- No list is full. -/
theorem Collected.size_le (h : Collected dev done rx threads) (hDistinct : done.Nodup) :
    (threads t).portList.size ≤ 10 := by
  rw [← length_portIds]
  by_cases hHere : t = rx
  · rw [hHere, h.ports, List.length_map]
    exact length_configuredPorts hDistinct
  · rw [h.others t hHere]
    exact Nat.zero_le _

/-- So the search passes over the cores that are no workers, and over no other. -/
theorem Collected.skips_iff (h : Collected dev done rx threads) (hDistinct : done.Nodup)
    (t : Fin maxThreads) : Pm.skips dev threads t = true ↔ ¬ Worker dev t := by
  have hSize : (threads t).portList.size ≤ 10 := h.size_le hDistinct
  have hFull : (threads t).portList.size ≠ maxRxQueuePerLcore := fun hSame => by
    rw [hSame] at hSize
    exact absurd hSize (by decide)
  rw [Pm.skips_iff, or_iff_left hFull]

/-- A port that is not configured changes nothing. -/
theorem Collected.skip (h : Collected dev done rx threads) (hPort : ¬ Configured port) :
    Collected dev (done ++ [port]) rx threads where
  ports := by rw [configuredPorts_concat, if_neg hPort, List.append_nil, h.ports]
  others := h.others
  before := h.before
  worker := h.worker

/-- A configured port goes to the first worker, which is where the others are. -/
theorem Collected.place (h : Collected dev done rx threads) (hDistinct : done.Nodup)
    (hPort : Configured port) {left : Nat} (hFound : Pm.nextLcore dev threads left rx = some found)
    {thread : InternalThread TxBuffer}
    (hThread : thread.portIds = (threads found).portIds ++ [port.toUInt32]) :
    Collected dev (done ++ [port]) found (Function.update threads found thread) := by
  obtain ⟨hLe, hFree⟩ := Pm.nextLcore_eq_some hFound
  have hWorker : Worker dev found := by
    by_contra hNone
    rw [(h.skips_iff hDistinct found).mpr hNone] at hFree
    cases hFree
  have hBefore (t : Fin maxThreads) (hLess : t < found) : ¬ Worker dev t := by
    rcases lt_or_ge t rx with hBehind | hFrom
    · exact h.before t hBehind
    · exact (h.skips_iff hDistinct t).mp (Pm.nextLcore_passes hFound hFrom hLess)
  -- a core that has ports is a worker, so the search ends there
  have hStays : (threads rx).portIds ≠ [] → rx = found := by
    intro hSome
    by_contra hNe
    exact hBefore rx (lt_of_le_of_ne hLe hNe) (h.worker hSome)
  have hPorts : (threads found).portIds = (configuredPorts done).map UInt16.toUInt32 := by
    by_cases hHere : found = rx
    · rw [hHere, h.ports]
    · have hNone : (threads rx).portIds = [] := by
        by_contra hSome
        exact hHere (hStays hSome).symm
      rw [h.others found hHere, ← h.ports, hNone]
  refine ⟨?_, ?_, hBefore, fun _ => hWorker⟩
  · rw [Function.update_self, hThread, hPorts, configuredPorts_concat, if_pos hPort,
      List.map_append, List.map_singleton]
  · intro t hOther
    rw [Function.update_of_ne hOther]
    by_cases hHere : t = rx
    · by_contra hSome
      rw [hHere] at hSome hOther
      exact hOther (hStays hSome)
    · exact h.others t hHere

/-- The whole loop keeps that, up to a port that is not valid. -/
theorem Collected.assignPorts {ret : Int} (h : Collected dev done rx threads)
    (hDistinct : (done ++ ports).Nodup)
    (hRun : Pm.assignPorts dev ports rx threads = some (ret, next)) :
    ∃ served last, served <+: ports ∧ (ret = 0 → served = ports) ∧
      Collected dev (done ++ served) last next := by
  induction ports generalizing done rx threads with
  | nil =>
      cases hRun
      exact ⟨[], rx, List.prefix_refl [], fun _ => rfl, (List.append_nil done).symm ▸ h⟩
  | cons port ports ih =>
      have hSplit (rest : List UInt16) : done ++ port :: rest = (done ++ [port]) ++ rest := by simp
      rw [hSplit] at hDistinct
      have hDone : done.Nodup := (List.nodup_append.mp (List.nodup_append.mp hDistinct).1).1
      have hOn {rx : Fin maxThreads} {threads : Threads TxBuffer}
          (hNext : Collected dev (done ++ [port]) rx threads)
          (hRest : Pm.assignPorts dev ports rx threads = some (ret, next)) :
          ∃ served last, served <+: port :: ports ∧ (ret = 0 → served = port :: ports) ∧
            Collected dev (done ++ served) last next := by
        obtain ⟨served, last, hPrefix, hAll, hLast⟩ := ih hNext hDistinct hRest
        refine ⟨port :: served, last, List.cons_prefix_cons.mpr ⟨rfl, hPrefix⟩, ?_, ?_⟩
        · exact fun hZero => congrArg (port :: ·) (hAll hZero)
        · rwa [hSplit]
      obtain ⟨enabled, hEnabled, hTurn⟩ := Option.bind_eq_some_iff.mp hRun
      have hPort := portEnabled_eq_some hEnabled
      cases enabled with
      | false => exact hOn (h.skip fun hConfigured => by cases hPort.mpr hConfigured) hTurn
      | true =>
          rw [if_pos rfl] at hTurn
          split at hTurn
          · obtain ⟨found, hFound, hTurn⟩ := Option.bind_eq_some_iff.mp hTurn
            obtain ⟨middle, hInit, hTurn⟩ := Option.bind_eq_some_iff.mp hTurn
            obtain ⟨thread, hThread, hMiddle⟩ := portInit_eq_some hInit hEnabled
            subst hMiddle
            exact hOn (h.place hDone (hPort.mp rfl) hFound hThread) hTurn
          · cases hTurn
            exact ⟨[], rx, List.nil_prefix, nofun, (List.append_nil done).symm ▸ h⟩

/-- The threads as the loop finds them. -/
theorem collected_init (hEmpty : ∀ t, (threads t).portIds = []) :
    Collected dev [] Pm.firstLcore fun t => (threads t).init.1 := by
  refine collected_start fun t => ?_
  have hKept : (threads t).init.1.portIds = (threads t).portIds := by
    unfold InternalThread.init
    split <;> rfl
  rw [hKept, hEmpty t]

/-- So does `init`, wherever it ends. -/
theorem collected_of_init {ret : Int} (hDistinct : dev.available.Nodup)
    (hEmpty : ∀ t, (threads t).portIds = []) (hRun : Pm.init dev threads = some (ret, next)) :
    ∃ served core, served <+: dev.available ∧ (ret = 0 → served = dev.available) ∧
      Collected dev served core next := by
  simp only [Pm.init, Option.bind_eq_bind, Option.bind_eq_some_iff, Option.guard_eq_some',
    exists_const] at hRun
  exact (collected_init hEmpty).assignPorts hDistinct hRun.2.2.2

/-- For every machine with distinct ports and every end of `init`: all configured ports,
as far as it got, are in one list, in their order, and that list is the one of the
first worker. -/
theorem ports_share_core {ret : Int} (hDistinct : dev.available.Nodup)
    (hEmpty : ∀ t, (threads t).portIds = []) (hRun : Pm.init dev threads = some (ret, next)) :
    ∃ served, served <+: dev.available ∧ (ret = 0 → served = dev.available) ∧
      (configuredPorts served ≠ [] → ∃ t, (next t).portIds ≠ []) ∧
      ∀ t, (next t).portIds ≠ [] →
        (next t).portIds = (configuredPorts served).map UInt16.toUInt32 ∧
          Worker dev t ∧ ∀ u, u < t → ¬ Worker dev u := by
  obtain ⟨served, core, hPrefix, hAll, h⟩ := collected_of_init hDistinct hEmpty hRun
  refine ⟨served, hPrefix, hAll, ?_, ?_⟩
  · intro hSome
    refine ⟨core, ?_⟩
    rwa [h.ports, Ne, List.map_eq_nil_iff]
  · intro t hSome
    have hHere : t = core := by
      by_contra hOther
      exact hSome (h.others t hOther)
    subst hHere
    exact ⟨h.ports, h.worker hSome, h.before⟩

theorem ports_share_core_four : ∃ next t, Pm.init sampleDevices idleThreads = some (0, next) ∧
    (next t).portIds = [0, 1, 2] ∧ Worker sampleDevices t := by
  have hAnswer : (Pm.init sampleDevices idleThreads).map Prod.fst = some 0 := by decide
  obtain ⟨⟨_, next⟩, hRun, rfl⟩ := Option.map_eq_some_iff.mp hAnswer
  obtain ⟨served, _, hAll, hSome, hOne⟩ := ports_share_core (by decide) (fun _ => rfl) hRun
  rw [hAll rfl] at hSome hOne
  obtain ⟨t, ht⟩ := hSome (by decide)
  obtain ⟨hPorts, hWorker, _⟩ := hOne t ht
  exact ⟨next, t, hRun, hPorts, hWorker⟩

/-- A machine on which every call succeeds, with room for `1 << portid`. -/
structure EthDevices.Ready (dev : EthDevices TxBuffer) : Prop where
  maxLcore : maxThreads ≤ dev.maxLcore
  available : dev.available ≠ []
  mbufPoolCreated : dev.mbufPoolCreated = true
  narrow : ∀ port ∈ dev.available, port < 32
  isValidPort : ∀ port, dev.isValidPort port = true
  devInfoGet : ∀ port, 0 ≤ dev.devInfoGet port
  devConfigure : ∀ port nbQueues, 0 ≤ dev.devConfigure port nbQueues
  adjustNbRxTxDesc : ∀ port, 0 ≤ dev.adjustNbRxTxDesc port
  rxQueueSetup : ∀ port i, 0 ≤ dev.rxQueueSetup port i
  txQueueSetup : ∀ port, 0 ≤ dev.txQueueSetup port
  zmallocTxBuffer : ∀ portId, (dev.zmallocTxBuffer portId).isSome
  txBufferSetErrCallback : ∀ portId, 0 ≤ dev.txBufferSetErrCallback portId
  devStart : ∀ port, 0 ≤ dev.devStart port

/-- While two elements are free, `back` can be had once a port is pushed. -/
theorem InternalThread.addPort_of_room (hReady : dev.Ready) {self : InternalThread TxBuffer}
    (hRoom : self.portList.size + 1 < maxRxQueuePerLcore) (portId : UInt32) :
    ∃ after, self.addPort dev portId = some after := by
  have hFits : self.portList.cnt < maxRxQueuePerLcore := Nat.lt_of_succ_lt hRoom
  obtain ⟨pushed, hPush, hContents⟩ := Arr.append_of_room hFits { portId := portId }
  obtain ⟨txBuffer, hBuffer⟩ := Option.isSome_iff_exists.mp (hReady.zmallocTxBuffer portId)
  have hCnt : pushed.cnt < maxRxQueuePerLcore := by
    rw [← Arr.length_contents, hContents, List.length_append, Arr.length_contents]
    exact hRoom
  have hBack : pushed.back 0 = some { portId := portId } := by
    rw [Arr.back_of_room hCnt, hContents, List.reverse_append]
    rfl
  obtain ⟨portList, hStore, _⟩ := Arr.setBack_of_room hCnt hContents
    { portId := portId, txBuffer := some txBuffer }
  refine ⟨{ self with portList := portList }, ?_⟩
  simp [addPort, Arr.pushBack, hPush, hBuffer, hBack, hStore, hReady.txBufferSetErrCallback]

theorem portInit_of_ready (hReady : dev.Ready) (hPort : portEnabled port = some true)
    {thread : InternalThread TxBuffer}
    (hThread : (threads rx).addPort dev port.toUInt32 = some thread) :
    portInit dev threads port 1 rx = some (Function.update threads rx thread) := by
  simp [portInit, hPort, hThread, hReady.devInfoGet, hReady.devConfigure, hReady.adjustNbRxTxDesc,
    hReady.rxQueueSetup, hReady.txQueueSetup, hReady.devStart]

/-- With a worker for the configured ports, the loop comes to its end. -/
theorem Collected.assignPorts_isSome (h : Collected dev done rx threads) (hReady : dev.Ready)
    (hDistinct : (done ++ ports).Nodup) (hNarrow : ∀ port ∈ ports, port < 32)
    (hWorker : (∃ t, Worker dev t) ∨ configuredPorts ports = []) :
    ∃ next, Pm.assignPorts dev ports rx threads = some (0, next) := by
  induction ports generalizing done rx threads with
  | nil => exact ⟨threads, rfl⟩
  | cons port ports ih =>
      have hSplit : done ++ port :: ports = (done ++ [port]) ++ ports := by simp
      rw [hSplit] at hDistinct
      have hDone : done.Nodup := (List.nodup_append.mp (List.nodup_append.mp hDistinct).1).1
      obtain ⟨hHere, hRest⟩ := List.forall_mem_cons.mp hNarrow
      obtain ⟨enabled, hEnabled⟩ : ∃ enabled, portEnabled port = some enabled :=
        ⟨_, if_pos hHere⟩
      have hPort := portEnabled_eq_some hEnabled
      rw [Pm.assignPorts, hEnabled]
      cases enabled with
      | false =>
          have hSkip : ¬ Configured port := fun hConfigured => by cases hPort.mpr hConfigured
          have hTail : configuredPorts (port :: ports) = configuredPorts ports :=
            List.filter_cons_of_neg (by simpa using hSkip)
          rw [hTail] at hWorker
          exact ih (h.skip hSkip) hDistinct hRest hWorker
      | true =>
          have hConfigured := hPort.mp rfl
          obtain ⟨t, ht⟩ : ∃ t, Worker dev t := hWorker.resolve_right fun hNone =>
            absurd (List.filter_eq_nil_iff.mp hNone port (List.mem_cons_self ..))
              (by simpa using hConfigured)
          have hFrom : rx ≤ t := not_lt.mp fun hBefore => h.before t hBefore ht
          have hFree : Pm.skips dev threads t = false :=
            Bool.eq_false_iff.mpr fun hSkip => (h.skips_iff hDone t).mp hSkip ht
          have hLeft : maxThreads ≤ maxThreads - rx.val + rx.val := by omega
          obtain ⟨found, hFound⟩ := Option.isSome_iff_exists.mp
            ((Pm.nextLcore_isSome_iff hReady.maxLcore hLeft).mpr ⟨t, hFrom, hFree⟩)
          have hRoom : (threads found).portList.size + 1 < maxRxQueuePerLcore :=
            Nat.lt_of_le_of_lt (Nat.succ_le_succ (h.size_le hDone)) (by decide)
          obtain ⟨thread, hThread⟩ :=
            InternalThread.addPort_of_room hReady hRoom port.toUInt32
          have hNext := h.place hDone hConfigured hFound (InternalThread.portIds_addPort hThread)
          simp only [Option.bind_eq_bind, Option.bind_some, if_true, hReady.isValidPort port,
            hFound, portInit_of_ready hReady hEnabled hThread]
          exact ih hNext hDistinct hRest (Or.inl ⟨t, ht⟩)

/-- For every machine with distinct ports on which every call succeeds: `init` comes to
its end exactly if there is a worker with a thread, or no configured port. In
particular the assertion in `back` never fails. -/
theorem init_completes_iff (hReady : dev.Ready) (hDistinct : dev.available.Nodup)
    (hEmpty : ∀ t, (threads t).portIds = []) : (∃ next, Pm.init dev threads = some (0, next)) ↔
      (∃ t, Worker dev t) ∨ configuredPorts dev.available = [] := by
  constructor
  · rintro ⟨next, hRun⟩
    obtain ⟨served, core, _, hAll, hCollected⟩ := collected_of_init hDistinct hEmpty hRun
    rw [hAll rfl] at hCollected
    by_cases hNone : configuredPorts dev.available = []
    · exact Or.inr hNone
    · refine Or.inl ⟨core, hCollected.worker ?_⟩
      rwa [hCollected.ports, Ne, List.map_eq_nil_iff]
  · intro hWorker
    have hInit : ∀ t, (threads t).init.2 = 0 := by
      intro t
      unfold InternalThread.init
      split <;> rfl
    have hStart : Collected dev [] Pm.firstLcore fun t => (threads t).init.1 :=
      collected_init hEmpty
    obtain ⟨next, hRun⟩ := hStart.assignPorts_isSome hReady hDistinct hReady.narrow hWorker
    refine ⟨next, ?_⟩
    simpa [Pm.init, hInit, hReady.available, hReady.mbufPoolCreated] using hRun

theorem sampleDevices_ready : sampleDevices.Ready := by
  have hNarrow : ∀ port ∈ sampleDevices.available, port < 32 := by simp [sampleDevices]
  have hZero : (0 : Int) ≤ 0 := Int.le_refl 0
  exact ⟨by decide, by decide, rfl, hNarrow, fun _ => rfl, fun _ => hZero, fun _ _ => hZero,
    fun _ => hZero, fun _ _ => hZero, fun _ => hZero, fun _ => rfl, fun _ => hZero, fun _ => hZero⟩

theorem init_completes_iff_four : ∃ next, Pm.init sampleDevices idleThreads = some (0, next) :=
  (init_completes_iff sampleDevices_ready (by decide) fun _ => rfl).mpr
    (Or.inl ⟨⟨1, by decide⟩, by decide⟩)

end Nginz
