import ReactDpdk.Tcp.ProcessRx

/-! What `processRx` comes to in a thread that is set up, on every path: whether the
packet reaches the TCP service, and how often it is returned to the pool. -/
namespace Nginz

variable {Ptr : Type} [DecidableEq Ptr]

/-- `NONE_REACTOR`. -/
def noneReactor : Reactor (ThreadWorld Ptr) Ptr := fun _ _ _ _ world => some (world, -1)

/-- `srv` after `internal_thread::init`. -/
def initReactors : UInt8 → Option (Reactor (ThreadWorld Ptr) Ptr) :=
  fun svcId => if svcId.toNat < maxServices then some noneReactor else none

/-- And after `tcp_init`. -/
def threadReactors (env : TcpTimerEnv) (junk : RxJunk) :
    UInt8 → Option (Reactor (ThreadWorld Ptr) Ptr) :=
  setServiceReactor initReactors serviceProtoTcp (tcpReactor env junk)

/-- The header on which `processRx` decides, if the packet gets that far. -/
def ipv4Header (frame : List RteMbuf) : Option BytePtr :=
  if (RteMbufReader.new frame).size < etherHdrSize.toNat then none
  else if (ipReader frame).size < 20 then none
  else
    match (ipReader frame).getRawBuffer with
    | none => none
    | some iphdr => if ipVersion iphdr ≠ 4 then none else some iphdr

/-- The packet is for the TCP service. -/
def isForTcp (frame : List RteMbuf) : Bool :=
  match ipv4Header frame with
  | none => false
  | some iphdr => ipNextProtoId iphdr == 6

/-- How often the packet is returned. Behind the `switch` it is freed once more. -/
def timesReturned (frame : List RteMbuf) : Nat :=
  match ipv4Header frame with
  | none => 1
  | some iphdr => if ipNextProtoId iphdr = 6 then 1 else 2

theorem ipv4Header_eq_some_iff {frame : List RteMbuf} {iphdr : BytePtr} :
    ipv4Header frame = some iphdr ↔ IsIpv4 frame iphdr := by
  unfold ipv4Header
  constructor
  · intro h
    split at h
    · cases h
    · rename_i hEther
      split at h
      · cases h
      · rename_i hIp
        split at h
        · cases h
        · rename_i hAt
          split at h
          · cases h
          · rename_i hVersion
            cases h
            exact ⟨not_lt.mp hEther, not_lt.mp hIp, hAt, not_not.mp hVersion⟩
  · intro h
    rw [if_neg (not_lt.mpr h.etherFits), if_neg (not_lt.mpr h.ipFits), h.ipAt]
    exact if_neg (not_not.mpr h.version)

namespace Mempool
open AroopAutobuf
variable {m : Ptr} {before middle after pool : Mempool Ptr}

/-- Nothing happened to the other packets. -/
def OnlyTouches (m : Ptr) (before after : Mempool Ptr) : Prop :=
  ∀ p, p ≠ m → after.refcnt p = before.refcnt p ∧ after.returns p = before.returns p

theorem OnlyTouches.trans (h : OnlyTouches m before middle) (hNext : OnlyTouches m middle after) :
    OnlyTouches m before after := by
  intro p hOther
  obtain ⟨hCount, hReturns⟩ := h p hOther
  obtain ⟨hCount', hReturns'⟩ := hNext p hOther
  exact ⟨hCount'.trans hCount, hReturns'.trans hReturns⟩

theorem onlyTouches_read : OnlyTouches m pool (pool.record (.read m)) := by
  intro p _
  simp [returns]

theorem onlyTouches_returned : OnlyTouches m pool (pool.record (.returned m)) := by
  intro p hOther
  simp [returns, hOther.symm]

theorem onlyTouches_refcntUpdate (value : UInt16) :
    OnlyTouches m pool (refcntUpdate m value pool) := by
  intro p hOther
  refine ⟨refcnt_refcntUpdate_of_ne hOther value pool, ?_⟩
  simp [returns]

theorem onlyTouches_pktmbufFree : OnlyTouches m pool (pktmbufFree m pool) := by
  by_cases hOne : pool.refcnt m = 1
  · rw [pktmbufFree_one hOne]
    exact onlyTouches_read.trans onlyTouches_returned
  · rw [pktmbufFree_shared hOne]
    exact onlyTouches_read.trans (onlyTouches_refcntUpdate _)

theorem onlyTouches_destroy :
    OnlyTouches m pool (AroopAutobuf.destroy rteAutobuf { data := some m } pool) := by
  by_cases hOne : pool.refcnt m = 1
  · rw [destroy_last hOne]
    exact (onlyTouches_read.trans onlyTouches_pktmbufFree).trans (onlyTouches_refcntUpdate _)
  · rw [destroy_shared hOne]
    exact onlyTouches_read.trans (onlyTouches_refcntUpdate _)

/-- A callback takes a reference and gives it back; the moved-from handle is empty. -/
theorem callbackHandles_some : callbackHandles (some m) pool =
    AroopAutobuf.destroy rteAutobuf { data := some m } (refcntUpdate m 1 pool) := by
  unfold callbackHandles
  rw [fromPointer_rteAutobuf]
  dsimp only [moveConstruct]
  rw [destroy_empty]

theorem onlyTouches_callbackHandles : OnlyTouches m pool (callbackHandles (some m) pool) := by
  rw [callbackHandles_some]
  exact (onlyTouches_refcntUpdate 1).trans onlyTouches_destroy

/-- A packet with one reference is returned so many times, and no other is touched. -/
structure Disposes (m : Ptr) (times : Nat) (before after : Mempool Ptr) : Prop where
  returns : before.refcnt m = 1 → after.returns m = before.returns m + times
  others : OnlyTouches m before after

/-- Freeing a packet that nobody refers to returns nothing. -/
theorem returns_pktmbufFree_zero (h : pool.refcnt m = 0) :
    (pktmbufFree m pool).returns m = pool.returns m := by
  have hOther : pool.refcnt m ≠ 1 := by
    rw [h]
    decide
  rw [pktmbufFree_shared hOther]
  simp [Mempool.returns]

/-- The early returns of `handleTcpRx`, with the free of `reactorPost` behind them. -/
theorem disposes_dropped : Disposes m 1 pool
    (pktmbufFree m (AroopAutobuf.destroy rteAutobuf { data := some m } pool)) where
  returns := by
    intro hCount
    rw [returns_pktmbufFree_zero (refcnt_destroy_owned hCount), returns_destroy hCount]
  others := onlyTouches_destroy.trans onlyTouches_pktmbufFree

/-- The same behind a callback. -/
theorem disposes_callback : Disposes m 1 pool (pktmbufFree m (callbackHandles (some m) pool)) where
  returns := by
    intro hCount
    have hKept : (callbackHandles (some m) pool).returns m = pool.returns m := by
      simp [callbackHandles_eq hCount, Mempool.returns]
    rw [returns_pktmbufFree (refcnt_callbackHandles hCount), hKept]
  others := onlyTouches_callbackHandles.trans onlyTouches_pktmbufFree

theorem disposes_early :
    Disposes m 1 pool (AroopAutobuf.destroy rteAutobuf { data := some m } pool) where
  returns := returns_destroy
  others := onlyTouches_destroy

theorem disposes_other : Disposes m 2 pool
    (AroopAutobuf.destroy rteAutobuf { data := some m } (pktmbufFree m pool)) where
  returns := by
    intro hCount
    rw [returns_destroy (refcnt_pktmbufFree_one hCount), returns_pktmbufFree hCount]
  others := onlyTouches_pktmbufFree.trans onlyTouches_destroy

end Mempool

section Receive
open Mempool
variable {env : TcpTimerEnv} {junk : RxJunk} {thisThread : UInt8} {m : Ptr}
  {world : ThreadWorld Ptr}

/-- `handleTcpRx` on a packet is `handleTcpRx` on its bytes; only what happens to the
packet depends on the path. -/
theorem handleTcpRxPacket_eq (env : TcpTimerEnv) (junk : RxJunk) (m : Ptr)
    (world : ThreadWorld Ptr) :
    ∃ pool', Disposes m 1 world.pool (pktmbufFree m pool') ∧
      handleTcpRxPacket env junk m world =
        (world.ctx.handleTcpRx env junk [world.packets m]).map fun ctx' =>
          { world with ctx := ctx', pool := pool' } := by
  cases hParse : parseFrame junk world.ctx.listen [world.packets m] with
  | none =>
      refine ⟨_, disposes_dropped, ?_⟩
      rw [handleTcpRxPacket_dropped hParse, TcpImpl.handleTcpRx, hParse]
      rfl
  | some parsed =>
      obtain ⟨tcb, index, hDispatch⟩ : ∃ tcb index,
          world.ctx.dispatch parsed.header.clientId = some (tcb, index) := by
        rcases world.ctx.dispatch_cases parsed.header.clientId with
          ⟨_, hDispatch⟩ | ⟨p, tcb, _, _, _, hDispatch⟩
        · exact ⟨_, _, hDispatch⟩
        · exact ⟨_, _, hDispatch⟩
      rw [handleTcpRxPacket_parsed hParse hDispatch, TcpImpl.handleTcpRx, hParse]
      by_cases hIndex : index = .max
      · rw [if_pos hIndex]
        exact ⟨_, disposes_dropped, rfl⟩
      · rw [if_neg hIndex]
        exact ⟨_, disposes_callback, rfl⟩

/-- A packet for TCP is handed to `handleTcpRx`, and freed after it. -/
theorem processRx_tcp {iphdr : BytePtr} (h : IsIpv4 [world.packets m] iphdr)
    (hTcp : ipNextProtoId iphdr = 6) : processRx (threadReactors env junk) thisThread m world =
      (handleTcpRxPacket env junk m world).map fun after =>
        { after with pool := pktmbufFree m after.pool } := by
  unfold processRx
  rw [ownWithoutIncrement_empty]
  dsimp only
  rw [if_neg (not_lt.mpr h.etherFits), if_neg (not_lt.mpr h.ipFits), h.ipAt, Option.bind_eq_bind,
    Option.bind_some, if_neg (not_not.mpr h.version), if_pos hTcp]
  simp only [AroopAutobuf.release, Option.bind_eq_bind, Option.bind_some, threadReactors,
    reactorPostLocal_tcp, destroy_empty]
  cases handleTcpRxPacket env junk m world <;> rfl

/-- What `processRx` does to the context, as far as the packet gets there. -/
def receiveCtx (env : TcpTimerEnv) (junk : RxJunk) (frame : List RteMbuf) (ctx : TcpImpl) :
    Option TcpImpl :=
  if isForTcp frame then ctx.handleTcpRx env junk frame else some ctx

/-- All that `processRx` does: a packet for TCP is handled, any other changes no
context, and each is returned as often as its bytes say. -/
theorem processRx_eq (env : TcpTimerEnv) (junk : RxJunk) (thisThread : UInt8) (m : Ptr)
    (world : ThreadWorld Ptr) :
    ∃ pool', Disposes m (timesReturned [world.packets m]) world.pool pool' ∧
      processRx (threadReactors env junk) thisThread m world =
        (receiveCtx env junk [world.packets m] world.ctx).map fun ctx' =>
          { world with ctx := ctx', pool := pool' } := by
  cases hHeader : ipv4Header [world.packets m] with
  | none =>
      have hEarly (iphdr : BytePtr) : ¬ IsIpv4 [world.packets m] iphdr := by
        rw [← ipv4Header_eq_some_iff, hHeader]
        exact nofun
      simp only [timesReturned, receiveCtx, isForTcp, hHeader, Bool.false_eq_true, if_false]
      exact ⟨_, disposes_early, processRx_early hEarly⟩
  | some iphdr =>
      have hIpv4 := ipv4Header_eq_some_iff.mp hHeader
      by_cases hTcp : ipNextProtoId iphdr = 6
      · obtain ⟨pool', hDisposes, hHandled⟩ := handleTcpRxPacket_eq env junk m world
        simp only [timesReturned, receiveCtx, isForTcp, hHeader, hTcp, BEq.rfl, if_true]
        refine ⟨_, hDisposes, ?_⟩
        rw [processRx_tcp hIpv4 hTcp, hHandled, Option.map_map]
        rfl
      · simp only [timesReturned, receiveCtx, isForTcp, hHeader, hTcp, beq_eq_false_iff_ne.mpr hTcp,
          Bool.false_eq_true, if_false]
        exact ⟨_, disposes_other, processRx_other hIpv4 hTcp⟩

end Receive
end Nginz
