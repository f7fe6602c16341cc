import ReactDpdk.Tcp.Ownership

/-! `internal_thread::processRx` of `core/plugin.cc`: what becomes of a packet
that is received. Log lines are left out. -/
namespace Nginz

/-- `(0xF0 & version_ihl) >> 4`. -/
def ipVersion (iphdr : BytePtr) : UInt8 := (0xF0 &&& iphdr.read) >>> 4

variable {Ptr : Type} [DecidableEq Ptr]

open AroopAutobuf Mempool in
/-- `processRx`. The handle is destroyed on every path; a null `iphdr` would be
undefined. -/
def processRx (srv : UInt8 → Option (Reactor (ThreadWorld Ptr) Ptr)) (thisThread : UInt8)
    (m : Ptr) (world : ThreadWorld Ptr) : Option (ThreadWorld Ptr) := do
  let (rbuf, pool) := ownWithoutIncrement rteAutobuf {} (some m) world.pool
  let frame := [world.packets m]
  if (RteMbufReader.new frame).size < etherHdrSize.toNat then
    some { world with pool := rbuf.destroy rteAutobuf pool }
  else if (ipReader frame).size < 20 then
    some { world with pool := rbuf.destroy rteAutobuf pool }
  else
    let iphdr ← (ipReader frame).getRawBuffer
    if ipVersion iphdr ≠ 4 then some { world with pool := rbuf.destroy rteAutobuf pool }
    else if ipNextProtoId iphdr = 6 then
      let (raw, rbuf) := rbuf.release
      let pkts ← raw
      let (world, _) ← reactorPostLocal srv thisThread serviceProtoTcp serviceProtoTcp msgTcpRx
        pkts { world with pool := pool }
      some { world with pool := rbuf.destroy rteAutobuf world.pool }
    else some { world with pool := rbuf.destroy rteAutobuf (pktmbufFree m pool) }

/-- The packet has an IPv4 header, as far as `processRx` looks. -/
structure IsIpv4 (frame : List RteMbuf) (iphdr : BytePtr) : Prop where
  etherFits : etherHdrSize.toNat ≤ (RteMbufReader.new frame).size
  ipFits : 20 ≤ (ipReader frame).size
  ipAt : (ipReader frame).getRawBuffer = some iphdr
  version : ipVersion iphdr = 4

/-- `processRx` hands the packet to `reactorPost`. -/
def HandedOver (frame : List RteMbuf) : Prop :=
  ∃ iphdr, IsIpv4 frame iphdr ∧ ipNextProtoId iphdr = 6

/-- How often a packet was returned to the pool. -/
def Mempool.returns (m : Ptr) (pool : Mempool Ptr) : Nat := pool.events.count (.returned m)

/-- `processRx` comes to its end, and meanwhile the packet was returned once. -/
def ReceiveReturnsOnce (srv : UInt8 → Option (Reactor (ThreadWorld Ptr) Ptr)) (thisThread : UInt8)
    (m : Ptr) (world : ThreadWorld Ptr) : Prop :=
  ∃ after, processRx srv thisThread m world = some after ∧
    after.pool.returns m = world.pool.returns m + 1

section Returns
open AroopAutobuf Mempool
variable {m : Ptr} {pool : Mempool Ptr}

/-- The free of a packet whose count is 1 keeps the count. -/
theorem refcnt_pktmbufFree_one (h : pool.refcnt m = 1) : (pktmbufFree m pool).refcnt m = 1 := by
  rw [pktmbufFree_one h]
  exact h

theorem returns_pktmbufFree (h : pool.refcnt m = 1) :
    (pktmbufFree m pool).returns m = pool.returns m + 1 := by
  rw [pktmbufFree_one h]
  simp [returns]

/-- The last handle returns the packet. -/
theorem returns_destroy (h : pool.refcnt m = 1) :
    (AroopAutobuf.destroy rteAutobuf { data := some m } pool).returns m = pool.returns m + 1 := by
  have hRead : (pool.record (.read m)).refcnt m = 1 := h
  have hFree := returns_pktmbufFree hRead
  rw [destroy_last h]
  simp [returns] at hFree ⊢
  exact hFree

end Returns

section Receive
open AroopAutobuf Mempool
variable {srv : UInt8 → Option (Reactor (ThreadWorld Ptr) Ptr)} {thisThread : UInt8} {m : Ptr}
  {world : ThreadWorld Ptr}

/-- On every early return the handle alone disposes of the packet. -/
theorem processRx_early (h : ∀ iphdr, ¬ IsIpv4 [world.packets m] iphdr) :
    processRx srv thisThread m world =
      some { world with pool := AroopAutobuf.destroy rteAutobuf { data := some m } world.pool } := by
  unfold processRx
  rw [ownWithoutIncrement_empty]
  dsimp only
  split
  · rfl
  · rename_i hEther
    split
    · rfl
    · rename_i hIp
      obtain ⟨iphdr, hAt⟩ := RteMbufReader.exists_getRawBuffer
        (by omega : 0 < (ipReader [world.packets m]).size)
      have hVersion : ipVersion iphdr ≠ 4 := by
        intro hFour
        exact h iphdr ⟨not_lt.mp hEther, not_lt.mp hIp, hAt, hFour⟩
      rw [hAt, Option.bind_eq_bind, Option.bind_some, if_pos hVersion]

/-- Behind the switch, the packet is freed while the handle still has it. -/
theorem processRx_other {iphdr : BytePtr} (h : IsIpv4 [world.packets m] iphdr)
    (hOther : ipNextProtoId iphdr ≠ 6) : processRx srv thisThread m world =
      some { world with
        pool := AroopAutobuf.destroy rteAutobuf { data := some m } (pktmbufFree m world.pool) } := by
  unfold processRx
  rw [ownWithoutIncrement_empty]
  dsimp only
  rw [if_neg (not_lt.mpr h.etherFits), if_neg (not_lt.mpr h.ipFits), h.ipAt, Option.bind_eq_bind,
    Option.bind_some, if_neg (not_not.mpr h.version), if_neg hOther]

/-- The second of the two returns. -/
theorem returns_other (hCount : world.pool.refcnt m = 1) :
    (AroopAutobuf.destroy rteAutobuf { data := some m } (pktmbufFree m world.pool)).returns m =
      world.pool.returns m + 2 := by
  rw [returns_destroy (refcnt_pktmbufFree_one hCount), returns_pktmbufFree hCount]

/-- A packet that is not posted is returned once exactly when `processRx` gives it
up before the switch: it is too short, or not of version 4. Behind the switch both
the handle and the call of `rte_pktmbuf_free` give it back. -/
theorem process_rx_returns_once_iff (hCount : world.pool.refcnt m = 1)
    (hKept : ¬ HandedOver [world.packets m]) :
    ReceiveReturnsOnce srv thisThread m world ↔ ∀ iphdr, ¬ IsIpv4 [world.packets m] iphdr := by
  constructor
  · rintro ⟨after, hRun, hOnce⟩ iphdr hIpv4
    have hOther : ipNextProtoId iphdr ≠ 6 := fun hTcp => hKept ⟨iphdr, hIpv4, hTcp⟩
    have hTwice := returns_other hCount
    rw [processRx_other hIpv4 hOther] at hRun
    cases hRun
    dsimp only at hOnce
    omega
  · intro hEarly
    exact ⟨_, processRx_early hEarly, returns_destroy hCount⟩

end Receive

/-- A UDP packet, by the protocol in its IPv4 header. -/
def udpWorld : ThreadWorld Unit :=
  packetWorld (List.replicate 14 0 ++ [0x45, 0, 0, 20, 0, 0, 0, 0, 64, 17, 0, 0] ++
    List.replicate 8 0)

def udpHeader : BytePtr := { segment := udpWorld.packets (), offset := 14 }

theorem udp_isIpv4 : IsIpv4 [udpWorld.packets ()] udpHeader :=
  ⟨by decide, by decide, rfl, by decide⟩

theorem udp_kept : ¬ HandedOver [udpWorld.packets ()] := by
  rintro ⟨iphdr, hIpv4, hTcp⟩
  obtain rfl := Option.some.inj (hIpv4.ipAt.symm.trans udp_isIpv4.ipAt)
  exact absurd hTcp (by decide)

theorem process_rx_returns_once_iff_udp :
    ¬ ReceiveReturnsOnce (fun _ => none) 0 () udpWorld := by
  intro hOnce
  exact (process_rx_returns_once_iff rfl udp_kept).mp hOnce udpHeader udp_isIpv4

/-- It is returned twice. -/
theorem udp_packet_is_freed_twice :
    ¬ ∀ (srv : UInt8 → Option (Reactor (ThreadWorld Unit) Unit)) (thisThread : UInt8) (m : Unit)
      (world : ThreadWorld Unit), world.pool.refcnt m = 1 → ¬ HandedOver [world.packets m] →
      ReceiveReturnsOnce srv thisThread m world := by
  intro hAll
  obtain ⟨after, hRun, hOnce⟩ := hAll (fun _ => none) 0 () udpWorld rfl udp_kept
  rw [processRx_other udp_isIpv4 (by decide)] at hRun
  cases hRun
  have hCount : udpWorld.pool.refcnt () = 1 := rfl
  have hTwice := returns_other hCount
  dsimp only at hOnce
  omega

end Nginz
