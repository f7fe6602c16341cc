import ReactDpdk.Core.Autobuf
import ReactDpdk.Core.RemotePost
import ReactDpdk.Tcp.FrameChecks

/-! Who frees a packet that is posted to the TCP service of the own thread:
`reactorPost` of `core/plugin.cc`, the reactor of `tcp_plugin.cc`, and the
handles inside `handleTcpRx`. Log lines are left out. -/
namespace Nginz

def serviceProtoTcp : UInt8 := 2

def msgTcpRx : Int := 6

/-- One thread's context, its packets (each of one segment) and their counts. -/
structure ThreadWorld (Ptr : Type) where
  ctx : TcpImpl
  packets : Ptr → RteMbuf
  pool : Mempool Ptr

variable {Ptr : Type} [DecidableEq Ptr]

open AroopAutobuf Mempool in
/-- The handles on the way into a callback: the implicit one built from the
released pointer, moved into the parameter that the callback destroys. -/
def callbackHandles (raw : Option Ptr) (pool : Mempool Ptr) : Mempool Ptr :=
  let (argument, pool) := fromPointer rteAutobuf raw pool
  let (parameter, argument) := moveConstruct argument
  argument.destroy rteAutobuf (parameter.destroy rteAutobuf pool)

open AroopAutobuf Mempool in
/-- `handleTcpRx` on a packet. The first handle owns it on every early return;
a block whose state is out of range is such a return. -/
def handleTcpRxPacket (env : TcpTimerEnv) (junk : RxJunk) (m : Ptr) (world : ThreadWorld Ptr) :
    Option (ThreadWorld Ptr) := do
  let frame := [world.packets m]
  let (rbuf, pool) := ownWithoutIncrement rteAutobuf {} (some m) world.pool
  let ctx ← world.ctx.handleTcpRx env junk frame
  match parseFrame junk world.ctx.listen frame with
  | none => some { world with ctx := ctx, pool := rbuf.destroy rteAutobuf pool }
  | some parsed =>
      let (_, index) ← world.ctx.dispatch parsed.header.clientId
      if index = .max then some { world with ctx := ctx, pool := rbuf.destroy rteAutobuf pool }
      else
        let (raw, rbuf) := rbuf.release
        some { world with ctx := ctx
                          pool := rbuf.destroy rteAutobuf (callbackHandles raw pool) }

/-- `TCP_REACTOR`. -/
def tcpReactor (env : TcpTimerEnv) (junk : RxJunk) : Reactor (ThreadWorld Ptr) Ptr :=
  fun _srcThd _srcSvc msgId pkts world =>
    if msgId = msgTcpRx then (handleTcpRxPacket env junk pkts world).map fun world => (world, 0)
    else some (world, 0)

/-- `reactorPost` to the own thread. Calling a service without a reactor
throws. -/
def reactorPostLocal (srv : UInt8 → Option (Reactor (ThreadWorld Ptr) Ptr)) (thisThread : UInt8)
    (dstSvc srcSvc : UInt8) (msgId : Int) (pkts : Ptr) (world : ThreadWorld Ptr) :
    Option (ThreadWorld Ptr × Int) := do
  let reactor ← srv dstSvc
  let (world, ret) ← reactor thisThread srcSvc msgId pkts world
  some ({ world with pool := Mempool.pktmbufFree pkts world.pool }, ret)

/-- `pm::setServiceReactor`. -/
def setServiceReactor (srv : UInt8 → Option (Reactor (ThreadWorld Ptr) Ptr)) (svcId : UInt8)
    (reactor : Reactor (ThreadWorld Ptr) Ptr) : UInt8 → Option (Reactor (ThreadWorld Ptr) Ptr) :=
  Function.update srv svcId (some reactor)

namespace Mempool

/-- Between two states the packet was returned to the pool once, nothing
happened to its count afterwards, and its count in the pool is 1. -/
def ReturnedOnce (m : Ptr) (before after : Mempool Ptr) : Prop :=
  after.refcnt m = 1 ∧ ∃ prior, after.events = before.events ++ prior ++ [.returned m] ∧
    .returned m ∉ prior

end Mempool

/-- A post to the own thread's TCP service goes through and returns the packet
once. -/
def PostReturnsOnce (srv : UInt8 → Option (Reactor (ThreadWorld Ptr) Ptr)) (env : TcpTimerEnv)
    (junk : RxJunk) (thisThread srcSvc : UInt8) (m : Ptr) (world : ThreadWorld Ptr) : Prop :=
  ∃ after ret, reactorPostLocal (setServiceReactor srv serviceProtoTcp (tcpReactor env junk))
      thisThread serviceProtoTcp srcSvc msgTcpRx m world = some (after, ret) ∧
    Mempool.ReturnedOnce m world.pool after.pool

section Counts
open AroopAutobuf Mempool

variable {m : Ptr} {pool : Mempool Ptr}

/-- A handle of its own around a callback takes a reference and gives it back. -/
theorem callbackHandles_eq (h : pool.refcnt m = 1) :
    callbackHandles (some m) pool =
      refcntUpdate m (-1) ((refcntUpdate m 1 pool).record (.read m)) := by
  have hTwo : (refcntUpdate m 1 pool).refcnt m ≠ 1 := by
    rw [refcnt_refcntUpdate, h]
    decide
  simp only [callbackHandles, fromPointer_rteAutobuf, moveConstruct, destroy_shared hTwo,
    destroy_empty]

theorem refcnt_callbackHandles (h : pool.refcnt m = 1) :
    (callbackHandles (some m) pool).refcnt m = 1 := by
  rw [callbackHandles_eq h, refcnt_refcntUpdate, refcnt_record, refcnt_refcntUpdate, h]
  decide

/-- The first handle, destroyed on an early return, leaves a count of zero. -/
theorem refcnt_destroy_owned (h : pool.refcnt m = 1) :
    (AroopAutobuf.destroy rteAutobuf { data := some m } pool).refcnt m = 0 := by
  have hRead : (pool.record (.read m)).refcnt m = 1 := h
  rw [destroy_last h, refcnt_refcntUpdate, pktmbufFree_one hRead, refcnt_record, refcnt_record,
    hRead]
  decide

/-- Another free takes such a count round to its largest value. -/
theorem refcnt_pktmbufFree_zero (h : pool.refcnt m = 0) :
    (pktmbufFree m pool).refcnt m ≠ 1 := by
  have hOther : pool.refcnt m ≠ 1 := by
    rw [h]
    decide
  rw [pktmbufFree_shared hOther, refcnt_refcntUpdate, refcnt_record, h]
  decide

end Counts

section Posts
variable {srv : UInt8 → Option (Reactor (ThreadWorld Ptr) Ptr)} {env : TcpTimerEnv} {junk : RxJunk}
  {thisThread srcSvc : UInt8} {m : Ptr} {world : ThreadWorld Ptr}

/-- A post to the own thread's TCP service is `handleTcpRx` and then a free. -/
theorem reactorPostLocal_tcp :
    reactorPostLocal (setServiceReactor srv serviceProtoTcp (tcpReactor env junk)) thisThread
      serviceProtoTcp srcSvc msgTcpRx m world =
    (handleTcpRxPacket env junk m world).map fun after =>
      ({ after with pool := Mempool.pktmbufFree m after.pool }, 0) := by
  simp only [reactorPostLocal, setServiceReactor, Function.update_self, Option.bind_eq_bind,
    Option.bind_some, tcpReactor, if_true]
  cases handleTcpRxPacket env junk m world <;> rfl

/-- An early return has freed the packet already. -/
theorem not_postReturnsOnce_of_early (hCount : world.pool.refcnt m = 1) {ctx' : TcpImpl}
    (h : handleTcpRxPacket env junk m world = some { world with
      ctx := ctx'
      pool := AroopAutobuf.destroy Mempool.rteAutobuf { data := some m } world.pool }) :
    ¬ PostReturnsOnce srv env junk thisThread srcSvc m world := by
  rintro ⟨after, ret, hPost, hOnce, _⟩
  rw [reactorPostLocal_tcp, h] at hPost
  cases hPost
  exact refcnt_pktmbufFree_zero (refcnt_destroy_owned hCount) hOnce

/-- A callback leaves the packet's count as it found it. -/
theorem postReturnsOnce_of_callback (hCount : world.pool.refcnt m = 1) {ctx' : TcpImpl}
    (h : handleTcpRxPacket env junk m world = some { world with
      ctx := ctx', pool := callbackHandles (some m) world.pool }) :
    PostReturnsOnce srv env junk thisThread srcSvc m world := by
  have hKept := refcnt_callbackHandles hCount
  refine ⟨_, 0, by rw [reactorPostLocal_tcp, h]; rfl, ?_⟩
  dsimp only
  rw [Mempool.pktmbufFree_one hKept]
  refine ⟨hKept, [.update m 1, .read m, .update m (-1), .read m], ?_, by simp⟩
  simp [callbackHandles_eq hCount]

theorem handleTcpRxPacket_dropped
    (h : parseFrame junk world.ctx.listen [world.packets m] = none) :
    handleTcpRxPacket env junk m world = some { world with
      pool := AroopAutobuf.destroy Mempool.rteAutobuf { data := some m } world.pool } := by
  simp [handleTcpRxPacket, TcpImpl.handleTcpRx, h, Mempool.ownWithoutIncrement_empty]

/-- What a parsed frame does: the early return, or a callback that alone can be
undefined. -/
theorem handleTcpRxPacket_parsed {parsed : ParsedFrame} {tcb : TcbRef} {index : TcpState}
    (hParse : parseFrame junk world.ctx.listen [world.packets m] = some parsed)
    (hDispatch : world.ctx.dispatch parsed.header.clientId = some (tcb, index)) :
    handleTcpRxPacket env junk m world =
      (world.ctx.segment env parsed.header).map fun ctx' => { world with
        ctx := ctx'
        pool := if index = .max then
            AroopAutobuf.destroy Mempool.rteAutobuf { data := some m } world.pool
          else callbackHandles (some m) world.pool } := by
  simp only [handleTcpRxPacket, TcpImpl.handleTcpRx, hParse, hDispatch, Option.bind_eq_bind,
    Option.bind_some, Mempool.ownWithoutIncrement_empty]
  cases world.ctx.segment env parsed.header with
  | none => rfl
  | some ctx' =>
      dsimp only [Option.bind_some, Option.map_some, AroopAutobuf.release]
      by_cases hIndex : index = .max
      · rw [if_pos hIndex, if_pos hIndex]
      · rw [if_neg hIndex, if_neg hIndex, Mempool.destroy_empty]

/-- A frame that passes the checks, of a client whose block is out of range. -/
theorem handleTcpRxPacket_hang {iphdr : BytePtr}
    (h : PassesChecks junk world.ctx.listen [world.packets m] iphdr)
    (hRange : ¬ world.ctx.StateInRange (parsedFrame junk [world.packets m] iphdr).header.clientId) :
    ∃ ctx', handleTcpRxPacket env junk m world = some { world with
      ctx := ctx'
      pool := AroopAutobuf.destroy Mempool.rteAutobuf { data := some m } world.pool } := by
  obtain ⟨p, tcb, _, _, hBlock, hDispatch⟩ := TcpImpl.hanging_block hRange
  rw [handleTcpRxPacket_parsed (parseFrame_of_passes h) hDispatch, if_pos rfl]
  simp [TcpImpl.segment, hDispatch, hBlock]

/-- A frame that passes the checks, of any other client. -/
theorem handleTcpRxPacket_callback {iphdr : BytePtr}
    (h : PassesChecks junk world.ctx.listen [world.packets m] iphdr)
    (hRange : world.ctx.StateInRange (parsedFrame junk [world.packets m] iphdr).header.clientId) :
    handleTcpRxPacket env junk m world =
      (world.ctx.segment env (parsedFrame junk [world.packets m] iphdr).header).map fun ctx' =>
        { world with ctx := ctx', pool := callbackHandles (some m) world.pool } := by
  obtain ⟨_, tcb, index, hDispatch, hIndex⟩ := (TcpImpl.invokes_iff h).mpr ⟨rfl, hRange⟩
  rw [handleTcpRxPacket_parsed (parseFrame_of_passes h) hDispatch, if_neg hIndex]

/-- The packet of a local post is returned once exactly when a callback of the
state machine runs to its end: the frame passes the checks, its client does not
hang, and the insertion does not leave the table. -/
theorem local_post_returns_once_iff (hCount : world.pool.refcnt m = 1) :
    PostReturnsOnce srv env junk thisThread srcSvc m world ↔
      ∃ iphdr, PassesChecks junk world.ctx.listen [world.packets m] iphdr ∧
        world.ctx.StateInRange (parsedFrame junk [world.packets m] iphdr).header.clientId ∧
        ¬ world.ctx.InsertsPastTable (parsedFrame junk [world.packets m] iphdr).header := by
  by_cases hPass : ∃ iphdr, PassesChecks junk world.ctx.listen [world.packets m] iphdr
  · obtain ⟨iphdr, h⟩ := hPass
    constructor
    · intro hOnce
      have hRange : world.ctx.StateInRange
          (parsedFrame junk [world.packets m] iphdr).header.clientId := by
        by_contra hHang
        obtain ⟨ctx', hEarly⟩ : ∃ ctx', handleTcpRxPacket env junk m world = some { world with
            ctx := ctx'
            pool := AroopAutobuf.destroy Mempool.rteAutobuf { data := some m } world.pool } :=
          handleTcpRxPacket_hang h hHang
        exact not_postReturnsOnce_of_early hCount hEarly hOnce
      obtain ⟨after, ret, hPost, _⟩ := hOnce
      rw [reactorPostLocal_tcp, handleTcpRxPacket_callback h hRange, Option.map_map] at hPost
      obtain ⟨ctx', hSegment, _⟩ := Option.map_eq_some_iff.mp hPost
      exact ⟨iphdr, h, hRange, TcpImpl.segment_defined_iff.mp ⟨ctx', hSegment⟩⟩
    · rintro ⟨other, hOther, hRange, hInside⟩
      cases h.ipAt.symm.trans hOther.ipAt
      obtain ⟨ctx', hSegment⟩ : ∃ ctx', world.ctx.segment env
          (parsedFrame junk [world.packets m] iphdr).header = some ctx' :=
        TcpImpl.segment_defined_iff.mpr hInside
      have hRun : handleTcpRxPacket env junk m world = some { world with
          ctx := ctx', pool := callbackHandles (some m) world.pool } := by
        rw [handleTcpRxPacket_callback h hRange, hSegment, Option.map_some]
      exact postReturnsOnce_of_callback hCount hRun
  · constructor
    · intro hOnce
      exact absurd hOnce
        (not_postReturnsOnce_of_early hCount (handleTcpRxPacket_dropped (parseFrame_none hPass)))
    · rintro ⟨iphdr, h, _⟩
      exact absurd ⟨iphdr, h⟩ hPass

end Posts

/-- A world with one packet of the given bytes and count 1. -/
def packetWorld (bytes : List UInt8) : ThreadWorld Unit :=
  { ctx := .init, packets := fun _ => .ofBytes bytes
    pool := { refcnt := fun _ => 1, events := [] } }

/-- The SYN of a new client. -/
def synWorld : ThreadWorld Unit := packetWorld (TcpFrame.segment 0x0A000001 7 8000 100 2)

/-- It is returned once. -/
theorem local_post_returns_once_iff_syn :
    PostReturnsOnce (fun _ => none) (fun _ _ => true) .zero 0 1 () synWorld := by
  let iphdr : BytePtr := { segment := synWorld.packets (), offset := 14 }
  have hPasses : PassesChecks .zero synWorld.ctx.listen [synWorld.packets ()] iphdr :=
    ⟨by decide, by decide, rfl, by decide, by decide, by decide⟩
  have hRange : synWorld.ctx.StateInRange
      (parsedFrame .zero [synWorld.packets ()] iphdr).header.clientId :=
    fun p key tcb _ hCell => by cases hCell
  have hSome : (synWorld.ctx.segment (fun _ _ => true)
    (parsedFrame .zero [synWorld.packets ()] iphdr).header).isSome := by decide
  exact (local_post_returns_once_iff rfl).mpr ⟨iphdr, hPasses, hRange,
    TcpImpl.segment_defined_iff.mp (Option.isSome_iff_exists.mp hSome)⟩

/-- Ten bytes are no frame. -/
def shortWorld : ThreadWorld Unit := packetWorld (List.replicate 10 0)

/-- They are freed by `handleTcpRx` and then again. -/
theorem short_packet_is_freed_twice :
    ¬ ∀ (srv : UInt8 → Option (Reactor (ThreadWorld Unit) Unit)) (env : TcpTimerEnv)
      (junk : RxJunk) (thisThread srcSvc : UInt8) (m : Unit) (world : ThreadWorld Unit),
      world.pool.refcnt m = 1 → PostReturnsOnce srv env junk thisThread srcSvc m world := by
  intro hAll
  have hDropped : parseFrame .zero shortWorld.ctx.listen [shortWorld.packets ()] = none := by
    decide
  exact not_postReturnsOnce_of_early rfl (handleTcpRxPacket_dropped hDropped)
    (hAll (fun _ => none) (fun _ _ => true) .zero 0 1 () shortWorld rfl)

end Nginz
