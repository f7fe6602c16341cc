import Mathlib.Logic.Function.Basic
import ReactDpdk.Core.Circular
import ReactDpdk.Core.MbufReaderBounds

/-! `core/reactor.hxx` and `nginz::reactorPost` of `core/plugin.cc`: messages from
thread to thread. What DPDK does to a packet is a parameter. -/
namespace Nginz
open Cyclic

def maxThreads : Nat := 8

def maxServices : Nat := 16

def threadMsgqSize : Nat := 64

/-- A reactor gets the source thread and service, the message id and the
packet. -/
abbrev Reactor (World Ptr : Type) := UInt8 → UInt8 → Int → Ptr → World → Option (World × Int)

/-- A packet, by its first segment and those behind it. -/
structure RtePacket where
  first : RteMbuf
  next : List RteMbuf := []

namespace RtePacket

def bytes (self : RtePacket) : List UInt8 := RteMbuf.chainBytes (self.first :: self.next)

/-- Start, length and bytes are the same. -/
structure SameData (packet other : RtePacket) : Prop where
  dataOff : packet.first.dataOff = other.first.dataOff
  dataLen : packet.first.dataLen = other.first.dataLen
  pktLen : packet.first.pktLen = other.first.pktLen
  bytes : packet.bytes = other.bytes

end RtePacket

/-- `memcpy` to the start of the data. -/
def RteMbuf.store (self : RteMbuf) (given : List UInt8) : RteMbuf :=
  { self with mem := fun i =>
      if self.dataOff.toNat ≤ i then (given[i - self.dataOff.toNat]?).getD (self.mem i)
      else self.mem i }

structure MsgHeader where
  srcThd : BitVec 4
  srcSvc : BitVec 4
  dstThd : BitVec 4
  dstSvc : BitVec 4

/-- The packed struct. The first of two bit fields is the lower half of a byte. -/
def MsgHeader.bytes (self : MsgHeader) : List UInt8 :=
  [.ofBitVec (self.srcSvc ++ self.srcThd), .ofBitVec (self.dstSvc ++ self.dstThd)]

/-- What the threads share: their queues, and the packets. -/
structure ReactorWorld (Ptr : Type) where
  queues : Fin maxThreads → BusMpSc Ptr threadMsgqSize
  packets : Ptr → RtePacket

/-- The functions of DPDK that a post calls. `prepend` gives the first segment as
it is then, whose data start at the returned pointer, or null. -/
structure PacketOps (Ptr : Type) where
  prepend : RteMbuf → UInt16 → Option RteMbuf
  free : Ptr → ReactorWorld Ptr → ReactorWorld Ptr

variable {Ptr : Type} [DecidableEq Ptr]

/-- The fields are assigned from eight bits, of which they keep four. -/
def msgHeader (thisThread targetThread dstSvc srcSvc : UInt8) : MsgHeader :=
  { srcThd := thisThread.toBitVec.setWidth 4, srcSvc := srcSvc.toBitVec.setWidth 4
    dstThd := targetThread.toBitVec.setWidth 4, dstSvc := dstSvc.toBitVec.setWidth 4 }

/-- `reactorPost`. A failed assertion, a service without a reactor and a queue
past the last are undefined. -/
def reactorPost (ops : PacketOps Ptr) (srv : UInt8 → Option (Reactor (ReactorWorld Ptr) Ptr))
    (thisThread targetThread dstSvc srcSvc : UInt8) (msgId : Int) (pkts : Ptr)
    (world : ReactorWorld Ptr) : Option (ReactorWorld Ptr × Int) := do
  if targetThread = thisThread then
    let reactor ← srv dstSvc
    let (world, ret) ← reactor thisThread srcSvc msgId pkts world
    some (ops.free pkts world, ret)
  else
    let header := msgHeader thisThread targetThread dstSvc srcSvc
    let buff ← ops.prepend (world.packets pkts).first 2
    let packet := { world.packets pkts with first := buff.store header.bytes }
    let packets := Function.update world.packets pkts packet
    if h : targetThread.toNat < maxThreads then
      let target : Fin maxThreads := ⟨targetThread.toNat, h⟩
      let (queue, ret) := (world.queues target).push pkts
      some ({ queues := Function.update world.queues target queue, packets := packets }, ret)
    else none

/-- What is documented of `rte_pktmbuf_prepend`: in the headroom, the data start
that much earlier and are that much longer. -/
def PacketOps.PrependsInHeadroom (ops : PacketOps Ptr) : Prop :=
  ∀ (m : RteMbuf) (len : UInt16), len ≤ m.dataOff → ops.prepend m len =
    some { m with dataOff := m.dataOff - len, dataLen := m.dataLen + len
                  pktLen := m.pktLen + len.toUInt32 }

namespace BusMpSc
variable {T : Type*} {capacity : Nat}

/-- The messages of a ring, the oldest first: from behind the position read last
up to the one to be written. -/
def messages (self : BusMpSc T capacity) : List T :=
  (List.range (distance (advance self.readPos 1) self.writePos)).map fun i =>
    self.data (advance (advance self.readPos 1) i)

variable {self : BusMpSc T capacity}

/-- A ring that is not full has room for one more step before the position that
was read last. -/
theorem distance_succ_lt (h : self.writePos ≠ self.readPos) :
    distance (advance self.readPos 1) self.writePos + 1 < capacity := by
  have hLess := distance_lt (advance self.readPos 1) self.writePos
  by_contra hTurn
  have hTotal : distance (advance self.readPos 1) self.writePos + 1 = capacity := by omega
  have hThere := advance_distance (advance self.readPos 1) self.writePos
  rw [advance_advance, Nat.add_comm, hTotal] at hThere
  apply h
  rw [← hThere]
  apply Fin.ext
  rw [advance_val, Nat.add_mod_left, Nat.mod_eq_of_lt self.readPos.isLt]

/-- A successful push adds the last message. -/
theorem messages_push (h : self.writePos ≠ self.readPos) (given : T) :
    (self.push given).1.messages = self.messages ++ [given] := by
  have hRoom := distance_succ_lt h
  have hThere := advance_distance (advance self.readPos 1) self.writePos
  have hCount : distance (advance self.readPos 1) (advance self.writePos 1) =
      distance (advance self.readPos 1) self.writePos + 1 := by
    rw [← hThere, advance_succ, distance_advance hRoom, hThere]
  rw [push_of_room h, messages, messages, setData]
  dsimp only
  rw [hCount, List.range_succ, List.map_append, List.map_singleton, hThere, Function.update_self]
  congr 1
  apply List.map_congr_left
  intro i hi
  rw [List.mem_range] at hi
  apply Function.update_of_ne
  rw [← hThere, Ne, advance_inj (by omega) (by omega)]
  exact Nat.ne_of_lt hi

end BusMpSc

section Header

theorem RteMbuf.byteAt_store (self : RteMbuf) (given : List UInt8) (i : Nat) :
    (self.store given).byteAt i = (given[i]?).getD (self.byteAt i) := by
  simp [byteAt, store]

/-- The first segment as `rte_pktmbuf_prepend` leaves it. -/
def prepended (first : RteMbuf) : RteMbuf :=
  { first with dataOff := first.dataOff - 2, dataLen := first.dataLen + 2
               pktLen := first.pktLen + (2 : UInt16).toUInt32 }

/-- With the header in front of its data. -/
def withHeader (first : RteMbuf) (header : MsgHeader) : RteMbuf :=
  (prepended first).store header.bytes

variable {first : RteMbuf} {header : MsgHeader}

theorem dataOff_prepended (h : 2 ≤ first.dataOff) :
    (prepended first).dataOff.toNat + 2 = first.dataOff.toNat := by
  have hTwo : (2 : UInt16).toNat = 2 := rfl
  have hLe := UInt16.le_iff_toNat_le.mp h
  rw [prepended, UInt16.toNat_sub_of_le _ _ h, hTwo]
  omega

/-- The data behind the header are where they were. -/
theorem byteAt_prepended (h : 2 ≤ first.dataOff) (i : Nat) :
    (prepended first).byteAt (2 + i) = first.byteAt i := by
  have hOff := dataOff_prepended h
  have hPlace : (prepended first).dataOff.toNat + (2 + i) = first.dataOff.toNat + i := by omega
  rw [RteMbuf.byteAt, RteMbuf.byteAt, hPlace]
  rfl

theorem dataLen_prepended (h : 2 ≤ first.dataOff)
    (hFits : first.dataOff.toNat + first.dataLen.toNat < UInt16.size) :
    (prepended first).dataLen.toNat = 2 + first.dataLen.toNat := by
  have hTwo : (2 : UInt16).toNat = 2 := rfl
  have hSize : UInt16.size = 2 ^ 16 := rfl
  have hLe := UInt16.le_iff_toNat_le.mp h
  rw [prepended, UInt16.toNat_add, hTwo]
  omega

/-- A packet that fits in its buffer still does, and starts with the header. -/
theorem bytes_withHeader (h : 2 ≤ first.dataOff)
    (hFits : first.dataOff.toNat + first.dataLen.toNat < UInt16.size) :
    (withHeader first header).bytes = header.bytes ++ first.bytes := by
  have hLen : (withHeader first header).dataLen.toNat = 2 + first.dataLen.toNat :=
    dataLen_prepended h hFits
  have hHeader : (List.range 2).map (withHeader first header).byteAt = header.bytes := by
    simp [withHeader, RteMbuf.byteAt_store, MsgHeader.bytes, List.range_succ]
  have hRest (i : Nat) : (withHeader first header).byteAt (2 + i) = first.byteAt i := by
    have hNone : header.bytes[2 + i]? = none :=
      List.getElem?_eq_none (Nat.le_add_right 2 i)
    rw [withHeader, RteMbuf.byteAt_store, byteAt_prepended h, hNone, Option.getD_none]
  rw [RteMbuf.bytes, hLen, List.range_add, List.map_append, List.map_map, hHeader]
  congr 1
  apply List.map_congr_left
  intro i _
  exact hRest i

end Header

section Post
variable {ops : PacketOps Ptr} {srv : UInt8 → Option (Reactor (ReactorWorld Ptr) Ptr)}
  {thisThread targetThread dstSvc srcSvc : UInt8} {msgId : Int} {pkts : Ptr}
  {world : ReactorWorld Ptr}

/-- The packets once the header is written. -/
def ReactorWorld.prepare (world : ReactorWorld Ptr) (pkts : Ptr) (header : MsgHeader) :
    Ptr → RtePacket :=
  Function.update world.packets pkts
    { world.packets pkts with first := withHeader (world.packets pkts).first header }

theorem ReactorWorld.prepare_self (world : ReactorWorld Ptr) (pkts : Ptr) (header : MsgHeader) :
    world.prepare pkts header pkts =
      { world.packets pkts with first := withHeader (world.packets pkts).first header } :=
  Function.update_self ..

/-- A post to another thread writes the header and then pushes the packet. -/
theorem reactorPost_remote (hOps : ops.PrependsInHeadroom) (hRemote : targetThread ≠ thisThread)
    (hTarget : targetThread.toNat < maxThreads) (hRoom : 2 ≤ (world.packets pkts).first.dataOff) :
    reactorPost ops srv thisThread targetThread dstSvc srcSvc msgId pkts world =
      some ({ queues := Function.update world.queues ⟨targetThread.toNat, hTarget⟩
                ((world.queues ⟨targetThread.toNat, hTarget⟩).push pkts).1
              packets := world.prepare pkts (msgHeader thisThread targetThread dstSvc srcSvc) },
        ((world.queues ⟨targetThread.toNat, hTarget⟩).push pkts).2) := by
  rw [reactorPost, if_neg hRemote, hOps _ _ hRoom, Option.bind_eq_bind, Option.bind_some,
    dif_pos hTarget]
  rfl

/-- A remote post is all or nothing: if it fails, queues and packet are as before,
otherwise the queue of the target has the packet and nothing else changed in the
queues. -/
def PostIsAtomic (ops : PacketOps Ptr) (srv : UInt8 → Option (Reactor (ReactorWorld Ptr) Ptr))
    (thisThread targetThread dstSvc srcSvc : UInt8) (msgId : Int) (pkts : Ptr)
    (world : ReactorWorld Ptr) (target : Fin maxThreads) : Prop :=
  ∃ after ret,
    reactorPost ops srv thisThread targetThread dstSvc srcSvc msgId pkts world =
      some (after, ret) ∧
    (ret ≠ 0 → after.queues = world.queues ∧
      (after.packets pkts).SameData (world.packets pkts)) ∧
    (ret = 0 → (after.queues target).messages = (world.queues target).messages ++ [pkts] ∧
      ∀ other, other ≠ target → after.queues other = world.queues other)

/-- For every packet with headroom, every source and destination and all queues:
a post to another thread is all or nothing exactly when the queue of the target
is not full. A full queue leaves the header in front of the packet. -/
theorem remote_post_atomic_iff (hOps : ops.PrependsInHeadroom)
    (hRemote : targetThread ≠ thisThread) (hTarget : targetThread.toNat < maxThreads)
    (hRoom : 2 ≤ (world.packets pkts).first.dataOff) :
    PostIsAtomic ops srv thisThread targetThread dstSvc srcSvc msgId pkts world
        ⟨targetThread.toNat, hTarget⟩ ↔
      (world.queues ⟨targetThread.toNat, hTarget⟩).writePos ≠
        (world.queues ⟨targetThread.toNat, hTarget⟩).readPos := by
  rw [PostIsAtomic, reactorPost_remote hOps hRemote hTarget hRoom]
  constructor
  · rintro ⟨after, ret, hPost, hFailed, _⟩ hFull
    cases hPost
    rw [BusMpSc.push_of_full hFull] at hFailed
    have hNonzero : (-1 : Int) ≠ 0 := by decide
    obtain ⟨_, hSame⟩ := hFailed hNonzero
    dsimp only at hSame
    rw [ReactorWorld.prepare_self] at hSame
    have hStart : (prepended (world.packets pkts).first).dataOff =
        (world.packets pkts).first.dataOff := hSame.dataOff
    have hOff := dataOff_prepended hRoom
    rw [hStart] at hOff
    omega
  · intro hFree
    refine ⟨_, _, rfl, ?_, ?_⟩
    · intro hFailed
      exact absurd (congrArg Prod.snd (BusMpSc.push_of_room hFree pkts)) hFailed
    · intro _
      dsimp only
      constructor
      · rw [Function.update_self]
        exact BusMpSc.messages_push hFree pkts
      · intro other hOther
        exact Function.update_of_ne hOther ..

section Encoding

/-- A call of `reactorPost`, with the state in which it is made. -/
structure RemoteCall (Ptr : Type) where
  srcThd : UInt8
  srcSvc : UInt8
  dstThd : UInt8
  dstSvc : UInt8
  msgId : Int
  pkts : Ptr
  world : ReactorWorld Ptr

namespace RemoteCall

/-- The data of the packet that is posted. -/
def bytes (self : RemoteCall Ptr) : List UInt8 := (self.world.packets self.pkts).bytes

/-- A post to another thread, with ids that exist, of a packet with headroom that
fits in its buffer. -/
structure Legal (call : RemoteCall Ptr) : Prop where
  srcThd : call.srcThd.toNat < maxThreads
  dstThd : call.dstThd.toNat < maxThreads
  remote : call.dstThd ≠ call.srcThd
  srcSvc : call.srcSvc.toNat < maxServices
  dstSvc : call.dstSvc.toNat < maxServices
  headroom : 2 ≤ (call.world.packets call.pkts).first.dataOff
  fits : (call.world.packets call.pkts).first.dataOff.toNat +
    (call.world.packets call.pkts).first.dataLen.toNat < UInt16.size

/-- The call succeeds, and these are the data of the packet that it queued. -/
def Queues (call : RemoteCall Ptr) (ops : PacketOps Ptr)
    (srv : UInt8 → Option (Reactor (ReactorWorld Ptr) Ptr)) (queued : List UInt8) : Prop :=
  ∃ after, reactorPost ops srv call.srcThd call.dstThd call.dstSvc call.srcSvc call.msgId call.pkts
      call.world = some (after, 0) ∧ (after.packets call.pkts).bytes = queued

/-- The calls agree in their threads, their services and their data. -/
structure SameRoute (call other : RemoteCall Ptr) : Prop where
  srcThd : call.srcThd = other.srcThd
  srcSvc : call.srcSvc = other.srcSvc
  dstThd : call.dstThd = other.dstThd
  dstSvc : call.dstSvc = other.dstSvc
  bytes : call.bytes = other.bytes

/-- They agree in all that a reactor is invoked with. -/
structure SameMessage (call other : RemoteCall Ptr) : Prop extends SameRoute call other where
  msgId : call.msgId = other.msgId

/-- Two halves of a byte that are assigned from bytes below sixteen. -/
theorem halves_inj {hi lo hi' lo' : UInt8} (hHi : hi.toNat < 16) (hLo : lo.toNat < 16)
    (hHi' : hi'.toNat < 16) (hLo' : lo'.toNat < 16)
    (h : UInt8.ofBitVec (hi.toBitVec.setWidth 4 ++ lo.toBitVec.setWidth 4) =
      UInt8.ofBitVec (hi'.toBitVec.setWidth 4 ++ lo'.toBitVec.setWidth 4)) :
    hi = hi' ∧ lo = lo' := by
  have hJoin {x y : UInt8} (hx : x.toNat < 16) (hy : y.toNat < 16) :
      (UInt8.ofBitVec (x.toBitVec.setWidth 4 ++ y.toBitVec.setWidth 4)).toNat =
        x.toNat * 16 + y.toNat := by
    have hFour (z : UInt8) (hz : z.toNat < 16) : (z.toBitVec.setWidth 4).toNat = z.toNat := by
      rw [BitVec.toNat_setWidth]
      exact Nat.mod_eq_of_lt hz
    rw [UInt8.toNat_ofBitVec, BitVec.toNat_append, hFour x hx, hFour y hy,
      ← Nat.shiftLeft_add_eq_or_of_lt hy, Nat.shiftLeft_eq]
  have hSame := congrArg UInt8.toNat h
  rw [hJoin hHi hLo, hJoin hHi' hLo'] at hSame
  constructor
  · apply UInt8.toNat_inj.mp
    omega
  · apply UInt8.toNat_inj.mp
    omega

/-- The data of a packet behind its header. -/
theorem bytes_prepare {call : RemoteCall Ptr} (h : call.Legal) (header : MsgHeader) :
    (call.world.prepare call.pkts header call.pkts).bytes = header.bytes ++ call.bytes := by
  rw [ReactorWorld.prepare_self, RtePacket.bytes, RteMbuf.chainBytes_cons,
    bytes_withHeader h.headroom h.fits, List.append_assoc]
  rfl

/-- A queue with room gets the header and the data. -/
theorem Legal.queues {call : RemoteCall Ptr} (h : call.Legal) (hOps : ops.PrependsInHeadroom)
    (hFree : (call.world.queues ⟨call.dstThd.toNat, h.dstThd⟩).writePos ≠
      (call.world.queues ⟨call.dstThd.toNat, h.dstThd⟩).readPos) :
    call.Queues ops srv
      ((msgHeader call.srcThd call.dstThd call.dstSvc call.srcSvc).bytes ++ call.bytes) := by
  rw [Queues, reactorPost_remote hOps h.remote h.dstThd h.headroom,
    BusMpSc.push_of_room hFree]
  exact ⟨_, rfl, bytes_prepare h _⟩

/-- Nothing else is ever queued. -/
theorem queued_eq {call : RemoteCall Ptr} (hOps : ops.PrependsInHeadroom) (h : call.Legal)
    {queued : List UInt8} (hQueued : call.Queues ops srv queued) :
    queued = (msgHeader call.srcThd call.dstThd call.dstSvc call.srcSvc).bytes ++ call.bytes := by
  obtain ⟨after, hPost, rfl⟩ := hQueued
  rw [reactorPost_remote hOps h.remote h.dstThd h.headroom] at hPost
  have hAfter := congrArg ReactorWorld.packets (Prod.mk.inj (Option.some.inj hPost)).1
  dsimp only at hAfter
  rw [← hAfter, bytes_prepare h]

/-- Two calls queue the same data exactly when they agree in all but the message
id, which is not encoded. -/
theorem queued_eq_iff {call other : RemoteCall Ptr} (hOps : ops.PrependsInHeadroom)
    (hCall : call.Legal) (hOther : other.Legal) {queued queued' : List UInt8}
    (hQueued : call.Queues ops srv queued) (hQueued' : other.Queues ops srv queued') :
    queued = queued' ↔ call.SameRoute other := by
  rw [queued_eq hOps hCall hQueued, queued_eq hOps hOther hQueued']
  constructor
  · intro hSame
    have hHeaders : (msgHeader call.srcThd call.dstThd call.dstSvc call.srcSvc).bytes.length =
        (msgHeader other.srcThd other.dstThd other.dstSvc other.srcSvc).bytes.length := rfl
    obtain ⟨hHeader, hBytes⟩ := List.append_inj hSame hHeaders
    obtain ⟨hSource, hRest⟩ := List.cons.inj hHeader
    obtain ⟨hTarget, _⟩ := List.cons.inj hRest
    have hThreads : maxThreads ≤ 16 := by decide
    obtain ⟨hSrcSvc, hSrcThd⟩ := halves_inj hCall.srcSvc (hCall.srcThd.trans_le hThreads)
      hOther.srcSvc (hOther.srcThd.trans_le hThreads) hSource
    obtain ⟨hDstSvc, hDstThd⟩ := halves_inj hCall.dstSvc (hCall.dstThd.trans_le hThreads)
      hOther.dstSvc (hOther.dstThd.trans_le hThreads) hTarget
    exact ⟨hSrcThd, hSrcSvc, hDstThd, hDstSvc, hBytes⟩
  · intro hSame
    rw [hSame.srcThd, hSame.dstThd, hSame.srcSvc, hSame.dstSvc, hSame.bytes]

/-- For all threads, services, message ids and packets with headroom: that two
posts queue the same data tells their messages the same exactly when they have the
message id in common, or differ in something else. -/
theorem remote_post_determines_iff {call other : RemoteCall Ptr} (hOps : ops.PrependsInHeadroom)
    (hCall : call.Legal) (hOther : other.Legal) {queued queued' : List UInt8}
    (hQueued : call.Queues ops srv queued) (hQueued' : other.Queues ops srv queued') :
    (queued = queued' → call.SameMessage other) ↔
      call.msgId = other.msgId ∨ ¬ call.SameRoute other := by
  rw [queued_eq_iff hOps hCall hOther hQueued hQueued']
  constructor
  · intro hTells
    by_cases hRoute : call.SameRoute other
    · exact Or.inl (hTells hRoute).msgId
    · exact Or.inr hRoute
  · rintro (hMsgId | hDiffer) hRoute
    · exact ⟨hRoute, hMsgId⟩
    · exact absurd hRoute hDiffer

end RemoteCall

end Encoding

end Post

section Samples

/-- DPDK on packets in a table that nobody frees. -/
def sampleOps : PacketOps Nat where
  prepend m len :=
    if len ≤ m.dataOff then
      some { m with dataOff := m.dataOff - len, dataLen := m.dataLen + len
                    pktLen := m.pktLen + len.toUInt32 }
    else none
  free _ world := world

theorem sampleOps_prepends : sampleOps.PrependsInHeadroom := fun _ _ h => if_pos h

/-- Eight queues that were never read, and packets of one byte. -/
def sampleReactors (writePos : Fin threadMsgqSize) : ReactorWorld Nat :=
  { queues := fun _ => { readPos := ⟨0, by decide⟩, data := fun _ => 0, writePos := writePos }
    packets := fun _ => { first := .ofBytes [7] } }

theorem remote_post_atomic_iff_empty :
    PostIsAtomic sampleOps (fun _ => none) 0 1 2 3 4 5 (sampleReactors ⟨1, by decide⟩)
      ⟨1, by decide⟩ :=
  (remote_post_atomic_iff sampleOps_prepends (by decide) (by decide) (by decide)).mpr (by decide)

/-- A queue whose positions met again is full: the packet keeps the header. -/
theorem full_queue_keeps_header :
    ¬ ∀ (ops : PacketOps Nat) (srv : UInt8 → Option (Reactor (ReactorWorld Nat) Nat))
      (thisThread targetThread dstSvc srcSvc : UInt8) (msgId : Int) (pkts : Nat)
      (world : ReactorWorld Nat) (target : Fin maxThreads), ops.PrependsInHeadroom →
      targetThread ≠ thisThread → targetThread.toNat = target.val →
      2 ≤ (world.packets pkts).first.dataOff →
      PostIsAtomic ops srv thisThread targetThread dstSvc srcSvc msgId pkts world target := by
  intro hAll
  obtain ⟨after, ret, hPost, hFailed, _⟩ := hAll sampleOps (fun _ => none) 0 1 2 3 4 5
    (sampleReactors ⟨0, by decide⟩) ⟨1, by decide⟩ sampleOps_prepends (by decide) rfl (by decide)
  have hFull : ((reactorPost sampleOps (fun _ => none) 0 1 2 3 4 5
      (sampleReactors ⟨0, by decide⟩)).map fun result =>
        (result.2, (result.1.packets 5).first.dataOff)) = some (-1, 126) := by decide
  rw [hPost, Option.map_some, Option.some.injEq, Prod.mk.injEq] at hFull
  obtain ⟨hRet, hStart⟩ : ret = -1 ∧ (after.packets 5).first.dataOff = 126 := hFull
  have hNonzero : ret ≠ 0 := by
    rw [hRet]
    decide
  have hSame := (hFailed hNonzero).2.dataOff
  rw [hStart] at hSame
  exact absurd hSame (by decide)

/-- A post from thread 0 to thread 1. -/
def sampleCall (msgId : Int) : RemoteCall Nat :=
  { srcThd := 0, srcSvc := 3, dstThd := 1, dstSvc := 2, msgId := msgId, pkts := 5
    world := sampleReactors ⟨1, by decide⟩ }

theorem sampleCall_legal (msgId : Int) : (sampleCall msgId).Legal := by
  have hFixed : (sampleCall 6).Legal :=
    ⟨by decide, by decide, by decide, by decide, by decide, by decide, by decide⟩
  exact { hFixed with }

theorem sampleCall_queues (msgId : Int) :
    (sampleCall msgId).Queues sampleOps (fun _ => none) [48, 33, 7] := by
  have hBytes : (msgHeader 0 1 2 3).bytes ++ (sampleCall 6).bytes = [48, 33, 7] := by decide
  have hFree : (1 : Fin 64) ≠ 0 := by decide
  rw [← hBytes]
  exact (sampleCall_legal msgId).queues sampleOps_prepends hFree

/-- Another post, from another service and with another id. -/
def otherCall : RemoteCall Nat := { sampleCall 7 with srcSvc := 4 }

theorem otherCall_legal : otherCall.Legal := { sampleCall_legal 7 with srcSvc := by decide }

theorem otherCall_queues : otherCall.Queues sampleOps (fun _ => none) [64, 33, 7] := by
  have hBytes : (msgHeader 0 1 2 4).bytes ++ otherCall.bytes = [64, 33, 7] := by decide
  have hFree : (1 : Fin 64) ≠ 0 := by decide
  rw [← hBytes]
  exact otherCall_legal.queues sampleOps_prepends hFree

theorem remote_post_determines_iff_other_service :
    (([48, 33, 7] : List UInt8) = [64, 33, 7] → (sampleCall 6).SameMessage otherCall) ↔
      (sampleCall 6).msgId = otherCall.msgId ∨ ¬ (sampleCall 6).SameRoute otherCall :=
  RemoteCall.remote_post_determines_iff sampleOps_prepends (sampleCall_legal 6) otherCall_legal
    (sampleCall_queues 6) otherCall_queues

/-- The message id is lost on the way. -/
theorem message_id_is_not_encoded :
    ¬ ∀ (ops : PacketOps Nat) (srv : UInt8 → Option (Reactor (ReactorWorld Nat) Nat))
      (call other : RemoteCall Nat) (queued queued' : List UInt8), ops.PrependsInHeadroom →
      call.Legal → other.Legal → call.Queues ops srv queued → other.Queues ops srv queued' →
      queued = queued' → call.SameMessage other := by
  intro hAll
  have hSame := hAll sampleOps (fun _ => none) (sampleCall 6) (sampleCall 7) _ _ sampleOps_prepends
    (sampleCall_legal 6) (sampleCall_legal 7) (sampleCall_queues 6) (sampleCall_queues 7) rfl
  exact absurd hSame.msgId (by decide)

end Samples

end Nginz
