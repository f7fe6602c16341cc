import ReactDpdk.Core.RemotePost

/-! Runs of posts from thread to thread. The loop that would take messages out of
`mbuf_mpsc` is disabled in `internal_thread::run`, so the queues only fill up. -/
namespace Nginz
open Cyclic Transition

namespace BusMpSc
variable {T : Type*} {capacity : Nat} {ring : BusMpSc T capacity} {origin : Fin capacity}
  {log : List T} {r : Nat}

/-- The messages are what lies behind the entry read last. -/
theorem Window.messages (h : ring.Window origin log r) : ring.messages = log.drop (r + 1) := by
  have hBound := h.bounded
  have hSome := h.nonempty
  have hCount : distance (advance ring.readPos 1) ring.writePos = log.length - (r + 1) := by
    have hWrite : ring.writePos = advance (advance origin (r + 1)) (log.length - (r + 1)) := by
      rw [h.write, advance_advance, Nat.add_sub_cancel' hSome]
    rw [h.read, advance_succ, hWrite, distance_advance (by omega)]
  apply List.ext_getElem
  · rw [BusMpSc.messages, List.length_map, List.length_range, hCount, List.length_drop]
  · intro i _ hInside
    rw [List.length_drop] at hInside
    have hGet : log[r + 1 + i]? = some log[r + 1 + i] := List.getElem?_eq_getElem (by omega)
    simp only [BusMpSc.messages, List.getElem_map, List.getElem_range, List.getElem_drop]
    rw [h.read, advance_succ, advance_advance]
    exact h.held _ _ (by omega) hGet

end BusMpSc

variable {Ptr : Type} [DecidableEq Ptr]

/-- A call of `reactorPost` with another thread as the target. -/
structure Post (Ptr : Type) where
  srcThd : Fin maxThreads
  dstThd : Fin maxThreads
  srcSvc : UInt8
  dstSvc : UInt8
  msgId : Int
  pkts : Ptr

namespace Post

def header (self : Post Ptr) : MsgHeader :=
  msgHeader (.ofNat self.srcThd) (.ofNat self.dstThd) self.dstSvc self.srcSvc

/-- The call in a world, with its answer. -/
def call (ops : PacketOps Ptr) (srv : UInt8 → Option (Reactor (ReactorWorld Ptr) Ptr))
    (self : Post Ptr) (world : ReactorWorld Ptr) : Option (ReactorWorld Ptr × Int) :=
  reactorPost ops srv (.ofNat self.srcThd) (.ofNat self.dstThd) self.dstSvc self.srcSvc self.msgId
    self.pkts world

/-- The target is another thread, and the packet has headroom and fits in its buffer. -/
structure Legal (post : Post Ptr) (packet : RtePacket) : Prop where
  remote : post.srcThd ≠ post.dstThd
  headroom : 2 ≤ packet.first.dataOff
  fits : packet.first.dataOff.toNat + packet.first.dataLen.toNat < UInt16.size

end Post

/-- The worlds, with the answers so far. -/
def ReactorWorld.post (ops : PacketOps Ptr)
    (srv : UInt8 → Option (Reactor (ReactorWorld Ptr) Ptr)) (before : ReactorWorld Ptr × List Int)
    (post : Post Ptr) : Option (ReactorWorld Ptr × List Int) :=
  (post.call ops srv before.1).map fun ret => (ret.1, before.2 ++ [ret.2])

/-- The packets that wait for each thread. -/
abbrev Mailboxes (Ptr : Type) := Fin maxThreads → List Ptr

/-- One less than the size of the array. -/
def mailboxSize : Nat := threadMsgqSize - 1

namespace Mailboxes

def empty : Mailboxes Ptr := fun _ => []

/-- A mailbox takes a packet while there is room. -/
def post (self : Mailboxes Ptr) (post : Post Ptr) : Mailboxes Ptr × Int :=
  if (self post.dstThd).length < mailboxSize then
    (Function.update self post.dstThd (self post.dstThd ++ [post.pkts]), 0)
  else (self, -1)

/-- Each queue is a window that nothing was ever read from. -/
def Holds (m : Mailboxes Ptr) (world : ReactorWorld Ptr) : Prop :=
  ∀ t, ∃ origin first, (world.queues t).Window origin (first :: m t) 0

variable {m : Mailboxes Ptr} {world : ReactorWorld Ptr} {post : Post Ptr} {ops : PacketOps Ptr}
  {srv : UInt8 → Option (Reactor (ReactorWorld Ptr) Ptr)}

omit [DecidableEq Ptr] in
/-- What such queues hold is in the mailboxes. -/
theorem Holds.messages (h : m.Holds world) (t : Fin maxThreads) :
    (world.queues t).messages = m t := by
  obtain ⟨origin, first, hWindow⟩ := h t
  rw [hWindow.messages]
  rfl

omit [DecidableEq Ptr] in
theorem Holds.length_le (h : m.Holds world) (t : Fin maxThreads) : (m t).length ≤ mailboxSize := by
  obtain ⟨origin, first, hWindow⟩ := h t
  have hBound := hWindow.bounded
  rw [List.length_cons, Nat.zero_add] at hBound
  exact Nat.le_sub_one_of_lt hBound

/-- A packet that is posted gets the header in front of its data. -/
theorem bytes_prepare_post {packets : Ptr → RtePacket} (h : post.Legal (packets post.pkts)) :
    (ReactorWorld.prepare { world with packets := packets } post.pkts post.header post.pkts).bytes =
      post.header.bytes ++ (packets post.pkts).bytes := by
  rw [ReactorWorld.prepare_self, RtePacket.bytes, RteMbuf.chainBytes_cons,
    bytes_withHeader h.headroom h.fits, List.append_assoc]
  rfl

/-- A post goes to the mailbox of its target, and answers for it. -/
theorem Holds.next (h : m.Holds world) (hOps : ops.PrependsInHeadroom)
    (srv : UInt8 → Option (Reactor (ReactorWorld Ptr) Ptr))
    (hLegal : post.Legal (world.packets post.pkts)) :
    ∃ after, post.call ops srv world = some (after, (m.post post).2) ∧ (m.post post).1.Holds after ∧
      after.packets = world.prepare post.pkts post.header := by
  have hTarget : (UInt8.ofNat post.dstThd.val).toNat = post.dstThd.val := by
    rw [UInt8.toNat_ofNat']
    exact Nat.mod_eq_of_lt (post.dstThd.isLt.trans (by decide))
  have hInside : (UInt8.ofNat post.dstThd.val).toNat < maxThreads := by
    rw [hTarget]
    exact post.dstThd.isLt
  have hHere : (⟨_, hInside⟩ : Fin maxThreads) = post.dstThd := Fin.ext hTarget
  have hRemote : UInt8.ofNat post.dstThd.val ≠ .ofNat post.srcThd.val := by
    intro hSame
    have hNat := congrArg UInt8.toNat hSame
    rw [hTarget, UInt8.toNat_ofNat', Nat.mod_eq_of_lt (post.srcThd.isLt.trans (by decide))] at hNat
    exact hLegal.remote (Fin.ext hNat.symm)
  obtain ⟨origin, first, hWindow⟩ := h post.dstThd
  have hLength := h.length_le post.dstThd
  rw [Post.call, reactorPost_remote hOps hRemote hInside hLegal.headroom, hHere, Mailboxes.post]
  by_cases hRoom : (m post.dstThd).length < mailboxSize
  · have hFree : (first :: m post.dstThd).length < 0 + threadMsgqSize := by
      rw [List.length_cons, Nat.zero_add]
      exact Nat.lt_of_le_of_lt hRoom (by decide)
    obtain ⟨hPushed, hRet⟩ := hWindow.push hFree post.pkts
    rw [if_pos hRoom, hRet]
    refine ⟨_, rfl, ?_, rfl⟩
    intro t
    dsimp only
    by_cases hThere : t = post.dstThd
    · subst hThere
      rw [Function.update_self, Function.update_self]
      exact ⟨origin, first, hPushed⟩
    · rw [Function.update_of_ne hThere, Function.update_of_ne hThere]
      exact h t
  · have hFull : (world.queues post.dstThd).writePos = (world.queues post.dstThd).readPos := by
      have hAll := Nat.le_antisymm hLength (not_lt.mp hRoom)
      rw [hWindow.full_iff, List.length_cons, Nat.zero_add, hAll]
      rfl
    rw [if_neg hRoom, BusMpSc.push_of_full hFull]
    refine ⟨_, rfl, ?_, rfl⟩
    intro t
    dsimp only
    rw [Function.update_eq_self]
    exact h t

/-- The mailboxes after all posts. -/
def deliver (self : Mailboxes Ptr) (posts : List (Post Ptr)) : Mailboxes Ptr :=
  posts.foldl (fun m post => (m.post post).1) self

/-- What one thread is posted. -/
def sentTo (t : Fin maxThreads) (posts : List (Post Ptr)) : List Ptr :=
  (posts.filter fun post => post.dstThd = t).map Post.pkts

omit [DecidableEq Ptr] in
theorem sentTo_cons (t : Fin maxThreads) (post : Post Ptr) (posts : List (Post Ptr)) :
    sentTo t (post :: posts) = (if post.dstThd = t then [post.pkts] else []) ++ sentTo t posts := by
  by_cases hHere : post.dstThd = t <;> simp [sentTo, hHere]

omit [DecidableEq Ptr] in
theorem take_concat_of_length_le {xs : List Ptr} {n : Nat} (h : xs.length ≤ n) (x : Ptr) :
    (xs ++ [x]).take n = if xs.length < n then xs ++ [x] else xs := by
  split
  · rename_i hRoom
    exact List.take_of_length_le (by rw [List.length_append]; exact hRoom)
  · rename_i hFull
    rw [List.take_append_of_le_length (not_lt.mp hFull), List.take_of_length_le h]

omit [DecidableEq Ptr] in
theorem take_append_take (xs ys : List Ptr) (n : Nat) :
    (xs.take n ++ ys).take n = (xs ++ ys).take n := by
  rw [List.take_append, List.take_append, List.take_take, Nat.min_self, List.length_take]
  congr 2
  omega

omit [DecidableEq Ptr] in
/-- A post only matters to the mailbox of its target. -/
theorem post_apply (hLength : ∀ t, (m t).length ≤ mailboxSize) (post : Post Ptr)
    (t : Fin maxThreads) : (m.post post).1 t =
      (m t ++ if post.dstThd = t then [post.pkts] else []).take mailboxSize := by
  by_cases hHere : post.dstThd = t
  · subst hHere
    rw [if_pos rfl, take_concat_of_length_le (hLength _), Mailboxes.post]
    split
    · exact Function.update_self ..
    · rfl
  · rw [if_neg hHere, List.append_nil, List.take_of_length_le (hLength t), Mailboxes.post]
    split
    · exact Function.update_of_ne (Ne.symm hHere) ..
    · rfl

omit [DecidableEq Ptr] in
/-- A mailbox keeps the first packets for its thread, as many as it takes. -/
theorem deliver_eq (hLength : ∀ t, (m t).length ≤ mailboxSize) (posts : List (Post Ptr))
    (t : Fin maxThreads) : m.deliver posts t = (m t ++ sentTo t posts).take mailboxSize := by
  induction posts generalizing m with
  | nil =>
      have hAll : (m t ++ sentTo t []).take mailboxSize = m t := by
        simp [sentTo, List.take_of_length_le (hLength t)]
      rw [hAll]
      rfl
  | cons post posts ih =>
      have hNext (t : Fin maxThreads) : ((m.post post).1 t).length ≤ mailboxSize := by
        rw [post_apply hLength]
        exact List.length_take_le ..
      have hTail : m.deliver (post :: posts) t = (m.post post).1.deliver posts t := rfl
      rw [hTail, ih hNext, post_apply hLength, sentTo_cons, ← List.append_assoc, take_append_take]

/-- A whole run of posts of different packets: the mailboxes and the answers, and every
packet with its header. -/
theorem Holds.run {posts : List (Post Ptr)} (h : m.Holds world) (hOps : ops.PrependsInHeadroom)
    (srv : UInt8 → Option (Reactor (ReactorWorld Ptr) Ptr))
    (hLegal : ∀ post ∈ posts, post.Legal (world.packets post.pkts))
    (hDistinct : (posts.map Post.pkts).Nodup) (answers : List Int) :
    ∃ after, Transition.run (ReactorWorld.post ops srv) (world, answers) posts =
        some (after, answers ++ specTrace Mailboxes.post m posts) ∧
      (m.deliver posts).Holds after ∧
      (∀ p, p ∉ posts.map Post.pkts → after.packets p = world.packets p) ∧
      ∀ post ∈ posts, (after.packets post.pkts).bytes =
        post.header.bytes ++ (world.packets post.pkts).bytes := by
  induction posts generalizing m world answers with
  | nil => exact ⟨world, by simp [Transition.run, specTrace], h, fun _ _ => rfl, nofun⟩
  | cons post posts ih =>
      obtain ⟨hHere, hRest⟩ := List.forall_mem_cons.mp hLegal
      obtain ⟨hNew, hOthers⟩ := List.nodup_cons.mp hDistinct
      obtain ⟨next, hCall, hNext, hPackets⟩ := h.next hOps srv hHere
      have hKept (p : Ptr) (hNe : p ≠ post.pkts) : next.packets p = world.packets p := by
        rw [hPackets]
        exact Function.update_of_ne hNe ..
      have hApart : ∀ other ∈ posts, other.pkts ≠ post.pkts := fun other hMem hSame =>
        hNew (hSame ▸ List.mem_map_of_mem hMem)
      obtain ⟨after, hRun, hHolds, hElsewhere, hBytes⟩ := ih hNext
        (fun other hMem => by
          rw [hKept _ (hApart other hMem)]
          exact hRest other hMem)
        hOthers (answers ++ [(m.post post).2])
      refine ⟨after, ?_, hHolds, ?_, ?_⟩
      · rw [Transition.run, ReactorWorld.post, hCall, Option.map_some, Option.bind_some, hRun,
          List.append_assoc]
        rfl
      · intro p hNone
        rw [List.map_cons, List.mem_cons, not_or] at hNone
        rw [hElsewhere p hNone.2, hKept p hNone.1]
      · intro other hMem
        rcases List.mem_cons.mp hMem with hSame | hMore
        · subst hSame
          rw [hElsewhere _ hNew, hPackets]
          exact bytes_prepare_post hHere
        · rw [hBytes other hMore, hKept _ (hApart other hMore)]

end Mailboxes

/-- For every run of posts of different packets from thread to thread, with queues that
were never used: each thread's queue holds the first 63 packets for it, in order,
whatever the others were posted; the answers are those of such mailboxes; and every
packet, queued or refused, has the header in front of its data. -/
theorem posts_fill_mailboxes {ops : PacketOps Ptr} {world : ReactorWorld Ptr}
    (hOps : ops.PrependsInHeadroom) (srv : UInt8 → Option (Reactor (ReactorWorld Ptr) Ptr))
    (hFresh : ∀ t, ∃ data, world.queues t = .init (by decide) data) {posts : List (Post Ptr)}
    (hLegal : ∀ post ∈ posts, post.Legal (world.packets post.pkts))
    (hDistinct : (posts.map Post.pkts).Nodup) :
    ∃ after, run (ReactorWorld.post ops srv) (world, []) posts =
        some (after, specTrace Mailboxes.post Mailboxes.empty posts) ∧
      (∀ t, (after.queues t).messages =
        ((posts.filter fun post => post.dstThd = t).map Post.pkts).take mailboxSize) ∧
      ∀ post ∈ posts, (after.packets post.pkts).bytes =
        post.header.bytes ++ (world.packets post.pkts).bytes := by
  have hStart : Mailboxes.empty.Holds world := by
    intro t
    obtain ⟨data, hQueue⟩ := hFresh t
    rw [hQueue]
    exact ⟨_, _, BusMpSc.window_init (by decide) data⟩
  obtain ⟨after, hRun, hHolds, _, hBytes⟩ := hStart.run hOps srv hLegal hDistinct []
  refine ⟨after, hRun, fun t => ?_, hBytes⟩
  rw [hHolds.messages, Mailboxes.deliver_eq fun t => Nat.zero_le _]
  rfl

/-- Two threads post to a third, which posts to one of them. -/
def samplePosts : List (Post Nat) :=
  let post (srcThd dstThd : Fin maxThreads) (pkts : Nat) : Post Nat :=
    { srcThd := srcThd, dstThd := dstThd, srcSvc := 3, dstSvc := 2, msgId := 6, pkts := pkts }
  [post ⟨3, by decide⟩ ⟨1, by decide⟩ 4, post ⟨1, by decide⟩ ⟨2, by decide⟩ 5,
    post ⟨2, by decide⟩ ⟨1, by decide⟩ 7]

theorem posts_fill_mailboxes_three :
    ∃ after, run (ReactorWorld.post sampleOps fun _ => none) (sampleReactors ⟨1, by decide⟩, [])
        samplePosts = some (after, [0, 0, 0]) ∧
      (after.queues ⟨1, by decide⟩).messages = [4, 7] ∧ (after.packets 7).bytes = [50, 33, 7] := by
  have hRemote : ∀ post ∈ samplePosts, post.srcThd ≠ post.dstThd := by decide
  have hFits : (RteMbuf.ofBytes [7]).dataOff.toNat + (RteMbuf.ofBytes [7]).dataLen.toNat <
      UInt16.size := by decide
  have hHeadroom : 2 ≤ (RteMbuf.ofBytes [7]).dataOff := by decide
  have hLegal : ∀ post ∈ samplePosts,
      post.Legal ((sampleReactors ⟨1, by decide⟩).packets post.pkts) :=
    fun post hMem => ⟨hRemote post hMem, hHeadroom, hFits⟩
  obtain ⟨after, hRun, hMessages, hBytes⟩ := posts_fill_mailboxes sampleOps_prepends
    (fun _ => none) (fun _ => ⟨fun _ => 0, rfl⟩) hLegal (by decide)
  refine ⟨after, hRun, hMessages _, ?_⟩
  have hLast := hBytes _ (List.getElem_mem (show 2 < samplePosts.length by decide))
  have hPosted : samplePosts[2].pkts = 7 := rfl
  have hHeader : samplePosts[2].header.bytes = [50, 33] := by decide
  have hBefore : ((sampleReactors ⟨1, by decide⟩).packets 7).bytes = [7] := by decide
  rw [hPosted, hHeader, hBefore] at hLast
  exact hLast

end Nginz
