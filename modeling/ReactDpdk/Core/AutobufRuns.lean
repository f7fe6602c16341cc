import ReactDpdk.General.Holders
import ReactDpdk.General.Transition
import ReactDpdk.Core.Autobuf

/-! Any number of `aroop_autobuf` handles over any number of contents. The count
of a content is compared with who refers to it: the handles that hold it, and
the raw references that `release` hands out and `ownWithoutIncrement` takes. -/
namespace Nginz
open Transition

variable {Handle Content : Type*} [DecidableEq Content]

namespace Mempool

/-- The callbacks with a deallocation that is only recorded. -/
def recordingCallbacks : AutobufCallbacks (Mempool Content) Content :=
  { dealloc := fun c pool => pool.record (.returned c), read := refcntRead, update := refcntUpdate }

/-- A fresh content, with the count 1. -/
def create (self : Mempool Content) (c : Content) : Mempool Content :=
  { self with refcnt := Function.update self.refcnt c 1 }

theorem refcnt_create (pool : Mempool Content) (c d : Content) :
    (pool.create c).refcnt d = if d = c then 1 else pool.refcnt d := Function.update_apply ..

/-- How often a content was deallocated. -/
def deallocs (self : Mempool Content) (c : Content) : Nat := self.events.count (.returned c)

variable {pool : Mempool Content} {self : AroopAutobuf Content}

@[simp]
theorem clear_empty (pool : Mempool Content) :
    ({} : AroopAutobuf Content).clear recordingCallbacks pool = ({}, pool) := rfl

/-- The deallocation comes before the last decrement. -/
theorem clear_some (c : Content) (pool : Mempool Content) :
    ({ data := some c } : AroopAutobuf Content).clear recordingCallbacks pool =
      ({}, refcntUpdate c (-1) (if 1 = pool.refcnt c then
        (pool.record (.read c)).record (.returned c) else pool.record (.read c))) := rfl

@[simp]
theorem deallocs_refcntUpdate (d : Content) (value : UInt16) (pool : Mempool Content)
    (c : Content) : (refcntUpdate d value pool).deallocs c = pool.deallocs c := by
  simp [deallocs]

theorem refcnt_clear (self : AroopAutobuf Content) (pool : Mempool Content) (c : Content) :
    (self.clear recordingCallbacks pool).2.refcnt c =
      if self.data = some c then pool.refcnt c + -1 else pool.refcnt c := by
  obtain ⟨_ | d⟩ := self
  · rfl
  · have hKept : (if 1 = pool.refcnt d then (pool.record (.read d)).record (.returned d)
        else pool.record (.read d)).refcnt = pool.refcnt := by
      split <;> rfl
    rw [clear_some, refcntUpdate, hKept]
    show Function.update pool.refcnt d (pool.refcnt d + -1) c =
      if some d = some c then pool.refcnt c + -1 else pool.refcnt c
    rw [Function.update_apply]
    by_cases hSame : c = d
    · rw [if_pos hSame, if_pos (by rw [hSame]), hSame]
    · rw [if_neg hSame, if_neg fun hEq => hSame (Option.some.inj hEq).symm]

theorem deallocs_clear (self : AroopAutobuf Content) (pool : Mempool Content) (c : Content) :
    (self.clear recordingCallbacks pool).2.deallocs c =
      pool.deallocs c + if self.data = some c ∧ pool.refcnt c = 1 then 1 else 0 := by
  obtain ⟨_ | d⟩ := self
  · simp
  · rw [clear_some, deallocs_refcntUpdate]
    split
    · rename_i hLast
      by_cases hSame : d = c
      · subst hSame
        simp [deallocs, hLast.symm]
      · simp [deallocs, hSame]
    · rename_i hShared
      have hNot : ¬ (some d = some c ∧ pool.refcnt c = 1) := by
        rintro ⟨hSame, hOne⟩
        cases hSame
        exact hShared hOne.symm
      rw [if_neg hNot]
      simp [deallocs]

/-- The counts and the deallocations agree with the references: a content has
the count of its references, and it was deallocated, once, when it has none. -/
structure Balanced (pool : Mempool Content) (created : Finset Content) (refs : Content → Nat) :
    Prop where
  counts : ∀ c ∈ created, (pool.refcnt c).toNat = refs c
  unknown : ∀ c, c ∉ created → refs c = 0
  deallocated : ∀ c, pool.deallocs c = if c ∈ created ∧ refs c = 0 then 1 else 0

variable {created : Finset Content} {refs refs' : Content → Nat}

theorem toNat_add_neg_one {x : UInt16} (h : 0 < x.toNat) : (x + -1).toNat + 1 = x.toNat := by
  have hMinus : (-1 : UInt16).toNat = 65535 := rfl
  have hBound := x.toNat_lt
  rw [UInt16.toNat_add, hMinus]
  omega

theorem toNat_add_one {x : UInt16} (h : x.toNat + 1 < UInt16.size) :
    (x + 1).toNat = x.toNat + 1 := by
  have hOne : (1 : UInt16).toNat = 1 := rfl
  rw [UInt16.toNat_add, hOne, Nat.mod_eq_of_lt h]

theorem Balanced.created_of_pos (h : pool.Balanced created refs) {c : Content}
    (hLive : 0 < refs c) : c ∈ created := by
  by_contra hNot
  rw [h.unknown c hNot] at hLive
  exact lt_irrefl 0 hLive

/-- Clearing a handle gives up the reference that it holds. -/
theorem Balanced.clear (h : pool.Balanced created refs) (self : AroopAutobuf Content)
    (hRefs : ∀ c, refs' c + Holders.unit self.data c = refs c) :
    (self.clear recordingCallbacks pool).2.Balanced created refs' where
  counts := by
    intro c hCreated
    have hCount := h.counts c hCreated
    rw [refcnt_clear]
    split
    · rename_i hHeld
      have hDrop := hRefs c
      rw [hHeld, Holders.unit_self] at hDrop
      have hLast := toNat_add_neg_one (show 0 < (pool.refcnt c).toNat by omega)
      omega
    · rename_i hOther
      have hKeep := hRefs c
      rw [Holders.unit_of_ne hOther] at hKeep
      omega
  unknown := by
    intro c hNot
    have hNone := h.unknown c hNot
    have hRef := hRefs c
    omega
  deallocated := by
    intro c
    rw [deallocs_clear, h.deallocated]
    by_cases hHeld : self.data = some c
    · have hDrop := hRefs c
      rw [hHeld, Holders.unit_self] at hDrop
      have hCreated := h.created_of_pos (show 0 < refs c by omega)
      have hCount := h.counts c hCreated
      have hOne : pool.refcnt c = 1 ↔ refs' c = 0 := by
        rw [← UInt16.toNat_inj, show (1 : UInt16).toNat = 1 from rfl]
        omega
      have hBefore : refs c ≠ 0 := by omega
      simp [hHeld, hCreated, hOne, hBefore]
    · have hKeep := hRefs c
      rw [Holders.unit_of_ne hHeld, Nat.add_zero] at hKeep
      simp [hHeld, hKeep]

/-- An increment stands for one more reference. -/
theorem Balanced.increment (h : pool.Balanced created refs) {c : Content} (hLive : 0 < refs c)
    (hBound : refs c + 1 < UInt16.size)
    (hRefs : ∀ d, refs' d = refs d + Holders.unit (some c) d) :
    (refcntUpdate c 1 pool).Balanced created refs' where
  counts := by
    intro d hCreated
    have hCount := h.counts d hCreated
    rw [hRefs]
    by_cases hSame : d = c
    · subst hSame
      rw [refcnt_refcntUpdate, Holders.unit_self, ← hCount]
      exact toNat_add_one (by omega)
    · rw [Holders.unit_some_of_ne hSame, refcnt_refcntUpdate_of_ne hSame, Nat.add_zero]
      exact hCount
  unknown := by
    intro d hNot
    have hOther : d ≠ c := fun hEq => hNot (hEq ▸ h.created_of_pos hLive)
    rw [hRefs, h.unknown d hNot, Holders.unit_some_of_ne hOther]
  deallocated := by
    intro d
    rw [deallocs_refcntUpdate, h.deallocated, hRefs]
    by_cases hSame : d = c
    · subst hSame
      have hBefore : refs d ≠ 0 := by omega
      simp [hBefore]
    · rw [Holders.unit_some_of_ne hSame, Nat.add_zero]

/-- A fresh content starts with one reference. -/
theorem Balanced.create (h : pool.Balanced created refs) {c : Content} (hFresh : c ∉ created)
    (hRefs : ∀ d, refs' d = refs d + Holders.unit (some c) d) :
    (pool.create c).Balanced (insert c created) refs' := by
  have hNew : refs' c = 1 := by rw [hRefs, h.unknown c hFresh, Holders.unit_self]
  have hOld (d : Content) (hNe : d ≠ c) : refs' d = refs d := by
    rw [hRefs, Holders.unit_some_of_ne hNe, Nat.add_zero]
  constructor
  case counts =>
    intro d hCreated
    by_cases hSame : d = c
    · rw [hSame, hNew, refcnt_create, if_pos rfl]
      rfl
    · rw [hOld d hSame, refcnt_create, if_neg hSame]
      exact h.counts d (Finset.mem_of_mem_insert_of_ne hCreated hSame)
  case unknown =>
    intro d hNot
    have hNe : d ≠ c := fun hEq => hNot (hEq ▸ Finset.mem_insert_self c created)
    rw [hOld d hNe]
    exact h.unknown d fun hMem => hNot (Finset.mem_insert_of_mem hMem)
  case deallocated =>
    intro d
    have hBefore := h.deallocated d
    show pool.deallocs d = _
    by_cases hSame : d = c
    · subst hSame
      rw [hBefore, if_neg fun hBoth => hFresh hBoth.1, if_neg (by omega)]
    · rw [hBefore, hOld d hSame]
      simp [hSame]

end Mempool

/-- Every handle that exists, every content with its count, and the ghost data
that the counts are compared with. -/
structure HandleWorld (Handle Content : Type*) where
  live : Finset Handle
  handle : Handle → AroopAutobuf Content
  raw : Content → Nat
  created : Finset Content
  pool : Mempool Content

/-- The operations on handles, each named by its address. -/
inductive HandleOp (Handle Content : Type*) where
  | create (c : Content)
  | construct (self : Handle) (data : Option Content)
  | moveConstruct (self given : Handle)
  | moveAssign (self given : Handle)
  | reset (self : Handle) (givenData : Option Content)
  | ownWithoutIncrement (self : Handle) (givenData : Option Content)
  | release (self : Handle)
  | clear (self : Handle)
  | destroy (self : Handle)

/-- The pointer that an operation is given. -/
def HandleOp.given : HandleOp Handle Content → Option Content
  | .construct _ data => data
  | .reset _ givenData => givenData
  | .ownWithoutIncrement _ givenData => givenData
  | _ => none

namespace HandleWorld
variable [DecidableEq Handle]
  (callbacks : AutobufCallbacks (Mempool Content) Content)

/-- The references to a content: its raw ones and the handles that hold it. -/
def refs (self : HandleWorld Handle Content) (c : Content) : Nat :=
  self.raw c + Holders.count self.live (AroopAutobuf.data ∘ self.handle) c

/-- What an operation does. A fresh content comes with one raw reference;
`release` makes one of the reference of the handle, and `ownWithoutIncrement`
uses one up. -/
def exec (world : HandleWorld Handle Content) :
    HandleOp Handle Content → HandleWorld Handle Content
  | .create c =>
      { world with created := insert c world.created, pool := world.pool.create c
                   raw := fun d => world.raw d + Holders.unit (some c) d }
  | .construct self data =>
      let (handle, pool) := AroopAutobuf.fromPointer callbacks data world.pool
      { world with live := insert self world.live, pool := pool
                   handle := Function.update world.handle self handle }
  | .moveConstruct self given =>
      let (handle, rest) := AroopAutobuf.moveConstruct (world.handle given)
      { world with live := insert self world.live
                   handle := Function.update (Function.update world.handle given rest) self handle }
  | .moveAssign self given =>
      if self = given then world
      else
        let ((handle, rest), pool) :=
          (world.handle self).moveAssign callbacks (world.handle given) world.pool
        { world with
          handle := Function.update (Function.update world.handle given rest) self handle
          pool := pool }
  | .reset self givenData =>
      let (handle, pool) := (world.handle self).reset callbacks givenData world.pool
      { world with handle := Function.update world.handle self handle, pool := pool }
  | .ownWithoutIncrement self givenData =>
      let (handle, pool) :=
        (world.handle self).ownWithoutIncrement callbacks givenData world.pool
      { world with handle := Function.update world.handle self handle, pool := pool
                   raw := fun d => world.raw d - Holders.unit givenData d }
  | .release self =>
      let (output, handle) := (world.handle self).release
      { world with handle := Function.update world.handle self handle
                   raw := fun d => world.raw d + Holders.unit output d }
  | .clear self =>
      let (handle, pool) := (world.handle self).clear callbacks world.pool
      { world with handle := Function.update world.handle self handle, pool := pool }
  | .destroy self =>
      { world with live := world.live.erase self
                   pool := (world.handle self).destroy callbacks world.pool }

/-- What the callers keep to: handles exist between construction and
destruction, a pointer passed in is live, and `ownWithoutIncrement` gets a raw
reference that exists. -/
def Allowed (world : HandleWorld Handle Content) : HandleOp Handle Content → Prop
  | .create c => c ∉ world.created
  | .construct self data => self ∉ world.live ∧ ∀ c ∈ data, 0 < world.refs c
  | .moveConstruct self given => self ∉ world.live ∧ given ∈ world.live
  | .moveAssign self given => self ∈ world.live ∧ given ∈ world.live
  | .reset self givenData => self ∈ world.live ∧ ∀ c ∈ givenData, 0 < world.refs c
  | .ownWithoutIncrement self givenData => self ∈ world.live ∧ ∀ c ∈ givenData, 0 < world.raw c
  | .release self => self ∈ world.live
  | .clear self => self ∈ world.live
  | .destroy self => self ∈ world.live

instance (world : HandleWorld Handle Content) (op : HandleOp Handle Content) :
    Decidable (world.Allowed op) := by
  cases op <;> simp only [Allowed] <;> infer_instance

/-- An operation that the callers may make and after which no content has more
references than its count can tell. -/
def step (world : HandleWorld Handle Content) (op : HandleOp Handle Content) :
    Option (HandleWorld Handle Content) :=
  if world.Allowed op ∧ ∀ c ∈ op.given, (world.exec callbacks op).refs c < UInt16.size then
    some (world.exec callbacks op)
  else none

/-- Everything an operation that is given a pointer can do to the references and
the pool. The handle that gives up its content may be an empty one. -/
inductive Change (given : Option Content) (world next : HandleWorld Handle Content) : Prop where
  | dropped (handle : AroopAutobuf Content) (hCreated : next.created = world.created)
      (hPool : next.pool = (handle.clear callbacks world.pool).2)
      (hRefs : ∀ d, next.refs d + Holders.unit handle.data d = world.refs d)
  | replaced (handle : AroopAutobuf Content) (c : Content) (hGiven : given = some c)
      (hOther : handle.data ≠ some c) (hLive : 0 < world.refs c)
      (hCreated : next.created = world.created)
      (hPool : next.pool = callbacks.update c 1 (handle.clear callbacks world.pool).2)
      (hRefs : ∀ d, next.refs d + Holders.unit handle.data d =
        world.refs d + Holders.unit (some c) d)
  | created (c : Content) (hFresh : c ∉ world.created)
      (hCreated : next.created = insert c world.created) (hPool : next.pool = world.pool.create c)
      (hRefs : ∀ d, next.refs d = world.refs d + Holders.unit (some c) d)

section Changes
variable {callbacks} {world : HandleWorld Handle Content} {self given : Handle}

/-- What a store into a handle does to the number of holders. -/
theorem count_store {live : Finset Handle} (hSelf : self ∈ live)
    (handle : Handle → AroopAutobuf Content) (stored : AroopAutobuf Content) (d : Content) :
    Holders.count live (AroopAutobuf.data ∘ Function.update handle self stored) d +
        Holders.unit (handle self).data d =
      Holders.count live (AroopAutobuf.data ∘ handle) d + Holders.unit stored.data d := by
  rw [Function.comp_update]
  exact Holders.count_update hSelf _ stored.data d

theorem count_construct {live : Finset Handle} (hNew : self ∉ live)
    (handle : Handle → AroopAutobuf Content) (stored : AroopAutobuf Content) (d : Content) :
    Holders.count (insert self live) (AroopAutobuf.data ∘ Function.update handle self stored) d =
      Holders.count live (AroopAutobuf.data ∘ handle) d + Holders.unit stored.data d := by
  rw [Function.comp_update]
  exact Holders.count_insert hNew _ stored.data d

/-- A handle is made from a pointer. -/
theorem change_construct {data : Option Content}
    (hAllowed : world.Allowed (.construct self data)) :
    Change callbacks data world (world.exec callbacks (.construct self data)) := by
  obtain ⟨hNew, hData⟩ := hAllowed
  have hCount := count_construct hNew world.handle { data := data }
  cases data with
  | none =>
      refine .dropped {} rfl rfl fun d => ?_
      exact congrArg (world.raw d + ·) (hCount d)
  | some c =>
      refine .replaced {} c rfl nofun (hData c rfl) rfl rfl fun d => ?_
      show world.raw d + Holders.count (insert self world.live)
        (AroopAutobuf.data ∘ Function.update world.handle self { data := some c }) d + 0 = _
      rw [hCount d, Nat.add_zero, refs, Nat.add_assoc]

/-- The reference of one handle goes to a new one. -/
theorem change_moveConstruct (hAllowed : world.Allowed (.moveConstruct self given)) :
    Change callbacks none world (world.exec callbacks (.moveConstruct self given)) := by
  obtain ⟨hNew, hGiven⟩ := hAllowed
  refine .dropped {} rfl rfl fun d => ?_
  have hTake := count_store hGiven world.handle {} d
  have hPut := count_construct hNew (Function.update world.handle given {}) (world.handle given) d
  show world.raw d + Holders.count (insert self world.live) (AroopAutobuf.data ∘
    Function.update (Function.update world.handle given {}) self (world.handle given)) d + 0 = _
  simp only [Holders.unit_none] at hTake
  rw [refs]
  omega

/-- The handle assigned to gives up its reference for that of the other. -/
theorem change_moveAssign (hAllowed : world.Allowed (.moveAssign self given)) :
    Change callbacks none world (world.exec callbacks (.moveAssign self given)) := by
  obtain ⟨hSelf, hGiven⟩ := hAllowed
  simp only [exec]
  by_cases hSame : self = given
  · rw [if_pos hSame]
    exact .dropped {} rfl rfl fun d => rfl
  · rw [if_neg hSame]
    refine .dropped (world.handle self) rfl rfl fun d => ?_
    have hTake := count_store hGiven world.handle {} d
    have hPut := count_store hSelf (Function.update world.handle given {}) (world.handle given) d
    rw [Function.update_of_ne hSame] at hPut
    simp only [Holders.unit_none] at hTake
    show world.raw d + Holders.count world.live (AroopAutobuf.data ∘
      Function.update (Function.update world.handle given {}) self (world.handle given)) d + _ = _
    rw [refs]
    omega

theorem change_clear (hSelf : world.Allowed (.clear self)) :
    Change callbacks none world (world.exec callbacks (.clear self)) := by
  refine .dropped (world.handle self) rfl rfl fun d => ?_
  have hCount := count_store hSelf world.handle {} d
  show world.raw d + Holders.count world.live (AroopAutobuf.data ∘
    Function.update world.handle self ((world.handle self).clear callbacks world.pool).1) d + _ = _
  rw [AroopAutobuf.clear_fst, refs, Nat.add_assoc, hCount]
  rfl

/-- The handle stores another pointer, unless it is the one it has. -/
theorem change_reset {givenData : Option Content}
    (hAllowed : world.Allowed (.reset self givenData)) :
    Change callbacks givenData world (world.exec callbacks (.reset self givenData)) := by
  obtain ⟨hSelf, hData⟩ := hAllowed
  by_cases hSame : givenData = (world.handle self).data
  · have hReset : (world.handle self).reset callbacks givenData world.pool =
        (world.handle self, world.pool) := if_pos hSame
    refine .dropped {} rfl ?_ fun d => ?_
    · simp only [exec, hReset]
      rfl
    · simp only [exec, hReset, Function.update_eq_self]
      rfl
  · cases givenData with
    | none =>
        have hReset : (world.handle self).reset callbacks none world.pool =
            (world.handle self).clear callbacks world.pool := if_neg hSame
        simp only [exec, hReset]
        exact change_clear hSelf
    | some c =>
        have hReset : (world.handle self).reset callbacks (some c) world.pool =
            ({ data := some c },
              callbacks.update c 1 ((world.handle self).clear callbacks world.pool).2) :=
          if_neg hSame
        have hCount := count_store hSelf world.handle { data := some c }
        refine .replaced (world.handle self) c rfl (Ne.symm hSame) (hData c rfl) rfl ?_ fun d => ?_
        · simp only [exec, hReset]
        · simp only [exec, hReset, refs]
          rw [Nat.add_assoc, hCount d, Nat.add_assoc]

/-- The handle takes over a raw reference in the place of its own. -/
theorem change_ownWithoutIncrement {givenData : Option Content}
    (hAllowed : world.Allowed (.ownWithoutIncrement self givenData)) :
    Change callbacks givenData world
      (world.exec callbacks (.ownWithoutIncrement self givenData)) := by
  obtain ⟨hSelf, hRaw⟩ := hAllowed
  refine .dropped (world.handle self) rfl rfl fun d => ?_
  have hCount := count_store hSelf world.handle { data := givenData } d
  dsimp only at hCount
  have hUsed : Holders.unit givenData d ≤ world.raw d := by
    unfold Holders.unit
    split
    · rename_i hGiven
      exact hRaw d hGiven
    · exact Nat.zero_le _
  show world.raw d - Holders.unit givenData d + Holders.count world.live
    (AroopAutobuf.data ∘ Function.update world.handle self { data := givenData }) d + _ = _
  rw [refs]
  omega

/-- The reference of the handle becomes a raw one. -/
theorem change_release (hSelf : world.Allowed (.release self)) :
    Change callbacks none world (world.exec callbacks (.release self)) := by
  refine .dropped {} rfl rfl fun d => ?_
  have hCount := count_store hSelf world.handle {} d
  show world.raw d + Holders.unit (world.handle self).data d + Holders.count world.live
    (AroopAutobuf.data ∘ Function.update world.handle self {}) d + 0 = _
  simp only [Holders.unit_none] at hCount
  rw [refs]
  omega

theorem change_destroy (hSelf : world.Allowed (.destroy self)) :
    Change callbacks none world (world.exec callbacks (.destroy self)) := by
  refine .dropped (world.handle self) rfl rfl fun d => ?_
  have hCount := Holders.count_erase hSelf (AroopAutobuf.data ∘ world.handle) d
  show world.raw d + Holders.count (world.live.erase self) (AroopAutobuf.data ∘ world.handle) d +
    _ = _
  rw [refs, ← hCount, Nat.add_assoc]
  rfl

theorem change_create {c : Content} (hFresh : world.Allowed (.create c)) :
    Change callbacks none world (world.exec callbacks (.create c)) := by
  refine .created c hFresh rfl rfl fun d => ?_
  show world.raw d + Holders.unit (some c) d + Holders.count world.live
    (AroopAutobuf.data ∘ world.handle) d = _
  rw [refs, Nat.add_right_comm]

/-- Each operation is one of the three changes. -/
theorem change_exec {op : HandleOp Handle Content} (hAllowed : world.Allowed op) :
    Change callbacks op.given world (world.exec callbacks op) := by
  cases op with
  | create c => exact change_create hAllowed
  | construct self data => exact change_construct hAllowed
  | moveConstruct self given => exact change_moveConstruct hAllowed
  | moveAssign self given => exact change_moveAssign hAllowed
  | reset self givenData => exact change_reset hAllowed
  | ownWithoutIncrement self givenData => exact change_ownWithoutIncrement hAllowed
  | release self => exact change_release hAllowed
  | clear self => exact change_clear hAllowed
  | destroy self => exact change_destroy hAllowed

end Changes

variable {world next : HandleWorld Handle Content}

section References
omit [DecidableEq Handle]

/-- The count of every content is the number of its references, and it was
deallocated once if it has none, else never. -/
def Balanced (world : HandleWorld Handle Content) : Prop :=
  world.pool.Balanced world.created world.refs

/-- A change keeps the balance, as long as the count can tell the references
of the content it was given. -/
theorem Balanced.change {given : Option Content} (h : world.Balanced)
    (hChange : Change Mempool.recordingCallbacks given world next)
    (hBound : ∀ c ∈ given, next.refs c < UInt16.size) : next.Balanced := by
  unfold Balanced
  cases hChange with
  | dropped handle hCreated hPool hRefs =>
      rw [hCreated, hPool]
      exact h.clear handle hRefs
  | replaced handle c hGiven hOther hLive hCreated hPool hRefs =>
      -- the references between the decrement and the increment
      let between (d : Content) : Nat := world.refs d - Holders.unit handle.data d
      have hKept : between c = world.refs c := by
        simp only [between, Holders.unit_of_ne hOther, Nat.sub_zero]
      have hHeld (d : Content) : Holders.unit handle.data d ≤ world.refs d := by
        have hRef := hRefs d
        by_cases hSame : handle.data = some d
        · have hNe : some c ≠ some d := fun hEq => hOther (hSame.trans hEq.symm)
          rw [Holders.unit_of_ne hNe] at hRef
          omega
        · rw [Holders.unit_of_ne hSame]
          exact Nat.zero_le _
      have hCleared : (handle.clear Mempool.recordingCallbacks world.pool).2.Balanced
          world.created between := h.clear handle fun d => Nat.sub_add_cancel (hHeld d)
      have hNext (d : Content) : next.refs d = between d + Holders.unit (some c) d := by
        have hRef := hRefs d
        have hLe := hHeld d
        simp only [between]
        omega
      have hLast := hBound c hGiven
      rw [hNext, Holders.unit_self] at hLast
      rw [hCreated, hPool]
      exact hCleared.increment (hKept ▸ hLive) hLast hNext
  | created c hFresh hCreated hPool hRefs =>
      rw [hCreated, hPool]
      exact h.create hFresh hRefs

/-- No change takes a content out of the created ones. -/
theorem Change.mem_created {callbacks : AutobufCallbacks (Mempool Content) Content}
    {given : Option Content} (hChange : Change callbacks given world next) {c : Content}
    (hMem : c ∈ world.created) : c ∈ next.created := by
  cases hChange with
  | dropped handle hCreated hPool hRefs => rwa [hCreated]
  | replaced handle d hGiven hOther hLive hCreated hPool hRefs => rwa [hCreated]
  | created d hFresh hCreated hPool hRefs =>
      rw [hCreated]
      exact Finset.mem_insert_of_mem hMem

/-- References come only to a fresh content, or to one that has some. -/
theorem Change.refs_of_zero {callbacks : AutobufCallbacks (Mempool Content) Content}
    {given : Option Content} (hChange : Change callbacks given world next) {c : Content}
    (hNone : world.refs c = 0) :
    next.refs c = 0 ∧ (c ∈ next.created ↔ c ∈ world.created) ∨
      c ∉ world.created ∧ 0 < next.refs c := by
  cases hChange with
  | dropped handle hCreated hPool hRefs =>
      have hRef := hRefs c
      exact Or.inl ⟨by omega, by rw [hCreated]⟩
  | replaced handle d hGiven hOther hLive hCreated hPool hRefs =>
      have hNe : c ≠ d := by
        intro hEq
        subst hEq
        omega
      have hRef := hRefs c
      rw [Holders.unit_some_of_ne hNe] at hRef
      exact Or.inl ⟨by omega, by rw [hCreated]⟩
  | created d hFresh hCreated hPool hRefs =>
      have hRef := hRefs c
      by_cases hSame : d = c
      · subst hSame
        rw [Holders.unit_self] at hRef
        exact Or.inr ⟨hFresh, by omega⟩
      · rw [Holders.unit_some_of_ne (Ne.symm hSame)] at hRef
        refine Or.inl ⟨by omega, ?_⟩
        rw [hCreated, Finset.mem_insert]
        exact or_iff_right (Ne.symm hSame)

/-- A content is deallocated by the step that takes its last reference, and by
no other. -/
theorem Balanced.deallocs_change {given : Option Content} (h : world.Balanced)
    (hNext : next.Balanced) (hChange : Change Mempool.recordingCallbacks given world next)
    (c : Content) :
    next.pool.deallocs c =
      world.pool.deallocs c + if 0 < world.refs c ∧ next.refs c = 0 then 1 else 0 := by
  rw [h.deallocated, hNext.deallocated]
  by_cases hLive : 0 < world.refs c
  · have hSome : world.refs c ≠ 0 := by omega
    have hCreated := hChange.mem_created (h.created_of_pos hLive)
    simp [hLive, hSome, hCreated]
  · have hNone : world.refs c = 0 := by omega
    rcases hChange.refs_of_zero hNone with ⟨hStill, hCreated⟩ | ⟨hFresh, hBorn⟩
    · simp [hNone, hStill, hCreated]
    · have hSome : next.refs c ≠ 0 := by omega
      simp [hNone, hFresh, hSome]

/-- Nothing exists yet, and nothing was deallocated. -/
structure Start (world : HandleWorld Handle Content) : Prop where
  live : world.live = ∅
  raw : ∀ c, world.raw c = 0
  created : world.created = ∅
  events : world.pool.events = []

theorem Start.balanced (h : world.Start) : world.Balanced := by
  have hRefs (c : Content) : world.refs c = 0 := by
    rw [refs, h.raw, h.live, Holders.count_empty]
  constructor
  case counts => simp [h.created]
  case unknown => exact fun c _ => hRefs c
  case deallocated =>
    intro c
    simp [Mempool.deallocs, h.events, h.created]

end References

theorem step_eq_some {callbacks : AutobufCallbacks (Mempool Content) Content}
    {op : HandleOp Handle Content} (hStep : world.step callbacks op = some next) :
    Change callbacks op.given world next ∧ ∀ c ∈ op.given, next.refs c < UInt16.size := by
  unfold step at hStep
  split at hStep
  · rename_i hGuard
    cases hStep
    exact ⟨change_exec hGuard.1, hGuard.2⟩
  · cases hStep

theorem Balanced.step {op : HandleOp Handle Content} (h : world.Balanced)
    (hStep : world.step Mempool.recordingCallbacks op = some next) : next.Balanced :=
  h.change (step_eq_some hStep).1 (step_eq_some hStep).2

/-- In every state that a run of any handles on any contents reaches, the count
of each content is the number of handles that hold it and of its raw
references; it was deallocated once if none is left, else never; and the next
operation deallocates exactly the contents whose last reference it takes. -/
theorem counts_match_references
    (hReached : Reachable (step Mempool.recordingCallbacks) Start world) :
    (∀ c ∈ world.created, (world.pool.refcnt c).toNat =
      world.raw c + Holders.count world.live (AroopAutobuf.data ∘ world.handle) c) ∧
    (∀ c, world.pool.deallocs c = if c ∈ world.created ∧ world.refs c = 0 then 1 else 0) ∧
    ∀ op next, world.step Mempool.recordingCallbacks op = some next → ∀ c,
      next.pool.deallocs c =
        world.pool.deallocs c + if 0 < world.refs c ∧ next.refs c = 0 then 1 else 0 := by
  have hBalanced := hReached.invariant Balanced (fun _ h => h.balanced)
    (fun _ _ _ h hStep => h.step hStep)
  refine ⟨hBalanced.counts, hBalanced.deallocated, fun op next hStep => ?_⟩
  exact hBalanced.deallocs_change (hBalanced.step hStep) (step_eq_some hStep).1

/-- Before anything is built. -/
def nothing : HandleWorld Nat Nat :=
  { live := ∅, handle := fun _ => {}, raw := fun _ => 0, created := ∅
    pool := { refcnt := fun _ => 0, events := [] } }

/-- Content 7 is shared by handles 1 and 2; then handle 1 goes, and handle 3
takes over from handle 2 and lets go of the content. -/
theorem counts_match_references_shared :
    ∃ world, run (step Mempool.recordingCallbacks) nothing
        [.create 7, .construct 1 (some 7), .construct 2 none, .ownWithoutIncrement 2 (some 7),
          .reset 1 (some 7), .moveAssign 1 1, .destroy 1, .moveConstruct 3 2, .clear 3] =
        some world ∧
      ∀ c, world.pool.deallocs c = if c ∈ world.created ∧ world.refs c = 0 then 1 else 0 := by
  have hDefined : (run (step Mempool.recordingCallbacks) nothing
      [.create 7, .construct 1 (some 7), .construct 2 none, .ownWithoutIncrement 2 (some 7),
        .reset 1 (some 7), .moveAssign 1 1, .destroy 1, .moveConstruct 3 2, .clear 3]).isSome := by
    decide
  obtain ⟨world, hRun⟩ := Option.isSome_iff_exists.mp hDefined
  have hStart : nothing.Start := ⟨rfl, fun _ => rfl, rfl, rfl⟩
  exact ⟨world, hRun, (counts_match_references ((Reachable.start hStart).run hRun)).2.1⟩

end HandleWorld
end Nginz
