import Mathlib.Logic.Function.Basic

/-! The counting handle of `core/buffer.hxx`, at any content, and the packet
pool it is used with. Of the pool it is assumed that freeing a packet whose
count is 1 returns it and keeps that count, and otherwise decrements it. -/
namespace Nginz

/-- The three callbacks of the template, on the memory that holds the counts. -/
structure AutobufCallbacks (Memory Content : Type*) where
  dealloc : Content → Memory → Memory
  read : Content → Memory → UInt16 × Memory
  update : Content → UInt16 → Memory → Memory

/-- A handle, by the pointer it stores. -/
structure AroopAutobuf (Content : Type*) where
  data : Option Content := none

namespace AroopAutobuf
variable {Memory Content : Type*} (callbacks : AutobufCallbacks Memory Content)

/-- A handle and the memory, which every operation may change. -/
abbrev Effect (Memory Content : Type*) := AroopAutobuf Content × Memory

/-- The count is decremented also after the content was deallocated. -/
def clear (self : AroopAutobuf Content) (memory : Memory) : Effect Memory Content :=
  match self.data with
  | none => (self, memory)
  | some content =>
      let (cnt, memory) := callbacks.read content memory
      let memory := if 1 = cnt then callbacks.dealloc content memory else memory
      ({ data := none }, callbacks.update content (-1) memory)

theorem clear_fst (self : AroopAutobuf Content) (memory : Memory) :
    (self.clear callbacks memory).1 = {} := by
  obtain ⟨_ | content⟩ := self <;> rfl

def reset [DecidableEq Content] (self : AroopAutobuf Content) (givenData : Option Content)
    (memory : Memory) : Effect Memory Content :=
  if givenData = self.data then (self, memory)
  else
    let (self, memory) := self.clear callbacks memory
    match givenData with
    | none => (self, memory)
    | some content => ({ data := some content }, callbacks.update content 1 memory)

/-- The constructor from a pointer, also where it is implicit. -/
def fromPointer [DecidableEq Content] (data : Option Content) (memory : Memory) :
    Effect Memory Content := reset callbacks {} data memory

/-- The move constructor: the new handle and what is left of the given one. -/
def moveConstruct (given : AroopAutobuf Content) :
    AroopAutobuf Content × AroopAutobuf Content := ({ data := given.data }, { data := none })

/-- The move assignment between two handles: the handle assigned to and what is
left of the given one. From a handle to itself it does nothing. -/
def moveAssign (self given : AroopAutobuf Content) (memory : Memory) :
    (AroopAutobuf Content × AroopAutobuf Content) × Memory :=
  let (_, memory) := self.clear callbacks memory
  (({ data := given.data }, { data := none }), memory)

def ownWithoutIncrement (self : AroopAutobuf Content) (givenData : Option Content)
    (memory : Memory) : Effect Memory Content :=
  let (_, memory) := self.clear callbacks memory
  ({ data := givenData }, memory)

/-- The raw pointer, and the handle without it. -/
def release (self : AroopAutobuf Content) : Option Content × AroopAutobuf Content :=
  (self.data, { data := none })

/-- The destructor. -/
def destroy (self : AroopAutobuf Content) (memory : Memory) : Memory :=
  (self.clear callbacks memory).2

end AroopAutobuf

/-- What happens to a packet's count, or to the packet. -/
inductive PoolEvent (Ptr : Type*) where
  | read (m : Ptr)
  | update (m : Ptr) (value : UInt16)
  | returned (m : Ptr)
deriving DecidableEq

/-- The counts of all packets and the record of what happened to them. -/
structure Mempool (Ptr : Type*) where
  refcnt : Ptr → UInt16
  events : List (PoolEvent Ptr)

namespace Mempool
variable {Ptr : Type*} [DecidableEq Ptr]

omit [DecidableEq Ptr] in
def record (self : Mempool Ptr) (event : PoolEvent Ptr) : Mempool Ptr :=
  { self with events := self.events ++ [event] }

/-- `rte_mbuf_refcnt_read`. -/
def refcntRead (m : Ptr) (self : Mempool Ptr) : UInt16 × Mempool Ptr :=
  (self.refcnt m, self.record (.read m))

/-- `rte_pktmbuf_refcnt_update` on a packet of one segment. -/
def refcntUpdate (m : Ptr) (value : UInt16) (self : Mempool Ptr) : Mempool Ptr :=
  { self.record (.update m value) with
    refcnt := Function.update self.refcnt m (self.refcnt m + value) }

/-- `rte_pktmbuf_free` on a packet of one segment. -/
def pktmbufFree (m : Ptr) (self : Mempool Ptr) : Mempool Ptr :=
  let (cnt, self) := refcntRead m self
  if cnt = 1 then self.record (.returned m) else refcntUpdate m (-1) self

/-- The callbacks of `rte_autobuf`. -/
def rteAutobuf : AutobufCallbacks (Mempool Ptr) Ptr :=
  { dealloc := pktmbufFree, read := refcntRead, update := refcntUpdate }

variable {m : Ptr} {pool : Mempool Ptr}

@[simp] theorem refcnt_refcntUpdate (m : Ptr) (value : UInt16) (pool : Mempool Ptr) :
    (refcntUpdate m value pool).refcnt m = pool.refcnt m + value := Function.update_self ..

theorem refcnt_refcntUpdate_of_ne {other : Ptr} (h : other ≠ m) (value : UInt16)
    (pool : Mempool Ptr) : (refcntUpdate m value pool).refcnt other = pool.refcnt other :=
  Function.update_of_ne h ..

@[simp] theorem events_refcntUpdate (m : Ptr) (value : UInt16) (pool : Mempool Ptr) :
    (refcntUpdate m value pool).events = pool.events ++ [.update m value] := rfl

omit [DecidableEq Ptr] in
@[simp] theorem refcnt_record (pool : Mempool Ptr) (event : PoolEvent Ptr) :
    (pool.record event).refcnt = pool.refcnt := rfl

omit [DecidableEq Ptr] in
@[simp] theorem events_record (pool : Mempool Ptr) (event : PoolEvent Ptr) :
    (pool.record event).events = pool.events ++ [event] := rfl

/-- The free of a packet whose count is 1. -/
theorem pktmbufFree_one (h : pool.refcnt m = 1) :
    pktmbufFree m pool = (pool.record (.read m)).record (.returned m) := if_pos h

/-- The free of any other packet only decrements. -/
theorem pktmbufFree_shared (h : pool.refcnt m ≠ 1) :
    pktmbufFree m pool = refcntUpdate m (-1) (pool.record (.read m)) := if_neg h

theorem fromPointer_rteAutobuf (m : Ptr) (pool : Mempool Ptr) :
    AroopAutobuf.fromPointer rteAutobuf (some m) pool =
      ({ data := some m }, refcntUpdate m 1 pool) := by
  simp [AroopAutobuf.fromPointer, AroopAutobuf.reset, AroopAutobuf.clear, rteAutobuf]

theorem ownWithoutIncrement_empty (m : Option Ptr) (pool : Mempool Ptr) :
    AroopAutobuf.ownWithoutIncrement rteAutobuf {} m pool = ({ data := m }, pool) := rfl

/-- An empty handle touches nothing. -/
@[simp] theorem destroy_empty (pool : Mempool Ptr) :
    AroopAutobuf.destroy rteAutobuf { data := none } pool = pool := rfl

/-- A handle of a packet that has other owners gives its reference back. -/
theorem destroy_shared (h : pool.refcnt m ≠ 1) :
    AroopAutobuf.destroy rteAutobuf { data := some m } pool =
      refcntUpdate m (-1) (pool.record (.read m)) := by
  simp [AroopAutobuf.destroy, AroopAutobuf.clear, rteAutobuf, refcntRead, h.symm]

/-- The last handle of a packet frees it, and then takes the count down. -/
theorem destroy_last (h : pool.refcnt m = 1) :
    AroopAutobuf.destroy rteAutobuf { data := some m } pool =
      refcntUpdate m (-1) (pktmbufFree m (pool.record (.read m))) := by
  simp [AroopAutobuf.destroy, AroopAutobuf.clear, rteAutobuf, refcntRead, h]

end Mempool
end Nginz
