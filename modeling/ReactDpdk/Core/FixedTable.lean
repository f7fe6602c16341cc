import ReactDpdk.General.Transition
import ReactDpdk.General.Probing

/-! `core/fixedtable.hxx`: a dictionary of fixed capacity with open addressing
and no tombstones. Each home slot counts the keys that belong to it, and every
search stops once it has met that many of them. -/
namespace Nginz
open Cyclic

/-- The largest value of an `int`. -/
def intMax : Nat := 2147483647

/-- `--` on a `size_t`, with its wrap below zero. -/
def sizeDec (x : Nat) : Nat := if x = 0 then 2 ^ 64 - 1 else x - 1

/-- One slot. `numInserted` counts the keys whose home is this slot; `content`
may belong to any home. -/
structure TContent (ValType : Type*) where
  numInserted : Nat := 0
  content : Option (UInt64 × ValType) := none

/-- The template at key type `uint64_t`. The array is a function on its index
type, so that an access past its end cannot be written down. -/
structure FixedDict (ValType : Type*) (capacity : Nat) (prime : UInt64) where
  data : Fin capacity → TContent ValType
  cnt : Nat

namespace FixedDict
variable {ValType : Type*} {capacity : Nat} {prime : UInt64}

/-- A dictionary as its default member initialisers leave it. -/
def empty : FixedDict ValType capacity prime := { data := fun _ => {}, cnt := 0 }

/-- The contents of the slots, without the counters. -/
def cells (self : FixedDict ValType capacity prime) : Probing.Cells UInt64 ValType capacity :=
  fun q => (self.data q).content

/-- Store through a reference to `data[p].content`. -/
def write (self : FixedDict ValType capacity prime) (p : Fin capacity)
    (content : Option (UInt64 × ValType)) : FixedDict ValType capacity prime :=
  { self with data := Function.update self.data p { self.data p with content := content } }

/-- Store into `data[p].numInserted`. -/
def setNumInserted (self : FixedDict ValType capacity prime) (p : Fin capacity) (count : Nat) :
    FixedDict ValType capacity prime :=
  { self with data := Function.update self.data p { self.data p with numInserted := count } }

/-- The new entry in slot `p`, counted at its home slot `pos` and in `cnt`. -/
def insertAt (self : FixedDict ValType capacity prime) (pos p : Fin capacity) (key : UInt64)
    (value : ValType) : FixedDict ValType capacity prime :=
  let stored := self.write p (some (key, value))
  let counted := stored.setNumInserted pos ((stored.data pos).numInserted + 1)
  { counted with cnt := self.cnt + 1 }

/-- Slot `p` cleared, with its key no longer counted at its home slot `pos`. -/
def removeAt (self : FixedDict ValType capacity prime) (pos p : Fin capacity) :
    FixedDict ValType capacity prime :=
  let cleared := self.write p none
  let counted := cleared.setNumInserted pos (sizeDec (cleared.data pos).numInserted)
  { counted with cnt := sizeDec self.cnt }

/-- The outcome of the loop that looks for a free slot. -/
inductive FreeSlot where
  | atStep (i : Nat)
  | exhausted
  | overflow

/-- What `emplace` leaves: the table, the index in `&self.data[..]` of the
pointer it returns (`none` is `nullptr`), and the value of the condition in its
`assert`, `true` where the assertion is not reached. -/
structure Emplaced (ValType : Type*) (capacity : Nat) (prime : UInt64) where
  table : FixedDict ValType capacity prime
  position : Option Nat
  asserted : Bool

variable [NeZero capacity]

/-- The home slot of a key; the product wraps at 64 bits. -/
def calcPos (capacity : Nat) [NeZero capacity] (prime : UInt64) (key : UInt64) : Fin capacity :=
  ⟨(key * prime).toNat % capacity, Nat.mod_lt _ (NeZero.pos capacity)⟩

/-- The loop that `emplace`, `find` and `erase` share. The first counter is
`CAPACITY - i`; `j` counts the keys of this home met so far. -/
def searchLoop (self : FixedDict ValType capacity prime) (key : UInt64) (pos : Fin capacity)
    (numInserted : Nat) : Nat → Nat → Nat → Option (Fin capacity)
  | 0, _, _ => none
  | left + 1, i, j =>
      if j < numInserted then
        match (self.data (advance pos i)).content with
        | some (key2, _) =>
            if key2 = key then some (advance pos i)
            else if calcPos capacity prime key2 = pos then
              searchLoop self key pos numInserted left (i + 1) (j + 1)
            else searchLoop self key pos numInserted left (i + 1) j
        | none => searchLoop self key pos numInserted left (i + 1) j
      else none

/-- The slot of a key, by the counted search from its home. The pointer that
the source returns is the address of that slot's content. -/
def find (self : FixedDict ValType capacity prime) (key : UInt64) : Option (Fin capacity) :=
  let pos := calcPos capacity prime key
  searchLoop self key pos (self.data pos).numInserted capacity 0 0

/-- The first free slot of the probe sequence. Its counter is an `int`, so it
overflows when `INT_MAX` is not the last value it takes. -/
def freeLoop (self : FixedDict ValType capacity prime) (pos : Fin capacity) : Nat → Nat → FreeSlot
  | 0, _ => .exhausted
  | left + 1, i =>
      if (self.data (advance pos i)).content.isNone then .atStep i
      else if i = intMax then .overflow
      else freeLoop self pos left (i + 1)

/-- `none` when the `int` counter overflows. The pointer returned for a new
entry is the address of `data[i+pos]`, without the reduction that chose the
slot. -/
def emplace (self : FixedDict ValType capacity prime) (key : UInt64) (value : ValType) :
    Option (Emplaced ValType capacity prime) :=
  if self.cnt ≥ capacity then some { table := self, position := none, asserted := true }
  else
    let pos := calcPos capacity prime key
    match self.find key with
    | some p => some { table := self.write p (some (key, value)), position := some p,
                       asserted := true }
    | none =>
        match freeLoop self pos capacity 0 with
        | .overflow => none
        | .exhausted => some { table := self, position := none, asserted := true }
        | .atStep i =>
            some { table := self.insertAt pos (advance pos i) key value
                   position := some (i + pos)
                   asserted := decide (self.cnt + 1 < capacity) }

def erase (self : FixedDict ValType capacity prime) (key : UInt64) :
    FixedDict ValType capacity prime × Bool :=
  match self.find key with
  | some p => (self.removeAt (calcPos capacity prime key) p, true)
  | none => (self, false)

/-- What the pointer returned by `find` designates. -/
def entry (self : FixedDict ValType capacity prime) (key : UInt64) : Option (UInt64 × ValType) :=
  (self.find key).bind self.cells

/-- The value stored under a key. -/
def lookup (self : FixedDict ValType capacity prime) (key : UInt64) : Option ValType :=
  (self.entry key).map Prod.snd

def isEmpty (self : FixedDict ValType capacity prime) : Bool := self.cnt == 0

def isFull (self : FixedDict ValType capacity prime) : Bool := self.cnt == capacity

def size (self : FixedDict ValType capacity prime) : Nat := self.cnt

end FixedDict
end Nginz
