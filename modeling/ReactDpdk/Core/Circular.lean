import ReactDpdk.General.Transition
import ReactDpdk.General.Cyclic

/-! `core/circular.hxx`: the ring through which threads pass packets. The two
positions start one apart, and `readPos` names the slot read last, not the one
to read next. -/
namespace Nginz
open Cyclic

/-- The template at any element type. Positions are indices of the array. -/
structure BusMpSc (T : Type*) (capacity : Nat) where
  readPos : Fin capacity
  data : Fin capacity → T
  writePos : Fin capacity

namespace BusMpSc
variable {T : Type*} {capacity : Nat}

/-- The initial ring; the array holds whatever its elements start as. -/
def init (h : 2 ≤ capacity) (data : Fin capacity → T) : BusMpSc T capacity :=
  { readPos := ⟨0, by omega⟩, data := data, writePos := ⟨1, h⟩ }

def front (self : BusMpSc T capacity) : T := self.data self.readPos

def back (self : BusMpSc T capacity) : T := self.data (advance self.writePos (capacity - 1))

def empty (self : BusMpSc T capacity) : Bool := advance self.readPos 1 == self.writePos

/-- Store into `data[wp]`. -/
def setData (self : BusMpSc T capacity) (wp : Fin capacity) (given : T) : BusMpSc T capacity :=
  { self with data := Function.update self.data wp given }

/-- The ring with the answer of `push`: `-1` when the message is dropped. -/
def push (self : BusMpSc T capacity) (given : T) : BusMpSc T capacity × Int :=
  if self.writePos = self.readPos then (self, -1)
  else
    let stored := self.setData self.writePos given
    ({ stored with writePos := advance self.writePos 1 }, 0)

def popFront (self : BusMpSc T capacity) : BusMpSc T capacity :=
  { self with readPos := advance self.readPos 1 }

/-- A full ring drops the message. -/
theorem push_of_full {self : BusMpSc T capacity} (h : self.writePos = self.readPos) (given : T) :
    self.push given = (self, -1) := if_pos h

theorem push_of_room {self : BusMpSc T capacity} (h : self.writePos ≠ self.readPos) (given : T) :
    self.push given =
      ({ self.setData self.writePos given with writePos := advance self.writePos 1 }, 0) :=
  if_neg h

/-- The ring seen as a window on a log. The log is all that was ever stored,
after the initial content of slot 0; entry `k` of it went to slot `k` counted
from the origin. The ring still holds the entries from `r` on. -/
structure Window (ring : BusMpSc T capacity) (origin : Fin capacity) (log : List T) (r : Nat) :
    Prop where
  read : ring.readPos = advance origin r
  write : ring.writePos = advance origin log.length
  nonempty : r < log.length
  bounded : log.length ≤ r + capacity
  held : ∀ k v, r ≤ k → log[k]? = some v → ring.data (advance origin k) = v

variable {ring : BusMpSc T capacity} {origin : Fin capacity} {log : List T} {r : Nat}

theorem window_init (h : 2 ≤ capacity) (data : Fin capacity → T) :
    (init h data).Window (init h data).readPos [(init h data).front] 0 where
  read := (advance_zero _).symm
  write := by
    apply Fin.ext
    simp [init, Nat.mod_eq_of_lt h]
  nonempty := by simp
  bounded := by
    simp only [List.length_singleton]
    omega
  held := by
    intro k v _ hk
    obtain ⟨rfl, rfl⟩ : k = 0 ∧ (init h data).front = v := by
      rw [List.getElem?_singleton] at hk
      split at hk
      · exact ⟨by assumption, Option.some.inj hk⟩
      · cases hk
    rw [advance_zero]
    rfl

/-- The ring is empty when only the entry read last is in the window. -/
theorem Window.empty_iff (h : ring.Window origin log r) :
    ring.empty = true ↔ log.length = r + 1 := by
  have hBounds : r < log.length ∧ log.length ≤ r + capacity := ⟨h.nonempty, h.bounded⟩
  rw [empty, beq_iff_eq, h.read, h.write, advance_succ]
  constructor
  · intro hEq
    exact (advance_window_inj (by omega) (by omega) hEq).symm
  · intro hLength
    rw [hLength]

/-- It is full when the window is a whole turn. -/
theorem Window.full_iff (h : ring.Window origin log r) :
    ring.writePos = ring.readPos ↔ log.length = r + capacity := by
  have hBounds : r < log.length ∧ log.length ≤ r + capacity := ⟨h.nonempty, h.bounded⟩
  rw [h.read, h.write]
  constructor
  · intro hEq
    by_contra hNe
    have hSame := advance_window_inj h.nonempty.le (by omega) hEq.symm
    omega
  · intro hLength
    apply Fin.ext
    rw [hLength, advance_val, advance_val, Nat.add_right_comm, Nat.add_mod_right]

/-- Writing the slot at `writePos` of a ring that is not full leaves the
window alone. -/
theorem Window.setData (h : ring.Window origin log r) (hRoom : log.length < r + capacity)
    (given : T) : (ring.setData ring.writePos given).Window origin log r where
  read := h.read
  write := h.write
  nonempty := h.nonempty
  bounded := h.bounded
  held := by
    intro k v hk hGet
    have hLt : k < log.length := (List.getElem?_eq_some_iff.mp hGet).1
    have hOther : advance origin k ≠ ring.writePos := by
      rw [h.write]
      intro hEq
      have hSame := advance_window_inj hLt.le (by omega) hEq
      omega
    calc (ring.setData ring.writePos given).data (advance origin k)
        = ring.data (advance origin k) := Function.update_of_ne hOther _ _
      _ = v := h.held k v hk hGet

/-- Publishing a value that lies in the slot at `writePos` extends the log. -/
theorem Window.publish (h : ring.Window origin log r) (hRoom : log.length < r + capacity)
    {given : T} (hStored : ring.data ring.writePos = given) :
    ({ ring with writePos := advance ring.writePos 1 }).Window origin (log ++ [given]) r where
  read := h.read
  write := by
    rw [h.write, advance_succ, List.length_append, List.length_singleton]
  nonempty := by
    have := h.nonempty
    simp only [List.length_append, List.length_singleton]
    omega
  bounded := by
    simp only [List.length_append, List.length_singleton]
    omega
  held := by
    intro k v hk hGet
    rcases Nat.lt_trichotomy k log.length with hLess | hLast | hMore
    · rw [List.getElem?_append_left hLess] at hGet
      exact h.held k v hk hGet
    · subst hLast
      rw [List.getElem?_concat_length] at hGet
      cases hGet
      rw [← h.write]
      exact hStored
    · rw [List.getElem?_eq_none (by simp only [List.length_append, List.length_singleton]; omega)]
        at hGet
      cases hGet

theorem Window.push (h : ring.Window origin log r) (hRoom : log.length < r + capacity)
    (given : T) :
    (ring.push given).1.Window origin (log ++ [given]) r ∧ (ring.push given).2 = 0 := by
  have hNotFull : ring.writePos ≠ ring.readPos := fun hFull => by
    have hLength := h.full_iff.mp hFull
    omega
  rw [push_of_room hNotFull]
  refine ⟨(h.setData hRoom given).publish hRoom ?_, rfl⟩
  exact Function.update_self ..

theorem Window.popFront (h : ring.Window origin log r) (hMore : r + 1 < log.length) :
    ring.popFront.Window origin log (r + 1) where
  read := by
    rw [BusMpSc.popFront, h.read, advance_succ]
  write := h.write
  nonempty := hMore
  bounded := by
    have := h.bounded
    omega
  held := fun k v hk hGet => h.held k v (by omega) hGet

/-- `front()` is the entry read last. -/
theorem Window.front (h : ring.Window origin log r) : log[r]? = some ring.front := by
  have hGet := List.getElem?_eq_getElem h.nonempty
  rw [hGet, BusMpSc.front, h.read, h.held r _ (le_refl r) hGet]

/-- The oldest message that was not popped lies one place further. -/
theorem Window.oldest (h : ring.Window origin log r) (hMore : r + 1 < log.length) :
    log[r + 1]? = some (ring.data (advance ring.readPos 1)) := by
  have hGet := List.getElem?_eq_getElem hMore
  rw [hGet, h.read, advance_succ, h.held (r + 1) _ (by omega) hGet]

end BusMpSc
end Nginz
