import Mathlib.Logic.Function.Basic

/-! `core/multi_timer.hxx`: the single-shot timers of one object. The timer
library is outside the repository; whether it accepts a reset is a parameter. -/
namespace Nginz

/-- A timer, by the argument its callback will get while it is pending and
`none` while it is stopped. During its callback the library calls it running,
which no callback here can tell from stopped: none restarts the timer that fired. -/
structure MtimerUnit where
  pending : Option UInt64 := none
deriving DecidableEq

namespace MtimerUnit

def isRunning (self : MtimerUnit) : Bool := self.pending.isSome

def stop (_self : MtimerUnit) : MtimerUnit := { pending := none }

/-- `resetOk` tells whether `rte_timer_reset` returns 0. A running timer is
stopped first, so it is lost when the reset fails. -/
def start (self : MtimerUnit) (givenTmrEvent givenMs : UInt32) (srcAddr : UInt64)
    (resetOk : Bool) : MtimerUnit × Bool :=
  let numTicks : UInt64 := (givenMs * 100).toUInt64
  if numTicks = 0 then (self, false)
  else
    let stopped := if self.isRunning then self.stop else self
    let evt : UInt64 := (0xFF &&& givenTmrEvent).toUInt64
    if resetOk then ({ pending := some (srcAddr ||| (evt <<< 56)) }, true) else (stopped, false)

end MtimerUnit

/-- The timers of one object, told apart by their index. -/
structure MultiTimer (maxTmr : Nat) where
  tmrs : Fin maxTmr → MtimerUnit := fun _ => {}
  srcAddr : UInt64 := 0

/-- Which timer starts succeed, by source address and timer index. -/
abbrev TimerEnv (maxTmr : Nat) := UInt64 → Fin maxTmr → Bool

namespace MultiTimer
variable {maxTmr : Nat}

def setSrcAddr (self : MultiTimer maxTmr) (givenSrcAddr : UInt64) : MultiTimer maxTmr :=
  { self with srcAddr := givenSrcAddr }

def setUnit (self : MultiTimer maxTmr) (tmrId : Fin maxTmr) (unit : MtimerUnit) :
    MultiTimer maxTmr := { self with tmrs := Function.update self.tmrs tmrId unit }

def start (self : MultiTimer maxTmr) (env : TimerEnv maxTmr) (tmrId : Fin maxTmr)
    (givenMs : UInt32) : MultiTimer maxTmr × Bool :=
  let (unit, started) := (self.tmrs tmrId).start (UInt32.ofNat tmrId) givenMs self.srcAddr
    (env self.srcAddr tmrId)
  (self.setUnit tmrId unit, started)

/-- The argument that the callback of a timer will get. -/
def pending (self : MultiTimer maxTmr) (tmrId : Fin maxTmr) : Option UInt64 :=
  (self.tmrs tmrId).pending

/-- The timer fires: it is single-shot, so it is no longer pending. -/
def clear (self : MultiTimer maxTmr) (tmrId : Fin maxTmr) : MultiTimer maxTmr :=
  self.setUnit tmrId { pending := none }

/-- The argument that `start` packs: the index in the top byte. -/
def packed (srcAddr : UInt64) (tmrId : Fin maxTmr) : UInt64 :=
  srcAddr ||| ((0xFF &&& UInt32.ofNat tmrId).toUInt64 <<< 56)

/-- The timers after a `start` that was not refused for its length. -/
def restarted (self : MultiTimer maxTmr) (env : TimerEnv maxTmr) (tmrId : Fin maxTmr) :
    MultiTimer maxTmr :=
  self.setUnit tmrId
    { pending := if env self.srcAddr tmrId then some (packed self.srcAddr tmrId) else none }

theorem start_eq (self : MultiTimer maxTmr) (env : TimerEnv maxTmr) (tmrId : Fin maxTmr)
    {givenMs : UInt32} (hMs : (givenMs * 100).toUInt64 ≠ 0) :
    self.start env tmrId givenMs = (self.restarted env tmrId, env self.srcAddr tmrId) := by
  have hStopped : (if (self.tmrs tmrId).isRunning then (self.tmrs tmrId).stop
      else self.tmrs tmrId) = { pending := none } := by
    cases hUnit : self.tmrs tmrId with
    | mk pending => cases pending <;> rfl
  simp only [start, MtimerUnit.start, if_neg hMs, hStopped, restarted, packed]
  cases env self.srcAddr tmrId <;> rfl

theorem pending_setUnit (self : MultiTimer maxTmr) (tmrId other : Fin maxTmr)
    (unit : MtimerUnit) :
    (self.setUnit tmrId unit).pending other =
      if other = tmrId then unit.pending else self.pending other := by
  simp only [pending, setUnit, Function.update_apply]
  split <;> rfl

@[simp]
theorem pending_restarted (self : MultiTimer maxTmr) (env : TimerEnv maxTmr)
    (tmrId other : Fin maxTmr) :
    (self.restarted env tmrId).pending other =
      if other = tmrId then
        if env self.srcAddr tmrId then some (packed self.srcAddr tmrId) else none
      else self.pending other := pending_setUnit ..

/-- A start that leaves pending what was pending changes nothing. -/
theorem restarted_eq_self {self : MultiTimer maxTmr} {env : TimerEnv maxTmr} {tmrId : Fin maxTmr}
    (h : self.pending tmrId =
      if env self.srcAddr tmrId then some (packed self.srcAddr tmrId) else none) :
    self.restarted env tmrId = self := by
  rw [restarted, ← h]
  exact congrArg (fun tmrs => { self with tmrs := tmrs }) (Function.update_eq_self ..)

@[simp]
theorem pending_clear (self : MultiTimer maxTmr) (tmrId other : Fin maxTmr) :
    (self.clear tmrId).pending other = if other = tmrId then none else self.pending other :=
  pending_setUnit ..

end MultiTimer
end Nginz
