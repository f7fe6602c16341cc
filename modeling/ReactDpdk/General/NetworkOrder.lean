import Mathlib.Data.UInt
import Mathlib.Tactic.Ring

/-! Numbers in network order: the value of a list of bytes, the most significant
first, and of a word that is put together from its two halves. -/
namespace NetworkOrder

/-- The number that bytes spell, the most significant first. -/
def beValue : List UInt8 → Nat
  | [] => 0
  | first :: rest => first.toNat * 256 ^ rest.length + beValue rest

theorem beValue_append (first second : List UInt8) :
    beValue (first ++ second) = beValue first * 256 ^ second.length + beValue second := by
  induction first with
  | nil => simp [beValue]
  | cons x rest ih =>
      rw [List.cons_append, beValue, beValue, ih, List.length_append]
      ring

theorem beValue_singleton (x : UInt8) : beValue [x] = x.toNat := by
  simp [beValue]

/-- A word is the sum of its shifted upper half and its lower half. -/
theorem toNat_join16 (hi lo : UInt8) :
    ((hi.toUInt16 <<< 8) ||| lo.toUInt16).toNat = hi.toNat * 256 + lo.toNat := by
  have hHi := hi.toNat_lt
  have hLo := lo.toNat_lt
  have hShift : (hi.toUInt16 <<< 8).toNat = hi.toNat <<< 8 := by
    rw [UInt16.toNat_shiftLeft, UInt8.toNat_toUInt16, Nat.mod_eq_of_lt]
    · rfl
    · rw [Nat.shiftLeft_eq]
      simp
      omega
  rw [UInt16.toNat_or, hShift, UInt8.toNat_toUInt16, ← Nat.shiftLeft_add_eq_or_of_lt hLo,
    Nat.shiftLeft_eq]

theorem toNat_join32 (hi lo : UInt16) :
    ((hi.toUInt32 <<< 16) ||| lo.toUInt32).toNat = hi.toNat * 65536 + lo.toNat := by
  have hHi := hi.toNat_lt
  have hLo := lo.toNat_lt
  have hShift : (hi.toUInt32 <<< 16).toNat = hi.toNat <<< 16 := by
    rw [UInt32.toNat_shiftLeft, UInt16.toNat_toUInt32, Nat.mod_eq_of_lt]
    · rfl
    · rw [Nat.shiftLeft_eq]
      simp
      omega
  rw [UInt32.toNat_or, hShift, UInt16.toNat_toUInt32, ← Nat.shiftLeft_add_eq_or_of_lt hLo,
    Nat.shiftLeft_eq]

theorem toNat_join64 (hi lo : UInt32) :
    ((hi.toUInt64 <<< 32) ||| lo.toUInt64).toNat = hi.toNat * 4294967296 + lo.toNat := by
  have hHi := hi.toNat_lt
  have hLo := lo.toNat_lt
  have hShift : (hi.toUInt64 <<< 32).toNat = hi.toNat <<< 32 := by
    rw [UInt64.toNat_shiftLeft, UInt32.toNat_toUInt64, Nat.mod_eq_of_lt]
    · rfl
    · rw [Nat.shiftLeft_eq]
      simp
      omega
  rw [UInt64.toNat_or, hShift, UInt32.toNat_toUInt64, ← Nat.shiftLeft_add_eq_or_of_lt hLo,
    Nat.shiftLeft_eq]

end NetworkOrder
