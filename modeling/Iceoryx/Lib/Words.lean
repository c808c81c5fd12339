import Mathlib.Order.Basic
import Mathlib.Tactic.Ring

namespace Lib.Words

def toUint64 (n : Nat) : Nat := n % 2 ^ 64

def toUint32 (n : Nat) : Nat := n % 2 ^ 32

def uint64Max : Nat := 2 ^ 64 - 1

theorem toUint64_of_lt {n : Nat} (h : n < 2 ^ 64) : toUint64 n = n := Nat.mod_eq_of_lt h

theorem toUint32_of_lt {n : Nat} (h : n < 2 ^ 32) : toUint32 n = n := Nat.mod_eq_of_lt h

variable {M R a b high high' low low' : Nat}

theorem add_mod_lt_iff (ha : a < M) (hb : b < M) : (a + b) % M < a ↔ M ≤ a + b := by
  by_cases h : M ≤ a + b
  · rw [Nat.mod_eq_sub_mod h, Nat.mod_eq_of_lt (by omega)]
    omega
  · rw [Nat.mod_eq_of_lt (by omega)]
    omega

def twoDigits (R high low : Nat) : Nat := high * R + low

theorem twoDigits_lt_of_high (hlow : low < R) (h : high < high') :
    twoDigits R high low < twoDigits R high' low' := by
  have hle : (high + 1) * R ≤ high' * R := Nat.mul_le_mul_right R h
  simp only [twoDigits]
  rw [Nat.add_mul, Nat.one_mul] at hle
  omega

theorem twoDigits_lt_iff (hlow : low < R) (hlow' : low' < R) :
    twoDigits R high low < twoDigits R high' low' ↔
      high < high' ∨ (high = high' ∧ low < low') := by
  rcases Nat.lt_trichotomy high high' with h | rfl | h
  · exact iff_of_true (twoDigits_lt_of_high hlow h) (Or.inl h)
  · simp [twoDigits]
  · have hlt : twoDigits R high' low' < twoDigits R high low := twoDigits_lt_of_high hlow' h
    exact iff_of_false (by omega) (by omega)

theorem twoDigits_div (hlow : low < R) : twoDigits R high low / R = high := by
  rw [twoDigits, Nat.add_comm, Nat.add_mul_div_right _ _ (by omega), Nat.div_eq_of_lt hlow,
    Nat.zero_add]

theorem min_add_min (a b m : Nat) : min (min a m + b) m = min (a + b) m := by
  omega

end Lib.Words
