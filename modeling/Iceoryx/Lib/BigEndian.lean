import Mathlib.Algebra.Order.Group.Nat
import Mathlib.Data.Nat.Bitwise
import Mathlib.Tactic.Ring

namespace Lib.BigEndian

def bytes : Nat → Nat → List UInt8
  | 0, _ => []
  | k + 1, v => UInt8.ofNat (v >>> (8 * k) &&& 0xFF) :: bytes k v

def value : List UInt8 → Nat
  | [] => 0
  | b :: bs => b.toNat <<< (8 * bs.length) ||| value bs

variable {k v w : Nat} {b : UInt8} {bs : List UInt8}

@[simp] theorem length_bytes (k v : Nat) : (bytes k v).length = k := by
  induction k with
  | zero => rfl
  | succ k ih => rw [bytes, List.length_cons, ih]

theorem mask_eq (v : Nat) : v &&& 0xFF = v % 256 := Nat.and_two_pow_sub_one_eq_mod v 8

theorem two_pow_eq (k : Nat) : (2 : Nat) ^ (8 * k) = 256 ^ k := Nat.pow_mul 2 8 k

theorem toNat_byte (v k : Nat) :
    (UInt8.ofNat (v >>> (8 * k) &&& 0xFF)).toNat = v / 256 ^ k % 256 := by
  rw [UInt8.toNat_ofNat', mask_eq, Nat.shiftRight_eq_div_pow, two_pow_eq]
  exact Nat.mod_mod _ 256

theorem value_lt (bs : List UInt8) : value bs < 256 ^ bs.length := by
  induction bs with
  | nil => exact Nat.one_pos
  | cons b bs ih =>
    have hb := b.toNat_lt
    have hpow := two_pow_eq bs.length
    rw [value, ← Nat.shiftLeft_add_eq_or_of_lt (by rw [hpow]; exact ih), Nat.shiftLeft_eq, hpow,
      List.length_cons, pow_succ']
    calc b.toNat * 256 ^ bs.length + value bs
        < b.toNat * 256 ^ bs.length + 256 ^ bs.length := Nat.add_lt_add_left ih _
      _ = (b.toNat + 1) * 256 ^ bs.length := by ring
      _ ≤ 256 * 256 ^ bs.length := Nat.mul_le_mul_right _ hb

theorem value_cons (b : UInt8) (bs : List UInt8) :
    value (b :: bs) = b.toNat * 256 ^ bs.length + value bs := by
  have hpow := two_pow_eq bs.length
  rw [value, ← Nat.shiftLeft_add_eq_or_of_lt (by rw [hpow]; exact value_lt bs), Nat.shiftLeft_eq,
    hpow]

theorem value_bytes (k v : Nat) : value (bytes k v) = v % 256 ^ k := by
  induction k with
  | zero => rw [bytes, value, pow_zero, Nat.mod_one]
  | succ k ih =>
    rw [bytes, value_cons, length_bytes, toNat_byte, ih, pow_succ, Nat.mod_mul]
    ring

theorem bytes_add_mul (k a v : Nat) : bytes k (a * 256 ^ k + v) = bytes k v := by
  induction k generalizing a with
  | zero => rfl
  | succ k ih =>
    have hsplit : a * 256 ^ (k + 1) + v = a * 256 * 256 ^ k + v := by ring
    have hhead : (UInt8.ofNat ((a * 256 ^ (k + 1) + v) >>> (8 * k) &&& 0xFF)) =
        UInt8.ofNat (v >>> (8 * k) &&& 0xFF) := by
      apply UInt8.toNat_inj.mp
      rw [toNat_byte, toNat_byte, hsplit, Nat.add_comm, Nat.add_mul_div_right _ _ (Nat.pow_pos (by decide)),
        Nat.add_mul_mod_self_right]
    rw [bytes, bytes, hhead, hsplit, ih]

theorem bytes_value (bs : List UInt8) : bytes bs.length (value bs) = bs := by
  induction bs with
  | nil => rfl
  | cons b bs ih =>
    have hhead : UInt8.ofNat (value (b :: bs) >>> (8 * bs.length) &&& 0xFF) = b := by
      apply UInt8.toNat_inj.mp
      rw [toNat_byte, value_cons, Nat.add_comm, Nat.add_mul_div_right _ _ (Nat.pow_pos (by decide)),
        Nat.div_eq_of_lt (value_lt bs), Nat.zero_add, Nat.mod_eq_of_lt b.toNat_lt]
    rw [List.length_cons, bytes, hhead, value_cons, bytes_add_mul, ih]

end Lib.BigEndian
