import Mathlib.Algebra.Order.Group.Nat
import Mathlib.Tactic.Ring

namespace Lib

abbrev Memory := Nat → Nat

namespace Memory

def store (mem : Memory) (address n value : Nat) : Memory := fun i =>
  if address ≤ i ∧ i < address + n then value / 256 ^ (i - address) % 256 else mem i

def load (mem : Memory) (address : Nat) : Nat → Nat
  | 0 => 0
  | n + 1 => mem address + 256 * load mem (address + 1) n

variable {mem mem' : Memory} {address address' n n' value : Nat}

theorem load_congr (h : ∀ i, address ≤ i → i < address + n → mem i = mem' i) :
    mem.load address n = mem'.load address n := by
  induction n generalizing address with
  | zero => rfl
  | succ n ih =>
    rw [load, load, h address le_rfl (by omega)]
    rw [ih fun i hle hlt => h i (by omega) (by omega)]

theorem load_of_digits (h : ∀ i, i < n → mem (address + i) = value / 256 ^ i % 256) :
    mem.load address n = value % 256 ^ n := by
  induction n generalizing address value with
  | zero => rw [load, pow_zero, Nat.mod_one]
  | succ n ih =>
    have hrest : mem.load (address + 1) n = value / 256 % 256 ^ n := by
      apply ih
      intro i hi
      rw [Nat.div_div_eq_div_mul, ← pow_succ', Nat.add_right_comm, Nat.add_assoc]
      exact h (i + 1) (by omega)
    have hfirst := h 0 (Nat.succ_pos n)
    rw [pow_zero, Nat.div_one, Nat.add_zero] at hfirst
    rw [load, hrest, hfirst, pow_succ', Nat.mod_mul]

theorem load_store (h : value < 256 ^ n) : (mem.store address n value).load address n = value := by
  have hdigits : ∀ i, i < n → mem.store address n value (address + i) = value / 256 ^ i % 256 := by
    intro i hi
    rw [store, if_pos ⟨by omega, by omega⟩, Nat.add_sub_cancel_left]
  rw [load_of_digits hdigits, Nat.mod_eq_of_lt h]

theorem load_store_of_apart (h : address + n ≤ address' ∨ address' + n' ≤ address) :
    (mem.store address n value).load address' n' = mem.load address' n' := by
  apply load_congr
  intro i hle hlt
  rw [store, if_neg]
  omega

end Memory

end Lib
