import Mathlib.Order.Basic
import Mathlib.Tactic.Ring

namespace Iceoryx.Hoofs

def align (value alignment : Nat) : Nat :=
  let remainder := value % alignment
  value + if remainder = 0 then 0 else alignment - remainder

def isPowerOfTwo (n : Nat) : Bool := n ≠ 0 ∧ n &&& (n - 1) = 0

theorem isPowerOfTwo_iff {n : Nat} : isPowerOfTwo n = true ↔ ∃ k, n = 2 ^ k := by
  simp only [isPowerOfTwo, decide_eq_true_eq]
  exact Nat.ne_zero_and_sub_one_eq_zero_iff_isPowerOfTwo

theorem two_pow_dvd_of_isPowerOfTwo {n k : Nat} (h : isPowerOfTwo n = true) (hk : 2 ^ k ≤ n) :
    2 ^ k ∣ n := by
  obtain ⟨j, rfl⟩ := isPowerOfTwo_iff.mp h
  exact Nat.pow_dvd_pow 2 ((Nat.pow_le_pow_iff_right (by decide)).mp hk)

theorem dvd_two_pow_of_isPowerOfTwo {n k : Nat} (h : isPowerOfTwo n = true) (hk : n ≤ 2 ^ k) :
    n ∣ 2 ^ k := by
  obtain ⟨j, rfl⟩ := isPowerOfTwo_iff.mp h
  exact Nat.pow_dvd_pow 2 ((Nat.pow_le_pow_iff_right (by decide)).mp hk)

theorem align_eq_self {value alignment : Nat} (h : alignment ∣ value) :
    align value alignment = value := by
  simp [align, Nat.mod_eq_zero_of_dvd h]

theorem le_align (value alignment : Nat) : value ≤ align value alignment :=
  Nat.le_add_right _ _

theorem dvd_align {value alignment : Nat} (h : 0 < alignment) :
    alignment ∣ align value alignment := by
  unfold align
  have hmod := Nat.mod_lt value h
  have hdiv := Nat.div_add_mod value alignment
  by_cases hr : value % alignment = 0
  · simpa [hr] using Nat.dvd_of_mod_eq_zero hr
  · simp only [hr, if_false]
    refine ⟨value / alignment + 1, ?_⟩
    rw [Nat.mul_add]
    omega

theorem align_le_of_dvd {value alignment g : Nat} (hv : g ∣ value) (ha : g ∣ alignment)
    (hpos : 0 < alignment) : align value alignment + g ≤ value + alignment := by
  obtain ⟨v, rfl⟩ := hv
  obtain ⟨a, rfl⟩ := ha
  have hg : 0 < g := Nat.pos_of_mul_pos_right hpos
  unfold align
  rw [Nat.mul_mod_mul_left]
  have hmod : v % a < a := Nat.mod_lt v (Nat.pos_of_mul_pos_left hpos)
  by_cases hr : v % a = 0
  · have hle : g * 1 ≤ g * a := Nat.mul_le_mul_left g (by omega)
    simp only [hr, Nat.mul_zero, if_true]
    omega
  · have hle : g * 1 ≤ g * (v % a) := Nat.mul_le_mul_left g (by omega)
    have hlt : g * (v % a) ≤ g * a := Nat.mul_le_mul_left g hmod.le
    have hne : g * (v % a) ≠ 0 := Nat.mul_ne_zero hg.ne' hr
    simp only [hne, if_false]
    omega

theorem align_add_of_dvd {base value alignment : Nat} (h : alignment ∣ base) :
    align (base + value) alignment = base + align value alignment := by
  obtain ⟨b, rfl⟩ := h
  simp only [align, Nat.mul_add_mod]
  omega

/-- `blocks` is what was handed out so far, each block with its size; the source
does not record it. -/
structure Allocator where
  startAddress : Nat
  length : Nat
  currentPosition : Nat
  blocks : List (Nat × Nat) := []
  deriving DecidableEq, Repr

namespace Allocator

/-- The three `Expects` of `allocate` end the program, which is `none` here;
`finalizeAllocation` is not called before the pools are configured. -/
def allocate (a : Allocator) (size alignment : Nat) : Option (Nat × Allocator) :=
  if 0 < size then
    let currentAddress := a.startAddress + a.currentPosition
    let alignedPosition := align currentAddress alignment - a.startAddress
    if a.length ≥ alignedPosition + size then
      let address := a.startAddress + alignedPosition
      some (address, { a with
        currentPosition := alignedPosition + size
        blocks := (address, size) :: a.blocks })
    else none
  else none

theorem allocate_spec {a a' : Allocator} {size alignment address : Nat}
    (h : a.allocate size alignment = some (address, a')) :
    address = align (a.startAddress + a.currentPosition) alignment ∧
      a'.startAddress + a'.currentPosition = address + size := by
  unfold allocate at h
  split at h
  · have hle := le_align (a.startAddress + a.currentPosition) alignment
    simp only at h
    split at h
    · cases h
      constructor
      · omega
      · change a.startAddress + (_ + size) = _
        omega
    · cases h
  · cases h

end Allocator

end Iceoryx.Hoofs
