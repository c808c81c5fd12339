import Mathlib.Logic.Function.Basic
import Mathlib.Data.List.Basic
import Mathlib.Data.Int.ModEq

/-! A ring of `size` slots that holds the end of a growing list of values: the value
at position `p` of the list is in slot `p % size`. -/

universe u

namespace Lib.Ring

variable {α : Type u} {size lo : Nat} {data : Nat → α} {values : List α}

theorem mod_ne {p q : Nat} (h : p < q) (hq : q < p + size) : q % size ≠ p % size := by
  intro heq
  have hdvd : size ∣ q - p := (Nat.modEq_iff_dvd' h.le).mp heq.symm
  have := Nat.le_of_dvd (by omega) hdvd
  omega

theorem exists_mod_eq {q : Nat} (hsize : 0 < size) (lo : Nat) :
    ∃ p, lo ≤ p ∧ p < lo + size ∧ p % size = q % size := by
  have hlo := Nat.mod_add_div lo size
  have hslot := Nat.mod_lt q hsize
  have hrem := Nat.mod_lt lo hsize
  rcases Nat.lt_or_ge (q % size) (lo % size) with hlt | hge
  · refine ⟨q % size + size * (lo / size + 1), ?_, ?_, ?_⟩
    · rw [Nat.mul_add, Nat.mul_one]
      omega
    · rw [Nat.mul_add, Nat.mul_one]
      omega
    · rw [Nat.add_mul_mod_self_left, Nat.mod_mod]
  · refine ⟨q % size + size * (lo / size), by omega, by omega, ?_⟩
    rw [Nat.add_mul_mod_self_left, Nat.mod_mod]

def Holds (size : Nat) (data : Nat → α) (values : List α) (lo : Nat) : Prop :=
  ∀ p v, lo ≤ p → values[p]? = some v → data (p % size) = v

namespace Holds

theorem nil (size : Nat) (data : Nat → α) (lo : Nat) : Holds size data [] lo := by
  intro p v _ hv
  simp at hv

theorem advance {lo' : Nat} (h : Holds size data values lo) (hlo : lo ≤ lo') :
    Holds size data values lo' :=
  fun p v hp => h p v (hlo.trans hp)

theorem write (h : Holds size data values lo) (hfree : values.length < lo + size) (v : α) :
    Holds size (Function.update data (values.length % size) v) values lo := by
  intro p w hp hw
  have hlt : p < values.length := (List.getElem?_eq_some_iff.mp hw).1
  rw [Function.update_of_ne (mod_ne hlt (by omega)).symm]
  exact h p w hp hw

theorem push (h : Holds size data values lo) {v : α} (hv : data (values.length % size) = v) :
    Holds size data (values ++ [v]) lo := by
  intro p w hp hw
  rcases Nat.lt_trichotomy p values.length with hlt | rfl | hgt
  · rw [List.getElem?_append_left hlt] at hw
    exact h p w hp hw
  · rw [List.getElem?_concat_length] at hw
    rw [hv, Option.some.inj hw]
  · rw [List.getElem?_eq_none (by simp; omega)] at hw
    cases hw

end Holds

def Window (size : Nat) (data : Nat → Option α) (lo : Nat) (values : List α) : Prop :=
  ∀ k v, values[k]? = some v → data ((lo + k) % size) = some v

namespace Window

variable {data : Nat → Option α} {v : α}

theorem nil (size : Nat) (data : Nat → Option α) (lo : Nat) : Window size data lo [] := by
  intro k v hv
  simp at hv

theorem head (h : Window size data lo (v :: values)) : data (lo % size) = some v :=
  h 0 v rfl

theorem tail (h : Window size data lo (v :: values)) : Window size data (lo + 1) values := by
  intro k w hw
  rw [show lo + 1 + k = lo + (k + 1) by omega]
  exact h (k + 1) w hw

theorem push (h : Window size data lo values) (hfree : values.length < size) (v : α) :
    Window size (Function.update data ((lo + values.length) % size) (some v)) lo
      (values ++ [v]) := by
  intro k w hw
  rcases Nat.lt_or_ge k values.length with hlt | hge
  · rw [List.getElem?_append_left hlt] at hw
    rw [Function.update_of_ne (mod_ne (by omega) (by omega)).symm]
    exact h k w hw
  · rw [List.getElem?_append_right hge, List.getElem?_singleton] at hw
    split at hw
    · cases hw
      rw [show k = values.length by omega, Function.update_self]
    · cases hw

theorem values_eq (h : Window size data lo values) :
    (List.range values.length).filterMap (fun k => data ((lo + k) % size)) = values := by
  induction values generalizing lo with
  | nil => rfl
  | cons v rest ih =>
    rw [List.length_cons, List.range_succ_eq_map, List.filterMap_cons, List.filterMap_map,
      Nat.add_zero, h.head]
    have hrest := ih h.tail
    simp only [Function.comp_def, Nat.succ_eq_add_one]
    simp only [Nat.add_right_comm lo 1, Nat.add_assoc] at hrest
    rw [hrest]

end Window

end Lib.Ring
