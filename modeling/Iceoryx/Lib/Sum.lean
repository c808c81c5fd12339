import Mathlib.Algebra.BigOperators.Group.Finset.Basic
import Mathlib.Algebra.BigOperators.Group.List.Basic
import Mathlib.Algebra.GroupWithZero.Nat
import Mathlib.Data.Multiset.AddSub

universe u v

namespace Lib

variable {A : Type u}

theorem sum_map_set {M : Type v} [AddCommMonoid M] (f : A → M) (a d : A) :
    ∀ (l : List A) (i : Nat), l[i]? = some a →
      ((l.set i d).map f).sum + f a = (l.map f).sum + f d := by
  intro l
  induction l with
  | nil =>
    intro i h
    simp at h
  | cons b l ih =>
    intro i h
    cases i with
    | zero =>
      simp only [List.getElem?_cons_zero, Option.some.injEq] at h
      subst h
      simp only [List.set_cons_zero, List.map_cons, List.sum_cons]
      rw [add_comm (f d), add_assoc, add_comm (f d), ← add_assoc, add_comm _ (f b)]
    | succ i =>
      have := ih i (by simpa using h)
      simp only [List.set_cons_succ, List.map_cons, List.sum_cons]
      rw [add_assoc, this, add_assoc]

theorem map_set_of_eq {B : Type v} {f : A → B} {a d : A} {l : List A} {i : Nat}
    (ha : l[i]? = some a) (hf : f d = f a) : (l.set i d).map f = l.map f := by
  obtain ⟨hi, rfl⟩ := List.getElem?_eq_some_iff.mp ha
  rw [List.map_set, hf, ← List.getElem_map f (h := by simpa using hi), List.set_getElem_self]

theorem sum_update {I : Type u} {D M : Type v} [Fintype I] [DecidableEq I] [AddCommMonoid M]
    (f : D → M) (a : I → D) (i : I) (d : D) :
    ∑ j, f (Function.update a i d j) + f (a i) = ∑ j, f (a j) + f d := by
  have hrest : ∑ j ∈ Finset.univ.erase i, f (Function.update a i d j) =
      ∑ j ∈ Finset.univ.erase i, f (a j) := by
    refine Finset.sum_congr rfl fun j hj => ?_
    rw [Function.update_of_ne (Finset.ne_of_mem_erase hj)]
  rw [← Finset.add_sum_erase _ _ (Finset.mem_univ i),
    ← Finset.add_sum_erase _ (fun j => f (a j)) (Finset.mem_univ i), hrest, Function.update_self]
  rw [add_right_comm, add_comm (f d), add_right_comm]

theorem add_eq_of_transfer {M : Type v} [AddCancelCommMonoid M]
    {total total' held held' old new : M} (htotal : total' + old = total + new)
    (hheld : held' + new = held + old) : held' + total' = held + total := by
  apply add_right_cancel (b := old)
  rw [add_assoc, htotal, add_left_comm, hheld, add_left_comm, ← add_assoc]

theorem countP_eq_add {p q r : A → Bool} {l : List A}
    (h : ∀ a ∈ l, (p a ↔ q a ∨ r a) ∧ ¬ (q a ∧ r a)) :
    l.countP p = l.countP q + l.countP r := by
  induction l with
  | nil => rfl
  | cons a l ih =>
    obtain ⟨hsplit, hnot⟩ := h a List.mem_cons_self
    rw [List.countP_cons, List.countP_cons, List.countP_cons,
      ih fun b hb => h b (List.mem_cons_of_mem a hb)]
    by_cases hq : q a <;> by_cases hr : r a <;> simp_all <;> omega

theorem mem_sum_map {B : Type v} {f : A → Multiset B} {b : B} :
    ∀ {l : List A}, b ∈ (l.map f).sum ↔ ∃ a ∈ l, b ∈ f a := by
  intro l
  induction l with
  | nil => simp
  | cons a l ih => simp [ih]

theorem card_sum_map {B : Type v} (f : A → Multiset B) :
    ∀ l : List A, (l.map f).sum.card = (l.map fun a => (f a).card).sum := by
  intro l
  induction l with
  | nil => rfl
  | cons a l ih =>
    rw [List.map_cons, List.sum_cons, Multiset.card_add, ih, List.map_cons, List.sum_cons]

theorem length_le_sum_map (f : A → Nat) :
    ∀ l : List A, (∀ a ∈ l, 0 < f a) → l.length ≤ (l.map f).sum := by
  intro l
  induction l with
  | nil => simp
  | cons b l ih =>
    intro h
    have hb := h b List.mem_cons_self
    have := ih fun a ha => h a (List.mem_cons_of_mem b ha)
    simp only [List.length_cons, List.map_cons, List.sum_cons]
    omega

theorem countP_le_one {P : A → Bool} :
    ∀ l : List A, (∀ (i j : Nat) (a b : A), l[i]? = some a → l[j]? = some b → P a = true →
      P b = true → i = j) → l.countP P ≤ 1 := by
  intro l
  induction l with
  | nil => simp
  | cons c l ih =>
    intro h
    have htail : l.countP P ≤ 1 := by
      apply ih
      intro i j a b hi hj ha hb
      have := h (i + 1) (j + 1) a b (by simpa using hi) (by simpa using hj) ha hb
      omega
    cases hc : P c with
    | false => simpa [hc] using htail
    | true =>
      have hzero : l.countP P = 0 := by
        rw [List.countP_eq_zero]
        intro b hb hpb
        obtain ⟨j, hj⟩ := List.mem_iff_getElem?.mp hb
        have := h 0 (j + 1) c b rfl (by simpa using hj) hc hpb
        omega
      simp [hc, hzero]

end Lib
