import Mathlib.Data.List.Perm.Subperm
import Mathlib.Data.Nat.Basic
import Mathlib.Order.Lattice
import Iceoryx.Lib.Indices

universe u

namespace Iceoryx.Hoofs

variable {α : Type u} [LinearOrder α]

def mergeLoops : List α → List α → List α
  | [], v2 => v2
  | v1, [] => v1
  | a :: v1, b :: v2 =>
    if a = b then a :: mergeLoops v1 v2
    else if a < b then a :: mergeLoops v1 (b :: v2)
    else b :: mergeLoops (a :: v1) v2
  termination_by v1 v2 => v1.length + v2.length

def uniqueMergeSortedContainers (capacity : Nat) (v1 v2 : List α) : List α :=
  (mergeLoops v1 v2).take capacity

theorem mem_mergeLoops {x : α} (v1 v2 : List α) : x ∈ mergeLoops v1 v2 ↔ x ∈ v1 ∨ x ∈ v2 := by
  induction v1, v2 using mergeLoops.induct with
  | case1 v2 => simp only [mergeLoops, List.not_mem_nil, false_or]
  | case2 v1 hv1 =>
    rw [mergeLoops]
    · simp only [List.not_mem_nil, or_false]
    · exact hv1
  | case3 v1 b v2 ih =>
    rw [mergeLoops, if_pos rfl]
    simp only [List.mem_cons, ih]
    tauto
  | case4 a v1 b v2 hne hlt ih =>
    rw [mergeLoops, if_neg hne, if_pos hlt]
    simp only [List.mem_cons, ih]
    tauto
  | case5 a v1 b v2 hne hlt ih =>
    rw [mergeLoops, if_neg hne, if_neg hlt]
    simp only [List.mem_cons, ih]
    tauto

theorem mergeLoops_pairwise {v1 v2 : List α} (h1 : v1.Pairwise (· < ·))
    (h2 : v2.Pairwise (· < ·)) : (mergeLoops v1 v2).Pairwise (· < ·) := by
  induction v1, v2 using mergeLoops.induct with
  | case1 v2 =>
    rw [mergeLoops]
    exact h2
  | case2 v1 hv1 =>
    rw [mergeLoops]
    · exact h1
    · exact hv1
  | case3 v1 b v2 ih =>
    obtain ⟨hlt1, h1⟩ := List.pairwise_cons.mp h1
    obtain ⟨hlt2, h2⟩ := List.pairwise_cons.mp h2
    rw [mergeLoops, if_pos rfl]
    refine List.pairwise_cons.mpr ⟨fun x hx => ?_, ih h1 h2⟩
    exact ((mem_mergeLoops v1 v2).mp hx).elim (hlt1 x) (hlt2 x)
  | case4 a v1 b v2 hne hlt ih =>
    obtain ⟨hlt1, h1⟩ := List.pairwise_cons.mp h1
    rw [mergeLoops, if_neg hne, if_pos hlt]
    refine List.pairwise_cons.mpr ⟨fun x hx => ?_, ih h1 h2⟩
    rcases (mem_mergeLoops v1 (b :: v2)).mp hx with hx | hx
    · exact hlt1 x hx
    rcases List.mem_cons.mp hx with rfl | hx
    · exact hlt
    · exact lt_trans hlt ((List.pairwise_cons.mp h2).1 x hx)
  | case5 a v1 b v2 hne hlt ih =>
    obtain ⟨hlt2, h2⟩ := List.pairwise_cons.mp h2
    have hba : b < a := lt_of_le_of_ne (le_of_not_gt hlt) (Ne.symm hne)
    rw [mergeLoops, if_neg hne, if_neg hlt]
    refine List.pairwise_cons.mpr ⟨fun x hx => ?_, ih h1 h2⟩
    rcases (mem_mergeLoops (a :: v1) v2).mp hx with hx | hx
    · rcases List.mem_cons.mp hx with rfl | hx
      · exact hba
      · exact lt_trans hba ((List.pairwise_cons.mp h1).1 x hx)
    · exact hlt2 x hx

theorem length_le_of_pairwise_lt {v : List Nat} {n : Nat} (h : v.Pairwise (· < ·))
    (hn : ∀ x ∈ v, x < n) : v.length ≤ n :=
  Lib.length_le_of_nodup_lt (h.imp Nat.ne_of_lt) hn

theorem uniqueMergeSortedContainers_eq {capacity : Nat} {v1 v2 : List Nat}
    (h1 : v1.Pairwise (· < ·)) (h2 : v2.Pairwise (· < ·)) (hlt1 : ∀ x ∈ v1, x < capacity)
    (hlt2 : ∀ x ∈ v2, x < capacity) :
    uniqueMergeSortedContainers capacity v1 v2 = mergeLoops v1 v2 := by
  refine List.take_of_length_le (length_le_of_pairwise_lt (mergeLoops_pairwise h1 h2) ?_)
  exact fun x hx => ((mem_mergeLoops v1 v2).mp hx).elim (hlt1 x) (hlt2 x)

end Iceoryx.Hoofs
