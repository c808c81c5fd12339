import Mathlib.Data.Finset.Card
import Mathlib.Data.Finset.Lattice.Basic
import Mathlib.Data.List.Sort
import Iceoryx.Hoofs.Algorithm

universe u

namespace Iceoryx.Hoofs

section Lists

variable {α : Type u} [LinearOrder α] {v1 v2 v3 : List α}

theorem mergeLoops_nil_left (v : List α) : mergeLoops [] v = v := by
  rw [mergeLoops]

theorem mergeLoops_nil_right (v : List α) : mergeLoops v [] = v := by
  cases v with
  | nil => rw [mergeLoops]
  | cons a v =>
    rw [mergeLoops]
    exact List.cons_ne_nil a v

omit [LinearOrder α] in
theorem exists_cons_of_take {w v : List α} {a : α} {n : Nat}
    (h : w.take (n + 1) = (a :: v).take (n + 1)) : ∃ w', w = a :: w' ∧ w'.take n = v.take n := by
  cases w with
  | nil => cases h
  | cons b w =>
    rw [List.take_succ_cons, List.take_succ_cons] at h
    obtain ⟨rfl, hw⟩ := List.cons.inj h
    exact ⟨w, rfl, hw⟩

theorem eq_mergeLoops {v : List α} (h : v.Pairwise (· < ·)) (h1 : v1.Pairwise (· < ·))
    (h2 : v2.Pairwise (· < ·)) (hmem : ∀ x, x ∈ v ↔ x ∈ v1 ∨ x ∈ v2) : v = mergeLoops v1 v2 :=
  h.eq_of_mem_iff (mergeLoops_pairwise h1 h2) fun x => by rw [hmem, mem_mergeLoops]

theorem mergeLoops_comm (h1 : v1.Pairwise (· < ·)) (h2 : v2.Pairwise (· < ·)) :
    mergeLoops v1 v2 = mergeLoops v2 v1 :=
  eq_mergeLoops (mergeLoops_pairwise h1 h2) h2 h1 fun x => by rw [mem_mergeLoops, or_comm]

theorem mergeLoops_self (h : v1.Pairwise (· < ·)) : mergeLoops v1 v1 = v1 :=
  (eq_mergeLoops h h h fun _ => or_self_iff.symm).symm

theorem mergeLoops_assoc (h1 : v1.Pairwise (· < ·)) (h2 : v2.Pairwise (· < ·))
    (h3 : v3.Pairwise (· < ·)) :
    mergeLoops (mergeLoops v1 v2) v3 = mergeLoops v1 (mergeLoops v2 v3) := by
  refine eq_mergeLoops (mergeLoops_pairwise (mergeLoops_pairwise h1 h2) h3) h1
    (mergeLoops_pairwise h2 h3) fun x => ?_
  simp only [mem_mergeLoops, or_assoc]

theorem take_mergeLoops_congr {w : List α} {n : Nat} (h : w.take n = v1.take n) :
    (mergeLoops w v2).take n = (mergeLoops v1 v2).take n := by
  induction v1, v2 using mergeLoops.induct generalizing w n with
  | case1 v2 =>
    rw [List.take_nil, List.take_eq_nil_iff] at h
    rcases h with rfl | rfl
    · rw [List.take_zero, List.take_zero]
    · rfl
  | case2 v1 _ => rwa [mergeLoops_nil_right, mergeLoops_nil_right]
  | case3 v1 b v2 ih =>
    cases n with
    | zero => rw [List.take_zero, List.take_zero]
    | succ n =>
      obtain ⟨w', rfl, hw⟩ := exists_cons_of_take h
      rw [mergeLoops, mergeLoops, if_pos rfl, if_pos rfl, List.take_succ_cons,
        List.take_succ_cons, ih hw]
  | case4 a v1 b v2 hne hlt ih =>
    cases n with
    | zero => rw [List.take_zero, List.take_zero]
    | succ n =>
      obtain ⟨w', rfl, hw⟩ := exists_cons_of_take h
      rw [mergeLoops, mergeLoops, if_neg hne, if_neg hne, if_pos hlt, if_pos hlt,
        List.take_succ_cons, List.take_succ_cons, ih hw]
  | case5 a v1 b v2 hne hlt ih =>
    cases n with
    | zero => rw [List.take_zero, List.take_zero]
    | succ n =>
      obtain ⟨w', rfl, _⟩ := exists_cons_of_take h
      have hless : (a :: w').take n = (a :: v1).take n := by
        have := congrArg (List.take n) h
        rwa [List.take_take, List.take_take, min_eq_left (Nat.le_succ n)] at this
      rw [mergeLoops, mergeLoops, if_neg hne, if_neg hne, if_neg hlt, if_neg hlt,
        List.take_succ_cons, List.take_succ_cons, ih hless]

theorem take_mergeLoops_take_left (v1 v2 : List α) (n : Nat) :
    (mergeLoops (v1.take n) v2).take n = (mergeLoops v1 v2).take n :=
  take_mergeLoops_congr (by rw [List.take_take, min_self])

theorem take_mergeLoops_take_right (h1 : v1.Pairwise (· < ·)) (h2 : v2.Pairwise (· < ·))
    (n : Nat) : (mergeLoops v1 (v2.take n)).take n = (mergeLoops v1 v2).take n := by
  rw [mergeLoops_comm h1 (h2.sublist (List.take_sublist n v2)), take_mergeLoops_take_left,
    mergeLoops_comm h2 h1]

end Lists

theorem take_take_append {α : Type u} (l r : List α) (n : Nat) :
    (l.take n ++ r).take n = (l ++ r).take n := by
  have hlen : n - min n l.length = n - l.length := by
    omega
  rw [List.take_append, List.take_take, min_self, List.length_take, hlen, List.take_append]

structure Container (α : Type u) (capacity : Nat) where
  elements : List α
  bounded : elements.length ≤ capacity

namespace Container

variable {α : Type u} {capacity : Nat}

@[ext] theorem ext {v1 v2 : Container α capacity} (h : v1.elements = v2.elements) : v1 = v2 := by
  cases v1
  cases v2
  cases h
  rfl

def empty : Container α capacity where
  elements := []
  bounded := Nat.zero_le capacity

def emplaceBack (v : Container α capacity) (x : α) : Container α capacity :=
  if h : v.elements.length < capacity then
    { elements := v.elements ++ [x]
      bounded := by rwa [List.length_append] }
  else v

def appendLoop (v : Container α capacity) (index : Nat) (mergedContainer : Container α capacity) :
    Container α capacity :=
  if h : index < v.elements.length then
    appendLoop v (index + 1) (mergedContainer.emplaceBack v.elements[index])
  else mergedContainer
  termination_by v.elements.length - index

section Merge

variable [LinearOrder α]

def mergeLoop (v1 v2 : Container α capacity) (indexV1 indexV2 : Nat)
    (mergedContainer : Container α capacity) : Nat × Nat × Container α capacity :=
  if h : indexV1 < v1.elements.length ∧ indexV2 < v2.elements.length then
    if v1.elements[indexV1] = v2.elements[indexV2] then
      mergeLoop v1 v2 (indexV1 + 1) (indexV2 + 1)
        (mergedContainer.emplaceBack v1.elements[indexV1])
    else if v1.elements[indexV1] < v2.elements[indexV2] then
      mergeLoop v1 v2 (indexV1 + 1) indexV2 (mergedContainer.emplaceBack v1.elements[indexV1])
    else mergeLoop v1 v2 indexV1 (indexV2 + 1) (mergedContainer.emplaceBack v2.elements[indexV2])
  else (indexV1, indexV2, mergedContainer)
  termination_by v1.elements.length - indexV1 + (v2.elements.length - indexV2)

def uniqueMergeSortedContainers (v1 v2 : Container α capacity) : Container α capacity :=
  let (indexV1, indexV2, mergedContainer) := mergeLoop v1 v2 0 0 empty
  appendLoop v1 indexV1 (appendLoop v2 indexV2 mergedContainer)

end Merge

theorem elements_emplaceBack (v : Container α capacity) (x : α) :
    (v.emplaceBack x).elements = (v.elements ++ [x]).take capacity := by
  unfold emplaceBack
  split
  · next h =>
    rw [List.take_of_length_le]
    rwa [List.length_append]
  · next h =>
    have hfull : v.elements.length = capacity := v.bounded.antisymm (Nat.le_of_not_lt h)
    rw [List.take_append_of_le_length hfull.ge, List.take_of_length_le hfull.le]

theorem take_elements_emplaceBack (v : Container α capacity) (x : α) (rest : List α) :
    ((v.emplaceBack x).elements ++ rest).take capacity =
      (v.elements ++ x :: rest).take capacity := by
  rw [elements_emplaceBack, take_take_append, List.append_assoc, List.singleton_append]

theorem elements_appendLoop (v : Container α capacity) (index : Nat)
    (mergedContainer : Container α capacity) :
    (appendLoop v index mergedContainer).elements =
      (mergedContainer.elements ++ v.elements.drop index).take capacity := by
  induction index, mergedContainer using appendLoop.induct v with
  | case1 index merged h ih =>
    rw [appendLoop, dif_pos h, ih, take_elements_emplaceBack, List.drop_eq_getElem_cons h]
  | case2 index merged h =>
    rw [appendLoop, dif_neg h, List.drop_eq_nil_of_le (Nat.le_of_not_lt h), List.append_nil,
      List.take_of_length_le merged.bounded]

variable [LinearOrder α]

theorem elements_mergeLoop (v1 v2 : Container α capacity) (indexV1 indexV2 : Nat)
    (mergedContainer : Container α capacity) :
    (appendLoop v1 (mergeLoop v1 v2 indexV1 indexV2 mergedContainer).1
      (appendLoop v2 (mergeLoop v1 v2 indexV1 indexV2 mergedContainer).2.1
        (mergeLoop v1 v2 indexV1 indexV2 mergedContainer).2.2)).elements =
      (mergedContainer.elements ++
        mergeLoops (v1.elements.drop indexV1) (v2.elements.drop indexV2)).take capacity := by
  induction indexV1, indexV2, mergedContainer using mergeLoop.induct v1 v2 with
  | case1 i j merged h heq ih =>
    rw [mergeLoop, dif_pos h, if_pos heq, ih, take_elements_emplaceBack,
      List.drop_eq_getElem_cons h.1, List.drop_eq_getElem_cons h.2, mergeLoops, if_pos heq]
  | case2 i j merged h hne hlt ih =>
    rw [mergeLoop, dif_pos h, if_neg hne, if_pos hlt, ih, take_elements_emplaceBack,
      List.drop_eq_getElem_cons h.1, List.drop_eq_getElem_cons h.2, mergeLoops, if_neg hne,
      if_pos hlt]
  | case3 i j merged h hne hge ih =>
    rw [mergeLoop, dif_pos h, if_neg hne, if_neg hge, ih, take_elements_emplaceBack,
      List.drop_eq_getElem_cons h.1, List.drop_eq_getElem_cons h.2, mergeLoops, if_neg hne,
      if_neg hge]
  | case4 i j merged h =>
    rw [mergeLoop, dif_neg h]
    simp only [elements_appendLoop]
    rcases Nat.lt_or_ge i v1.elements.length with hi | hi
    · have hj : v2.elements.length ≤ j := Nat.le_of_not_lt fun hj => h ⟨hi, hj⟩
      rw [List.drop_eq_nil_of_le hj, mergeLoops_nil_right, List.append_nil,
        List.take_of_length_le merged.bounded]
    · rw [List.drop_eq_nil_of_le hi, mergeLoops_nil_left, List.append_nil, List.take_take,
        min_self]

theorem elements_uniqueMergeSortedContainers (v1 v2 : Container α capacity) :
    (v1.uniqueMergeSortedContainers v2).elements =
      Hoofs.uniqueMergeSortedContainers capacity v1.elements v2.elements :=
  elements_mergeLoop v1 v2 0 0 empty

def Sorted (v : Container α capacity) : Prop := v.elements.Pairwise (· < ·)

instance (v : Container α capacity) : Decidable v.Sorted :=
  inferInstanceAs (Decidable (List.Pairwise _ _))

def UnionFits (v1 v2 : Container α capacity) : Prop :=
  (v1.elements.toFinset ∪ v2.elements.toFinset).card ≤ capacity

instance (v1 v2 : Container α capacity) : Decidable (v1.UnionFits v2) :=
  inferInstanceAs (Decidable (_ ≤ _))

variable {v1 v2 v3 : Container α capacity}

theorem length_mergeLoops (h1 : v1.Sorted) (h2 : v2.Sorted) :
    (mergeLoops v1.elements v2.elements).length =
      (v1.elements.toFinset ∪ v2.elements.toFinset).card := by
  rw [← List.toFinset_card_of_nodup (mergeLoops_pairwise h1 h2).nodup]
  congr 1
  ext x
  rw [List.mem_toFinset, mem_mergeLoops, Finset.mem_union, List.mem_toFinset, List.mem_toFinset]

theorem elements_of_unionFits (h1 : v1.Sorted) (h2 : v2.Sorted) (hfits : v1.UnionFits v2) :
    (v1.uniqueMergeSortedContainers v2).elements = mergeLoops v1.elements v2.elements := by
  rw [elements_uniqueMergeSortedContainers, Hoofs.uniqueMergeSortedContainers,
    List.take_of_length_le]
  rwa [length_mergeLoops h1 h2]

theorem Sorted.merge (h1 : v1.Sorted) (h2 : v2.Sorted) :
    (v1.uniqueMergeSortedContainers v2).Sorted := by
  rw [Sorted, elements_uniqueMergeSortedContainers]
  exact (mergeLoops_pairwise h1 h2).sublist (List.take_sublist _ _)

theorem merge_comm (h1 : v1.Sorted) (h2 : v2.Sorted) :
    v1.uniqueMergeSortedContainers v2 = v2.uniqueMergeSortedContainers v1 := by
  ext1
  rw [elements_uniqueMergeSortedContainers, elements_uniqueMergeSortedContainers,
    Hoofs.uniqueMergeSortedContainers, mergeLoops_comm h1 h2]
  rfl

theorem merge_self (h : v1.Sorted) : v1.uniqueMergeSortedContainers v1 = v1 := by
  ext1
  rw [elements_uniqueMergeSortedContainers, Hoofs.uniqueMergeSortedContainers, mergeLoops_self h,
    List.take_of_length_le v1.bounded]

/-- What a full container refuses is larger than all that it has, so it is refused in any order. -/
theorem merge_assoc (h1 : v1.Sorted) (h2 : v2.Sorted) (h3 : v3.Sorted) :
    (v1.uniqueMergeSortedContainers v2).uniqueMergeSortedContainers v3 =
      v1.uniqueMergeSortedContainers (v2.uniqueMergeSortedContainers v3) := by
  ext1
  simp only [elements_uniqueMergeSortedContainers, Hoofs.uniqueMergeSortedContainers]
  rw [take_mergeLoops_take_left, take_mergeLoops_take_right h1 (mergeLoops_pairwise h2 h3),
    mergeLoops_assoc h1 h2 h3]

/-- Merging strictly increasing containers gives their union, strictly increasing, if it fits;
and it is commutative, idempotent and associative whether it fits or not. -/
theorem uniqueMergeSortedContainers_union (h1 : v1.Sorted) (h2 : v2.Sorted) (h3 : v3.Sorted) :
    (v1.UnionFits v2 → (v1.uniqueMergeSortedContainers v2).Sorted ∧
      ∀ x, x ∈ (v1.uniqueMergeSortedContainers v2).elements ↔
        x ∈ v1.elements ∨ x ∈ v2.elements) ∧
    v1.uniqueMergeSortedContainers v2 = v2.uniqueMergeSortedContainers v1 ∧
    v1.uniqueMergeSortedContainers v1 = v1 ∧
    (v1.uniqueMergeSortedContainers v2).uniqueMergeSortedContainers v3 =
      v1.uniqueMergeSortedContainers (v2.uniqueMergeSortedContainers v3) := by
  refine ⟨fun hfits => ⟨h1.merge h2, fun x => ?_⟩, merge_comm h1 h2, merge_self h1,
    merge_assoc h1 h2 h3⟩
  rw [elements_of_unionFits h1 h2 hfits, mem_mergeLoops]

def exampleContainers : Container Nat 4 × Container Nat 4 × Container Nat 4 where
  fst := ⟨[1, 3, 7], by decide⟩
  snd := (⟨[2, 3], by decide⟩, ⟨[0, 7], by decide⟩)

theorem uniqueMergeSortedContainers_union_example :
    exampleContainers.1.Sorted ∧ exampleContainers.2.1.Sorted ∧ exampleContainers.2.2.Sorted ∧
    (exampleContainers.1.uniqueMergeSortedContainers exampleContainers.2.1).Sorted := by
  have h1 : exampleContainers.1.Sorted := by decide
  have h2 : exampleContainers.2.1.Sorted := by decide
  have h3 : exampleContainers.2.2.Sorted := by decide
  exact ⟨h1, h2, h3, ((uniqueMergeSortedContainers_union h1 h2 h3).1 (by decide)).1⟩

end Container

end Iceoryx.Hoofs
