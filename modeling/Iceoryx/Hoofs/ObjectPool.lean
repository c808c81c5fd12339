import Mathlib.Data.List.Nodup
import Mathlib.Data.List.Range
import Mathlib.Data.List.Perm.Subperm
import Mathlib.Logic.Function.Basic

universe u

namespace Iceoryx.Hoofs

section Cells

variable {T : Type u} {capacity i : Nat} {cells : Nat → Option T}

def usedCells (capacity : Nat) (cells : Nat → Option T) : List Nat :=
  (List.range capacity).filter fun i => (cells i).isSome

theorem mem_usedCells : i ∈ usedCells capacity cells ↔ i < capacity ∧ (cells i).isSome := by
  rw [usedCells, List.mem_filter, List.mem_range]

theorem nodup_usedCells : (usedCells capacity cells).Nodup :=
  List.nodup_range.filter _

theorem usedCells_fill (hi : i < capacity) (hfree : cells i = none) (t : T) :
    List.Perm (usedCells capacity (Function.update cells i (some t)))
      (i :: usedCells capacity cells) := by
  have hnew : i ∉ usedCells capacity cells := by
    rw [mem_usedCells, hfree]
    exact fun h => nomatch h.2
  rw [List.perm_ext_iff_of_nodup nodup_usedCells (nodup_usedCells.cons hnew)]
  intro j
  rw [List.mem_cons, mem_usedCells, mem_usedCells, Function.update_apply]
  split
  · next hji =>
    subst hji
    exact iff_of_true ⟨hi, rfl⟩ (Or.inl rfl)
  · next hji => simp only [hji, false_or]

theorem usedCells_empty (hi : i < capacity) (hused : (cells i).isSome) :
    List.Perm (usedCells capacity cells)
      (i :: usedCells capacity (Function.update cells i none)) := by
  obtain ⟨t, ht⟩ := Option.isSome_iff_exists.mp hused
  have hback : Function.update (Function.update cells i none) i (some t) = cells := by
    rw [Function.update_idem, ← ht, Function.update_eq_self]
  have hperm := usedCells_fill hi (Function.update_self i none cells) t
  rwa [hback] at hperm

theorem length_usedCells_fill (hi : i < capacity) (hfree : cells i = none) (t : T) :
    (usedCells capacity (Function.update cells i (some t))).length =
      (usedCells capacity cells).length + 1 :=
  (usedCells_fill hi hfree t).length_eq

theorem length_usedCells_empty (hi : i < capacity) (hused : (cells i).isSome) :
    (usedCells capacity cells).length =
      (usedCells capacity (Function.update cells i none)).length + 1 :=
  (usedCells_empty hi hused).length_eq

end Cells

structure ObjectPool (T : Type u) (capacity : Nat) where
  cells : Nat → Option T
  freeIndex : Nat
  size : Nat
  counted : size = (usedCells capacity cells).length
  inRange : freeIndex < capacity

namespace ObjectPool

variable {T : Type u} {capacity : Nat}

def empty (h : 0 < capacity) : ObjectPool T capacity where
  cells := fun _ => none
  freeIndex := 0
  size := 0
  counted := by
    refine (List.length_eq_zero_iff.mpr ?_).symm
    exact List.filter_eq_nil_iff.mpr fun _ _ => Bool.false_ne_true
  inRange := h

def nextFree (p : ObjectPool T capacity) : Option Nat :=
  if p.size ≥ capacity then none
  else ((List.range capacity).map fun k => (p.freeIndex + k) % capacity).find? fun i =>
    (p.cells i).isNone

theorem nextFree_spec {p : ObjectPool T capacity} {i : Nat} (h : p.nextFree = some i) :
    i < capacity ∧ p.cells i = none := by
  unfold nextFree at h
  split at h
  · cases h
  · have hmem := List.mem_of_find?_eq_some h
    obtain ⟨k, _, rfl⟩ := List.mem_map.mp hmem
    have hfree := List.find?_some h
    exact ⟨Nat.mod_lt _ ((Nat.zero_le _).trans_lt p.inRange), Option.isNone_iff_eq_none.mp hfree⟩

theorem exists_free {p : ObjectPool T capacity} (h : p.size < capacity) :
    ∃ i, i < capacity ∧ p.cells i = none := by
  by_contra hnone
  have hall : usedCells capacity p.cells = List.range capacity := by
    refine List.filter_eq_self.mpr fun i hi => ?_
    by_contra hfree
    exact hnone ⟨i, List.mem_range.mp hi, by simpa using hfree⟩
  rw [p.counted, hall, List.length_range] at h
  exact Nat.lt_irrefl _ h

theorem nextFree_eq_none_iff {p : ObjectPool T capacity} :
    p.nextFree = none ↔ capacity ≤ p.size := by
  constructor
  · intro h
    by_contra hlt
    obtain ⟨i, hi, hfree⟩ := exists_free (Nat.lt_of_not_le hlt)
    rw [nextFree, if_neg hlt, List.find?_eq_none] at h
    have hturn : (p.freeIndex + (i + capacity - p.freeIndex)) % capacity = i := by
      have := p.inRange
      rw [show p.freeIndex + (i + capacity - p.freeIndex) = i + capacity by omega,
        Nat.add_mod_right, Nat.mod_eq_of_lt hi]
    have hmem : i ∈ (List.range capacity).map fun k => (p.freeIndex + k) % capacity := by
      refine List.mem_map.mpr ⟨(i + capacity - p.freeIndex) % capacity, ?_, ?_⟩
      · exact List.mem_range.mpr (Nat.mod_lt _ ((Nat.zero_le _).trans_lt p.inRange))
      · rw [Nat.add_mod_mod, hturn]
    have := h i hmem
    rw [hfree] at this
    exact this rfl
  · intro h
    rw [nextFree, if_pos h]

def create (p : ObjectPool T capacity) (t : T) : Option Nat × ObjectPool T capacity :=
  match h : p.nextFree with
  | none => (none, p)
  | some i =>
    (some i,
      { cells := Function.update p.cells i (some t)
        freeIndex := i
        size := p.size + 1
        counted := by
          obtain ⟨hi, hfree⟩ := nextFree_spec h
          rw [length_usedCells_fill hi hfree, p.counted]
        inRange := (nextFree_spec h).1 })

def free (p : ObjectPool T capacity) (i : Nat) : ObjectPool T capacity :=
  if h : i < capacity ∧ (p.cells i).isSome then
    { p with
      cells := Function.update p.cells i none
      size := p.size - 1
      counted := by
        rw [p.counted, length_usedCells_empty h.1 h.2]
        rfl }
  else p

theorem create_cases (p : ObjectPool T capacity) (t : T) :
    (capacity ≤ p.size ∧ p.create t = (none, p)) ∨
      ∃ i p', i < capacity ∧ p.cells i = none ∧ p.create t = (some i, p') ∧
        p'.cells = Function.update p.cells i (some t) := by
  unfold create
  split
  · next h => exact Or.inl ⟨nextFree_eq_none_iff.mp h, rfl⟩
  · next i h =>
    obtain ⟨hi, hfree⟩ := nextFree_spec h
    exact Or.inr ⟨i, _, hi, hfree, rfl, rfl⟩

@[simp] theorem free_cells_of_ne (p : ObjectPool T capacity) {i j : Nat} (h : j ≠ i) :
    (p.free i).cells j = p.cells j := by
  unfold free
  split
  · exact Function.update_of_ne h _ _
  · rfl

structure Holds (p : ObjectPool T capacity) (is : List Nat) : Prop where
  nodup : is.Nodup
  used : ∀ i ∈ is, i < capacity ∧ (p.cells i).isSome

variable {p : ObjectPool T capacity} {is : List Nat}

theorem Holds.length_le_capacity (h : p.Holds is) : is.length ≤ capacity := by
  have hle := (h.nodup.subperm fun i hi => List.mem_range.mpr (h.used i hi).1).length_le
  rwa [List.length_range] at hle

theorem Holds.sublist (h : p.Holds is) {js : List Nat} (hsub : js.Sublist is) : p.Holds js :=
  ⟨h.nodup.sublist hsub, fun i hi => h.used i (hsub.subset hi)⟩

theorem Holds.of_cells (h : p.Holds is) {p' : ObjectPool T capacity}
    (hcells : ∀ i ∈ is, p'.cells i = p.cells i) : p'.Holds is :=
  ⟨h.nodup, fun i hi => by rw [hcells i hi]; exact h.used i hi⟩

theorem Holds.free (h : p.Holds is) {i : Nat} (hi : i ∉ is) : (p.free i).Holds is :=
  h.of_cells fun _ hj => free_cells_of_ne p (ne_of_mem_of_not_mem hj hi)

theorem Holds.not_mem (h : p.Holds is) {i : Nat} (hfree : p.cells i = none) : i ∉ is := by
  intro hi
  have := (h.used i hi).2
  rw [hfree] at this
  cases this

theorem Holds.create (h : p.Holds is) {t : T} {r : Option Nat} {p' : ObjectPool T capacity}
    (hcreate : p.create t = (r, p')) :
    p'.Holds is ∧ ∀ i, r = some i → p'.Holds (is ++ [i]) := by
  rcases create_cases p t with ⟨_, heq⟩ | ⟨i, q, hi, hfree, heq, hcells⟩
  · rw [heq] at hcreate
    cases hcreate
    exact ⟨h, nofun⟩
  · rw [heq] at hcreate
    cases hcreate
    have hnew := h.not_mem hfree
    have hkeep : p'.Holds is := h.of_cells fun j hj => by
      rw [hcells, Function.update_of_ne (ne_of_mem_of_not_mem hj hnew)]
    refine ⟨hkeep, ?_⟩
    rintro _ ⟨⟩
    refine ⟨List.nodup_append.mpr ⟨h.nodup, List.nodup_singleton i, ?_⟩, ?_⟩
    · intro a ha b hb
      rw [List.mem_singleton.mp hb]
      exact ne_of_mem_of_not_mem ha hnew
    · intro j hj
      rcases List.mem_append.mp hj with hj | hj
      · exact hkeep.used j hj
      · rw [List.mem_singleton.mp hj, hcells, Function.update_self]
        exact ⟨hi, rfl⟩

end ObjectPool

end Iceoryx.Hoofs
