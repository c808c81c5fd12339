import Mathlib.Data.List.Nodup
import Mathlib.Data.List.Perm.Subperm
import Mathlib.Data.List.Range
import Mathlib.Logic.Function.Basic
import Mathlib.Tactic.Ring
import Iceoryx.Lib.Indices
import Iceoryx.Lib.Chain

namespace Iceoryx.Hoofs

def uint32Range : Nat := 2 ^ 32

namespace Loffli

structure Node where
  indexToNextFreeIndex : Nat
  abaCounter : Nat
  deriving DecidableEq, Repr

end Loffli

structure Loffli where
  size : Nat
  invalidIndex : Nat
  head : Loffli.Node
  nextFreeIndex : Nat → Nat

namespace Loffli

/-- `init` writes the cells `0 .. capacity`; the `Expects` on the capacity ends
the program, which is `none` here. -/
def init (capacity : Nat) : Option Loffli :=
  if 0 < capacity ∧ capacity < (uint32Range - 1) - 1 then
    some
      { size := capacity
        invalidIndex := capacity + 1
        head := { indexToNextFreeIndex := 0, abaCounter := 1 }
        nextFreeIndex := fun i => if i < capacity + 1 then i + 1 else 0 }
  else none

def requiredIndexMemorySize (capacity : Nat) : Nat := (capacity + 1) * 4

def setNext (l : Loffli) (i v : Nat) : Loffli :=
  { l with nextFreeIndex := Function.update l.nextFreeIndex i v }

def bump (n : Node) (index : Nat) : Node :=
  { indexToNextFreeIndex := index, abaCounter := (n.abaCounter + 1) % uint32Range }

def pop (l : Loffli) : Option (Nat × Loffli) :=
  if l.head.indexToNextFreeIndex ≥ l.size then none
  else
    let index := l.head.indexToNextFreeIndex
    let l := { l with head := bump l.head (l.nextFreeIndex index) }
    some (index, l.setNext index l.invalidIndex)

def push (l : Loffli) (index : Nat) : Option Loffli :=
  if index ≥ l.size ∨ l.nextFreeIndex index ≠ l.invalidIndex then none
  else
    let l := l.setNext index l.head.indexToNextFreeIndex
    some { l with head := bump l.head index }

structure Rep (l : Loffli) (free : List Nat) : Prop where
  chain : Lib.Chain l.nextFreeIndex (l.size ≤ ·) l.head.indexToNextFreeIndex free
  nodup : free.Nodup
  invalid : l.invalidIndex = l.size + 1
  marked : ∀ i < l.size, i ∉ free → l.nextFreeIndex i = l.invalidIndex
  unmarked : ∀ i ∈ free, l.nextFreeIndex i ≠ l.invalidIndex
  headUnmarked : l.head.indexToNextFreeIndex ≠ l.invalidIndex

theorem Rep.lt {l : Loffli} {free : List Nat} (h : Rep l free) :
    ∀ i ∈ free, i < l.size := fun i hi => Nat.lt_of_not_le (h.chain.not_stop i hi)

def free (l : Loffli) : List Nat :=
  Lib.follow l.nextFreeIndex (l.size ≤ ·) l.size l.head.indexToNextFreeIndex

theorem Rep.length_le {l : Loffli} {free : List Nat} (h : Rep l free) :
    free.length ≤ l.size :=
  Lib.length_le_of_nodup_lt h.nodup h.lt

theorem Rep.free_eq {l : Loffli} {free : List Nat} (h : Rep l free) : l.free = free :=
  h.chain.follow_eq h.length_le

theorem chain_range (n : Nat) : ∀ k i, i + k = n →
    Lib.Chain (fun j => if j < n + 1 then j + 1 else 0) (n ≤ ·) i (List.range' i k) := by
  intro k
  induction k with
  | zero =>
    intro i hi
    exact hi ▸ Nat.le_refl _
  | succ k ih =>
    intro i hi
    have hlt : i < n := by omega
    have hnext : (if i < n + 1 then i + 1 else 0) = i + 1 := if_pos (by omega)
    refine ⟨rfl, Nat.not_le.mpr hlt, ?_⟩
    change Lib.Chain _ (n ≤ ·) (if i < n + 1 then i + 1 else 0) _
    rw [hnext]
    exact ih (i + 1) (by omega)

theorem init_rep {capacity : Nat} {l : Loffli} (h : init capacity = some l) :
    l.size = capacity ∧ Rep l (List.range capacity) := by
  unfold init at h
  split at h
  · cases h
    refine ⟨rfl, ?_, List.nodup_range, rfl, ?_, ?_, ?_⟩
    · rw [List.range_eq_range']
      exact chain_range capacity capacity 0 (by omega)
    · intro i hi hmem
      exact absurd (List.mem_range.mpr hi) hmem
    · intro i hi
      have hlt := List.mem_range.mp hi
      change (if i < capacity + 1 then i + 1 else 0) ≠ capacity + 1
      rw [if_pos (by omega)]
      omega
    · exact (Nat.succ_ne_zero capacity).symm
  · cases h

theorem init_lt {capacity : Nat} {l : Loffli} (h : init capacity = some l) :
    capacity < uint32Range := by
  unfold init at h
  split at h
  · rename_i hguard
    have hbound := hguard.2
    unfold uint32Range at *
    omega
  · cases h

theorem pop_nil {l : Loffli} (h : Rep l []) : l.pop = none := by
  have hend : l.head.indexToNextFreeIndex ≥ l.size := h.chain
  simp [pop, hend]

theorem pop_cons {l : Loffli} {i : Nat} {rest : List Nat} (h : Rep l (i :: rest)) :
    ∃ l', l.pop = some (i, l') ∧ l'.size = l.size ∧ Rep l' rest := by
  obtain ⟨hi, hlt, hrest⟩ := h.chain
  obtain ⟨hnot, hnodup⟩ := List.nodup_cons.mp h.nodup
  have hhead : ¬ l.head.indexToNextFreeIndex ≥ l.size := by omega
  refine ⟨setNext { l with head := bump l.head (l.nextFreeIndex i) } i l.invalidIndex,
    ?_, rfl, ?_, hnodup, h.invalid, ?_, ?_, h.unmarked i List.mem_cons_self⟩
  · rw [pop, if_neg hhead, hi]
  · exact hrest.update hnot
  · intro j hj hfree
    by_cases hji : j = i
    · subst hji
      exact Function.update_self _ _ _
    · refine (Function.update_of_ne hji _ _).trans (h.marked j hj ?_)
      simp [hji, hfree]
  · intro j hj
    have hji : j ≠ i := fun e => hnot (e ▸ hj)
    change Function.update l.nextFreeIndex i l.invalidIndex j ≠ l.invalidIndex
    rw [Function.update_of_ne hji]
    exact h.unmarked j (List.mem_cons_of_mem i hj)

theorem push_taken {l : Loffli} {i : Nat} {free : List Nat} (h : Rep l free)
    (hi : i < l.size) (hfree : i ∉ free) :
    ∃ l', l.push i = some l' ∧ l'.size = l.size ∧ Rep l' (i :: free) := by
  have hmark := h.marked i hi hfree
  have hguard : ¬ (i ≥ l.size ∨ l.nextFreeIndex i ≠ l.invalidIndex) := by
    simp [hmark, hi]
  refine ⟨{ l.setNext i l.head.indexToNextFreeIndex with head := bump l.head i },
    ?_, rfl, h.chain.push hfree (Nat.not_le.mpr hi), ?_, h.invalid, ?_, ?_, ?_⟩
  · rw [push, if_neg hguard]
    rfl
  · exact List.nodup_cons.mpr ⟨hfree, h.nodup⟩
  · intro j hj hnot
    obtain ⟨hji, hjfree⟩ := not_or.mp (mt List.mem_cons.mpr hnot)
    exact (Function.update_of_ne hji _ _).trans (h.marked j hj hjfree)
  · intro j hj
    change Function.update l.nextFreeIndex i l.head.indexToNextFreeIndex j ≠ l.invalidIndex
    by_cases hji : j = i
    · subst hji
      rw [Function.update_self]
      exact h.headUnmarked
    · rw [Function.update_of_ne hji]
      exact h.unmarked j ((List.mem_cons.mp hj).resolve_left hji)
  · change i ≠ l.invalidIndex
    rw [h.invalid]
    omega

theorem push_inv {l l' : Loffli} {i : Nat} {free : List Nat} (h : Rep l free)
    (hpush : l.push i = some l') : i < l.size ∧ i ∉ free := by
  unfold push at hpush
  split at hpush
  · cases hpush
  · rename_i hguard
    obtain ⟨hlt, hmark⟩ := not_or.mp hguard
    refine ⟨Nat.lt_of_not_le hlt, fun hmem => ?_⟩
    exact h.unmarked i hmem (not_not.mp hmark)

end Loffli

end Iceoryx.Hoofs
