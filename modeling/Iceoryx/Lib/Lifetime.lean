import Mathlib.Logic.Function.Basic
import Mathlib.Data.List.Nodup
import Mathlib.Data.List.Range
import Mathlib.Data.List.Perm.Basic

universe u

namespace Lib

structure Ledger where
  next : Nat := 0
  died : List Nat := []
  deriving DecidableEq, Repr

namespace Ledger

def create (l : Ledger) : Ledger := { l with next := l.next + 1 }

def bury (l : Ledger) (id : Option Nat) : Ledger := { l with died := l.died ++ id.toList }

@[simp] theorem bury_none (l : Ledger) : l.bury none = l := by
  simp [bury]

structure Books {K : Type u} (holds : K → Option Nat) (l : Ledger) : Prop where
  nodup : l.died.Nodup
  once : ∀ id, id ∈ l.died → ∀ k, holds k ≠ some id
  unique : ∀ id k k', holds k = some id → holds k' = some id → k = k'
  known : ∀ id, id < l.next ↔ id ∈ l.died ∨ ∃ k, holds k = some id

namespace Books

variable {K : Type u} {holds : K → Option Nat} {l : Ledger}

theorem start : Books (fun _ : K => none) {} where
  nodup := List.nodup_nil
  once := by simp
  unique := by simp
  known := by simp

theorem lt_next (h : Books holds l) {k : K} {id : Nat} (hk : holds k = some id) : id < l.next :=
  (h.known id).mpr (Or.inr ⟨k, hk⟩)

theorem died_perm (h : Books holds l) (hnone : ∀ k, holds k = none) :
    List.Perm l.died (List.range l.next) := by
  rw [List.perm_ext_iff_of_nodup h.nodup List.nodup_range]
  intro id
  rw [List.mem_range, h.known id]
  constructor
  · exact Or.inl
  · rintro (hdied | ⟨k, hk⟩)
    · exact hdied
    · rw [hnone k] at hk
      cases hk

variable [DecidableEq K]

theorem create (h : Books holds l) {k : K} (hk : holds k = none) :
    Books (Function.update holds k (some l.next)) l.create where
  nodup := h.nodup
  once := by
    intro id hid k' hk'
    rcases eq_or_ne k' k with rfl | hne
    · rw [Function.update_self, Option.some.injEq] at hk'
      exact absurd ((h.known id).mpr (Or.inl hid)) (by omega)
    · rw [Function.update_of_ne hne] at hk'
      exact h.once id hid k' hk'
  unique := by
    intro id k₁ k₂ h₁ h₂
    by_cases hne₁ : k₁ = k <;> by_cases hne₂ : k₂ = k
    · rw [hne₁, hne₂]
    · rw [hne₁, Function.update_self, Option.some.injEq] at h₁
      rw [Function.update_of_ne hne₂] at h₂
      exact absurd (h.lt_next h₂) (by omega)
    · rw [hne₂, Function.update_self, Option.some.injEq] at h₂
      rw [Function.update_of_ne hne₁] at h₁
      exact absurd (h.lt_next h₁) (by omega)
    · rw [Function.update_of_ne hne₁] at h₁
      rw [Function.update_of_ne hne₂] at h₂
      exact h.unique id k₁ k₂ h₁ h₂
  known := by
    intro id
    have hknown := h.known id
    constructor
    · intro hlt
      rcases Nat.lt_succ_iff_lt_or_eq.mp hlt with hold | rfl
      · rcases hknown.mp hold with hdied | ⟨k', hk'⟩
        · exact Or.inl hdied
        · refine Or.inr ⟨k', ?_⟩
          rw [Function.update_of_ne (by rintro rfl; rw [hk] at hk'; cases hk'), hk']
      · exact Or.inr ⟨k, Function.update_self ..⟩
    · rintro (hdied | ⟨k', hk'⟩)
      · exact Nat.lt_succ_of_lt (hknown.mpr (Or.inl hdied))
      · rcases eq_or_ne k' k with rfl | hne
        · rw [Function.update_self, Option.some.injEq] at hk'
          exact hk' ▸ Nat.lt_succ_self _
        · rw [Function.update_of_ne hne] at hk'
          exact Nat.lt_succ_of_lt (h.lt_next hk')

theorem clear (h : Books holds l) (k : K) :
    Books (Function.update holds k none) (l.bury (holds k)) := by
  cases hk : holds k with
  | none =>
    have hsame : Function.update holds k none = holds := by
      rw [← hk, Function.update_eq_self]
    rw [hsame, bury_none]
    exact h
  | some id =>
    have hother : ∀ {k' id'}, Function.update holds k none k' = some id' →
        k' ≠ k ∧ holds k' = some id' := by
      intro k' id' hk'
      rcases eq_or_ne k' k with rfl | hne
      · rw [Function.update_self] at hk'
        cases hk'
      · rw [Function.update_of_ne hne] at hk'
        exact ⟨hne, hk'⟩
    refine ⟨?_, ?_, ?_, ?_⟩
    · simp only [bury, Option.toList_some, ← List.concat_eq_append]
      exact h.nodup.concat fun hdied => h.once id hdied k hk
    · intro id' hid' k' hk'
      obtain ⟨hne, hold⟩ := hother hk'
      simp only [bury, Option.toList_some, List.mem_append, List.mem_singleton] at hid'
      rcases hid' with hdied | rfl
      · exact h.once id' hdied k' hold
      · exact hne (h.unique id' k' k hold hk)
    · intro id' k₁ k₂ h₁ h₂
      exact h.unique id' k₁ k₂ (hother h₁).2 (hother h₂).2
    · intro id'
      rw [show (l.bury (some id)).next = l.next from rfl, h.known id']
      simp only [bury, Option.toList_some, List.mem_append, List.mem_singleton]
      constructor
      · rintro (hdied | ⟨k', hk'⟩)
        · exact Or.inl (Or.inl hdied)
        · rcases eq_or_ne k' k with rfl | hne
          · rw [hk, Option.some.injEq] at hk'
            exact Or.inl (Or.inr hk'.symm)
          · exact Or.inr ⟨k', by rw [Function.update_of_ne hne, hk']⟩
      · rintro ((hdied | rfl) | ⟨k', hk'⟩)
        · exact Or.inl hdied
        · exact Or.inr ⟨k, hk⟩
        · exact Or.inr ⟨k', (hother hk').2⟩

theorem pass (h : Books holds l) {k k' : K} (hk' : holds k' = none) (hne : k' ≠ k) :
    Books (Function.update (Function.update holds k none) k' (holds k)) l := by
  have hwas : ∀ {j id}, Function.update (Function.update holds k none) k' (holds k) j = some id →
      (j = k' ∧ holds k = some id) ∨ (j ≠ k' ∧ j ≠ k ∧ holds j = some id) := by
    intro j id hj
    rcases eq_or_ne j k' with rfl | hj'
    · rw [Function.update_self] at hj
      exact Or.inl ⟨rfl, hj⟩
    · rw [Function.update_of_ne hj'] at hj
      rcases eq_or_ne j k with rfl | hjk
      · rw [Function.update_self] at hj
        cases hj
      · rw [Function.update_of_ne hjk] at hj
        exact Or.inr ⟨hj', hjk, hj⟩
  refine ⟨h.nodup, ?_, ?_, ?_⟩
  · intro id hid j hj
    rcases hwas hj with ⟨-, hold⟩ | ⟨-, -, hold⟩
    · exact h.once id hid k hold
    · exact h.once id hid j hold
  · intro id j₁ j₂ h₁ h₂
    rcases hwas h₁ with ⟨rfl, h₁'⟩ | ⟨-, hk₁, h₁'⟩ <;>
      rcases hwas h₂ with ⟨rfl, h₂'⟩ | ⟨-, hk₂, h₂'⟩
    · rfl
    · exact absurd (h.unique id k j₂ h₁' h₂').symm hk₂
    · exact absurd (h.unique id j₁ k h₁' h₂') hk₁
    · exact h.unique id j₁ j₂ h₁' h₂'
  · intro id
    rw [h.known id]
    refine or_congr_right ⟨?_, ?_⟩
    · rintro ⟨j, hj⟩
      rcases eq_or_ne j k with rfl | hjk
      · exact ⟨k', by rw [Function.update_self, hj]⟩
      · refine ⟨j, ?_⟩
        have hj' : j ≠ k' := by
          rintro rfl
          rw [hk'] at hj
          cases hj
        rw [Function.update_of_ne hj', Function.update_of_ne hjk, hj]
    · rintro ⟨j, hj⟩
      rcases hwas hj with ⟨-, hold⟩ | ⟨-, -, hold⟩
      · exact ⟨k, hold⟩
      · exact ⟨j, hold⟩

end Books

end Ledger

end Lib
