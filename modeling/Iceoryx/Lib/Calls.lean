import Mathlib.Data.List.Nodup
import Mathlib.Logic.Function.Basic

universe u v w

namespace Lib

/-- `pending t` is the effect that the running call of `t` has had already. -/
structure Calls (Tid : Type u) (A : Type v) (B : Type w) where
  ended : Tid → Nat
  pending : Tid → Option A
  effects : List ((Tid × Nat) × A)
  returns : List ((Tid × Nat) × B)

namespace Calls

variable {Tid : Type u} {A : Type v} {B : Type w}

def empty : Calls Tid A B where
  ended := fun _ => 0
  pending := fun _ => none
  effects := []
  returns := []

section Operations

variable [DecidableEq Tid]

def takesEffect (c : Calls Tid A B) (t : Tid) (a : A) : Calls Tid A B where
  ended := c.ended
  pending := Function.update c.pending t (some a)
  effects := c.effects ++ [((t, c.ended t), a)]
  returns := c.returns

def ends (c : Calls Tid A B) (t : Tid) (b : B) : Calls Tid A B where
  ended := Function.update c.ended t (c.ended t + 1)
  pending := Function.update c.pending t none
  effects := c.effects
  returns := c.returns ++ [((t, c.ended t), b)]

theorem takesEffect_pending (c : Calls Tid A B) (t : Tid) (a : A) :
    (c.takesEffect t a).pending = Function.update c.pending t (some a) := rfl

theorem ends_pending (c : Calls Tid A B) (t : Tid) (b : B) :
    (c.ends t b).pending = Function.update c.pending t none := rfl

theorem ends_ended (c : Calls Tid A B) (t : Tid) (b : B) :
    (c.ends t b).ended = Function.update c.ended t (c.ended t + 1) := rfl

end Operations

structure Sound (result : A → B) (Failed : B → Prop) (c : Calls Tid A B) : Prop where
  effect : ∀ t n a, ((t, n), a) ∈ c.effects →
    ((t, n), result a) ∈ c.returns ∨ n = c.ended t ∧ c.pending t = some a
  returned : ∀ call b, (call, b) ∈ c.returns → ∀ a, (call, a) ∈ c.effects → result a = b
  failed : ∀ call b, (call, b) ∈ c.returns → (∃ a, (call, a) ∈ c.effects) ∨ Failed b
  past : ∀ t n b, ((t, n), b) ∈ c.returns → n < c.ended t
  pending : ∀ t a, c.pending t = some a → ((t, c.ended t), a) ∈ c.effects
  once : (c.effects.map Prod.fst).Nodup

variable {result : A → B} {Failed : B → Prop} {c : Calls Tid A B}

theorem Sound.empty : (empty : Calls Tid A B).Sound result Failed :=
  ⟨by simp [Calls.empty], by simp [Calls.empty], by simp [Calls.empty], by simp [Calls.empty],
    by simp [Calls.empty], by simp [Calls.empty]⟩

theorem Sound.fresh (h : c.Sound result Failed) {t : Tid} (ht : c.pending t = none) (a : A) :
    ((t, c.ended t), a) ∉ c.effects := by
  intro ha
  rcases h.effect t _ a ha with hret | ⟨-, hpend⟩
  · exact absurd (h.past t _ _ hret) (Nat.lt_irrefl _)
  · rw [ht] at hpend
    cases hpend

theorem Sound.unique (h : c.Sound result Failed) {call : Tid × Nat} {a a' : A}
    (ha : (call, a) ∈ c.effects) (ha' : (call, a') ∈ c.effects) : a = a' := by
  have := List.inj_on_of_nodup_map h.once ha ha' rfl
  exact congrArg Prod.snd this

theorem Sound.index_unique (h : c.Sound result Failed) {call : Tid × Nat} {a a' : A} {i j : Nat}
    (hi : c.effects[i]? = some (call, a)) (hj : c.effects[j]? = some (call, a')) : i = j := by
  have hlt : i < (c.effects.map Prod.fst).length := by
    rw [List.length_map]
    exact (List.getElem?_eq_some_iff.mp hi).1
  refine (List.getElem?_inj hlt h.once).mp ?_
  rw [List.getElem?_map, List.getElem?_map, hi, hj]
  rfl

variable [DecidableEq Tid]

theorem Sound.takesEffect (h : c.Sound result Failed) {t : Tid} (ht : c.pending t = none) (a : A) :
    (c.takesEffect t a).Sound result Failed := by
  refine ⟨?_, ?_, ?_, h.past, ?_, ?_⟩
  · intro u n b hb
    rcases List.mem_append.mp hb with hb | hb
    · rcases h.effect u n b hb with hret | ⟨hn, hpend⟩
      · exact .inl hret
      · refine .inr ⟨hn, ?_⟩
        rw [takesEffect_pending, Function.update_of_ne]
        · exact hpend
        · rintro rfl
          rw [ht] at hpend
          cases hpend
    · cases List.mem_singleton.mp hb
      exact .inr ⟨rfl, Function.update_self ..⟩
  · intro call b hb a' ha'
    rcases List.mem_append.mp ha' with ha' | ha'
    · exact h.returned call b hb a' ha'
    · cases List.mem_singleton.mp ha'
      exact absurd (h.past t _ b hb) (Nat.lt_irrefl _)
  · intro call b hb
    rcases h.failed call b hb with ⟨a', ha'⟩ | hfailed
    · exact .inl ⟨a', List.mem_append_left _ ha'⟩
    · exact .inr hfailed
  · intro u b hb
    by_cases hu : u = t
    · subst hu
      rw [takesEffect_pending, Function.update_self, Option.some.injEq] at hb
      subst hb
      exact List.mem_append_right _ (List.mem_singleton_self _)
    · rw [takesEffect_pending, Function.update_of_ne hu] at hb
      exact List.mem_append_left _ (h.pending u b hb)
  · rw [Calls.takesEffect, List.map_append, List.map_singleton, ← List.concat_eq_append]
    refine h.once.concat ?_
    intro hmem
    obtain ⟨⟨call, b⟩, hb, hcall⟩ := List.mem_map.mp hmem
    cases hcall
    exact h.fresh ht b hb

theorem Sound.ends (h : c.Sound result Failed) {t : Tid} {b : B}
    (hb : match c.pending t with
      | some a => result a = b
      | none => Failed b) :
    (c.ends t b).Sound result Failed := by
  refine ⟨?_, ?_, ?_, ?_, ?_, h.once⟩
  · intro u n a ha
    rcases h.effect u n a ha with hret | ⟨rfl, hpend⟩
    · exact .inl (List.mem_append_left _ hret)
    · by_cases hu : u = t
      · subst hu
        rw [hpend] at hb
        subst hb
        exact .inl (List.mem_append_right _ (List.mem_singleton_self _))
      · refine .inr ⟨?_, ?_⟩
        · rw [ends_ended, Function.update_of_ne hu]
        · rw [ends_pending, Function.update_of_ne hu, hpend]
  · intro call b' hb' a ha
    rcases List.mem_append.mp hb' with hb' | hb'
    · exact h.returned call b' hb' a ha
    · cases List.mem_singleton.mp hb'
      cases hpend : c.pending t with
      | none => exact absurd ha (h.fresh hpend a)
      | some a' =>
        rw [hpend] at hb
        rw [h.unique ha (h.pending t a' hpend)]
        exact hb
  · intro call b' hb'
    rcases List.mem_append.mp hb' with hb' | hb'
    · exact h.failed call b' hb'
    · obtain ⟨rfl, rfl⟩ := Prod.mk.inj (List.mem_singleton.mp hb')
      cases hpend : c.pending t with
      | none =>
        rw [hpend] at hb
        exact .inr hb
      | some a => exact .inl ⟨a, h.pending t a hpend⟩
  · intro u n b' hb'
    rcases List.mem_append.mp hb' with hb' | hb'
    · have hlt := h.past u n b' hb'
      by_cases hu : u = t
      · subst hu
        rw [ends_ended, Function.update_self]
        exact Nat.lt_succ_of_lt hlt
      · rw [ends_ended, Function.update_of_ne hu]
        exact hlt
    · cases List.mem_singleton.mp hb'
      rw [ends_ended, Function.update_self]
      exact Nat.lt_succ_self _
  · intro u a ha
    by_cases hu : u = t
    · subst hu
      rw [ends_pending, Function.update_self] at ha
      cases ha
    · rw [ends_pending, Function.update_of_ne hu] at ha
      rw [ends_ended, Function.update_of_ne hu]
      exact h.pending u a ha

end Calls

end Lib
