import Mathlib.Data.List.Nodup

universe u v w

namespace Lib

variable {S : Type u} {A : Type v}

theorem foldl_invariant {f : S → A → S} {I : S → Prop} :
    ∀ (as : List A) (s : S), (∀ s, ∀ a ∈ as, I s → I (f s a)) → I s → I (as.foldl f s) := by
  intro as
  induction as with
  | nil =>
    intro s _ hs
    exact hs
  | cons a as ih =>
    intro s hstep hs
    apply ih
    · intro s a' ha' h
      exact hstep s a' (List.mem_cons_of_mem a ha') h
    · exact hstep s a List.mem_cons_self hs

theorem foldl_frame {B : Type w} {f : S → A → S} (p : S → B) (h : ∀ s a, p (f s a) = p s)
    (as : List A) (s : S) : p (as.foldl f s) = p s :=
  foldl_invariant (I := fun t => p t = p s) as s
    (fun t a _ ht => (h t a).trans ht) rfl

theorem foldl_pending {f : S → A → S} {I : List A → S → Prop} :
    ∀ (as : List A) (s : S), as.Nodup →
      (∀ s a as, a ∉ as → I (a :: as) s → I as (f s a)) →
      I as s → I [] (as.foldl f s) := by
  intro as
  induction as with
  | nil =>
    intro s _ _ hs
    exact hs
  | cons a as ih =>
    intro s hnd hstep hs
    obtain ⟨ha, hnd⟩ := List.nodup_cons.mp hnd
    exact ih (f s a) hnd hstep (hstep s a as ha hs)

theorem foldl_skip {f : S → A → S} {as : List A} {s : S} (h : ∀ a ∈ as, f s a = s) :
    as.foldl f s = s :=
  foldl_invariant (I := fun t => t = s) as s
    (fun t a ha ht => by rw [ht]; exact h a ha) rfl

theorem foldl_single {f : S → A → S} {a : A} :
    ∀ {as : List A} {s : S}, as.Nodup → a ∈ as →
      (∀ b ∈ as, b ≠ a → f s b = s) → (∀ b ∈ as, b ≠ a → f (f s a) b = f s a) →
      as.foldl f s = f s a := by
  intro as
  induction as with
  | nil =>
    intro s _ ha
    cases ha
  | cons b as ih =>
    intro s hnd ha hbefore hafter
    obtain ⟨hb, hnd⟩ := List.nodup_cons.mp hnd
    simp only [List.foldl_cons]
    by_cases hba : b = a
    · subst hba
      apply foldl_skip
      intro c hc
      exact hafter c (List.mem_cons_of_mem b hc) (fun h => hb (h ▸ hc))
    · rw [hbefore b List.mem_cons_self hba]
      apply ih hnd (List.mem_of_ne_of_mem (fun h => hba h.symm) ha)
      · intro c hc
        exact hbefore c (List.mem_cons_of_mem b hc)
      · intro c hc
        exact hafter c (List.mem_cons_of_mem b hc)

def visited (f : S → A → S) (p : S → A → Bool) : List A → S → List A
  | [], _ => []
  | a :: as, s => (if p s a then [a] else []) ++ visited f p as (f s a)

theorem visited_eq_filter {f : S → A → S} {p : S → A → Bool}
    (h : ∀ s a b, p (f s a) b = p s b) (as : List A) (s : S) :
    visited f p as s = as.filter (p s) := by
  induction as generalizing s with
  | nil => rfl
  | cons a as ih =>
    have hp : p (f s a) = p s := by
      funext b
      exact h s a b
    rw [visited, ih, hp, List.filter_cons]
    split <;> simp

theorem mem_takeWhile_sorted {as : List Nat} (h : as.Pairwise (· < ·)) (p : Nat → Bool) (i : Nat) :
    i ∈ as.takeWhile p ↔ i ∈ as ∧ ∀ k ∈ as, k ≤ i → p k = true := by
  induction as with
  | nil => simp
  | cons a as ih =>
    obtain ⟨hlt, hsorted⟩ := List.pairwise_cons.mp h
    by_cases ha : p a = true
    · rw [List.takeWhile_cons_of_pos ha, List.mem_cons, List.mem_cons, ih hsorted]
      constructor
      · rintro (rfl | ⟨hi, hall⟩)
        · refine ⟨Or.inl rfl, ?_⟩
          intro k hk hki
          rcases List.mem_cons.mp hk with rfl | hk
          · exact ha
          · have := hlt k hk
            omega
        · refine ⟨Or.inr hi, ?_⟩
          intro k hk hki
          rcases List.mem_cons.mp hk with rfl | hk
          · exact ha
          · exact hall k hk hki
      · rintro ⟨rfl | hi, hall⟩
        · exact Or.inl rfl
        · exact Or.inr ⟨hi, fun k hk => hall k (List.mem_cons_of_mem a hk)⟩
    · rw [List.takeWhile_cons_of_neg ha]
      constructor
      · intro h
        cases h
      · rintro ⟨hi, hall⟩
        refine absurd (hall a List.mem_cons_self ?_) ha
        rcases List.mem_cons.mp hi with rfl | hi
        · exact Nat.le_refl i
        · exact Nat.le_of_lt (hlt i hi)

end Lib
