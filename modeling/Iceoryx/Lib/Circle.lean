import Mathlib.Data.List.Nodup
import Mathlib.Logic.Function.Basic

universe u

namespace Lib

variable {A : Type u}

/-- From `a` through the nodes of the list to `e`, each linked to its neighbours both ways. -/
def Path (next prev : A → A) : A → List A → A → Prop
  | a, [], e => next a = e ∧ prev e = a
  | a, b :: l, e => (next a = b ∧ prev b = a) ∧ Path next prev b l e

namespace Path

variable {next prev next' prev' : A → A} {a b c e i : A} {l r : List A}

theorem append : Path next prev a (l ++ b :: r) e ↔
    Path next prev a l b ∧ Path next prev b r e := by
  induction l generalizing a with
  | nil => exact Iff.rfl
  | cons c l ih => rw [List.cons_append, Path, Path, ih, and_assoc (c := Path next prev b r e)]

theorem congr (h : Path next prev a l e) (hnext : ∀ i ∈ a :: l, next' i = next i)
    (hprev : ∀ i ∈ l ++ [e], prev' i = prev i) : Path next' prev' a l e := by
  induction l generalizing a with
  | nil =>
    obtain ⟨hto, hback⟩ := h
    exact ⟨(hnext a (by simp)).trans hto, (hprev e (by simp)).trans hback⟩
  | cons b l ih =>
    obtain ⟨⟨hto, hback⟩, hrest⟩ := h
    refine ⟨⟨(hnext a (by simp)).trans hto, (hprev b (by simp)).trans hback⟩, ih hrest ?_ ?_⟩
    · exact fun i hi => hnext i (List.mem_cons_of_mem a hi)
    · exact fun i hi => hprev i (List.mem_cons_of_mem b hi)

theorem rotate : Path next prev a (l ++ b :: r) a ↔ Path next prev b (r ++ a :: l) b := by
  rw [append, append, and_comm]

theorem next_eq (h : Path next prev a l e) : next a = l.headD e := by
  cases l with
  | nil => exact h.1
  | cons b l => exact h.1.1

theorem prev_eq (h : Path next prev a l e) : prev e = l.getLastD a := by
  induction l generalizing a with
  | nil => exact h.2
  | cons b l ih =>
    rw [ih h.2]
    cases l with
    | nil => rfl
    | cons c l => rfl

theorem prev_mem (h : Path next prev a l e) : prev e ∈ a :: l := by
  induction l generalizing a with
  | nil =>
    rw [h.2]
    exact List.mem_singleton_self a
  | cons b l ih => exact List.mem_cons_of_mem a (ih h.2)

theorem next_mem (h : Path next prev a l e) : next a ∈ l ++ [e] := by
  cases l with
  | nil =>
    rw [h.1]
    exact List.mem_singleton_self e
  | cons b l =>
    rw [h.1.1]
    exact List.mem_cons_self

theorem prev_next (h : Path next prev a l e) : ∀ i ∈ a :: l, prev (next i) = i := by
  induction l generalizing a with
  | nil =>
    intro i hi
    rw [List.mem_singleton.mp hi, h.1, h.2]
  | cons b l ih =>
    intro i hi
    rcases List.mem_cons.mp hi with rfl | hi
    · rw [h.1.1, h.1.2]
    · exact ih h.2 i hi

theorem next_prev (h : Path next prev a l e) : ∀ i ∈ l ++ [e], next (prev i) = i := by
  induction l generalizing a with
  | nil =>
    intro i hi
    rw [List.mem_singleton.mp hi, h.2, h.1]
  | cons b l ih =>
    intro i hi
    rcases List.mem_cons.mp hi with rfl | hi
    · rw [h.1.2, h.1.1]
    · exact ih h.2 i hi

theorem prev_mem_of_mem (h : Path next prev a l e) : ∀ i ∈ l ++ [e], prev i ∈ a :: l := by
  induction l generalizing a with
  | nil =>
    intro i hi
    rw [List.mem_singleton.mp hi, h.2]
    exact List.mem_singleton_self a
  | cons b l ih =>
    intro i hi
    rcases List.mem_cons.mp hi with rfl | hi
    · rw [h.1.2]
      exact List.mem_cons_self
    · exact List.mem_cons_of_mem a (ih h.2 i hi)

theorem unique (h : Path next prev a l e) (h' : Path next prev a r e) (hl : e ∉ l)
    (hr : e ∉ r) : l = r := by
  induction l generalizing a r with
  | nil =>
    cases r with
    | nil => rfl
    | cons c r =>
      obtain rfl : e = c := h.1.symm.trans h'.1.1
      exact absurd List.mem_cons_self hr
  | cons b l ih =>
    cases r with
    | nil =>
      obtain rfl : e = b := h'.1.symm.trans h.1.1
      exact absurd List.mem_cons_self hl
    | cons c r =>
      obtain rfl : b = c := h.1.1.symm.trans h'.1.1
      rw [ih h.2 h'.2 (fun hb => hl (List.mem_cons_of_mem b hb))
        fun hc => hr (List.mem_cons_of_mem b hc)]

variable [DecidableEq A]

theorem insert (h : Path next prev a l e) (hnodup : (a :: l).Nodup) (he : e ∉ l)
    (hi : i ∉ a :: l) (hie : i ≠ e) :
    Path (Function.update (Function.update next i e) (prev e) i)
      (Function.update (Function.update prev i (prev e)) e i) a (l ++ [i]) e := by
  induction l generalizing a with
  | nil =>
    obtain ⟨rfl, hback⟩ := h
    have hia : i ≠ a := List.ne_of_not_mem_cons hi
    simp [Path, hback, hia, hie]
  | cons b l ih =>
    obtain ⟨⟨rfl, hback⟩, hrest⟩ := h
    obtain ⟨ha, hnodup⟩ := List.nodup_cons.mp hnodup
    obtain ⟨heb, he⟩ := not_or.mp (mt List.mem_cons.mpr he)
    obtain ⟨hia, hi⟩ := not_or.mp (mt List.mem_cons.mpr hi)
    have hpred : a ≠ prev e := by
      intro heq
      exact ha (heq ▸ hrest.prev_mem)
    refine ⟨⟨?_, ?_⟩, ih hrest hnodup he hi⟩
    · rw [Function.update_of_ne hpred, Function.update_of_ne (Ne.symm hia)]
    · rw [Function.update_of_ne (Ne.symm heb), Function.update_of_ne, hback]
      exact Ne.symm (List.ne_of_not_mem_cons hi)

theorem remove (h : Path next prev a (l ++ b :: r) e) (hnext : (a :: (l ++ b :: r)).Nodup)
    (hprev : (l ++ b :: r ++ [e]).Nodup) :
    Path (Function.update next (prev b) (next b)) (Function.update prev (next b) (prev b))
      a (l ++ r) e := by
  induction l generalizing a with
  | nil =>
    obtain ⟨⟨rfl, hback⟩, hrest⟩ := h
    rw [hback]
    cases r with
    | nil =>
      obtain ⟨hb, _⟩ := hrest
      simp [Path, hb]
    | cons c r =>
      obtain ⟨⟨hb, _⟩, hrest⟩ := hrest
      rw [hb]
      refine ⟨⟨Function.update_self .., Function.update_self ..⟩, hrest.congr ?_ ?_⟩
      · intro i hi
        apply Function.update_of_ne
        rintro rfl
        exact (List.nodup_cons.mp hnext).1 (List.mem_cons_of_mem _ hi)
      · intro i hi
        apply Function.update_of_ne
        rintro rfl
        simp only [List.nil_append, List.cons_append, List.nodup_cons] at hprev
        exact hprev.2.1 hi
  | cons c l ih =>
    obtain ⟨⟨rfl, hback⟩, hrest⟩ := h
    obtain ⟨ha, hnext⟩ := List.nodup_cons.mp hnext
    obtain ⟨hc, hprev⟩ := List.nodup_cons.mp hprev
    obtain ⟨hleft, hright⟩ := append.mp hrest
    have hpred : a ≠ prev b := by
      intro heq
      have hmem := hleft.prev_mem
      rw [← heq] at hmem
      refine ha ?_
      rcases List.mem_cons.mp hmem with heq | hmem
      · exact heq ▸ List.mem_cons_self
      · exact List.mem_cons_of_mem _ (List.mem_append_left _ hmem)
    have hsucc : next a ≠ next b := by
      intro heq
      have hmem := hright.next_mem
      rw [← heq] at hmem
      refine hc ?_
      change next a ∈ (l ++ b :: r) ++ [e]
      rw [List.append_assoc]
      exact List.mem_append_right _ (List.mem_cons_of_mem _ hmem)
    refine ⟨⟨Function.update_of_ne hpred _ _, ?_⟩, ih hrest hnext hprev⟩
    rw [Function.update_of_ne hsucc, hback]

theorem insertBefore (h : Path next prev a (l ++ r) a) (hnodup : (a :: (l ++ r)).Nodup)
    (hi : i ∉ a :: (l ++ r)) (he : e = r.headD a) :
    Path (Function.update (Function.update next i e) (prev e) i)
      (Function.update (Function.update prev i (prev e)) e i) a (l ++ i :: r) a := by
  cases r with
  | nil =>
    obtain rfl : e = a := he
    rw [List.append_nil] at h hnodup hi
    exact h.insert hnodup (List.nodup_cons.mp hnodup).1 hi (List.ne_of_not_mem_cons hi)
  | cons b r =>
    obtain rfl : e = b := he
    have hsame : (e :: r ++ a :: l).Perm (a :: l ++ e :: r) := List.perm_append_comm
    have hnodup' := hsame.nodup_iff.mpr hnodup
    have hi' : i ∉ e :: (r ++ a :: l) := fun hmem => hi (hsame.mem_iff.mp hmem)
    have hinsert := (rotate.mp h).insert hnodup' (List.nodup_cons.mp hnodup').1 hi'
      (List.ne_of_not_mem_cons hi')
    rw [List.append_assoc, List.cons_append] at hinsert
    have hback := rotate.mp hinsert
    rwa [List.append_assoc, List.singleton_append] at hback

end Path

end Lib
