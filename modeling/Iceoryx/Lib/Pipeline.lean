import Mathlib.Data.List.Forall2
import Mathlib.Order.Lattice

/-! Requests that are answered in the order they are sent.  A request carries a label that
is greater than all labels before, and is answered with at most one message that carries it
too.  So the answer with the newest label is the last of all. -/

universe u v

namespace Lib

/-- `R t m` says that the message `m` carries the label `t`; `inFlight` is what has not been
taken of the answers. -/
structure Pipeline {L : Type u} {M : Type v} [LinearOrder L] (R : L → M → Prop) (labels : List L)
    (answers : List (List M)) (inFlight : List M) : Prop where
  increasing : labels.Pairwise (· < ·)
  answered : List.Forall₂ (fun t a => a = [] ∨ ∃ m, a = [m] ∧ R t m)
    (labels.take answers.length) answers
  inFlight : inFlight <:+ answers.flatten

namespace Pipeline

variable {L : Type u} {M : Type v} [LinearOrder L] {R : L → M → Prop} {labels : List L}
  {answers : List (List M)} {inFlight rest : List M} {m : M} {t : L}

theorem empty : Pipeline R [] [] [] := ⟨.nil, .nil, List.suffix_refl []⟩

theorem length_le (h : Pipeline R labels answers inFlight) : answers.length ≤ labels.length := by
  have hlength := h.answered.length_eq
  rw [List.length_take] at hlength
  omega

theorem request (h : Pipeline R labels answers inFlight) (ht : ∀ t' ∈ labels, t' < t) :
    Pipeline R (labels ++ [t]) answers inFlight where
  increasing := List.pairwise_append.mpr ⟨h.increasing, List.pairwise_singleton _ _, by
    simpa using ht⟩
  answered := by
    rw [List.take_append_of_le_length h.length_le]
    exact h.answered
  inFlight := h.inFlight

theorem answer (h : Pipeline R labels answers inFlight) {pending : List L}
    (hpending : labels.drop answers.length = t :: pending) {a : List M}
    (ha : a = [] ∨ ∃ m, a = [m] ∧ R t m) :
    Pipeline R labels (answers ++ [a]) (inFlight ++ a) ∧
      labels.drop (answers ++ [a]).length = pending := by
  have hget : labels[answers.length]? = some t := by
    rw [← List.head?_drop, hpending, List.head?_cons]
  refine ⟨⟨h.increasing, ?_, ?_⟩, ?_⟩
  · rw [List.length_append, List.length_singleton, List.take_add_one, hget]
    exact List.rel_append h.answered (.cons ha .nil)
  · obtain ⟨taken, htaken⟩ := h.inFlight
    refine ⟨taken, ?_⟩
    rw [List.flatten_append, ← htaken, List.flatten_singleton, List.append_assoc]
  · rw [List.length_append, List.length_singleton, ← List.drop_drop, hpending, List.drop_one,
      List.tail_cons]

omit [LinearOrder L] in
theorem exists_label {labels : List L}
    (h : List.Forall₂ (fun t a => a = [] ∨ ∃ m, a = [m] ∧ R t m) labels answers)
    (hm : m ∈ answers.flatten) : ∃ t ∈ labels, R t m := by
  induction h with
  | nil => cases hm
  | @cons t a labels answers ha _ ih =>
    rw [List.flatten_cons, List.mem_append] at hm
    rcases hm with hm | hm
    · rcases ha with rfl | ⟨m', rfl, hR⟩
      · cases hm
      · obtain rfl := List.mem_singleton.mp hm
        exact ⟨t, List.mem_cons_self, hR⟩
    · obtain ⟨t', ht', hR⟩ := ih hm
      exact ⟨t', List.mem_cons_of_mem _ ht', hR⟩

theorem take (h : Pipeline R labels answers (m :: rest)) :
    Pipeline R labels answers rest ∧ ∃ t ∈ labels, R t m := by
  refine ⟨⟨h.increasing, h.answered, (List.suffix_cons m rest).trans h.inFlight⟩, ?_⟩
  obtain ⟨t, ht, hR⟩ := exists_label h.answered (h.inFlight.subset List.mem_cons_self)
  exact ⟨t, List.mem_of_mem_take ht, hR⟩

theorem newest (h : Pipeline R labels answers (m :: rest)) (hlast : labels.getLast? = some t)
    (hR : ∀ t', R t' m → t' = t) :
    rest = [] ∧ answers.length = labels.length ∧ answers.getLast? = some [m] := by
  obtain ⟨init, rfl⟩ : ∃ init, labels = init ++ [t] := List.getLast?_eq_some_iff.mp hlast
  have hbefore : ∀ t' ∈ init, t' < t := by
    simpa using (List.pairwise_append.mp h.increasing).2.2
  have hnot : ∀ {answers : List (List M)} {labels : List L}, labels ⊆ init →
      List.Forall₂ (fun t a => a = [] ∨ ∃ m, a = [m] ∧ R t m) labels answers →
      m ∉ answers.flatten := by
    intro answers labels hsub hanswers hm
    obtain ⟨t', ht', hR'⟩ := exists_label hanswers hm
    exact ne_of_lt (hbefore t' (hsub ht')) (hR t' hR')
  have hm : m ∈ answers.flatten := h.inFlight.subset List.mem_cons_self
  have hall : init.length < answers.length := by
    by_contra hle
    have hanswers := h.answered
    rw [List.take_append_of_le_length (Nat.le_of_not_lt hle)] at hanswers
    exact hnot (fun _ => List.mem_of_mem_take) hanswers hm
  have hlength := h.length_le
  rw [List.length_append, List.length_singleton] at hlength
  obtain ⟨before, a, rfl⟩ := (List.eq_nil_or_concat' answers).resolve_left (by
    rintro rfl
    exact Nat.not_lt_zero _ hall)
  have hlength' : before.length = init.length := by
    rw [List.length_append, List.length_singleton] at hall hlength
    omega
  have hanswers := h.answered
  rw [List.take_of_length_le (by simp [hlength'])] at hanswers
  have hnotBefore : m ∉ before.flatten := by
    have hbeforeAnswers := List.forall₂_take_append _ before [a] hanswers
    rw [hlength', List.take_left] at hbeforeAnswers
    exact hnot (List.Subset.refl init) hbeforeAnswers
  have hlastAnswer := List.forall₂_drop_append _ before [a] hanswers
  rw [hlength', List.drop_left, List.forall₂_cons] at hlastAnswer
  obtain ⟨taken, htaken⟩ := h.inFlight
  rw [List.flatten_append, List.flatten_singleton] at htaken hm
  rcases hlastAnswer.1 with rfl | ⟨m', rfl, -⟩
  · rw [List.append_nil] at hm
    exact absurd hm hnotBefore
  · rcases List.eq_nil_or_concat' rest with rfl | ⟨rest, x, rfl⟩
    · obtain ⟨-, hsame⟩ := List.append_inj' htaken rfl
      refine ⟨rfl, by simp [hlength'], ?_⟩
      rw [hsame, List.getLast?_concat]
    · rw [← List.cons_append, ← List.append_assoc] at htaken
      obtain ⟨hsame, -⟩ := List.append_inj' htaken rfl
      rw [← hsame] at hnotBefore
      exact absurd (List.mem_append_right _ List.mem_cons_self) hnotBefore

end Pipeline

end Lib
