import Mathlib.Data.List.Basic

universe u

namespace Lib.Text

variable {α : Type u}

section find

variable [DecidableEq α]

/-- `std::string::find(c, pos)`; `none` is `npos`. -/
def find (c : α) (s : List α) (pos : Nat) : Option Nat :=
  ((s.drop pos).findIdx? (· == c)).map (pos + ·)

theorem find_append {c : α} {e : List α} (pre rest : List α) (h : c ∉ e) :
    find c (pre ++ (e ++ c :: rest)) pre.length = some (pre.length + e.length) := by
  have hne : List.findIdx? (· == c) e = none := by
    rw [List.findIdx?_eq_none_iff]
    intro x hx
    simpa using fun hxc : x = c => h (hxc ▸ hx)
  simp [find, List.findIdx?_append, hne, List.findIdx?_cons]

theorem find_eq_none {c : α} {s : List α} {pos : Nat} (h : c ∉ s.drop pos) :
    find c s pos = none := by
  simp only [find, Option.map_eq_none_iff, List.findIdx?_eq_none_iff]
  intro x hx
  simpa using fun hxc : x = c => h (hxc ▸ hx)

theorem find_eq_some {c : α} {s : List α} {pos i : Nat} (h : find c s pos = some i) :
    pos ≤ i ∧ i < s.length := by
  simp only [find, Option.map_eq_some_iff] at h
  obtain ⟨j, hj, rfl⟩ := h
  rw [List.findIdx?_eq_some_iff_getElem] at hj
  obtain ⟨hlt, -⟩ := hj
  simp only [List.length_drop] at hlt
  omega

end find

def substr (s : List α) (pos count : Nat) : List α := (s.drop pos).take count

theorem substr_append (pre e rest : List α) :
    substr (pre ++ (e ++ rest)) pre.length e.length = e := by
  simp [substr]

def terminated (c : α) (entries : List (List α)) : List α := entries.flatMap (· ++ [c])

@[simp] theorem terminated_nil (c : α) : terminated c [] = [] := rfl

@[simp] theorem terminated_cons (c : α) (e : List α) (entries : List (List α)) :
    terminated c (e :: entries) = e ++ c :: terminated c entries := by
  simp [terminated]

@[simp] theorem terminated_append (c : α) (l m : List (List α)) :
    terminated c (l ++ m) = terminated c l ++ terminated c m := by
  simp [terminated]

theorem count_terminated [DecidableEq α] {c : α} {entries : List (List α)}
    (h : ∀ e ∈ entries, c ∉ e) :
    (terminated c entries).count c = entries.length := by
  induction entries with
  | nil => rfl
  | cons e entries ih =>
    have he : e.count c = 0 := List.count_eq_zero.mpr (h e List.mem_cons_self)
    have ih := ih (fun e' he' => h e' (List.mem_cons_of_mem e he'))
    simp [he, ih]

def Ended (c : α) (s : List α) : Prop := s = [] ∨ s.getLast? = some c

theorem ended_terminated (c : α) (entries : List (List α)) : Ended c (terminated c entries) := by
  rcases List.eq_nil_or_concat entries with rfl | ⟨l, e, rfl⟩
  · exact Or.inl rfl
  · right
    simp [terminated]

theorem exists_terminated {c : α} {s : List α} (h : Ended c s) :
    ∃ entries, (∀ e ∈ entries, c ∉ e) ∧ s = terminated c entries := by
  induction s with
  | nil => exact ⟨[], by simp, rfl⟩
  | cons a s ih =>
    have hs : a ≠ c → s ≠ [] := by
      rintro hac rfl
      rcases h with h | h
      · cases h
      · exact hac (by simpa using h)
    have hend : Ended c s := by
      rcases s with _ | ⟨b, s⟩
      · exact Or.inl rfl
      · rcases h with h | h
        · cases h
        · exact Or.inr (by simpa [List.getLast?_cons_cons] using h)
    obtain ⟨entries, hfree, rfl⟩ := ih hend
    by_cases hac : a = c
    · subst hac
      refine ⟨[] :: entries, ?_, by simp⟩
      intro e he
      rcases List.mem_cons.mp he with rfl | he
      · exact List.not_mem_nil
      · exact hfree e he
    · rcases entries with _ | ⟨e, entries⟩
      · exact absurd rfl (hs hac)
      · refine ⟨(a :: e) :: entries, ?_, by simp⟩
        intro e' he'
        rcases List.mem_cons.mp he' with rfl | he'
        · have he := hfree e List.mem_cons_self
          simp [he, Ne.symm hac]
        · exact hfree e' (List.mem_cons_of_mem e he')

section components

def components (p : α → Bool) (s : List α) : List (List α) :=
  (s.splitOnP p).filter fun e => !e.isEmpty

variable {p : α → Bool} {a : α} {s e : List α}

@[simp] theorem components_nil : components p [] = [] := by
  simp [components]

theorem components_append_cons (he : ∀ b ∈ e, p b = false) (hne : e ≠ []) (ha : p a = true) :
    components p (e ++ a :: s) = e :: components p s := by
  rw [components, List.splitOnP_append_cons_of_forall_mem he a ha,
    List.filter_cons_of_pos (by simpa using hne)]
  rfl

theorem components_cons (ha : p a = true) : components p (a :: s) = components p s := by
  have h : ([] ++ a :: s).splitOnP p = [] :: s.splitOnP p :=
    List.splitOnP_append_cons_of_forall_mem (by simp) a ha s
  rw [List.nil_append] at h
  rw [components, h, List.filter_cons_of_neg (by simp)]
  rfl

theorem components_of_free (hs : ∀ b ∈ s, p b = false) (hne : s ≠ []) : components p s = [s] := by
  rw [components, List.splitOnP_eq_singleton hs, List.filter_cons_of_pos (by simpa using hne),
    List.filter_nil]

theorem components_ne_nil (hne : s ≠ []) (hlast : ∀ a, s.getLast? = some a → p a = false) :
    components p s ≠ [] := by
  induction s with
  | nil => exact absurd rfl hne
  | cons b s ih =>
    cases hb : p b with
    | true =>
      have hs : s ≠ [] := by
        rintro rfl
        exact Bool.false_ne_true ((hlast b rfl).symm.trans hb)
      rw [components_cons hb]
      apply ih hs
      intro a ha
      apply hlast a
      rw [List.getLast?_cons, ha]
      rfl
    | false =>
      obtain ⟨first, rest, hsplit⟩ := List.exists_cons_of_ne_nil (List.splitOnP_ne_nil p s)
      rw [components, List.splitOnP_cons_eq_if_modifyHead, if_neg (by simp [hb]), hsplit,
        List.modifyHead_cons, List.filter_cons_of_pos (by simp)]
      exact List.cons_ne_nil _ _

end components

end Lib.Text
