import Mathlib.Data.List.Nodup
import Mathlib.Logic.Function.Basic

universe u

namespace Lib

variable {A : Type u}

/-- `Chain next stop i cells`: following `next` from `i` visits exactly the
indices `cells` and then meets an index at which the list ends. -/
def Chain (next : A → A) (stop : A → Prop) : A → List A → Prop
  | i, [] => stop i
  | i, j :: rest => i = j ∧ ¬ stop j ∧ Chain next stop (next j) rest

def follow (next : A → A) (stop : A → Prop) [DecidablePred stop] : Nat → A → List A
  | 0, _ => []
  | fuel + 1, i => if stop i then [] else i :: follow next stop fuel (next i)

variable {next next' : A → A} {stop : A → Prop} {i : A} {cells : List A}

theorem Chain.not_stop (h : Chain next stop i cells) : ∀ j ∈ cells, ¬ stop j := by
  induction cells generalizing i with
  | nil => simp
  | cons k rest ih =>
    intro j hj
    rcases List.mem_cons.mp hj with rfl | hj
    · exact h.2.1
    · exact ih h.2.2 j hj

theorem Chain.congr (h : Chain next stop i cells) (hsame : ∀ j ∈ cells, next' j = next j) :
    Chain next' stop i cells := by
  induction cells generalizing i with
  | nil => exact h
  | cons k rest ih =>
    refine ⟨h.1, h.2.1, ?_⟩
    rw [hsame k (by simp)]
    exact ih h.2.2 fun j hj => hsame j (List.mem_cons_of_mem _ hj)

theorem Chain.update [DecidableEq A] {k v : A} (h : Chain next stop i cells) (hk : k ∉ cells) :
    Chain (Function.update next k v) stop i cells := by
  refine h.congr fun j hj => Function.update_of_ne ?_ _ _
  rintro rfl
  exact hk hj

theorem Chain.unique {cells' : List A} (h : Chain next stop i cells)
    (h' : Chain next stop i cells') : cells = cells' := by
  induction cells generalizing i cells' with
  | nil =>
    cases cells' with
    | nil => rfl
    | cons k rest => exact absurd (h'.1 ▸ h) h'.2.1
  | cons j rest ih =>
    cases cells' with
    | nil => exact absurd (h.1 ▸ h') h.2.1
    | cons k rest' =>
      obtain rfl : j = k := h.1.symm.trans h'.1
      rw [ih h.2.2 h'.2.2]

theorem Chain.follow_eq [DecidablePred stop] {fuel : Nat} (h : Chain next stop i cells)
    (hfuel : cells.length ≤ fuel) : follow next stop fuel i = cells := by
  induction cells generalizing i fuel with
  | nil =>
    have hi : stop i := h
    cases fuel with
    | zero => rfl
    | succ fuel => simp [follow, hi]
  | cons j rest ih =>
    obtain ⟨rfl, hj, hrest⟩ := h
    cases fuel with
    | zero => simp at hfuel
    | succ fuel =>
      have hrec : follow next stop fuel (next i) = rest := by
        apply ih hrest
        simpa using hfuel
      simp [follow, hj, hrec]

theorem Chain.push [DecidableEq A] {j : A} (h : Chain next stop i cells) (hj : j ∉ cells)
    (hstop : ¬ stop j) : Chain (Function.update next j i) stop j (j :: cells) := by
  refine ⟨rfl, hstop, ?_⟩
  rw [Function.update_self]
  exact h.update hj

theorem Chain.unlink [DecidableEq A] {k j : A} {before after : List A}
    (h : Chain next stop i (before ++ k :: j :: after))
    (hnodup : (before ++ k :: j :: after).Nodup) :
    Chain (Function.update next k (next j)) stop i (before ++ k :: after) := by
  induction before generalizing i with
  | nil =>
    obtain ⟨rfl, hk, _, _, hrest⟩ := h
    obtain ⟨hnot, _⟩ := List.nodup_cons.mp hnodup
    refine ⟨rfl, hk, ?_⟩
    rw [Function.update_self]
    exact hrest.update fun hmem => hnot (List.mem_cons_of_mem j hmem)
  | cons a before ih =>
    obtain ⟨rfl, ha, hrest⟩ := h
    obtain ⟨hnot, hnodup⟩ := List.nodup_cons.mp hnodup
    refine ⟨rfl, ha, ?_⟩
    rw [Function.update_of_ne]
    · exact ih hrest hnodup
    · rintro rfl
      exact hnot (by simp)

theorem Chain.link [DecidableEq A] {k j : A} {before after : List A}
    (h : Chain next stop i (before ++ k :: after)) (hnodup : (before ++ k :: after).Nodup)
    (hj : j ∉ before ++ k :: after) (hstop : ¬ stop j) :
    Chain (Function.update (Function.update next j (next k)) k j) stop i
      (before ++ k :: j :: after) := by
  induction before generalizing i with
  | nil =>
    obtain ⟨rfl, hk, hrest⟩ := h
    obtain ⟨hnot, _⟩ := List.nodup_cons.mp hnodup
    obtain ⟨hjk, hj⟩ := not_or.mp (mt List.mem_cons.mpr hj)
    refine ⟨rfl, hk, ?_⟩
    rw [Function.update_self]
    refine ⟨rfl, hstop, ?_⟩
    rw [Function.update_of_ne hjk, Function.update_self]
    exact (hrest.update hj).update hnot
  | cons a before ih =>
    obtain ⟨rfl, ha, hrest⟩ := h
    obtain ⟨hnot, hnodup⟩ := List.nodup_cons.mp hnodup
    obtain ⟨hja, hj⟩ := not_or.mp (mt List.mem_cons.mpr hj)
    refine ⟨rfl, ha, ?_⟩
    rw [Function.update_of_ne, Function.update_of_ne (Ne.symm hja)]
    · exact ih hrest hnodup hj
    · rintro rfl
      exact hnot (by simp)

theorem Chain.next_eq {k : A} {before after : List A}
    (h : Chain next stop i (before ++ k :: after)) : Chain next stop (next k) after := by
  induction before generalizing i with
  | nil => exact h.2.2
  | cons a before ih => exact ih h.2.2

end Lib
