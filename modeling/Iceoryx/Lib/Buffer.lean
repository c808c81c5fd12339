import Mathlib.Data.List.Lex
import Mathlib.Data.List.Infix
import Mathlib.Data.List.TakeWhile
import Mathlib.Order.Lattice

/-! Memory as a list of cells: blocks of it that are read and written, and what the string
functions of the C library do with it. A function that would leave the memory has no
result. -/

universe u

namespace Lib.Buffer

variable {α : Type u}

def readBlock (mem : List α) (pos count : Nat) : Option (List α) :=
  if pos + count ≤ mem.length then some ((mem.drop pos).take count) else none

def overwrite (mem : List α) (pos : Nat) (cells : List α) : List α :=
  mem.take pos ++ (cells ++ mem.drop (pos + cells.length))

theorem length_overwrite {mem cells : List α} {pos : Nat}
    (h : pos + cells.length ≤ mem.length) : (overwrite mem pos cells).length = mem.length := by
  simp only [overwrite, List.length_append, List.length_take, List.length_drop]
  omega

theorem drop_overwrite {mem : List α} {pos : Nat} (h : pos ≤ mem.length) (cells : List α) :
    (overwrite mem pos cells).drop pos = cells ++ mem.drop (pos + cells.length) := by
  rw [overwrite, List.drop_left' (List.length_take_of_le h)]

theorem take_overwrite {mem : List α} {pos : Nat} (h : pos ≤ mem.length) (cells : List α)
    (k : Nat) :
    (overwrite mem pos cells).take (pos + (cells.length + k)) =
      mem.take pos ++ (cells ++ (mem.drop (pos + cells.length)).take k) := by
  have hpos : (mem.take pos).length = pos := List.length_take_of_le h
  calc (overwrite mem pos cells).take (pos + (cells.length + k))
      = (overwrite mem pos cells).take ((mem.take pos).length + (cells.length + k)) := by rw [hpos]
    _ = _ := by rw [overwrite, List.take_length_add_append, List.take_length_add_append]

theorem take_overwrite_of_le {mem : List α} {pos k : Nat} (h : pos ≤ mem.length)
    (hk : k ≤ pos) (cells : List α) : (overwrite mem pos cells).take k = mem.take k := by
  rw [overwrite, List.take_append_of_le_length (by simp; omega), List.take_take, min_eq_left hk]

theorem readBlock_of_le {mem : List α} {pos count : Nat} (h : pos + count ≤ mem.length) :
    readBlock mem pos count = some ((mem.drop pos).take count) := if_pos h

section cString

variable [DecidableEq α] (nul : α)

def cString (mem : List α) : Option (List α) :=
  if nul ∈ mem then some (mem.takeWhile (· ≠ nul)) else none

def strnlen (mem : List α) (n : Nat) : Nat := ((mem.take n).takeWhile (· ≠ nul)).length

def strchr (mem : List α) (c : α) : Option Bool :=
  (cString nul mem).map fun s => c = nul ∨ c ∈ s

def strstr (mem needle : List α) : Option (Option Nat) :=
  (cString nul mem).bind fun hay =>
    (cString nul needle).map fun s => hay.tails.findIdx? fun t => s.isPrefixOf t

variable {nul} {s t : List α}

theorem takeWhile_append_nul (h : nul ∉ s) (rest : List α) :
    (s ++ nul :: rest).takeWhile (· ≠ nul) = s := by
  have hall : ∀ a ∈ s, decide (a ≠ nul) = true := by
    intro a ha
    simpa using fun hnul : a = nul => h (hnul ▸ ha)
  rw [List.takeWhile_append_of_pos hall, List.takeWhile_cons_of_neg (by simp), List.append_nil]

theorem nul_not_mem_takeWhile (mem : List α) : nul ∉ mem.takeWhile (· ≠ nul) := by
  intro h
  simpa using List.mem_takeWhile_imp h

theorem takeWhile_eq_take (mem : List α) :
    mem.takeWhile (· ≠ nul) = mem.take (strnlen nul mem mem.length) := by
  rw [strnlen, List.take_length]
  exact List.prefix_iff_eq_take.mp (List.takeWhile_prefix _)

theorem strnlen_eq (mem : List α) (n : Nat) :
    strnlen nul mem n = min (mem.takeWhile (· ≠ nul)).length n := by
  induction mem generalizing n with
  | nil => simp [strnlen]
  | cons a mem ih =>
    cases n with
    | zero => simp [strnlen]
    | succ n =>
      have ih := ih n
      simp only [strnlen] at ih
      by_cases ha : a = nul
      · simp [strnlen, ha]
      · rw [strnlen, List.take_succ_cons, List.takeWhile_cons_of_pos (by simpa using ha),
          List.takeWhile_cons_of_pos (by simpa using ha), List.length_cons, List.length_cons, ih]
        omega

theorem exists_takeWhile_append {mem : List α} (h : nul ∈ mem) :
    ∃ rest, mem = mem.takeWhile (· ≠ nul) ++ nul :: rest := by
  induction mem with
  | nil => cases h
  | cons a mem ih =>
    by_cases ha : a = nul
    · exact ⟨mem, by simp [ha]⟩
    · obtain ⟨rest, hrest⟩ := ih ((List.mem_cons.mp h).resolve_left (Ne.symm ha))
      refine ⟨rest, ?_⟩
      rw [List.takeWhile_cons_of_pos (by simpa using ha), List.cons_append, ← hrest]

theorem cString_append (h : nul ∉ s) (rest : List α) :
    cString nul (s ++ nul :: rest) = some s := by
  rw [cString, if_pos (by simp), takeWhile_append_nul h]

theorem strchr_append (h : nul ∉ s) (rest : List α) {c : α} (hc : c ≠ nul) :
    strchr nul (s ++ nul :: rest) c = some (decide (c ∈ s)) := by
  rw [strchr, cString_append h, Option.map_some]
  simp [hc]

def OccursAt (s needle : List α) (i : Nat) : Prop := i ≤ s.length ∧ needle <+: s.drop i

theorem strstr_append (hs : nul ∉ s) (ht : nul ∉ t) (rest rest' : List α) :
    ∃ r, strstr nul (s ++ nul :: rest) (t ++ nul :: rest') = some r ∧
      ∀ i, r = some i ↔ OccursAt s t i ∧ ∀ j < i, ¬ OccursAt s t j := by
  refine ⟨_, by rw [strstr, cString_append hs, cString_append ht]; rfl, fun i => ?_⟩
  rw [List.findIdx?_eq_some_iff_getElem]
  constructor
  · rintro ⟨hi, hprefix, hmin⟩
    have hlen : i ≤ s.length := by
      rw [List.length_tails] at hi
      omega
    refine ⟨⟨hlen, by simpa [List.getElem_tails] using hprefix⟩, fun j hj hocc => ?_⟩
    exact hmin j hj (by simpa [List.getElem_tails] using hocc.2)
  · rintro ⟨⟨hlen, hprefix⟩, hmin⟩
    have hi : i < s.tails.length := by
      rw [List.length_tails]
      omega
    refine ⟨hi, by simpa [List.getElem_tails] using hprefix, fun j hj hocc => ?_⟩
    exact hmin j hj ⟨by omega, by simpa [List.getElem_tails] using hocc⟩

end cString

section search

def IsFirstFrom (P : Nat → Prop) (pos i : Nat) : Prop :=
  pos ≤ i ∧ P i ∧ ∀ j, pos ≤ j → j < i → ¬ P j

def IsLastUpTo (P : Nat → Prop) (pos i : Nat) : Prop :=
  i ≤ pos ∧ P i ∧ ∀ j, i < j → j ≤ pos → ¬ P j

variable {P : Nat → Prop} {pos i : Nat}

theorem isFirstFrom_iff_of_here (h : P pos) : IsFirstFrom P pos i ↔ i = pos := by
  constructor
  · rintro ⟨hle, -, hmin⟩
    by_contra hne
    exact hmin pos le_rfl (by omega) h
  · rintro rfl
    exact ⟨le_rfl, h, fun j hle hlt => absurd hlt (by omega)⟩

theorem isFirstFrom_iff_of_not (h : ¬ P pos) :
    IsFirstFrom P pos i ↔ IsFirstFrom P (pos + 1) i := by
  constructor
  · rintro ⟨hle, hi, hmin⟩
    have hne : pos ≠ i := fun heq => h (heq ▸ hi)
    exact ⟨by omega, hi, fun j hj => hmin j (by omega)⟩
  · rintro ⟨hle, hi, hmin⟩
    refine ⟨by omega, hi, fun j hj hlt hPj => ?_⟩
    rcases Nat.eq_or_lt_of_le hj with rfl | hj
    · exact h hPj
    · exact hmin j hj hlt hPj

theorem isLastUpTo_iff_of_here (h : P pos) : IsLastUpTo P pos i ↔ i = pos := by
  constructor
  · rintro ⟨hle, -, hmax⟩
    by_contra hne
    exact hmax pos (by omega) le_rfl h
  · rintro rfl
    exact ⟨le_rfl, h, fun j hlt hle => absurd hlt (by omega)⟩

theorem isLastUpTo_iff_of_not (h : ¬ P (pos + 1)) :
    IsLastUpTo P (pos + 1) i ↔ IsLastUpTo P pos i := by
  constructor
  · rintro ⟨hle, hi, hmax⟩
    have hne : i ≠ pos + 1 := fun heq => h (heq ▸ hi)
    exact ⟨by omega, hi, fun j hlt hj => hmax j hlt (by omega)⟩
  · rintro ⟨hle, hi, hmax⟩
    refine ⟨by omega, hi, fun j hlt hj hPj => ?_⟩
    rcases Nat.eq_or_lt_of_le hj with rfl | hj
    · exact h hPj
    · exact hmax j hlt (by omega) hPj

theorem not_of_no_first (h : ∀ i, ¬ IsFirstFrom P pos i) : ∀ i, pos ≤ i → ¬ P i := by
  intro i
  induction i using Nat.strongRecOn with
  | ind i ih => exact fun hle hi => h i ⟨hle, hi, fun j hj hlt => ih j hlt hj⟩

def OneOfAt (s set : List α) (i : Nat) : Prop := ∃ c ∈ set, s[i]? = some c

theorem OneOfAt.lt {s set : List α} (h : OneOfAt s set i) : i < s.length := by
  obtain ⟨c, -, hc⟩ := h
  exact (List.getElem?_eq_some_iff.mp hc).1

theorem oneOfAt_iff {s set : List α} (h : i < s.length) : OneOfAt s set i ↔ s[i] ∈ set := by
  simp [OneOfAt, List.getElem?_eq_getElem h]

theorem split_of_first {s set : List α} (h : IsFirstFrom (OneOfAt s set) 0 i) :
    ∃ pre a rest, s = pre ++ a :: rest ∧ pre.length = i ∧ a ∈ set ∧ ∀ b ∈ pre, b ∉ set := by
  obtain ⟨-, hi, hmin⟩ := h
  have hlt := hi.lt
  refine ⟨s.take i, s[i], s.drop (i + 1), ?_, List.length_take_of_le hlt.le,
    (oneOfAt_iff hlt).mp hi, fun b hb hset => ?_⟩
  · rw [← List.drop_eq_getElem_cons hlt, List.take_append_drop]
  · obtain ⟨j, hj, rfl⟩ := List.mem_take_iff_getElem.mp hb
    have hjlt : j < i := by omega
    exact hmin j (Nat.zero_le j) hjlt ((oneOfAt_iff (hjlt.trans hlt)).mpr hset)

theorem occursAt_drop {s needle : List α} (h : pos ≤ s.length) :
    OccursAt (s.drop pos) needle i ↔ OccursAt s needle (pos + i) := by
  rw [OccursAt, OccursAt, List.drop_drop, List.length_drop]
  have hle : i ≤ s.length - pos ↔ pos + i ≤ s.length := by omega
  rw [hle]

end search

section memcmp

variable [LinearOrder α]

def memcmp : List α → List α → Int
  | a :: s, b :: t => if a < b then -1 else if b < a then 1 else memcmp s t
  | _, _ => 0

def compareLists (s t : List α) : Int :=
  let result := memcmp (s.take (min s.length t.length)) (t.take (min s.length t.length))
  if result = 0 then
    if s.length < t.length then -1 else if s.length > t.length then 1 else 0
  else result

theorem compareLists_cons (a b : α) (s t : List α) :
    compareLists (a :: s) (b :: t) =
      if a < b then -1 else if b < a then 1 else compareLists s t := by
  have hmin : min (s.length + 1) (t.length + 1) = min s.length t.length + 1 := by omega
  simp only [compareLists, List.length_cons, hmin, List.take_succ_cons, memcmp,
    Nat.add_lt_add_iff_right, gt_iff_lt]
  by_cases hlt : a < b
  · simp [hlt]
  · by_cases hgt : b < a
    · simp [hlt, hgt]
    · simp [hlt, hgt]

theorem compareLists_spec (s t : List α) :
    (compareLists s t < 0 ↔ s < t) ∧ (compareLists s t = 0 ↔ s = t) ∧
      (0 < compareLists s t ↔ t < s) := by
  induction s generalizing t with
  | nil => cases t <;> simp [compareLists, memcmp]
  | cons a s ih =>
    cases t with
    | nil => simp [compareLists, memcmp]
    | cons b t =>
      rw [compareLists_cons, List.cons_lt_cons_iff, List.cons_lt_cons_iff]
      rcases lt_trichotomy a b with h | rfl | h
      · simp [h, h.ne, h.ne', h.not_gt]
      · simpa using ih t
      · simp [h, h.ne, h.ne', h.not_gt]

end memcmp

end Lib.Buffer
