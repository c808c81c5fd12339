import Mathlib.Data.List.Nodup
import Mathlib.Logic.Function.Basic
import Mathlib.Data.List.Range
import Mathlib.Data.List.Count
import Iceoryx.Lib.Fold

/-! The containers of the port pool.  An element keeps its position until it is
erased, so a position stands for the pointer that is handed out for the element. -/

namespace Iceoryx.Roudi

structure FixedPositionContainer (α : Type) where
  data : List (Option α) := []
  deriving DecidableEq, Repr

namespace FixedPositionContainer

variable {α : Type} (c : FixedPositionContainer α)

def get (i : Nat) : Option α := c.data[i]?.join

def modify (i : Nat) (f : α → α) : FixedPositionContainer α :=
  { data := c.data.modify i (Option.map f) }

def hasFreeSpace (capacity : Nat) : Bool :=
  decide (c.data.length < capacity) || c.data.any Option.isNone

def insert (a : α) : FixedPositionContainer α × Nat :=
  match c.data.findIdx? Option.isNone with
  | some i => ({ data := c.data.set i (some a) }, i)
  | none => ({ data := c.data ++ [some a] }, c.data.length)

def erase (i : Nat) : FixedPositionContainer α :=
  { data := c.data.set i none }

def content : List Nat :=
  (List.range c.data.length).filter fun i => (c.get i).isSome

def count (P : α → Bool) : Nat := c.data.countP fun e => e.any P

@[simp] theorem get_empty (i : Nat) : (({} : FixedPositionContainer α)).get i = none := by
  simp [get]

@[simp] theorem get_modify (i k : Nat) (f : α → α) :
    (c.modify i f).get k = if i = k then (c.get k).map f else c.get k := by
  simp only [get, modify, List.getElem?_modify]
  by_cases h : i = k
  · simp only [h, if_true]
    cases c.data[k]? with
    | none => rfl
    | some e => rfl
  · simp [h]

@[simp] theorem get_erase (i k : Nat) :
    (c.erase i).get k = if i = k then none else c.get k := by
  simp only [get, erase, List.getElem?_set]
  by_cases h : i = k
  · simp only [h, if_true]
    split <;> rfl
  · simp [h]

theorem get_modify_eq {i : Nat} {a : α} (f : α → α) (h : c.get i = some a) :
    (c.modify i f).get = Function.update c.get i (some (f a)) := by
  funext k
  by_cases hk : k = i
  · subst hk
    simp [h]
  · have hik : i ≠ k := fun h => hk h.symm
    simp [hk, hik]

theorem get_modify_none {i : Nat} (f : α → α) (h : c.get i = none) :
    (c.modify i f).get = c.get := by
  funext k
  simp only [get_modify]
  split
  · next hk => rw [← hk, h]; rfl
  · rfl

theorem get_erase_eq (i : Nat) : (c.erase i).get = Function.update c.get i none := by
  funext k
  by_cases hk : k = i
  · simp [hk]
  · have hik : i ≠ k := fun h => hk h.symm
    simp [hk, hik]

theorem findIdx_isNone {i : Nat} (h : c.data.findIdx? Option.isNone = some i) :
    c.data[i]? = some none := by
  obtain ⟨hi, hnone, _⟩ := List.findIdx?_eq_some_iff_getElem.mp h
  rw [List.getElem?_eq_getElem hi]
  simpa using hnone

theorem get_insert_slot (a : α) : c.get (c.insert a).2 = none := by
  unfold insert
  split
  · next i h => simp [get, c.findIdx_isNone h]
  · simp [get]

theorem get_insert (a : α) (k : Nat) :
    (c.insert a).1.get k = if (c.insert a).2 = k then some a else c.get k := by
  unfold insert
  split
  · next i h =>
    obtain ⟨hi, _⟩ := List.getElem?_eq_some_iff.mp (c.findIdx_isNone h)
    simp only [get, List.getElem?_set]
    by_cases hk : i = k
    · simp [hk, hk ▸ hi]
    · simp [hk]
  · simp only [get, List.getElem?_append, List.getElem?_singleton]
    by_cases hk : c.data.length = k
    · simp [← hk]
    · by_cases hlt : k < c.data.length
      · simp [hk, hlt]
      · have hsub : k - c.data.length ≠ 0 := by omega
        simp [hk, hlt, hsub]

theorem get_insert_eq (a : α) :
    (c.insert a).1.get = Function.update c.get (c.insert a).2 (some a) := by
  funext k
  rw [get_insert]
  by_cases hk : k = (c.insert a).2
  · simp [hk]
  · have hik : (c.insert a).2 ≠ k := fun h => hk h.symm
    simp [hk, hik]

@[simp] theorem mem_content (i : Nat) : i ∈ c.content ↔ ∃ a, c.get i = some a := by
  simp only [content, List.mem_filter, List.mem_range, Option.isSome_iff_exists]
  constructor
  · rintro ⟨_, h⟩
    exact h
  · rintro ⟨a, h⟩
    refine ⟨?_, a, h⟩
    by_contra hlt
    simp [get, List.getElem?_eq_none (Nat.le_of_not_lt hlt)] at h

theorem content_nodup : c.content.Nodup :=
  List.nodup_range.filter _

theorem content_sorted : c.content.Pairwise (· < ·) :=
  List.pairwise_lt_range.filter _

theorem mem_takeWhile_content (p : Nat → Bool) (i : Nat) :
    i ∈ c.content.takeWhile p ↔ i ∈ c.content ∧ ∀ k ∈ c.content, k ≤ i → p k = true :=
  Lib.mem_takeWhile_sorted c.content_sorted p i

theorem content_congr {β : Type} {d : FixedPositionContainer β}
    (hlen : d.data.length = c.data.length)
    (h : ∀ i, (d.get i).isSome = (c.get i).isSome) : d.content = c.content := by
  simp [content, hlen, h]

@[simp] theorem length_modify (i : Nat) (f : α → α) :
    (c.modify i f).data.length = c.data.length := by
  simp [modify]

@[simp] theorem length_erase (i : Nat) : (c.erase i).data.length = c.data.length := by
  simp [erase]

@[simp] theorem content_modify (i : Nat) (f : α → α) : (c.modify i f).content = c.content := by
  apply content_congr
  · simp
  · intro k
    simp only [get_modify]
    split <;> simp

theorem length_insert {capacity : Nat} (a : α) (h : c.data.length ≤ capacity)
    (hfree : c.hasFreeSpace capacity = true) : (c.insert a).1.data.length ≤ capacity := by
  unfold insert
  split
  · simpa using h
  · next hnone =>
    rw [List.findIdx?_eq_none_iff] at hnone
    simp only [hasFreeSpace, Bool.or_eq_true, decide_eq_true_eq, List.any_eq_true] at hfree
    obtain hlt | ⟨e, he, hn⟩ := hfree
    · simpa [Nat.succ_le_iff] using hlt
    · rw [hnone e he] at hn
      cases hn

theorem slot_lt {capacity : Nat} (a : α) (h : c.data.length ≤ capacity)
    (hfree : c.hasFreeSpace capacity = true) : (c.insert a).2 < capacity := by
  unfold insert
  split
  · next i hi =>
    obtain ⟨hlt, -⟩ := List.getElem?_eq_some_iff.mp (c.findIdx_isNone hi)
    exact hlt.trans_le h
  · next hnone =>
    have hlength := c.length_insert a h hfree
    rw [insert, hnone, List.length_append, List.length_singleton] at hlength
    exact hlength

theorem lt_length_of_get {i : Nat} (h : c.get i ≠ none) : i < c.data.length := by
  by_contra hge
  exact h (by simp [get, List.getElem?_eq_none (Nat.le_of_not_lt hge)])

theorem hasFreeSpace_of_get {i : Nat} (capacity : Nat) (hi : i < c.data.length)
    (h : c.get i = none) : c.hasFreeSpace capacity = true := by
  rw [hasFreeSpace, Bool.or_eq_true, List.any_eq_true]
  refine Or.inr ⟨c.data.get ⟨i, hi⟩, List.get_mem _ _, ?_⟩
  simpa [get, List.getElem?_eq_getElem hi] using h

theorem count_le_length (P : α → Bool) : c.count P ≤ c.data.length :=
  List.countP_le_length

theorem count_set {i : Nat} {e d : Option α} (P : α → Bool) (h : c.data[i]? = some e) :
    (c.data.set i d).countP (fun e => e.any P) + (e.any P).toNat =
      c.count P + (d.any P).toNat := by
  obtain ⟨hi, he⟩ := List.getElem?_eq_some_iff.mp h
  have hpos : e.any P = true → 0 < c.count P := by
    intro hp
    exact List.countP_pos_iff.mpr ⟨e, List.mem_of_getElem? h, hp⟩
  rw [List.countP_set hi, he]
  unfold count at *
  cases hp : e.any P with
  | false => cases d.any P <;> simp
  | true =>
    have := hpos hp
    cases d.any P <;> simp <;> omega

theorem get_eq_some {i : Nat} {a : α} (h : c.get i = some a) : c.data[i]? = some (some a) := by
  unfold get at h
  cases he : c.data[i]? with
  | none => simp [he] at h
  | some e => simpa [he] using h

theorem count_modify {i : Nat} {a : α} (P : α → Bool) (f : α → α) (h : c.get i = some a) :
    (c.modify i f).count P + (P a).toNat = c.count P + (P (f a)).toNat := by
  have hget := c.get_eq_some h
  have hset : (c.modify i f).data = c.data.set i (some (f a)) := by
    apply List.ext_getElem?
    intro k
    simp only [modify, List.getElem?_modify, List.getElem?_set]
    by_cases hk : i = k
    · subst hk
      obtain ⟨hi, he⟩ := List.getElem?_eq_some_iff.mp hget
      simp [hi, he]
    · simp [hk]
  have := c.count_set (d := some (f a)) P hget
  simpa [count, hset] using this

theorem count_erase {i : Nat} {a : α} (P : α → Bool) (h : c.get i = some a) :
    (c.erase i).count P + (P a).toNat = c.count P := by
  simpa [erase, count] using c.count_set (d := none) P (c.get_eq_some h)

theorem count_insert (a : α) (P : α → Bool) :
    (c.insert a).1.count P = c.count P + (P a).toNat := by
  unfold insert
  split
  · next i h => simpa [count] using c.count_set (d := some a) P (c.findIdx_isNone h)
  · cases h : P a <;> simp [count, h]

theorem count_pos_iff (P : α → Bool) : 0 < c.count P ↔ ∃ i a, c.get i = some a ∧ P a = true := by
  unfold count
  rw [List.countP_pos_iff]
  constructor
  · rintro ⟨e, he, hp⟩
    obtain ⟨i, hi⟩ := List.mem_iff_getElem?.mp he
    cases e with
    | none => simp at hp
    | some a => exact ⟨i, a, by simp [get, hi], by simpa using hp⟩
  · rintro ⟨i, a, hi, hp⟩
    exact ⟨some a, List.mem_of_getElem? (c.get_eq_some hi), by simpa using hp⟩

variable {β : Type}

def map (f : α → β) : FixedPositionContainer β := { data := c.data.map (Option.map f) }

@[simp] theorem get_map (f : α → β) (i : Nat) : (c.map f).get i = (c.get i).map f := by
  simp only [get, map, List.getElem?_map]
  cases c.data[i]? <;> rfl

theorem count_map (f : α → β) (P : β → Bool) : (c.map f).count P = c.count fun a => P (f a) := by
  simp only [count, map, List.countP_map]
  congr 1
  funext e
  cases e <;> rfl

@[simp] theorem length_map (f : α → β) : (c.map f).data.length = c.data.length := by
  simp [map]

theorem map_modify (f : α → β) (i : Nat) (a : α) :
    (c.modify i fun _ => a).map f = (c.map f).modify i fun _ => f a := by
  simp only [map, modify, mk.injEq]
  apply List.ext_getElem?
  intro k
  simp only [List.getElem?_map, List.getElem?_modify]
  cases c.data[k]? with
  | none => rfl
  | some e =>
    by_cases hk : i = k
    · cases e <;> simp [hk]
    · simp [hk]

theorem map_modify_of_eq {f : α → β} {i : Nat} {a : α} (g : α → α) (h : c.get i = some a)
    (hf : f (g a) = f a) : (c.modify i g).map f = c.map f := by
  simp only [map, modify, mk.injEq]
  apply List.ext_getElem?
  intro k
  simp only [List.getElem?_map, List.getElem?_modify]
  by_cases hk : i = k
  · subst hk
    simp [c.get_eq_some h, hf]
  · cases c.data[k]? <;> simp [hk]

theorem modify_none {i : Nat} (g : α → α) (h : c.get i = none) : c.modify i g = c := by
  obtain ⟨data⟩ := c
  simp only [modify, mk.injEq]
  apply List.ext_getElem?
  intro k
  simp only [List.getElem?_modify]
  by_cases hk : i = k
  · subst hk
    simp only [get] at h
    cases he : data[i]? with
    | none => rfl
    | some e =>
      cases e with
      | none => simp
      | some a => simp [he] at h
  · cases data[k]? <;> simp [hk]

theorem erase_none {i : Nat} (h : c.get i = none) : c.erase i = c := by
  obtain ⟨data⟩ := c
  simp only [erase, mk.injEq]
  apply List.ext_getElem?
  intro k
  rw [List.getElem?_set]
  split
  · next hk =>
    subst hk
    simp only [get] at h
    split
    · next hi =>
      rw [List.getElem?_eq_getElem hi] at h ⊢
      simpa using h.symm
    · next hi => rw [List.getElem?_eq_none (Nat.le_of_not_lt hi)]
  · rfl

theorem map_erase (f : α → β) (i : Nat) : (c.erase i).map f = (c.map f).erase i := by
  simp [map, erase, List.map_set]

theorem findIdx_map (f : α → β) :
    (c.map f).data.findIdx? Option.isNone = c.data.findIdx? Option.isNone := by
  simp only [map, List.findIdx?_map]
  congr 1
  funext e
  cases e <;> rfl

theorem map_insert (f : α → β) (a : α) : (c.insert a).1.map f = ((c.map f).insert (f a)).1 := by
  unfold insert
  rw [c.findIdx_map f]
  split
  · simp [map, List.map_set]
  · simp [map]

theorem slot_map (f : α → β) (a : α) : (c.insert a).2 = ((c.map f).insert (f a)).2 := by
  unfold insert
  rw [c.findIdx_map f]
  split
  · rfl
  · simp [map]

theorem hasFreeSpace_map (f : α → β) (capacity : Nat) :
    (c.map f).hasFreeSpace capacity = c.hasFreeSpace capacity := by
  have hany : (c.map f).data.any Option.isNone = c.data.any Option.isNone := by
    simp only [map, List.any_map]
    congr 1
    funext e
    cases e <;> rfl
  simp [hasFreeSpace, hany]

end FixedPositionContainer

end Iceoryx.Roudi
