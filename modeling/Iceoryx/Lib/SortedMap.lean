import Mathlib.Data.List.Perm.Basic
import Mathlib.Order.Lattice

universe u v

namespace Lib

structure SortedMap (K : Type u) (V : Type v) [LinearOrder K] where
  entries : List (K × V)
  sorted : entries.Pairwise fun a b => a.1 < b.1

namespace SortedMap

variable {K : Type u} {V : Type v} [LinearOrder K]

def insertEntry (k : K) (v : V) : List (K × V) → List (K × V)
  | [] => [(k, v)]
  | e :: es =>
    if k < e.1 then (k, v) :: e :: es
    else if k = e.1 then e :: es
    else e :: insertEntry k v es

theorem mem_insertEntry {k : K} {v : V} {x : K × V} {es : List (K × V)}
    (h : x ∈ insertEntry k v es) : x = (k, v) ∨ x ∈ es := by
  induction es with
  | nil => exact Or.inl (List.mem_singleton.mp h)
  | cons e es ih =>
    rw [insertEntry] at h
    split at h
    · exact List.mem_cons.mp h
    · split at h
      · exact Or.inr h
      · rcases List.mem_cons.mp h with rfl | h
        · exact Or.inr List.mem_cons_self
        · exact (ih h).imp_right (List.mem_cons_of_mem e)

theorem insertEntry_sorted (k : K) (v : V) {es : List (K × V)}
    (h : es.Pairwise fun a b => a.1 < b.1) :
    (insertEntry k v es).Pairwise fun a b => a.1 < b.1 := by
  induction es with
  | nil => exact List.pairwise_singleton _ _
  | cons e es ih =>
    obtain ⟨he, hes⟩ := List.pairwise_cons.mp h
    rw [insertEntry]
    split
    · next hlt =>
      refine List.pairwise_cons.mpr ⟨fun x hx => ?_, h⟩
      rcases List.mem_cons.mp hx with rfl | hx
      · exact hlt
      · exact hlt.trans (he x hx)
    · next hge =>
      split
      · exact h
      · next hne =>
        refine List.pairwise_cons.mpr ⟨fun x hx => ?_, ih hes⟩
        rcases mem_insertEntry hx with rfl | hx
        · exact lt_of_le_of_ne (not_lt.mp hge) (Ne.symm hne)
        · exact he x hx

def empty : SortedMap K V where
  entries := []
  sorted := List.Pairwise.nil

def single (k : K) (v : V) : SortedMap K V where
  entries := [(k, v)]
  sorted := List.pairwise_singleton _ _

def find (m : SortedMap K V) (k : K) : Option V :=
  (m.entries.find? fun e => e.1 = k).map Prod.snd

/-- Does nothing if there is an entry for the key. -/
def insert (m : SortedMap K V) (k : K) (v : V) : SortedMap K V where
  entries := insertEntry k v m.entries
  sorted := insertEntry_sorted k v m.sorted

def modify (m : SortedMap K V) (k : K) (f : V → V) : SortedMap K V where
  entries := m.entries.map fun e => if e.1 = k then (e.1, f e.2) else e
  sorted := by
    refine List.pairwise_map.mpr (m.sorted.imp fun {a b} h => ?_)
    split <;> split <;> exact h

def erase (m : SortedMap K V) (k : K) : SortedMap K V where
  entries := m.entries.eraseP fun e => e.1 = k
  sorted := m.sorted.sublist List.eraseP_sublist

variable {m : SortedMap K V} {k : K} {v : V}

theorem find_eq_none : m.find k = none ↔ ∀ e ∈ m.entries, e.1 ≠ k := by
  rw [find, Option.map_eq_none_iff, List.find?_eq_none]
  simp only [decide_eq_true_eq]

theorem find_eq_some (h : m.find k = some v) : ∃ before behind,
    m.entries = before ++ (k, v) :: behind ∧ (∀ e ∈ before, e.1 ≠ k) ∧ ∀ e ∈ behind, e.1 ≠ k := by
  obtain ⟨⟨k', v'⟩, hfind, rfl⟩ := Option.map_eq_some_iff.mp h
  obtain ⟨hk, before, behind, hentries, hbefore⟩ := List.find?_eq_some_iff_append.mp hfind
  obtain rfl : k' = k := of_decide_eq_true hk
  refine ⟨before, behind, hentries, fun e he heq => ?_, fun e he heq => ?_⟩
  · exact absurd (hbefore e he) (by rw [heq]; simp)
  · have hsorted := m.sorted
    rw [hentries] at hsorted
    have hlt := (List.pairwise_cons.mp (List.pairwise_append.mp hsorted).2.1).1 e he
    exact absurd heq (ne_of_gt hlt)

theorem mem_iff_find : (k, v) ∈ m.entries ↔ m.find k = some v := by
  constructor
  · intro hmem
    cases hfind : m.find k with
    | none => exact absurd rfl (find_eq_none.mp hfind (k, v) hmem)
    | some w =>
      obtain ⟨before, behind, hentries, hbefore, hbehind⟩ := find_eq_some hfind
      rw [hentries] at hmem
      rcases List.mem_append.mp hmem with hmem | hmem
      · exact absurd rfl (hbefore _ hmem)
      · rcases List.mem_cons.mp hmem with heq | hmem
        · rw [(Prod.mk.inj heq).2]
        · exact absurd rfl (hbehind _ hmem)
  · intro hfind
    obtain ⟨before, behind, hentries, -⟩ := find_eq_some hfind
    rw [hentries]
    exact List.mem_append_right before List.mem_cons_self

theorem insert_perm (h : m.find k = none) : (m.insert k v).entries.Perm ((k, v) :: m.entries) := by
  have hne := find_eq_none.mp h
  unfold insert
  dsimp only
  generalize m.entries = es at hne
  induction es with
  | nil => exact List.Perm.refl _
  | cons e es ih =>
    rw [insertEntry]
    split
    · exact List.Perm.refl _
    · rw [if_neg (hne e List.mem_cons_self).symm]
      refine (List.Perm.cons e (ih fun x hx => hne x (List.mem_cons_of_mem e hx))).trans ?_
      exact List.Perm.swap _ _ _

theorem erase_perm (h : m.find k = some v) :
    m.entries.Perm ((k, v) :: (m.erase k).entries) := by
  obtain ⟨before, behind, hentries, hbefore, -⟩ := find_eq_some h
  have herase : (m.erase k).entries = before ++ behind := by
    change m.entries.eraseP _ = _
    rw [hentries, List.eraseP_append_right _ fun e he => by simpa using hbefore e he,
      List.eraseP_cons_of_pos (by simp)]
  rw [herase, hentries]
  exact List.perm_middle

theorem modify_perm (h : m.find k = some v) (f : V → V) :
    (m.modify k f).entries.Perm ((k, f v) :: (m.erase k).entries) := by
  obtain ⟨before, behind, hentries, hbefore, hbehind⟩ := find_eq_some h
  have hkeep : ∀ es : List (K × V), (∀ e ∈ es, e.1 ≠ k) →
      (es.map fun e => if e.1 = k then (e.1, f e.2) else e) = es := by
    intro es hes
    exact (List.map_congr_left fun e he => if_neg (hes e he)).trans (List.map_id es)
  have hmodify : (m.modify k f).entries = before ++ (k, f v) :: behind := by
    change m.entries.map _ = _
    rw [hentries, List.map_append, List.map_cons, hkeep before hbefore, hkeep behind hbehind,
      if_pos rfl]
  rw [hmodify]
  refine List.perm_middle.trans (List.Perm.cons _ ?_)
  have hperm := (erase_perm h).symm
  rw [hentries] at hperm
  exact (List.perm_cons _).mp (hperm.trans List.perm_middle).symm

end SortedMap

end Lib
