import Mathlib.Data.List.Range
import Mathlib.Data.List.TakeWhile
import Mathlib.Data.List.Nodup
import Mathlib.Logic.Function.Basic

universe u

namespace Iceoryx.Hoofs

variable {T : Type u}

structure CxxIterator where
  list : Nat
  idx : Nat
deriving DecidableEq

structure SlotSeq (T : Type u) where
  elems : List (Nat × T)
  free : List Nat

namespace SlotSeq

variable (capacity : Nat)

def slots (s : SlotSeq T) : List Nat := s.elems.map Prod.fst

def values (s : SlotSeq T) : List T := s.elems.map Prod.snd

def first (elems : List (Nat × T)) : Nat := (elems.map Prod.fst).headD capacity

def before (s : SlotSeq T) (i : Nat) : List (Nat × T) := s.elems.takeWhile fun e => e.1 != i

def behind (s : SlotSeq T) (i : Nat) : List (Nat × T) := s.elems.dropWhile fun e => e.1 != i

theorem first_mem (front rest : List (Nat × T)) :
    first capacity rest ∈ (front ++ rest).map Prod.fst ++ [capacity] := by
  cases rest with
  | nil => exact List.mem_append_right _ (List.mem_singleton_self _)
  | cons e rest => simp [first]

theorem first_mem_ring (front rest : List (Nat × T)) :
    first capacity rest ∈ capacity :: (front ++ rest).map Prod.fst := by
  rcases List.mem_append.mp (first_mem capacity front rest) with hmem | hmem
  · exact List.mem_cons_of_mem _ hmem
  · rw [List.mem_singleton.mp hmem]
    exact List.mem_cons_self

def latest (elems : List (Nat × T)) : Nat := (elems.map Prod.fst).getLastD capacity

def begin (s : SlotSeq T) : Nat := first capacity s.elems

def last (s : SlotSeq T) : Nat := s.slots.getLastD capacity

def insertBefore (s : SlotSeq T) (i : Nat) (x : T) : Nat × SlotSeq T :=
  match s.free with
  | [] => (capacity, s)
  | new :: free =>
    (new,
      { elems := s.before i ++ (new, x) :: s.behind i
        free := free })

def erase (s : SlotSeq T) (i : Nat) : Nat × SlotSeq T :=
  match s.behind i with
  | [] => (capacity, s)
  | e :: rest =>
    (first capacity rest,
      { elems := s.before i ++ rest
        free := e.1 :: s.free })

def removeIf (pred : T → Bool) (s : SlotSeq T) : Nat × SlotSeq T :=
  (s.elems.countP fun e => pred e.2,
    { elems := s.elems.filter fun e => !pred e.2
      free := ((s.elems.filter fun e => pred e.2).map Prod.fst).reverse ++ s.free })

def clear (s : SlotSeq T) : SlotSeq T where
  elems := []
  free := s.slots.reverse ++ s.free

/-- The elements that are there are kept and get the new values; what is missing is added, and
what is too much is deleted. -/
def assign (s : SlotSeq T) (values : List T) : SlotSeq T where
  elems := (s.slots ++ s.free).zip values
  free := (s.slots.drop values.length).reverse ++ s.free.drop (values.length - s.slots.length)

def new : SlotSeq T where
  elems := []
  free := List.range capacity

variable {capacity} {s : SlotSeq T} {i : Nat} {x : T}

theorem before_append_behind (s : SlotSeq T) (i : Nat) : s.before i ++ s.behind i = s.elems :=
  List.takeWhile_append_dropWhile

theorem behind_eq (hi : i ∈ s.slots) : ∃ y rest, s.behind i = (i, y) :: rest := by
  obtain ⟨elems, free⟩ := s
  induction elems with
  | nil => cases hi
  | cons e rest ih =>
    by_cases he : e.1 = i
    · refine ⟨e.2, rest, ?_⟩
      rw [← he]
      exact List.dropWhile_cons_of_neg (by simp)
    · obtain ⟨y, rest', hrest⟩ := ih ((List.mem_cons.mp hi).resolve_left (Ne.symm he))
      refine ⟨y, rest', ?_⟩
      rw [← hrest]
      exact List.dropWhile_cons_of_pos (by simp [he])

theorem first_behind (hi : i ∈ s.slots ∨ i = capacity) : first capacity (s.behind i) = i := by
  by_cases hmem : i ∈ s.slots
  · obtain ⟨y, rest, hbehind⟩ := behind_eq hmem
    rw [hbehind]
    rfl
  · obtain rfl := hi.resolve_left hmem
    have hnone : s.behind i = [] := by
      refine List.dropWhile_eq_nil_iff.mpr fun e he => bne_iff_ne.mpr ?_
      exact ne_of_mem_of_not_mem (List.mem_map_of_mem he) hmem
    rw [hnone]
    rfl

theorem begin_mem (elems : List (Nat × T)) (free : List Nat) :
    begin capacity ⟨elems, free⟩ ∈ elems.map Prod.fst ∨
      elems = [] ∧ begin capacity ⟨elems, free⟩ = capacity := by
  cases elems with
  | nil => exact Or.inr ⟨rfl, rfl⟩
  | cons e rest => exact Or.inl List.mem_cons_self

theorem last_mem (elems : List (Nat × T)) (free : List Nat) :
    last capacity ⟨elems, free⟩ ∈ elems.map Prod.fst ∨
      elems = [] ∧ last capacity ⟨elems, free⟩ = capacity := by
  cases elems using List.reverseRecOn with
  | nil => exact Or.inr ⟨rfl, rfl⟩
  | append_singleton front e => exact Or.inl (by simp [last, slots])

theorem mem_insertBefore {e : Nat × T} (he : e ∈ s.elems) :
    e ∈ (s.insertBefore capacity i x).2.elems := by
  rw [insertBefore]
  split
  · exact he
  · rw [← before_append_behind s i] at he
    exact List.mem_append.mpr ((List.mem_append.mp he).imp_right (List.mem_cons_of_mem _))

theorem mem_erase {e : Nat × T} (he : e ∈ s.elems) (hne : e.1 ≠ i)
    (hi : i ∈ s.slots ∨ i = capacity) : e ∈ (s.erase capacity i).2.elems := by
  have hfirst := first_behind hi
  rw [erase]
  split
  · exact he
  · next e' rest hsome =>
    rw [hsome] at hfirst
    rw [← before_append_behind s i, hsome] at he
    rcases List.mem_append.mp he with he | he
    · exact List.mem_append_left _ he
    · rcases List.mem_cons.mp he with rfl | he
      · exact absurd hfirst hne
      · exact List.mem_append_right _ he

theorem mem_removeIf {pred : T → Bool} {e : Nat × T} (he : e ∈ s.elems) (hpred : ¬ pred e.2) :
    e ∈ (s.removeIf pred).2.elems := by
  refine List.mem_filter.mpr ⟨he, ?_⟩
  simpa using hpred

theorem mem_assign {values : List T} (hi : i ∈ s.slots) (hkept : i ∉ s.slots.drop values.length) :
    ∃ y, (i, y) ∈ (s.assign values).elems := by
  have htake : i ∈ s.slots.take values.length := by
    rw [← List.take_append_drop values.length s.slots] at hi
    exact (List.mem_append.mp hi).resolve_right hkept
  obtain ⟨k, hk, rfl⟩ := List.mem_iff_getElem.mp htake
  rw [List.length_take] at hk
  refine ⟨values[k], ?_⟩
  refine List.mem_iff_getElem.mpr ⟨k, ?_, ?_⟩
  · rw [assign, List.length_zip, List.length_append]
    omega
  · simp only [assign, List.getElem_zip, List.getElem_take]
    rw [List.getElem_append_left]

variable {shared shared' rest rest' : List (Nat × T)} {unused free : List Nat}

theorem assign_grow (hshared : shared.length = shared'.length)
    (hunused : unused.length = rest'.length) :
    assign ⟨shared, unused ++ free⟩ ((shared' ++ rest').map Prod.snd) =
      { elems := (shared.map Prod.fst).zip (shared'.map Prod.snd) ++
          unused.zip (rest'.map Prod.snd)
        free := free } := by
  have hslots : (shared.map Prod.fst).length = (shared'.map Prod.snd).length := by
    rw [List.length_map, List.length_map, hshared]
  have hunused' : unused.length = (rest'.map Prod.snd).length := by
    rw [List.length_map, hunused]
  have hnone : (unused ++ free).zip (rest'.map Prod.snd) = unused.zip (rest'.map Prod.snd) := by
    have hzip : (unused ++ free).zip (rest'.map Prod.snd ++ []) =
        unused.zip (rest'.map Prod.snd) ++ free.zip [] := List.zip_append hunused'
    rwa [List.append_nil, List.zip_nil_right, List.append_nil] at hzip
  have hkept : (shared.map Prod.fst).drop ((shared' ++ rest').map Prod.snd).length = [] := by
    apply List.drop_eq_nil_of_le
    rw [hslots, List.map_append, List.length_append]
    exact Nat.le_add_right _ _
  have hused : ((shared' ++ rest').map Prod.snd).length - (shared.map Prod.fst).length =
      unused.length := by
    rw [hslots, List.map_append, List.length_append, Nat.add_sub_cancel_left, hunused']
  rw [assign, slots, hkept, hused, List.drop_left, List.map_append, List.zip_append hslots, hnone]
  rfl

theorem assign_shrink (hshared : shared.length = shared'.length) :
    assign ⟨shared ++ rest, free⟩ (shared'.map Prod.snd) =
      { elems := (shared.map Prod.fst).zip (shared'.map Prod.snd)
        free := (rest.map Prod.fst).reverse ++ free } := by
  have hslots : (shared.map Prod.fst).length = (shared'.map Prod.snd).length := by
    rw [List.length_map, List.length_map, hshared]
  have hzip : (shared.map Prod.fst ++ (rest.map Prod.fst ++ free)).zip
      (shared'.map Prod.snd ++ []) = (shared.map Prod.fst).zip (shared'.map Prod.snd) ++
      (rest.map Prod.fst ++ free).zip [] := List.zip_append hslots
  rw [List.append_nil, List.zip_nil_right, List.append_nil] at hzip
  have hnone : (shared'.map Prod.snd).length - ((shared ++ rest).map Prod.fst).length = 0 := by
    rw [← hslots, List.map_append, List.length_append]
    omega
  rw [assign, slots, hnone, List.drop_zero, List.map_append, List.append_assoc, hzip, ← hslots,
    List.drop_left]

theorem ring_perm (capacity : Nat) (front rest : List (Nat × T)) (e : Nat × T) :
    (capacity :: (front ++ e :: rest).map Prod.fst).Perm
      (e.1 :: capacity :: (front ++ rest).map Prod.fst) := by
  rw [List.map_append, List.map_cons, List.map_append]
  exact (List.perm_middle :
    (capacity :: front.map Prod.fst ++ e.1 :: rest.map Prod.fst).Perm _)

structure Stored (capacity : Nat) (data : Nat → Option T) (elems : List (Nat × T))
    (free : List Nat) : Prop where
  cover : (elems.map Prod.fst ++ free).Perm (List.range capacity)
  live : ∀ e ∈ elems, data e.1 = some e.2
  raw : ∀ i ∈ free, data i = none

namespace Stored

variable {data : Nat → Option T} {elems front : List (Nat × T)} {e : Nat × T}

theorem nodup (h : Stored capacity data elems free) : (elems.map Prod.fst ++ free).Nodup :=
  h.cover.nodup_iff.mpr List.nodup_range

theorem mem_iff (h : Stored capacity data elems free) :
    i ∈ elems.map Prod.fst ∨ i ∈ free ↔ i < capacity := by
  rw [← List.mem_append, h.cover.mem_iff, List.mem_range]

theorem slot_lt (h : Stored capacity data elems free) (hi : i ∈ elems.map Prod.fst) :
    i < capacity :=
  h.mem_iff.mp (Or.inl hi)

theorem free_lt (h : Stored capacity data elems free) (hi : i ∈ free) : i < capacity :=
  h.mem_iff.mp (Or.inr hi)

theorem not_free (h : Stored capacity data elems free) (hi : i ∈ elems.map Prod.fst) :
    i ∉ free :=
  fun hfree => List.disjoint_of_nodup_append h.nodup hi hfree

theorem ring_nodup (h : Stored capacity data elems free) :
    (capacity :: elems.map Prod.fst).Nodup := by
  refine List.nodup_cons.mpr ⟨fun hi => ?_, h.nodup.of_append_left⟩
  exact Nat.lt_irrefl _ (h.slot_lt hi)

theorem ring_not_free (h : Stored capacity data elems free)
    (hi : i ∈ capacity :: elems.map Prod.fst) : i ∉ free := by
  rcases List.mem_cons.mp hi with rfl | hi
  · exact fun hfree => Nat.lt_irrefl _ (h.free_lt hfree)
  · exact h.not_free hi

theorem ne_of_free {j : Nat} (h : Stored capacity data elems free)
    (hi : i ∈ capacity :: elems.map Prod.fst) (hj : j ∈ free) : j ≠ i := by
  rintro rfl
  exact h.ring_not_free hi hj

theorem length_add (h : Stored capacity data elems free) :
    elems.length + free.length = capacity := by
  have hlength := h.cover.length_eq
  rwa [List.length_append, List.length_map, List.length_range] at hlength

theorem length_le (h : Stored capacity data elems free) : elems.length ≤ capacity := by
  have hlength := h.length_add
  omega

theorem slot_notMem (h : Stored capacity data (front ++ e :: rest) free) :
    e.1 ∉ capacity :: (front ++ rest).map Prod.fst :=
  (List.nodup_cons.mp ((ring_perm capacity front rest e).nodup_iff.mp h.ring_nodup)).1

theorem insert {new : Nat} (h : Stored capacity data (front ++ rest) (new :: free)) :
    Stored capacity (Function.update data new (some x)) (front ++ (new, x) :: rest) free where
  cover := by
    have hcover := h.cover
    rw [List.map_append, List.append_assoc] at hcover
    rw [List.map_append, List.map_cons, List.append_assoc, List.cons_append]
    refine List.Perm.trans ?_ hcover
    exact List.Perm.append_left _ List.perm_middle.symm
  live := by
    have hkept : ∀ e ∈ front ++ rest, Function.update data new (some x) e.1 = some e.2 := by
      intro e he
      rw [Function.update_of_ne, h.live e he]
      rintro rfl
      exact h.not_free (List.mem_map_of_mem he) List.mem_cons_self
    intro e he
    rcases List.mem_append.mp he with he | he
    · exact hkept e (List.mem_append_left _ he)
    · rcases List.mem_cons.mp he with rfl | he
      · exact Function.update_self ..
      · exact hkept e (List.mem_append_right _ he)
  raw := by
    intro i hi
    obtain ⟨hnew, -⟩ := List.nodup_cons.mp h.nodup.of_append_right
    rw [Function.update_of_ne (ne_of_mem_of_not_mem hi hnew)]
    exact h.raw i (List.mem_cons_of_mem _ hi)

theorem live_update (h : Stored capacity data (front ++ e :: rest) free) {y : Option T} :
    ∀ e' ∈ front ++ rest, Function.update data e.1 y e'.1 = some e'.2 := by
  intro e' he
  have hkept : e' ∈ front ++ e :: rest := List.mem_append.mpr
    ((List.mem_append.mp he).imp_right (List.mem_cons_of_mem e))
  rw [Function.update_of_ne, h.live e' hkept]
  intro heq
  exact h.slot_notMem (List.mem_cons_of_mem _ (heq ▸ List.mem_map_of_mem he))

theorem erase (h : Stored capacity data (front ++ e :: rest) free) :
    Stored capacity (Function.update data e.1 none) (front ++ rest) (e.1 :: free) where
  cover := by
    have hcover := h.cover
    rw [List.map_append, List.map_cons, List.append_assoc, List.cons_append] at hcover
    rw [List.map_append, List.append_assoc]
    refine List.Perm.trans ?_ hcover
    exact List.Perm.append_left _ List.perm_middle
  live := h.live_update
  raw := by
    intro i hi
    rcases List.mem_cons.mp hi with rfl | hi
    · exact Function.update_self ..
    · rw [Function.update_of_ne, h.raw i hi]
      exact h.ne_of_free (List.mem_cons_of_mem _ (List.mem_map_of_mem (by simp))) hi

theorem store (h : Stored capacity data (front ++ e :: rest) free) :
    Stored capacity (Function.update data e.1 (some x)) (front ++ (e.1, x) :: rest) free where
  cover := by
    have hcover := h.cover
    rw [List.map_append, List.map_cons] at hcover ⊢
    exact hcover
  live := by
    intro e' he
    rcases List.mem_append.mp he with he | he
    · exact h.live_update e' (List.mem_append_left _ he)
    · rcases List.mem_cons.mp he with rfl | he
      · exact Function.update_self ..
      · exact h.live_update e' (List.mem_append_right _ he)
  raw := by
    intro i hi
    rw [Function.update_of_ne, h.raw i hi]
    exact h.ne_of_free (List.mem_cons_of_mem _ (List.mem_map_of_mem (by simp))) hi

theorem empty (hraw : ∀ i < capacity, data i = none) :
    Stored capacity data [] (List.range capacity) where
  cover := List.Perm.refl _
  live := fun _ he => absurd he List.not_mem_nil
  raw := fun i hi => hraw i (List.mem_range.mp hi)

theorem raw_of_empty (h : Stored capacity data [] free) : ∀ i < capacity, data i = none := by
  intro i hi
  rcases h.mem_iff.mpr hi with hmem | hmem
  · cases hmem
  · exact h.raw i hmem

end Stored

end SlotSeq

end Iceoryx.Hoofs
