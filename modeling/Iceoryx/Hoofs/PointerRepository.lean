import Mathlib.Algebra.Group.Nat.Defs
import Mathlib.Data.List.Range
import Mathlib.Logic.Function.Basic
import Iceoryx.Lib.Run

/-! `rp::PointerRepository` and `rp::BaseRelativePointer`: which registered memory
segment an address lies in, and how far behind its start.  Pointers are
addresses, `nullptr` is `0`. -/

namespace Iceoryx.Hoofs

def addressRange : Nat := 2 ^ 64

/-- The ids are `uint64_t`, and `capacity` is a template parameter of that
type. -/
structure PointerRepository where
  capacity : Nat
  basePtr : Nat → Nat
  endPtr : Nat → Nat
  maxRegistered : Nat
  representable : capacity < addressRange

namespace PointerRepository

def init (capacity : Nat) (h : capacity < addressRange) : PointerRepository where
  capacity := capacity
  basePtr := fun _ => 0
  endPtr := fun _ => 0
  maxRegistered := 0
  representable := h

def maxId (r : PointerRepository) : Nat := r.capacity - 1

def minId : Nat := 1

def invalidId : Nat := addressRange - 1

def enter (r : PointerRepository) (id ptr size : Nat) : PointerRepository :=
  { r with
    basePtr := Function.update r.basePtr id ptr
    endPtr := Function.update r.endPtr id ((ptr + size + addressRange - 1) % addressRange)
    maxRegistered := if id > r.maxRegistered then id else r.maxRegistered }

def registerPtrWithId (r : PointerRepository) (id ptr size : Nat) : Bool × PointerRepository :=
  if id > r.maxId then (false, r)
  else if r.basePtr id = 0 then (true, r.enter id ptr size)
  else (false, r)

def registerPtr (r : PointerRepository) (ptr size : Nat) : Nat × PointerRepository :=
  match (List.range' 1 r.maxId).find? fun id => r.basePtr id = 0 with
  | some id => (id, r.enter id ptr size)
  | none => (invalidId, r)

def unregisterPtr (r : PointerRepository) (id : Nat) : Bool × PointerRepository :=
  if id ≤ r.maxId ∧ id ≥ minId ∧ r.basePtr id ≠ 0 then
    (true, { r with basePtr := Function.update r.basePtr id 0 })
  else (false, r)

def unregisterAll (r : PointerRepository) : PointerRepository :=
  { r with basePtr := fun _ => 0, maxRegistered := 0 }

def getBasePtr (r : PointerRepository) (id : Nat) : Nat :=
  if id ≤ r.maxId ∧ id ≥ minId then r.basePtr id else 0

def searchId (r : PointerRepository) (ptr : Nat) : Nat :=
  ((List.range' 1 r.maxRegistered).find? fun id =>
    ptr ≥ r.basePtr id ∧ ptr ≤ r.endPtr id).getD 0

end PointerRepository

structure BaseRelativePointer where
  id : Nat
  offset : Nat
  deriving DecidableEq, Repr

namespace BaseRelativePointer

def nullPointerId : Nat := addressRange - 1

def nullPointerOffset : Nat := addressRange - 1

def searchId (r : PointerRepository) (ptr : Nat) : Nat :=
  if ptr = 0 then nullPointerId else r.searchId ptr

def getOffset (r : PointerRepository) (id ptr : Nat) : Nat :=
  if id = nullPointerId then nullPointerOffset
  else (ptr + addressRange - r.getBasePtr id) % addressRange

def getPtr (r : PointerRepository) (id offset : Nat) : Nat :=
  if offset = nullPointerOffset then 0
  else (offset + r.getBasePtr id) % addressRange

def ofPtr (r : PointerRepository) (ptr : Nat) : BaseRelativePointer :=
  let id := searchId r ptr
  { id := id, offset := getOffset r id ptr }

end BaseRelativePointer

/-- A memory segment: neither empty nor at `nullptr`, and inside the address
space. -/
structure Segment where
  base : Nat
  size : Nat
  positive : 0 < base
  nonempty : 0 < size
  inside : base + size ≤ addressRange

namespace Segment

def Contains (s : Segment) (p : Nat) : Prop := s.base ≤ p ∧ p < s.base + s.size

instance (s : Segment) (p : Nat) : Decidable (s.Contains p) :=
  inferInstanceAs (Decidable (_ ∧ _))

def Apart (s t : Segment) : Prop := s.base + s.size ≤ t.base ∨ t.base + t.size ≤ s.base

instance (s t : Segment) : Decidable (s.Apart t) := inferInstanceAs (Decidable (_ ∨ _))

theorem Apart.not_contains {s t : Segment} (h : s.Apart t) {p : Nat} (hs : s.Contains p) :
    ¬ t.Contains p := by
  unfold Apart Contains at *
  omega

theorem Apart.symm {s t : Segment} (h : s.Apart t) : t.Apart s := Or.symm h

end Segment

namespace PointerRepository

inductive Op
  | registerPtr (s : Segment)
  | registerPtrWithId (id : Nat) (s : Segment)
  | unregisterPtr (id : Nat)
  | unregisterAll

structure Tracked where
  repository : PointerRepository
  segments : Nat → Option Segment

namespace Tracked

def start (capacity : Nat) (h : capacity < addressRange) : Tracked where
  repository := init capacity h
  segments := fun _ => none

def exec (t : Tracked) : Op → Tracked
  | .registerPtr s =>
    let (id, r) := t.repository.registerPtr s.base s.size
    if id = invalidId then { t with repository := r }
    else { repository := r, segments := Function.update t.segments id (some s) }
  | .registerPtrWithId id s =>
    let (registered, r) := t.repository.registerPtrWithId id s.base s.size
    if registered then { repository := r, segments := Function.update t.segments id (some s) }
    else { t with repository := r }
  | .unregisterPtr id =>
    let (unregistered, r) := t.repository.unregisterPtr id
    if unregistered then { repository := r, segments := Function.update t.segments id none }
    else { t with repository := r }
  | .unregisterAll =>
    { repository := t.repository.unregisterAll, segments := fun _ => none }

def Disjoint (t : Tracked) : Prop :=
  ∀ id id' s s', t.segments id = some s → t.segments id' = some s' → id ≠ id' → s.Apart s'

inductive Reached (capacity : Nat) : Tracked → Prop
  | start (h : capacity < addressRange) : Reached capacity (start capacity h)
  | exec {t : Tracked} (op : Op) : Reached capacity t → (t.exec op).Disjoint →
    Reached capacity (t.exec op)

/-- The fields say which segments are registered.  Of the end of an entry that is
not registered nothing is known. -/
structure Ok (t : Tracked) : Prop where
  id_le : ∀ {id s}, t.segments id = some s → id ≤ t.repository.maxId
  base : ∀ {id s}, t.segments id = some s → t.repository.basePtr id = s.base
  last : ∀ {id s}, t.segments id = some s → t.repository.endPtr id + 1 = s.base + s.size
  mark : ∀ {id s}, t.segments id = some s → id ≤ t.repository.maxRegistered
  free : ∀ {id}, t.segments id = none → t.repository.basePtr id = 0
  disjoint : t.Disjoint

variable {t : Tracked} {capacity : Nat}

theorem endPtr_enter (s : Segment) :
    (s.base + s.size + addressRange - 1) % addressRange + 1 = s.base + s.size := by
  have hpos := s.positive
  have hinside := s.inside
  rw [show s.base + s.size + addressRange - 1 = s.base + s.size - 1 + addressRange by omega,
    Nat.add_mod_right, Nat.mod_eq_of_lt (by omega)]
  omega

def enter (t : Tracked) (id : Nat) (s : Segment) : Tracked where
  repository := t.repository.enter id s.base s.size
  segments := Function.update t.segments id (some s)

theorem Ok.enter {id : Nat} {s : Segment} (h : t.Ok) (hid : id ≤ t.repository.maxId)
    (hdisjoint : (t.enter id s).Disjoint) : (t.enter id s).Ok := by
  have hmark : t.repository.maxRegistered ≤ (t.repository.enter id s.base s.size).maxRegistered ∧
      id ≤ (t.repository.enter id s.base s.size).maxRegistered := by
    simp only [PointerRepository.enter]
    split <;> omega
  have hsplit : ∀ {x u}, Function.update t.segments id (some s) x = some u →
      (x = id ∧ u = s) ∨ (x ≠ id ∧ t.segments x = some u) := by
    intro x u hx
    by_cases hxi : x = id
    · subst hxi
      rw [Function.update_self] at hx
      exact Or.inl ⟨rfl, (Option.some.inj hx).symm⟩
    · rw [Function.update_of_ne hxi] at hx
      exact Or.inr ⟨hxi, hx⟩
  refine ⟨?_, ?_, ?_, ?_, ?_, hdisjoint⟩
  · intro x u hx
    rcases hsplit hx with ⟨rfl, rfl⟩ | ⟨_, hx⟩
    · exact hid
    · exact h.id_le hx
  · intro x u hx
    simp only [Tracked.enter, PointerRepository.enter]
    rcases hsplit hx with ⟨rfl, rfl⟩ | ⟨hne, hx⟩
    · rw [Function.update_self]
    · rw [Function.update_of_ne hne]
      exact h.base hx
  · intro x u hx
    simp only [Tracked.enter, PointerRepository.enter]
    rcases hsplit hx with ⟨rfl, rfl⟩ | ⟨hne, hx⟩
    · rw [Function.update_self]
      exact endPtr_enter u
    · rw [Function.update_of_ne hne]
      exact h.last hx
  · intro x u hx
    rcases hsplit hx with ⟨rfl, rfl⟩ | ⟨_, hx⟩
    · exact hmark.2
    · exact (h.mark hx).trans hmark.1
  · intro x hx
    have hne : x ≠ id := by
      rintro rfl
      simp [Tracked.enter] at hx
    simp only [Tracked.enter, PointerRepository.enter, Function.update_of_ne hne] at hx ⊢
    exact h.free hx

theorem registerPtr_cases (r : PointerRepository) (ptr size : Nat) :
    (∃ id, id ≤ r.maxId ∧ id ≠ invalidId ∧ r.registerPtr ptr size = (id, r.enter id ptr size)) ∨
      r.registerPtr ptr size = (invalidId, r) := by
  unfold PointerRepository.registerPtr
  split
  · next id hfind =>
    obtain ⟨_, hmem, _⟩ := List.find?_range'_eq_some.mp hfind
    have hlt := r.representable
    rw [List.mem_range'_1] at hmem
    refine Or.inl ⟨id, by omega, ?_, rfl⟩
    unfold invalidId maxId at *
    omega
  · exact Or.inr rfl

theorem exec_cases (t : Tracked) (op : Op) :
    t.exec op = t ∨ (∃ id s, id ≤ t.repository.maxId ∧ t.exec op = t.enter id s) ∨
      (∃ id, t.exec op =
        { repository := { t.repository with basePtr := Function.update t.repository.basePtr id 0 }
          segments := Function.update t.segments id none }) ∨
      t.exec op = { repository := t.repository.unregisterAll, segments := fun _ => none } := by
  cases op with
  | registerPtr s =>
    rcases registerPtr_cases t.repository s.base s.size with ⟨id, hid, hvalid, heq⟩ | heq
    · right
      left
      refine ⟨id, s, hid, ?_⟩
      simp only [Tracked.exec, heq, hvalid, if_false]
      rfl
    · left
      simp [Tracked.exec, heq]
  | registerPtrWithId id s =>
    simp only [Tracked.exec, PointerRepository.registerPtrWithId]
    by_cases hid : id > t.repository.maxId
    · left
      simp [hid]
    · by_cases hfree : t.repository.basePtr id = 0
      · right
        left
        refine ⟨id, s, by omega, ?_⟩
        simp only [hid, hfree, if_true, if_false]
        rfl
      · left
        simp [hid, hfree]
  | unregisterPtr id =>
    simp only [Tracked.exec, PointerRepository.unregisterPtr]
    split
    · right
      right
      left
      exact ⟨id, rfl⟩
    · left
      rfl
  | unregisterAll =>
    right
    right
    right
    rfl

theorem Ok.exec {op : Op} (h : t.Ok) (hdisjoint : (t.exec op).Disjoint) : (t.exec op).Ok := by
  rcases exec_cases t op with heq | ⟨id, s, hid, heq⟩ | ⟨id, heq⟩ | heq
  · rw [heq]
    exact h
  · rw [heq] at hdisjoint ⊢
    exact h.enter hid hdisjoint
  · rw [heq] at hdisjoint ⊢
    have hsplit : ∀ {x u}, Function.update t.segments id none x = some u →
        x ≠ id ∧ t.segments x = some u := by
      intro x u hx
      by_cases hxi : x = id
      · subst hxi
        simp at hx
      · rw [Function.update_of_ne hxi] at hx
        exact ⟨hxi, hx⟩
    refine ⟨?_, ?_, ?_, ?_, ?_, hdisjoint⟩
    · exact fun hx => h.id_le (hsplit hx).2
    · intro x u hx
      obtain ⟨hne, hx⟩ := hsplit hx
      simp only [Function.update_of_ne hne]
      exact h.base hx
    · exact fun hx => h.last (hsplit hx).2
    · exact fun hx => h.mark (hsplit hx).2
    · intro x hx
      by_cases hxi : x = id
      · subst hxi
        simp
      · simp only [Function.update_of_ne hxi] at hx ⊢
        exact h.free hx
  · rw [heq] at hdisjoint ⊢
    exact ⟨nofun, nofun, nofun, nofun, fun _ => rfl, hdisjoint⟩

theorem Reached.ok (h : Reached capacity t) : t.Ok := by
  induction h with
  | start h =>
    exact ⟨nofun, nofun, nofun, nofun, fun _ => rfl, fun _ _ _ _ h => nomatch h⟩
  | exec op _ hdisjoint ih => exact ih.exec hdisjoint

structure Exact (t : Tracked) (p : Nat) : Prop where
  found : ∀ {id s}, t.segments id = some s → s.Contains p → t.repository.searchId p = id
  outside : (∀ id s, t.segments id = some s → ¬ s.Contains p) → t.repository.searchId p = 0
  pointer : ∀ {id s}, t.segments id = some s → s.Contains p →
    BaseRelativePointer.ofPtr t.repository p = { id := id, offset := p - s.base }

/-- An entry that is not registered, up to the high-water mark and before the
segment of `p`, whose leftover end is not below `p`. -/
def Misled (t : Tracked) (p : Nat) : Prop :=
  ∃ i, 1 ≤ i ∧ i ≤ t.repository.maxRegistered ∧ t.segments i = none ∧
    p ≤ t.repository.endPtr i ∧
    ∀ j s, t.segments j = some s → s.Contains p → j = 0 ∨ i < j

def Hit (r : PointerRepository) (p i : Nat) : Prop := p ≥ r.basePtr i ∧ p ≤ r.endPtr i

theorem searchId_eq {r : PointerRepository} {p i : Nat} (hpos : 1 ≤ i) (hle : i ≤ r.maxRegistered)
    (hit : Hit r p i) (hfirst : ∀ j, 1 ≤ j → j < i → ¬ Hit r p j) : r.searchId p = i := by
  unfold searchId
  rw [List.find?_range'_eq_some.mpr ⟨by simpa [Hit] using hit, ?_, ?_⟩]
  · rfl
  · rw [List.mem_range'_1]
    omega
  · intro j hj hji
    have hmiss := hfirst j hj hji
    unfold Hit at hmiss
    simp only [Bool.not_eq_true', decide_eq_false_iff_not]
    exact hmiss

theorem searchId_eq_zero {r : PointerRepository} {p : Nat}
    (h : ∀ i, 1 ≤ i → i ≤ r.maxRegistered → ¬ Hit r p i) : r.searchId p = 0 := by
  unfold searchId
  rw [List.find?_eq_none.mpr ?_]
  · rfl
  · intro i hi
    rw [List.mem_range'_1] at hi
    have := h i hi.1 (by omega)
    unfold Hit at this
    simpa using this

theorem searchId_le {r : PointerRepository} {p i : Nat} (hpos : 1 ≤ i)
    (hle : i ≤ r.maxRegistered) (hit : Hit r p i) : 1 ≤ r.searchId p ∧ r.searchId p ≤ i := by
  unfold searchId
  cases hfind : (List.range' 1 r.maxRegistered).find? fun id =>
      decide (p ≥ r.basePtr id ∧ p ≤ r.endPtr id) with
  | none =>
    have hmem : i ∈ List.range' 1 r.maxRegistered := by
      rw [List.mem_range'_1]
      omega
    exact absurd (by simpa [Hit] using hit) (List.find?_eq_none.mp hfind i hmem)
  | some j =>
    obtain ⟨_, hmem, hfirst⟩ := List.find?_range'_eq_some.mp hfind
    rw [List.mem_range'_1] at hmem
    refine ⟨hmem.1, ?_⟩
    by_contra hlt
    have := hfirst i hpos (by simpa using hlt)
    unfold Hit at hit
    simp [hit] at this

theorem Ok.hit_iff (h : t.Ok) {p i : Nat} {s : Segment} (hs : t.segments i = some s) :
    Hit t.repository p i ↔ s.Contains p := by
  have hlast := h.last hs
  rw [Hit, h.base hs, Segment.Contains]
  omega

theorem Ok.hit_free_iff (h : t.Ok) {p i : Nat} (hs : t.segments i = none) :
    Hit t.repository p i ↔ p ≤ t.repository.endPtr i := by
  rw [Hit, h.free hs]
  simp

theorem Ok.unique (h : t.Ok) {p i j : Nat} {s u : Segment} (hs : t.segments i = some s)
    (hu : t.segments j = some u) (hps : s.Contains p) (hpu : u.Contains p) : i = j := by
  by_contra hne
  exact (h.disjoint i j s u hs hu hne).not_contains hps hpu

theorem Ok.ofPtr_eq (h : t.Ok) {p id : Nat} {s : Segment} (hs : t.segments id = some s)
    (hp : s.Contains p) (hpos : 1 ≤ id) (hfound : t.repository.searchId p = id) :
    BaseRelativePointer.ofPtr t.repository p = { id := id, offset := p - s.base } := by
  have hid := h.id_le hs
  have hrepresentable := t.repository.representable
  have hinside := s.inside
  have hbase := s.positive
  obtain ⟨hbegin, hend⟩ := hp
  have hnonnull : p ≠ 0 := by omega
  have hvalid : id ≠ BaseRelativePointer.nullPointerId := by
    unfold BaseRelativePointer.nullPointerId maxId at *
    omega
  have hgetBase : t.repository.getBasePtr id = s.base := by
    rw [getBasePtr, if_pos ⟨hid, hpos⟩, h.base hs]
  have hoffset : (p + addressRange - s.base) % addressRange = p - s.base := by
    rw [show p + addressRange - s.base = p - s.base + addressRange by omega, Nat.add_mod_right,
      Nat.mod_eq_of_lt (by omega)]
  simp only [BaseRelativePointer.ofPtr, BaseRelativePointer.searchId, hnonnull, if_false, hfound,
    BaseRelativePointer.getOffset, hvalid, hgetBase, hoffset]

theorem ofPtr_of_searchId_eq_zero {r : PointerRepository} {p : Nat} (hnonnull : p ≠ 0)
    (hp : p < addressRange) (h : r.searchId p = 0) :
    BaseRelativePointer.ofPtr r p = { id := 0, offset := p } := by
  have hbase : r.getBasePtr 0 = 0 := if_neg (by simp [minId])
  have hvalid : (0 : Nat) ≠ BaseRelativePointer.nullPointerId := by
    unfold BaseRelativePointer.nullPointerId addressRange
    omega
  have hoffset : (p + addressRange - 0) % addressRange = p := by
    rw [Nat.sub_zero, Nat.add_mod_right, Nat.mod_eq_of_lt hp]
  simp only [BaseRelativePointer.ofPtr, BaseRelativePointer.searchId, hnonnull, if_false, h,
    BaseRelativePointer.getOffset, hvalid, hbase, hoffset]

theorem Ok.exact (h : t.Ok) {p : Nat} (hmisled : ¬ t.Misled p)
    (hzero : ∀ s, t.segments 0 = some s → ¬ s.Contains p) : t.Exact p := by
  have hfound : ∀ {id s}, t.segments id = some s → s.Contains p →
      1 ≤ id ∧ t.repository.searchId p = id := by
    intro id s hs hp
    have hpos : 1 ≤ id := by
      rcases Nat.eq_zero_or_pos id with rfl | hpos
      · exact absurd hp (hzero s hs)
      · exact hpos
    refine ⟨hpos, searchId_eq hpos (h.mark hs) ((h.hit_iff hs).mpr hp) ?_⟩
    intro j hj hlt hit
    cases hu : t.segments j with
    | some u =>
      have := h.unique hs hu hp ((h.hit_iff hu).mp hit)
      omega
    | none =>
      refine hmisled ⟨j, hj, hlt.le.trans (h.mark hs), hu, (h.hit_free_iff hu).mp hit, ?_⟩
      intro k u hk hpu
      rw [← h.unique hs hk hp hpu]
      exact Or.inr hlt
  refine ⟨fun hs hp => (hfound hs hp).2, fun hnone => searchId_eq_zero fun i hi hle hit => ?_,
    fun hs hp => h.ofPtr_eq hs hp (hfound hs hp).1 (hfound hs hp).2⟩
  cases hu : t.segments i with
  | some u => exact hnone i u hu ((h.hit_iff hu).mp hit)
  | none =>
    exact hmisled ⟨i, hi, hle, hu, (h.hit_free_iff hu).mp hit,
      fun j s hs hp => absurd hp (hnone j s hs)⟩

theorem Exact.not_zero {p : Nat} (h : t.Exact p) {s : Segment} (hs : t.segments 0 = some s) :
    ¬ s.Contains p := by
  intro hp
  have hbase := s.positive
  have hinside := s.inside
  have hfound := h.found hs hp
  have hpointer := h.pointer hs hp
  obtain ⟨hbegin, hend⟩ := hp
  rw [ofPtr_of_searchId_eq_zero (by omega) (by omega) hfound] at hpointer
  injection hpointer with _ hoffset
  omega

theorem Exact.not_misled (hok : t.Ok) {p : Nat} (h : t.Exact p) : ¬ t.Misled p := by
  rintro ⟨i, hpos, hle, hfree, hend, hbefore⟩
  obtain ⟨hone, hlast⟩ := searchId_le hpos hle ((hok.hit_free_iff hfree).mpr hend)
  by_cases hany : ∃ id s, t.segments id = some s ∧ s.Contains p
  · obtain ⟨id, s, hs, hp⟩ := hany
    have hfound := h.found hs hp
    rcases hbefore id s hs hp with rfl | hlt
    · exact h.not_zero hs hp
    · omega
  · have := h.outside fun id s hs hp => hany ⟨id, s, hs, hp⟩
    omega

/-- After every run: an address is resolved to its segment exactly when no
leftover entry comes before, and its segment was not registered under the
reserved id `0`. -/
theorem exact_iff (h : Reached capacity t) (p : Nat) :
    t.Exact p ↔ ¬ t.Misled p ∧ ∀ s, t.segments 0 = some s → ¬ s.Contains p := by
  constructor
  · intro hexact
    exact ⟨hexact.not_misled h.ok, fun s hs => hexact.not_zero hs⟩
  · rintro ⟨hmisled, hzero⟩
    exact h.ok.exact hmisled hzero

def lowSegment : Segment where
  base := 256
  size := 256
  positive := by decide
  nonempty := by decide
  inside := by decide +kernel

def highSegment : Segment where
  base := 4096
  size := 4096
  positive := by decide
  nonempty := by decide
  inside := by decide +kernel

theorem Disjoint.enter (h : t.Disjoint) {id : Nat} {s : Segment}
    (hs : ∀ j u, t.segments j = some u → s.Apart u) : (t.enter id s).Disjoint := by
  intro i j u v hu hv hne
  simp only [Tracked.enter, Function.update_apply] at hu hv
  split at hu
  · cases hu
    split at hv
    · omega
    · exact hs j v hv
  · split at hv
    · cases hv
      exact (hs i u hu).symm
    · exact h i j u v hu hv hne

def oneSegment : Tracked := (start 10000 (by decide +kernel)).exec (.registerPtr highSegment)

theorem oneSegment_segments (id : Nat) :
    oneSegment.segments id = if id = 1 then some highSegment else none := by
  have h : oneSegment.segments = Function.update (fun _ => none) 1 (some highSegment) := rfl
  rw [h, Function.update_apply]

theorem oneSegment_reached : Reached 10000 oneSegment := by
  have henter : oneSegment = (start 10000 (by decide +kernel)).enter 1 highSegment := rfl
  refine Reached.exec _ (Reached.start _) ?_
  change oneSegment.Disjoint
  rw [henter]
  refine Disjoint.enter ?_ ?_
  · exact (Reached.start _).ok.disjoint
  · intro j u h
    cases h

def leftover : Tracked :=
  (oneSegment.exec (.registerPtr lowSegment)).exec (.unregisterPtr 1)

theorem leftover_reached : Reached 10000 leftover := by
  have htwo : (oneSegment.exec (.registerPtr lowSegment)).Disjoint := by
    have henter : oneSegment.exec (.registerPtr lowSegment) = oneSegment.enter 2 lowSegment := rfl
    rw [henter]
    refine Disjoint.enter oneSegment_reached.ok.disjoint fun j u hu => ?_
    rw [oneSegment_segments] at hu
    split at hu
    · cases hu
      decide
    · cases hu
  refine Reached.exec _ (Reached.exec _ oneSegment_reached htwo) ?_
  have hsub : ∀ i u, leftover.segments i = some u →
      (oneSegment.exec (.registerPtr lowSegment)).segments i = some u := by
    intro i u hu
    have h : leftover.segments =
        Function.update (oneSegment.exec (.registerPtr lowSegment)).segments 1 none := rfl
    rw [h, Function.update_apply] at hu
    split at hu
    · cases hu
    · exact hu
  intro i j u v hu hv hne
  exact htwo i j u v (hsub i u hu) (hsub j v hv) hne

theorem exact_iff_leftover : Reached 10000 leftover ∧
    (leftover.Exact 300 ↔ ¬ leftover.Misled 300 ∧
      ∀ s, leftover.segments 0 = some s → ¬ s.Contains 300) :=
  ⟨leftover_reached, exact_iff leftover_reached 300⟩

theorem leftover_claims_other_segment : Reached 10000 leftover ∧
    leftover.segments 2 = some lowSegment ∧ lowSegment.Contains 300 ∧
    leftover.repository.searchId 300 = 1 ∧ ¬ leftover.Exact 300 := by
  have hsegment : leftover.segments 2 = some lowSegment := rfl
  have hfound : leftover.repository.searchId 300 = 1 := rfl
  refine ⟨leftover_reached, hsegment, by decide, hfound, fun h => ?_⟩
  have := h.found hsegment (by decide)
  omega

end Tracked

end PointerRepository

end Iceoryx.Hoofs
