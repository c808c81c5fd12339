import Iceoryx.Hoofs.ObjectPool
import Iceoryx.Lib.Loop
import Iceoryx.Lib.Run

universe u

namespace Iceoryx.Hoofs

open Lib

structure CellInfo where
  isValid : Bool
  wasConstructed : Bool
  data : Option Nat
  deriving DecidableEq, Repr

structure RawObjectPool (T : Type u) where
  freeIndex : Nat
  size : Nat
  cellInfo : Nat → CellInfo
  first : Nat
  last : Nat
  objects : Nat → Option T

namespace RawObjectPool

variable {T : Type u} (capacity sizeofT fuel : Nat)

def init (first : Nat) : RawObjectPool T where
  freeIndex := 0
  size := 0
  cellInfo := fun _ => { isValid := false, wasConstructed := false, data := none }
  first := first
  last := first + (capacity - 1) * sizeofT
  objects := fun _ => none

def values (p : RawObjectPool T) (index : Nat) : Nat := p.first + index * sizeofT

def nextFreeBody (p : RawObjectPool T) (freeIndex : Nat) : Option (Nat ⊕ Nat) :=
  if (p.cellInfo freeIndex).isValid then some (.inl ((freeIndex + 1) % capacity))
  else some (.inr freeIndex)

/-- `none` inside stands for `NO_INDEX`.  The search has no bound of its own. -/
def nextFree (p : RawObjectPool T) : Option (Option Nat) :=
  if p.size ≥ capacity then some none
  else (loop (nextFreeBody capacity p) fuel p.freeIndex).map some

/-- What `reserve`, `construct` and `add` have in common; they differ in what they write into the
cell. -/
def acquire (write : Nat → RawObjectPool T → RawObjectPool T) (p : RawObjectPool T) :
    Option (Option Nat × RawObjectPool T) :=
  (nextFree capacity fuel p).map fun
    | none => (none, p)
    | some index =>
      (some index, { write index { p with freeIndex := index } with size := p.size + 1 })

def writeReserved (index : Nat) (p : RawObjectPool T) : RawObjectPool T :=
  { p with
    cellInfo := Function.update p.cellInfo index
      { p.cellInfo index with isValid := true, wasConstructed := false } }

def writeObject (t : T) (index : Nat) (p : RawObjectPool T) : RawObjectPool T :=
  { p with
    objects := Function.update p.objects (p.values sizeofT index) (some t)
    cellInfo := Function.update p.cellInfo index
      { isValid := true, wasConstructed := true, data := some (p.values sizeofT index) } }

def reserve (p : RawObjectPool T) : Option (Option Nat × RawObjectPool T) :=
  acquire capacity fuel writeReserved p

def construct (p : RawObjectPool T) (t : T) : Option (Option Nat × RawObjectPool T) :=
  acquire capacity fuel (writeObject sizeofT t) p

def add (p : RawObjectPool T) (element : T) : Option (Option Nat × RawObjectPool T) :=
  acquire capacity fuel (writeObject sizeofT element) p

def get (p : RawObjectPool T) (index : Nat) : Option Nat :=
  if (p.cellInfo index).isValid then (p.cellInfo index).data else none

def allocate (p : RawObjectPool T) : Option (Option Nat × RawObjectPool T) :=
  (reserve capacity fuel p).map fun
    | (none, p) => (none, p)
    | (some index, p) => (some (p.values sizeofT index), p)

def create (p : RawObjectPool T) (t : T) : Option (Option Nat × RawObjectPool T) :=
  (construct capacity sizeofT fuel p t).map fun
    | (none, p) => (none, p)
    | (some index, p) => (p.get index, p)

def insert (p : RawObjectPool T) (element : T) : Option (Option Nat × RawObjectPool T) :=
  (add capacity sizeofT fuel p element).map fun
    | (none, p) => (none, p)
    | (some index, p) => (p.get index, p)

def remove (p : RawObjectPool T) (index : Nat) (destruct : Bool) : Option (RawObjectPool T) :=
  if (p.cellInfo index).isValid then
    let freed : RawObjectPool T :=
      { p with
        cellInfo := Function.update p.cellInfo index { p.cellInfo index with isValid := false }
        size := p.size - 1 }
    match destruct, (p.cellInfo index).data with
    | false, _ => some freed
    | true, none => none
    | true, some data => some { freed with objects := Function.update p.objects data none }
  else some p

def pointerToIndex (p : RawObjectPool T) (ptr : Nat) : Option Nat :=
  if ptr < p.first ∨ ptr > p.last then none
  else if (ptr - p.first) % sizeofT ≠ 0 then none
  else
    let index := (ptr - p.first) / sizeofT
    match (p.cellInfo index).isValid, (p.cellInfo index).data with
    | true, some data => if data = ptr then some index else none
    | _, _ => some index

def freeAndDestruct (p : RawObjectPool T) (ptr : Nat) (destruct : Bool) :
    Option (RawObjectPool T) :=
  match p.pointerToIndex sizeofT ptr with
  | none => some p
  | some index => p.remove index destruct

def free (p : RawObjectPool T) (ptr : Nat) : Option (RawObjectPool T) :=
  match p.pointerToIndex sizeofT ptr with
  | none => some p
  | some index => p.remove index (p.cellInfo index).wasConstructed

def firstUsedFrom (p : RawObjectPool T) (i : Nat) : Nat :=
  if i < capacity then if (p.cellInfo i).isValid then i else firstUsedFrom p (i + 1) else capacity
  termination_by capacity - i

def begin (p : RawObjectPool T) : Nat := firstUsedFrom capacity p 0

def increment (p : RawObjectPool T) (index : Nat) : Nat := firstUsedFrom capacity p (index + 1)

theorem le_firstUsedFrom (p : RawObjectPool T) {i : Nat} (h : i ≤ capacity) :
    i ≤ firstUsedFrom capacity p i := by
  induction i using firstUsedFrom.induct capacity p with
  | case1 i hi hused => rw [firstUsedFrom, if_pos hi, if_pos hused]
  | case2 i hi hfree ih =>
    rw [firstUsedFrom, if_pos hi, if_neg hfree]
    exact (Nat.le_succ i).trans (ih hi)
  | case3 i hi => rwa [firstUsedFrom, if_neg hi]

def visitedFrom (p : RawObjectPool T) (index : Nat) : List Nat :=
  if index < capacity then index :: visitedFrom p (increment capacity p index) else []
  termination_by capacity - index
  decreasing_by
    have hle : index + 1 ≤ firstUsedFrom capacity p (index + 1) :=
      le_firstUsedFrom capacity p (by assumption)
    rw [increment]
    omega

def visited (p : RawObjectPool T) : List Nat := visitedFrom capacity p (begin capacity p)

def flags (p : RawObjectPool T) (index : Nat) : Option Unit :=
  if (p.cellInfo index).isValid then some () else none

structure Ok (base : Nat) (handedOut : List Nat) (p : RawObjectPool T) : Prop where
  first : p.first = base
  last : p.last = base + (capacity - 1) * sizeofT
  inRange : p.freeIndex < capacity
  size : p.size = handedOut.length
  handedOut : handedOut.Perm (usedCells capacity p.flags)
  data : ∀ i, i < capacity → ∀ a, (p.cellInfo i).data = some a → a = base + i * sizeofT
  constructed : ∀ i, i < capacity → (p.cellInfo i).wasConstructed = true →
    (p.cellInfo i).data.isSome

variable {capacity sizeofT fuel} {p p' : RawObjectPool T} {base i ptr : Nat} {handedOut : List Nat}

theorem isSome_flags (p : RawObjectPool T) (i : Nat) :
    (p.flags i).isSome = (p.cellInfo i).isValid := by
  unfold flags
  split
  · next h => rw [h]; rfl
  · next h => rw [Bool.not_eq_true] at h; rw [h]; rfl

def Ok.toObjectPool (h : p.Ok capacity sizeofT base handedOut) : ObjectPool Unit capacity where
  cells := p.flags
  freeIndex := p.freeIndex
  size := p.size
  counted := h.size.trans h.handedOut.length_eq
  inRange := h.inRange

namespace Ok

theorem mem_handedOut (h : p.Ok capacity sizeofT base handedOut) :
    i ∈ handedOut ↔ i < capacity ∧ (p.cellInfo i).isValid = true := by
  rw [h.handedOut.mem_iff, mem_usedCells, isSome_flags]

theorem nodup (h : p.Ok capacity sizeofT base handedOut) : handedOut.Nodup :=
  h.handedOut.nodup_iff.mpr nodup_usedCells

theorem values_eq (h : p.Ok capacity sizeofT base handedOut) (i : Nat) :
    p.values sizeofT i = base + i * sizeofT := by
  rw [values, h.first]

end Ok

theorem ok_init (hcapacity : 0 < capacity) (base : Nat) :
    (init capacity sizeofT base : RawObjectPool T).Ok capacity sizeofT base [] := by
  have hnone : usedCells capacity (init capacity sizeofT base : RawObjectPool T).flags = [] :=
    List.filter_eq_nil_iff.mpr fun _ _ => Bool.false_ne_true
  exact
    { first := rfl
      last := rfl
      inRange := hcapacity
      size := rfl
      handedOut := by rw [hnone]
      data := nofun
      constructed := nofun }

theorem loop_nextFreeBody {f n : Nat} (hf : f < capacity)
    (h : ((List.range n).map fun k => (f + k) % capacity).find? (fun i => (p.flags i).isNone) =
      some i) (hn : n ≤ fuel) : loop (nextFreeBody capacity p) fuel f = some i := by
  induction n generalizing f fuel with
  | zero => cases h
  | succ n ih =>
    obtain ⟨fuel, rfl⟩ : ∃ k, fuel = k + 1 := ⟨fuel - 1, by omega⟩
    rw [List.range_succ_eq_map, List.map_cons, Nat.add_zero, Nat.mod_eq_of_lt hf] at h
    cases hused : (p.cellInfo f).isValid with
    | false =>
      have hfree : (p.flags f).isNone = true := by rw [flags, hused]; rfl
      rw [List.find?_cons, hfree] at h
      cases h
      refine loop_leave ?_ (Nat.succ_pos fuel)
      rw [nextFreeBody, hused]
      rfl
    | true =>
      have hnot : (p.flags f).isNone = false := by rw [flags, hused]; rfl
      rw [List.find?_cons, hnot, List.map_map] at h
      have hshift : (fun k => (f + k) % capacity) ∘ Nat.succ =
          fun k => ((f + 1) % capacity + k) % capacity := by
        funext k
        rw [Nat.mod_add_mod, Function.comp_apply, Nat.succ_eq_add_one, Nat.add_assoc,
          Nat.add_comm 1 k]
      rw [hshift] at h
      have hnext : nextFreeBody capacity p f = some (.inl ((f + 1) % capacity)) := by
        rw [nextFreeBody, hused]
        rfl
      rw [loop_next hnext]
      exact ih (Nat.mod_lt _ (by omega)) h (Nat.le_of_succ_le_succ hn)

theorem Ok.nextFree_eq (h : p.Ok capacity sizeofT base handedOut) (hfuel : capacity ≤ fuel) :
    nextFree capacity fuel p = some h.toObjectPool.nextFree := by
  cases hnext : h.toObjectPool.nextFree with
  | none =>
    have hfull : p.size ≥ capacity := ObjectPool.nextFree_eq_none_iff.mp hnext
    rw [nextFree, if_pos hfull]
  | some i =>
    have hroom : ¬ h.toObjectPool.size ≥ capacity := by
      intro hfull
      rw [ObjectPool.nextFree_eq_none_iff.mpr hfull] at hnext
      cases hnext
    have hfind := hnext
    rw [ObjectPool.nextFree, if_neg hroom] at hfind
    have hroom : ¬ p.size ≥ capacity := hroom
    rw [nextFree, if_neg hroom, loop_nextFreeBody h.inRange hfind hfuel]
    rfl

structure Fills (sizeofT : Nat) (write : Nat → RawObjectPool T → RawObjectPool T) : Prop where
  first : ∀ i p, (write i p).first = p.first
  last : ∀ i p, (write i p).last = p.last
  freeIndex : ∀ i p, (write i p).freeIndex = p.freeIndex
  others : ∀ i j p, j ≠ i → (write i p).cellInfo j = p.cellInfo j
  isValid : ∀ i p, ((write i p).cellInfo i).isValid = true
  data : ∀ i p a, ((write i p).cellInfo i).data = some a →
    a = p.values sizeofT i ∨ (p.cellInfo i).data = some a
  constructed : ∀ i p, ((write i p).cellInfo i).wasConstructed = true →
    ((write i p).cellInfo i).data.isSome

theorem writeReserved_self (i : Nat) (p : RawObjectPool T) :
    (writeReserved i p).cellInfo i =
      { isValid := true, wasConstructed := false, data := (p.cellInfo i).data } :=
  Function.update_self _ _ _

theorem writeObject_self (t : T) (i : Nat) (p : RawObjectPool T) :
    (writeObject sizeofT t i p).cellInfo i =
      { isValid := true, wasConstructed := true, data := some (p.values sizeofT i) } :=
  Function.update_self _ _ _

theorem fills_writeReserved : Fills sizeofT (writeReserved (T := T)) where
  first := fun _ _ => rfl
  last := fun _ _ => rfl
  freeIndex := fun _ _ => rfl
  others := fun _ _ _ h => Function.update_of_ne h _ _
  isValid := fun i p => by rw [writeReserved_self]
  data := fun i p a h => by
    rw [writeReserved_self] at h
    exact Or.inr h
  constructed := fun i p h => by
    rw [writeReserved_self] at h
    cases h

theorem fills_writeObject (t : T) : Fills sizeofT (writeObject sizeofT t) where
  first := fun _ _ => rfl
  last := fun _ _ => rfl
  freeIndex := fun _ _ => rfl
  others := fun _ _ _ h => Function.update_of_ne h _ _
  isValid := fun i p => by rw [writeObject_self]
  data := fun i p a h => by
    rw [writeObject_self] at h
    cases h
    exact Or.inl rfl
  constructed := fun i p _ => by
    rw [writeObject_self]
    rfl

variable {write : Nat → RawObjectPool T → RawObjectPool T}

theorem Fills.flags (h : Fills sizeofT write) (i : Nat) (p : RawObjectPool T) :
    (write i p).flags = Function.update p.flags i (some ()) := by
  funext j
  rw [Function.update_apply]
  split
  · next hji =>
    subst hji
    rw [RawObjectPool.flags, h.isValid]
    rfl
  · next hji => rw [RawObjectPool.flags, h.others i j p hji, RawObjectPool.flags]

theorem Ok.fill (h : p.Ok capacity sizeofT base handedOut) (hwrite : Fills sizeofT write)
    (hi : i < capacity) (hfree : p.flags i = none) :
    ({ write i { p with freeIndex := i } with size := p.size + 1 } : RawObjectPool T).Ok capacity
      sizeofT base (handedOut ++ [i]) where
  first := (hwrite.first _ _).trans h.first
  last := (hwrite.last _ _).trans h.last
  inRange := (hwrite.freeIndex i { p with freeIndex := i }).trans_lt hi
  size := by rw [List.length_append, ← h.size]; rfl
  handedOut := by
    have hflags := hwrite.flags i { p with freeIndex := i }
    change List.Perm _ (usedCells capacity (write i { p with freeIndex := i }).flags)
    rw [hflags]
    refine (List.perm_append_singleton i handedOut).trans ?_
    exact (h.handedOut.cons i).trans (usedCells_fill hi hfree ()).symm
  data := by
    intro j hj a ha
    by_cases hji : j = i
    · subst hji
      rcases hwrite.data j { p with freeIndex := j } a ha with rfl | hold
      · exact h.values_eq j
      · exact h.data j hj a hold
    · rw [hwrite.others i j _ hji] at ha
      exact h.data j hj a ha
  constructed := by
    intro j hj hconstructed
    by_cases hji : j = i
    · subst hji
      exact hwrite.constructed j _ hconstructed
    · change ((write i { p with freeIndex := i }).cellInfo j).data.isSome
      rw [hwrite.others i j _ hji] at hconstructed ⊢
      exact h.constructed j hj hconstructed

theorem Ok.acquire (h : p.Ok capacity sizeofT base handedOut) (hfuel : capacity ≤ fuel)
    (hwrite : Fills sizeofT write) :
    (handedOut.length = capacity ∧ acquire capacity fuel write p = some (none, p)) ∨
    handedOut.length ≠ capacity ∧
    ∃ i p', i < capacity ∧ i ∉ handedOut ∧ acquire capacity fuel write p = some (some i, p') ∧
      p' = { write i { p with freeIndex := i } with size := p.size + 1 } ∧
      p'.Ok capacity sizeofT base (handedOut ++ [i]) := by
  have hle : handedOut.length ≤ capacity := by
    rw [h.handedOut.length_eq]
    exact (List.length_filter_le _ _).trans List.length_range.le
  rw [RawObjectPool.acquire, h.nextFree_eq hfuel]
  cases hnext : h.toObjectPool.nextFree with
  | none =>
    have hfull : capacity ≤ p.size := ObjectPool.nextFree_eq_none_iff.mp hnext
    exact Or.inl ⟨hle.antisymm (h.size ▸ hfull), rfl⟩
  | some i =>
    obtain ⟨hi, hfree⟩ := ObjectPool.nextFree_spec hnext
    have hfree : p.flags i = none := hfree
    refine Or.inr ⟨fun hfull => ?_, i, _, hi, ?_, rfl, rfl, h.fill hwrite hi hfree⟩
    · rw [ObjectPool.nextFree_eq_none_iff.mpr (hfull.symm.trans h.size.symm).le] at hnext
      cases hnext
    rw [h.mem_handedOut, ← isSome_flags, hfree]
    exact fun hused => nomatch hused.2

def Destructible (p : RawObjectPool T) (index : Nat) (destruct : Bool) : Prop :=
  destruct = true → (p.cellInfo index).isValid = true → (p.cellInfo index).data.isSome = true

instance (p : RawObjectPool T) (index : Nat) (destruct : Bool) :
    Decidable (p.Destructible index destruct) :=
  inferInstanceAs (Decidable (_ → _ → _))

theorem Ok.constructed_destructible (h : p.Ok capacity sizeofT base handedOut)
    (hi : i < capacity) : p.Destructible i (p.cellInfo i).wasConstructed :=
  fun hconstructed _ => h.constructed i hi hconstructed

def release (p : RawObjectPool T) (index : Nat) : RawObjectPool T :=
  { p with
    cellInfo := Function.update p.cellInfo index { p.cellInfo index with isValid := false }
    size := p.size - 1 }

theorem release_cellInfo (p : RawObjectPool T) (i j : Nat) :
    (p.release i).cellInfo j =
      { p.cellInfo j with isValid := if j = i then false else (p.cellInfo j).isValid } := by
  change Function.update p.cellInfo i _ j = _
  rw [Function.update_apply]
  split
  · next hji => rw [hji]
  · rfl

theorem release_flags (p : RawObjectPool T) (i : Nat) :
    (p.release i).flags = Function.update p.flags i none := by
  funext j
  rw [flags, release_cellInfo, Function.update_apply]
  split <;> rfl

theorem Ok.objects (h : p.Ok capacity sizeofT base handedOut) (objects : Nat → Option T) :
    ({ p with objects := objects } : RawObjectPool T).Ok capacity sizeofT base handedOut where
  first := h.first
  last := h.last
  inRange := h.inRange
  size := h.size
  handedOut := h.handedOut
  data := h.data
  constructed := h.constructed

theorem Ok.release (h : p.Ok capacity sizeofT base handedOut) (hi : i < capacity)
    (hused : (p.cellInfo i).isValid = true) :
    (p.release i).Ok capacity sizeofT base (handedOut.erase i) where
  first := h.first
  last := h.last
  inRange := h.inRange
  size := by
    have hmem : i ∈ handedOut := h.mem_handedOut.mpr ⟨hi, hused⟩
    rw [List.length_erase_of_mem hmem, ← h.size]
    rfl
  handedOut := by
    have hperm := h.handedOut.trans (usedCells_empty hi (by rwa [isSome_flags]))
    rw [release_flags]
    have herase := hperm.erase i
    rwa [List.erase_cons_head] at herase
  data := by
    intro j hj a ha
    rw [release_cellInfo] at ha
    exact h.data j hj a ha
  constructed := by
    intro j hj hconstructed
    rw [release_cellInfo] at hconstructed ⊢
    exact h.constructed j hj hconstructed

theorem Ok.remove (h : p.Ok capacity sizeofT base handedOut) (hi : i < capacity)
    {destruct : Bool} (hdestruct : p.Destructible i destruct) :
    (i ∉ handedOut → p.remove i destruct = some p) ∧
      ∃ p', p.remove i destruct = some p' ∧ p'.Ok capacity sizeofT base (handedOut.erase i) := by
  unfold RawObjectPool.remove
  split
  · next hused =>
    have hmem : i ∈ handedOut := h.mem_handedOut.mpr ⟨hi, hused⟩
    refine ⟨fun hnot => absurd hmem hnot, ?_⟩
    cases destruct with
    | false => exact ⟨_, rfl, h.release hi hused⟩
    | true =>
      obtain ⟨data, hdata⟩ := Option.isSome_iff_exists.mp (hdestruct rfl hused)
      rw [hdata]
      exact ⟨_, rfl, (h.release hi hused).objects _⟩
  · next hfree =>
    have hnot : i ∉ handedOut := fun hmem => hfree (h.mem_handedOut.mp hmem).2
    refine ⟨fun _ => rfl, p, rfl, ?_⟩
    rwa [List.erase_of_not_mem hnot]

theorem Ok.pointerToIndex_eq_some (h : p.Ok capacity sizeofT base handedOut)
    (hsize : 0 < sizeofT) (hcapacity : 0 < capacity) :
    p.pointerToIndex sizeofT ptr = some i ↔ i < capacity ∧ ptr = base + i * sizeofT := by
  have hindex : ∀ j, (base + j * sizeofT - base) / sizeofT = j := fun j => by
    rw [Nat.add_sub_cancel_left, Nat.mul_div_cancel j hsize]
  unfold RawObjectPool.pointerToIndex
  rw [h.first, h.last]
  constructor
  · intro heq
    split at heq
    · cases heq
    · next hrange =>
      split at heq
      · cases heq
      · next hboundary =>
        have hmul : (ptr - base) / sizeofT * sizeofT = ptr - base :=
          Nat.div_mul_cancel (Nat.dvd_of_mod_eq_zero (not_not.mp hboundary))
        have hptr : ptr = base + (ptr - base) / sizeofT * sizeofT := by omega
        have hlt : (ptr - base) / sizeofT < capacity := by
          refine Nat.lt_of_le_pred hcapacity (Nat.le_of_mul_le_mul_right ?_ hsize)
          rw [hmul, Nat.pred_eq_sub_one]
          omega
        simp only at heq
        split at heq
        · split at heq
          · cases heq
            exact ⟨hlt, hptr⟩
          · cases heq
        · cases heq
          exact ⟨hlt, hptr⟩
  · rintro ⟨hi, rfl⟩
    have hle : i * sizeofT ≤ (capacity - 1) * sizeofT :=
      Nat.mul_le_mul_right _ (Nat.le_pred_of_lt hi)
    have hboundary : (base + i * sizeofT - base) % sizeofT = 0 := by
      rw [Nat.add_sub_cancel_left, Nat.mul_mod_left]
    rw [if_neg (by omega), if_neg (not_not.mpr hboundary)]
    simp only [hindex]
    split
    · next hdata => rw [if_pos (h.data i hi _ hdata)]
    · rfl

theorem Ok.filter_ne (h : p.Ok capacity sizeofT base handedOut) (hsize : 0 < sizeofT) (i : Nat) :
    (handedOut.filter fun j => base + j * sizeofT ≠ base + i * sizeofT) = handedOut.erase i := by
  rw [h.nodup.erase_eq_filter]
  refine List.filter_congr fun j _ => ?_
  have hiff : base + j * sizeofT ≠ base + i * sizeofT ↔ j ≠ i := by
    rw [Ne, Nat.add_left_cancel_iff, Nat.mul_left_inj hsize.ne']
  rw [decide_eq_decide.mpr hiff, bne, Bool.beq_eq_decide_eq, decide_not]

theorem Ok.free_of (h : p.Ok capacity sizeofT base handedOut) (hsize : 0 < sizeofT)
    (hcapacity : 0 < capacity) (ptr : Nat) (destruct : Nat → Bool)
    (hdestruct : ∀ i, i < capacity → ptr = base + i * sizeofT → p.Destructible i (destruct i))
    {result : Option (RawObjectPool T)}
    (hresult : result = match p.pointerToIndex sizeofT ptr with
      | none => some p
      | some index => p.remove index (destruct index)) :
    ((∀ i ∈ handedOut, ptr ≠ base + i * sizeofT) → result = some p) ∧
      ∃ p', result = some p' ∧
        p'.Ok capacity sizeofT base (handedOut.filter fun i => base + i * sizeofT ≠ ptr) := by
  cases hindex : p.pointerToIndex sizeofT ptr with
  | none =>
    rw [hindex] at hresult
    refine ⟨fun _ => hresult, p, hresult, ?_⟩
    have hall : (handedOut.filter fun i => base + i * sizeofT ≠ ptr) = handedOut := by
      refine List.filter_eq_self.mpr fun i hi => decide_eq_true fun heq => ?_
      have hsome := (h.pointerToIndex_eq_some hsize hcapacity).mpr
        ⟨(h.mem_handedOut.mp hi).1, heq.symm⟩
      rw [hindex] at hsome
      cases hsome
    rwa [hall]
  | some i =>
    obtain ⟨hi, hptr⟩ := (h.pointerToIndex_eq_some hsize hcapacity).mp hindex
    obtain ⟨hsame, p', hremove, hp'⟩ := h.remove hi (hdestruct i hi hptr)
    rw [hindex] at hresult
    refine ⟨fun hnot => hresult.trans (hsame fun hmem => hnot i hmem hptr), p',
      hresult.trans hremove, ?_⟩
    rwa [hptr, h.filter_ne hsize]

theorem visitedFrom_firstUsedFrom (p : RawObjectPool T) {n : Nat} (h : i + n = capacity) :
    visitedFrom capacity p (firstUsedFrom capacity p i) =
      (List.range' i n).filter fun j => (p.cellInfo j).isValid := by
  induction n generalizing i with
  | zero => rw [firstUsedFrom, if_neg (by omega), visitedFrom, if_neg (Nat.lt_irrefl _)]; rfl
  | succ n ih =>
    have hrest := ih (i := i + 1) (by omega)
    rw [firstUsedFrom, if_pos (by omega), List.range'_succ, List.filter_cons]
    cases hused : (p.cellInfo i).isValid with
    | true =>
      rw [if_pos rfl, if_pos rfl, visitedFrom, if_pos (by omega), increment, hrest]
    | false =>
      rw [if_neg Bool.false_ne_true, if_neg Bool.false_ne_true, hrest]

theorem visited_eq (p : RawObjectPool T) :
    visited capacity p = (List.range capacity).filter fun i => (p.cellInfo i).isValid := by
  rw [visited, begin, visitedFrom_firstUsedFrom p (Nat.zero_add capacity), List.range_eq_range']

inductive Operation (T : Type u)
  | reserve
  | construct (t : T)
  | add (element : T)
  | allocate
  | create (t : T)
  | insert (element : T)
  | remove (index : Nat) (destruct : Bool)
  | free (ptr : Nat)
  | freeAndDestruct (ptr : Nat) (destruct : Bool)

structure Run (T : Type u) where
  pool : RawObjectPool T
  handedOut : List Nat

namespace Run

variable (capacity sizeofT fuel)

def notedIndex (s : Run T) (r : Option Nat × RawObjectPool T) : Run T where
  pool := r.2
  handedOut := s.handedOut ++ r.1.toList

def notedPointer (s : Run T) (r : Option Nat × RawObjectPool T) : Run T where
  pool := r.2
  handedOut := s.handedOut ++ r.1.toList.map fun ptr => (ptr - s.pool.first) / sizeofT

def removed (s : Run T) (index : Nat) (pool : RawObjectPool T) : Run T where
  pool := pool
  handedOut := s.handedOut.erase index

def freed (s : Run T) (ptr : Nat) (pool : RawObjectPool T) : Run T where
  pool := pool
  handedOut := s.handedOut.filter fun i => s.pool.values sizeofT i ≠ ptr

def step (s : Run T) : Operation T → Option (Run T)
  | .reserve => (s.pool.reserve capacity fuel).map s.notedIndex
  | .construct t => (s.pool.construct capacity sizeofT fuel t).map s.notedIndex
  | .add element => (s.pool.add capacity sizeofT fuel element).map s.notedIndex
  | .allocate => (s.pool.allocate capacity sizeofT fuel).map (s.notedPointer sizeofT)
  | .create t => (s.pool.create capacity sizeofT fuel t).map (s.notedPointer sizeofT)
  | .insert element => (s.pool.insert capacity sizeofT fuel element).map (s.notedPointer sizeofT)
  | .remove index destruct => (s.pool.remove index destruct).map (s.removed index)
  | .free ptr => (s.pool.free sizeofT ptr).map (s.freed sizeofT ptr)
  | .freeAndDestruct ptr destruct =>
    (s.pool.freeAndDestruct sizeofT ptr destruct).map (s.freed sizeofT ptr)

def Admissible (s : Run T) : Operation T → Prop
  | .remove index destruct => index < capacity ∧ s.pool.Destructible index destruct
  | .freeAndDestruct ptr destruct =>
    ∀ i ∈ s.pool.pointerToIndex sizeofT ptr, s.pool.Destructible i destruct
  | _ => True

instance (s : Run T) (op : Operation T) : Decidable (s.Admissible capacity sizeofT op) :=
  match op with
  | .remove index destruct =>
    inferInstanceAs (Decidable (index < capacity ∧ s.pool.Destructible index destruct))
  | .freeAndDestruct ptr destruct =>
    inferInstanceAs (Decidable (∀ i ∈ s.pool.pointerToIndex sizeofT ptr,
      s.pool.Destructible i destruct))
  | .reserve | .construct _ | .add _ | .allocate | .create _ | .insert _ | .free _ =>
    inferInstanceAs (Decidable True)

def IndexFresh (s : Run T) (result : Option (Option Nat × RawObjectPool T)) : Prop :=
  ∃ r, result = some r ∧ (r.1 = none ↔ s.handedOut.length = capacity) ∧
    ∀ i, r.1 = some i → i < capacity ∧ i ∉ s.handedOut

def PointerFresh (s : Run T) (result : Option (Option Nat × RawObjectPool T)) : Prop :=
  ∃ r, result = some r ∧ (r.1 = none ↔ s.handedOut.length = capacity) ∧
    ∀ ptr, r.1 = some ptr → ∃ i, i < capacity ∧ i ∉ s.handedOut ∧ ptr = s.pool.values sizeofT i

structure Guarantees (s : Run T) : Prop where
  nodup : s.handedOut.Nodup
  used : ∀ i, i ∈ s.handedOut ↔ i < capacity ∧ (s.pool.cellInfo i).isValid = true
  size : s.pool.size = s.handedOut.length
  reserve : s.IndexFresh capacity (s.pool.reserve capacity fuel)
  construct : ∀ t, s.IndexFresh capacity (s.pool.construct capacity sizeofT fuel t)
  add : ∀ element, s.IndexFresh capacity (s.pool.add capacity sizeofT fuel element)
  allocate : s.PointerFresh capacity sizeofT (s.pool.allocate capacity sizeofT fuel)
  create : ∀ t, s.PointerFresh capacity sizeofT (s.pool.create capacity sizeofT fuel t)
  insert : ∀ element, s.PointerFresh capacity sizeofT (s.pool.insert capacity sizeofT fuel element)
  removeUnused : ∀ i destruct, i < capacity → i ∉ s.handedOut →
    s.pool.remove i destruct = some s.pool
  freeUnused : ∀ ptr, (∀ i ∈ s.handedOut, ptr ≠ s.pool.values sizeofT i) →
    s.pool.free sizeofT ptr = some s.pool ∧
      ∀ destruct, s.pool.freeAndDestruct sizeofT ptr destruct = some s.pool
  visited : (s.pool.visited capacity).Perm s.handedOut

variable {capacity sizeofT fuel} {s s' : Run T} {op : Operation T}

def Inv (capacity sizeofT base : Nat) (s : Run T) : Prop :=
  s.pool.Ok capacity sizeofT base s.handedOut

theorem Inv.acquire (h : s.Inv capacity sizeofT base) (hfuel : capacity ≤ fuel)
    (hwrite : Fills sizeofT write) :
    s.IndexFresh capacity (s.pool.acquire capacity fuel write) ∧
      ∃ s', (s.pool.acquire capacity fuel write).map s.notedIndex = some s' ∧
        s'.Inv capacity sizeofT base := by
  rcases Ok.acquire h hfuel hwrite with ⟨hfull, heq⟩ | ⟨hroom, i, p', hi, hnot, heq, -, hok⟩
  · rw [heq]
    refine ⟨⟨_, rfl, iff_of_true rfl hfull, nofun⟩, _, rfl, ?_⟩
    rw [Inv, notedIndex, Option.toList_none, List.append_nil]
    exact h
  · rw [heq]
    refine ⟨⟨_, rfl, iff_of_false (Option.some_ne_none i) hroom, ?_⟩, _, rfl, hok⟩
    rintro _ ⟨⟩
    exact ⟨hi, hnot⟩

theorem Inv.acquirePointer (h : s.Inv capacity sizeofT base) (hfuel : capacity ≤ fuel)
    (hsize : 0 < sizeofT) (hwrite : Fills sizeofT write)
    {result : Option (Option Nat × RawObjectPool T)}
    (hnone : ∀ p', s.pool.acquire capacity fuel write = some (none, p') →
      result = some (none, p'))
    (hsome : ∀ i p', s.pool.acquire capacity fuel write = some (some i, p') →
      p' = { write i { s.pool with freeIndex := i } with size := s.pool.size + 1 } →
      result = some (some (s.pool.values sizeofT i), p')) :
    s.PointerFresh capacity sizeofT result ∧
      ∃ s', result.map (s.notedPointer sizeofT) = some s' ∧ s'.Inv capacity sizeofT base := by
  rcases Ok.acquire h hfuel hwrite with ⟨hfull, heq⟩ | ⟨hroom, i, p', hi, hnot, heq, hp', hok⟩
  · rw [hnone _ heq]
    refine ⟨⟨_, rfl, iff_of_true rfl hfull, nofun⟩, _, rfl, ?_⟩
    rw [Inv, notedPointer, Option.toList_none, List.map_nil, List.append_nil]
    exact h
  · rw [hsome i p' heq hp']
    refine ⟨⟨_, rfl, iff_of_false (Option.some_ne_none _) hroom, ?_⟩, _, rfl, ?_⟩
    · rintro _ ⟨⟩
      exact ⟨i, hi, hnot, rfl⟩
    · rw [Inv, notedPointer, Option.toList_some, List.map_singleton, values,
        Nat.add_sub_cancel_left, Nat.mul_div_cancel i hsize]
      exact hok

theorem Inv.allocate (h : s.Inv capacity sizeofT base) (hfuel : capacity ≤ fuel)
    (hsize : 0 < sizeofT) :
    s.PointerFresh capacity sizeofT (s.pool.allocate capacity sizeofT fuel) ∧
      ∃ s', (s.pool.allocate capacity sizeofT fuel).map (s.notedPointer sizeofT) = some s' ∧
        s'.Inv capacity sizeofT base := by
  refine h.acquirePointer hfuel hsize fills_writeReserved (fun p' heq => ?_)
    fun i p' heq hp' => ?_
  · rw [RawObjectPool.allocate, reserve, heq]
    rfl
  · rw [RawObjectPool.allocate, reserve, heq, hp']
    rfl

theorem Inv.create (h : s.Inv capacity sizeofT base) (hfuel : capacity ≤ fuel)
    (hsize : 0 < sizeofT) (t : T) :
    s.PointerFresh capacity sizeofT (s.pool.create capacity sizeofT fuel t) ∧
      ∃ s', (s.pool.create capacity sizeofT fuel t).map (s.notedPointer sizeofT) = some s' ∧
        s'.Inv capacity sizeofT base := by
  refine h.acquirePointer hfuel hsize (fills_writeObject t) (fun p' heq => ?_)
    fun i p' heq hp' => ?_
  · rw [RawObjectPool.create, construct, heq]
    rfl
  · have hget : p'.get i = some (s.pool.values sizeofT i) := by
      rw [hp', get, writeObject_self, if_pos rfl]
      rfl
    rw [RawObjectPool.create, construct, heq]
    change some (p'.get i, p') = _
    rw [hget]

theorem Inv.guarantees (h : s.Inv capacity sizeofT base) (hcapacity : 0 < capacity)
    (hsize : 0 < sizeofT) (hfuel : capacity ≤ fuel) : s.Guarantees capacity sizeofT fuel where
  nodup := Ok.nodup h
  used := fun _ => Ok.mem_handedOut h
  size := Ok.size h
  reserve := (h.acquire hfuel fills_writeReserved).1
  construct := fun t => (h.acquire hfuel (fills_writeObject t)).1
  add := fun element => (h.acquire hfuel (fills_writeObject element)).1
  allocate := (h.allocate hfuel hsize).1
  create := fun t => (h.create hfuel hsize t).1
  insert := fun element => (h.create hfuel hsize element).1
  removeUnused := by
    intro i destruct hi hnot
    refine (Ok.remove h hi fun _ hused => ?_).1 hnot
    exact absurd ((Ok.mem_handedOut h).mpr ⟨hi, hused⟩) hnot
  freeUnused := by
    intro ptr hptr
    simp only [Ok.values_eq h] at hptr
    have hunused : ∀ destruct : Nat → Bool, ∀ i, i < capacity → ptr = base + i * sizeofT →
        s.pool.Destructible i (destruct i) := by
      intro destruct i hi heq _ hused
      exact absurd heq (hptr i ((Ok.mem_handedOut h).mpr ⟨hi, hused⟩))
    refine ⟨(Ok.free_of h hsize hcapacity _ _ (hunused _) rfl).1 hptr, fun destruct => ?_⟩
    exact (Ok.free_of h hsize hcapacity _ _ (hunused fun _ => destruct) rfl).1 hptr
  visited := by
    rw [visited_eq]
    refine (List.Perm.of_eq ?_).trans (Ok.handedOut h).symm
    exact List.filter_congr fun i _ => (isSome_flags s.pool i).symm

theorem Inv.step (h : s.Inv capacity sizeofT base) (hcapacity : 0 < capacity)
    (hsize : 0 < sizeofT) (hfuel : capacity ≤ fuel) (hop : s.Admissible capacity sizeofT op) :
    ∃ s', s.step capacity sizeofT fuel op = some s' ∧ s'.Inv capacity sizeofT base := by
  have hfreed : ∀ (ptr : Nat) (pool : RawObjectPool T),
      pool.Ok capacity sizeofT base (s.handedOut.filter fun i => base + i * sizeofT ≠ ptr) →
      (s.freed sizeofT ptr pool).Inv capacity sizeofT base := by
    intro ptr pool hok
    rw [Inv, freed]
    simp only [Ok.values_eq h]
    exact hok
  cases op with
  | reserve => exact (h.acquire hfuel fills_writeReserved).2
  | construct t => exact (h.acquire hfuel (fills_writeObject t)).2
  | add element => exact (h.acquire hfuel (fills_writeObject element)).2
  | allocate => exact (h.allocate hfuel hsize).2
  | create t => exact (h.create hfuel hsize t).2
  | insert element => exact (h.create hfuel hsize element).2
  | remove index destruct =>
    obtain ⟨p', hremove, hok⟩ := (Ok.remove h hop.1 hop.2).2
    exact ⟨s.removed index p', by rw [Run.step, hremove]; rfl, hok⟩
  | free ptr =>
    obtain ⟨p', hfree, hok⟩ := (Ok.free_of h hsize hcapacity ptr _
      (fun i hi _ => Ok.constructed_destructible h hi) rfl).2
    exact ⟨s.freed sizeofT ptr p', by rw [Run.step, RawObjectPool.free, hfree]; rfl,
      hfreed ptr p' hok⟩
  | freeAndDestruct ptr destruct =>
    obtain ⟨p', hfree, hok⟩ := (Ok.free_of h hsize hcapacity ptr (fun _ => destruct)
      (fun i hi hptr => hop i
        ((Ok.pointerToIndex_eq_some h hsize hcapacity).mpr ⟨hi, hptr⟩)) rfl).2
    exact ⟨s.freed sizeofT ptr p', by rw [Run.step, RawObjectPool.freeAndDestruct, hfree]; rfl,
      hfreed ptr p' hok⟩

variable (capacity sizeofT) in
def start (base : Nat) : Run T where
  pool := init capacity sizeofT base
  handedOut := []

/-- A pool of at least one cell, with whatever calls in whatever order, never hands out a cell that
is out: every call comes back, and all along the run the guarantees hold. -/
theorem pool_never_hands_out_used_cell (hcapacity : 1 ≤ capacity) (hsize : 1 ≤ sizeofT)
    (hfuel : capacity ≤ fuel) (base : Nat) (ops : List (Operation T))
    (hops : Meets (step capacity sizeofT fuel) (Admissible capacity sizeofT)
      (start capacity sizeofT base) ops) (n : Nat) :
    ∃ s, runSteps (step capacity sizeofT fuel) (start capacity sizeofT base) (ops.take n) =
      some s ∧ s.Guarantees capacity sizeofT fuel := by
  have hstart : (start capacity sizeofT base : Run T).Inv capacity sizeofT base :=
    ok_init hcapacity base
  obtain ⟨s, hrun, hinv⟩ := runSteps_total_of_meets (I := Inv capacity sizeofT base)
    (fun _ _ h hop => h.step hcapacity hsize hfuel hop) ops _ hstart hops n
  exact ⟨s, hrun, hinv.guarantees hcapacity hsize hfuel⟩

def exampleCalls : List (Operation Nat) :=
  [.construct 5, .allocate, .add 6, .create 7, .free 4100, .free 4104, .free 4104, .remove 1 false,
    .insert 8, .remove 0 true, .freeAndDestruct 5000 true, .reserve]

theorem pool_never_hands_out_used_cell_threeCells :
    ∃ s, runSteps (step 3 8 3) (start 3 8 4096) (exampleCalls.take 12) = some s ∧
      s.Guarantees 3 8 3 :=
  pool_never_hands_out_used_cell (by decide) (by decide) (by decide) 4096 exampleCalls
    (by decide +kernel) 12

end Run

end RawObjectPool

end Iceoryx.Hoofs
