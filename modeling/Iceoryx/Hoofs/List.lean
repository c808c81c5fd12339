import Mathlib.Data.List.Range
import Mathlib.Data.List.Nodup
import Mathlib.Logic.Function.Basic
import Iceoryx.Lib.Chain
import Iceoryx.Lib.Circle
import Iceoryx.Lib.Run
import Iceoryx.Hoofs.ListRun

universe u

namespace Iceoryx.Hoofs

open Lib

variable {T : Type u}

structure CxxList (T : Type u) where
  this : Nat
  freeListHeadIdx : Nat
  next : Nat → Nat
  prev : Nat → Nat
  data : Nat → Option T
  size : Nat

namespace CxxList

variable (capacity : Nat)

abbrev beginEndLinkIndex : Nat := capacity

abbrev invalidIndex : Nat := capacity + 1

def setPrevIdx (l : CxxList T) (idx prevIdx : Nat) : CxxList T :=
  { l with prev := Function.update l.prev idx prevIdx }

def setNextIdx (l : CxxList T) (idx nextIdx : Nat) : CxxList T :=
  { l with next := Function.update l.next idx nextIdx }

def init (l : CxxList T) : CxxList T :=
  let l := (l.setPrevIdx 0 (invalidIndex capacity)).setNextIdx 0 1
  let l := (List.range' 1 (beginEndLinkIndex capacity - 1 - 1)).foldl
    (fun l i => (l.setPrevIdx i (invalidIndex capacity)).setNextIdx i (i + 1)) l
  let l := (l.setPrevIdx (capacity - 1) (invalidIndex capacity)).setNextIdx (capacity - 1)
    (beginEndLinkIndex capacity)
  let l := (l.setPrevIdx capacity (beginEndLinkIndex capacity)).setNextIdx capacity
    (beginEndLinkIndex capacity)
  { l with
    freeListHeadIdx := 0
    size := 0 }

def cbegin (l : CxxList T) : CxxIterator where
  list := l.this
  idx := l.next (beginEndLinkIndex capacity)

def cend (l : CxxList T) : CxxIterator where
  list := l.this
  idx := beginEndLinkIndex capacity

def IsValidElementIdx (l : CxxList T) (idx : Nat) : Prop :=
  idx < capacity ∧ l.prev idx < invalidIndex capacity

instance (l : CxxList T) (idx : Nat) : Decidable (l.IsValidElementIdx capacity idx) :=
  inferInstanceAs (Decidable (_ ∧ _))

/-- A failed `Expects` terminates: there is no result. -/
def isInvalidIterator (l : CxxList T) (iter : CxxIterator) : Option Bool :=
  if l.prev iter.idx < invalidIndex capacity then some false else none

def isInvalidIterOrDifferentLists (l : CxxList T) (iter : CxxIterator) : Option Bool :=
  if l.this = iter.list then l.isInvalidIterator capacity iter else none

def getDataPtrFromIdx (l : CxxList T) (idx : Nat) : Option Nat :=
  if l.IsValidElementIdx capacity idx then some idx else none

def deref (l : CxxList T) (iter : CxxIterator) : Option T :=
  (l.getDataPtrFromIdx capacity iter.idx).bind l.data

def store (l : CxxList T) (iter : CxxIterator) (x : T) : Option (CxxList T) :=
  (l.deref capacity iter).map fun _ =>
    { l with data := Function.update l.data iter.idx (some x) }

def construct (l : CxxList T) (idx : Nat) (x : T) : Option (CxxList T) :=
  (l.getDataPtrFromIdx capacity idx).map fun i =>
    { l with data := Function.update l.data i (some x) }

def destruct (l : CxxList T) (iter : CxxIterator) : Option (CxxList T) :=
  (l.deref capacity iter).map fun _ => { l with data := Function.update l.data iter.idx none }

def increment (l : CxxList T) (iter : CxxIterator) : Option CxxIterator :=
  (l.isInvalidIterator capacity iter).map fun invalid =>
    if invalid then iter
    else if l.IsValidElementIdx capacity iter.idx then { iter with idx := l.next iter.idx }
    else iter

def decrement (l : CxxList T) (iter : CxxIterator) : Option CxxIterator :=
  (l.isInvalidIterator capacity iter).map fun invalid =>
    if invalid then iter
    else if l.IsValidElementIdx capacity (l.prev iter.idx) then { iter with idx := l.prev iter.idx }
    else iter

def equals (l : CxxList T) (iter rhs : CxxIterator) : Option Bool :=
  (l.isInvalidIterOrDifferentLists capacity rhs).bind fun different =>
    if different then some false
    else (l.isInvalidIterator capacity iter).map fun invalid =>
      if invalid then false else iter.idx == rhs.idx

def emplace (l : CxxList T) (iter : CxxIterator) (x : T) : Option (CxxIterator × CxxList T) :=
  (l.isInvalidIterOrDifferentLists capacity iter).bind fun invalid =>
    if invalid then some (l.cend capacity, l)
    else if l.size ≥ capacity then some (l.cend capacity, l)
    else
      let toBeAddedIdx := l.freeListHeadIdx
      let l := { l with freeListHeadIdx := l.next l.freeListHeadIdx }
      let l := l.setPrevIdx toBeAddedIdx (l.prev iter.idx)
      let l := l.setNextIdx toBeAddedIdx iter.idx
      (l.construct capacity toBeAddedIdx x).map fun l =>
        let l := l.setNextIdx (l.prev iter.idx) toBeAddedIdx
        let l := l.setPrevIdx iter.idx toBeAddedIdx
        ({ list := l.this
           idx := toBeAddedIdx },
          { l with size := l.size + 1 })

def erase (l : CxxList T) (iter : CxxIterator) : Option (CxxIterator × CxxList T) :=
  (l.isInvalidIterOrDifferentLists capacity iter).bind fun invalid =>
    if invalid then some (l.cend capacity, l)
    else
      let eraseIdx := iter.idx
      if ¬ l.IsValidElementIdx capacity eraseIdx ∨ l.size = 0 then some (l.cend capacity, l)
      else
        let retIdx := l.next iter.idx
        let l := l.setPrevIdx retIdx (l.prev iter.idx)
        let l := l.setNextIdx (l.prev iter.idx) retIdx
        (l.destruct capacity iter).map fun l =>
          let l := l.setPrevIdx eraseIdx (invalidIndex capacity)
          let l := l.setNextIdx eraseIdx l.freeListHeadIdx
          let l := { l with freeListHeadIdx := eraseIdx }
          ({ list := l.this
             idx := retIdx },
            { l with size := l.size - 1 })

def emplaceFront (l : CxxList T) (x : T) : Option (T × CxxList T) :=
  (l.emplace capacity (l.cbegin capacity) x).bind fun r =>
    (r.2.deref capacity r.1).map fun y => (y, r.2)

def emplaceBack (l : CxxList T) (x : T) : Option (T × CxxList T) :=
  (l.emplace capacity (l.cend capacity) x).bind fun r =>
    (r.2.deref capacity r.1).map fun y => (y, r.2)

def pushAt (l : CxxList T) (iter : CxxIterator) (x : T) : Option (Bool × CxxList T) :=
  let pushed :=
    if l.size < capacity then (l.emplace capacity iter x).map fun r => r.2 else some l
  pushed.map fun l' => (l'.size == l.size + 1, l')

def pushFront (l : CxxList T) (x : T) : Option (Bool × CxxList T) :=
  l.pushAt capacity (l.cbegin capacity) x

def pushBack (l : CxxList T) (x : T) : Option (Bool × CxxList T) :=
  l.pushAt capacity (l.cend capacity) x

def popFront (l : CxxList T) : Option (Bool × CxxList T) :=
  (l.erase capacity (l.cbegin capacity)).map fun r => (r.2.size + 1 == l.size, r.2)

def popBack (l : CxxList T) : Option (Bool × CxxList T) :=
  (l.decrement capacity (l.cend capacity)).bind fun iter =>
    (l.erase capacity iter).map fun r => (r.2.size + 1 == l.size, r.2)

def insert (l : CxxList T) (iter : CxxIterator) (x : T) : Option (CxxIterator × CxxList T) :=
  l.emplace capacity iter x

def removeIfLoop (pred : T → Bool) :
    Nat → CxxIterator → Nat → CxxList T → Option (Nat × CxxList T)
  | 0, _, _, _ => none
  | fuel + 1, iter, removedCount, l =>
    (l.equals capacity iter (l.cend capacity)).bind fun done =>
      if done then some (removedCount, l)
      else
        (l.deref capacity iter).bind fun x =>
          if pred x then
            (l.erase capacity iter).bind fun r =>
              removeIfLoop pred fuel r.1 (removedCount + 1) r.2
          else
            (l.increment capacity iter).bind fun iter =>
              removeIfLoop pred fuel iter removedCount l

def removeIf (pred : T → Bool) (l : CxxList T) : Option (Nat × CxxList T) :=
  removeIfLoop capacity pred (l.size + 1) (l.cbegin capacity) 0 l

def remove [BEq T] (l : CxxList T) (x : T) : Option (Nat × CxxList T) :=
  l.removeIf capacity fun y => y == x

def clearLoop : Nat → CxxList T → Option (CxxList T)
  | 0, l => if l.size = 0 then some l else none
  | fuel + 1, l =>
    if l.size = 0 then some l
    else (l.erase capacity (l.cbegin capacity)).bind fun r => clearLoop fuel r.2

def clear (l : CxxList T) : Option (CxxList T) := clearLoop capacity l.size l

/-- The first `n` elements of `rhs` are assigned to those of the list.  `leave` is what becomes
of an element of `rhs`: nothing for a copy. -/
def overwriteLoop (leave : T → T) : Nat → CxxIterator → CxxIterator → CxxList T → CxxList T →
    Option ((CxxIterator × CxxList T) × (CxxIterator × CxxList T))
  | 0, iterThis, iterRhs, l, rhs => some ((iterThis, l), (iterRhs, rhs))
  | n + 1, iterThis, iterRhs, l, rhs =>
    (rhs.deref capacity iterRhs).bind fun x =>
      (rhs.store capacity iterRhs (leave x)).bind fun rhs =>
        (l.store capacity iterThis x).bind fun l =>
          (l.increment capacity iterThis).bind fun iterThis =>
            (rhs.increment capacity iterRhs).bind fun iterRhs =>
              overwriteLoop leave n iterThis iterRhs l rhs

def appendLoop (leave : T → T) : Nat → CxxIterator → CxxList T → CxxList T →
    Option (CxxList T × CxxList T)
  | 0, _, l, rhs => some (l, rhs)
  | n + 1, iterRhs, l, rhs =>
    (rhs.deref capacity iterRhs).bind fun x =>
      (rhs.store capacity iterRhs (leave x)).bind fun rhs =>
        (l.emplace capacity (l.cend capacity) x).bind fun r =>
          (rhs.increment capacity iterRhs).bind fun iterRhs =>
            appendLoop leave n iterRhs r.2 rhs

def eraseLoop : Nat → CxxIterator → CxxList T → Option (CxxList T)
  | 0, _, l => some l
  | n + 1, iterThis, l => (l.erase capacity iterThis).bind fun r => eraseLoop n r.1 r.2

def assign (leave : T → T) (l rhs : CxxList T) : Option (CxxList T × CxxList T) :=
  let startSize := l.size
  let minOfLhsRhsSize := min rhs.size startSize
  (overwriteLoop capacity leave minOfLhsRhsSize (l.cbegin capacity) (rhs.cbegin capacity) l
      rhs).bind fun p =>
    (appendLoop capacity leave (rhs.size - minOfLhsRhsSize) p.2.1 p.1.2 p.2.2).bind fun q =>
      (eraseLoop capacity (startSize - rhs.size) p.1.1 q.1).map fun l => (l, q.2)

def copyAssign (l rhs : CxxList T) : Option (CxxList T) :=
  (l.assign capacity id rhs).map fun p => p.1

def moveAssign (movedFrom : T → T) (l rhs : CxxList T) : Option (CxxList T × CxxList T) :=
  (l.assign capacity movedFrom rhs).bind fun p =>
    (p.2.clear capacity).map fun rhs => (p.1, rhs)

def copyConstruct (l rhs : CxxList T) : Option (CxxList T) :=
  (l.init capacity).copyAssign capacity rhs

def moveLoop (movedFrom : T → T) (iter : CxxIterator) : Nat → CxxIterator → CxxList T →
    CxxList T → Option (CxxList T × CxxList T)
  | 0, _, _, _ => none
  | fuel + 1, iterRhs, l, rhs =>
    (rhs.equals capacity iterRhs (rhs.cend capacity)).bind fun done =>
      if done then some (l, rhs)
      else
        (rhs.deref capacity iterRhs).bind fun x =>
          (rhs.store capacity iterRhs (movedFrom x)).bind fun rhs =>
            (l.emplace capacity iter x).bind fun r =>
              (rhs.increment capacity iterRhs).bind fun iterRhs =>
                moveLoop movedFrom iter fuel iterRhs r.2 rhs

def moveConstruct (movedFrom : T → T) (l rhs : CxxList T) : Option (CxxList T × CxxList T) :=
  let l := l.init capacity
  (moveLoop capacity movedFrom (l.cbegin capacity) (rhs.size + 1) (rhs.cbegin capacity) l
      rhs).bind fun p =>
    (p.2.clear capacity).map fun rhs => (p.1, rhs)

end CxxList

namespace CxxList

open SlotSeq

variable {capacity : Nat}

theorem initLoop (n : Nat) (l : CxxList T) :
    (List.range' 1 n).foldl
        (fun l i => (l.setPrevIdx i (invalidIndex capacity)).setNextIdx i (i + 1)) l =
      { l with
        next := fun i => if 1 ≤ i ∧ i < 1 + n then i + 1 else l.next i
        prev := fun i => if 1 ≤ i ∧ i < 1 + n then invalidIndex capacity else l.prev i } := by
  induction n with
  | zero =>
    have hnone : ∀ i, ¬ (1 ≤ i ∧ i < 1 + 0) := by omega
    simp only [List.range'_zero, List.foldl_nil, hnone, if_false]
  | succ n ih =>
    rw [List.range'_1_concat, List.foldl_append, ih]
    simp only [List.foldl_cons, List.foldl_nil, setPrevIdx, setNextIdx]
    congr 1
    · funext i
      rw [Function.update_apply]
      split
      · next hi => rw [hi, if_pos (by omega)]
      · next hi => exact if_congr (by omega) rfl rfl
    · funext i
      rw [Function.update_apply]
      split
      · next hi => rw [hi, if_pos (by omega)]
      · next hi => exact if_congr (by omega) rfl rfl

theorem init_next (l : CxxList T) {i : Nat} (hi : i < capacity) :
    (l.init capacity).next i = i + 1 := by
  rw [CxxList.init, initLoop]
  simp only [setPrevIdx, setNextIdx, Function.update_apply, hi.ne, if_false, beginEndLinkIndex,
    invalidIndex]
  split_ifs <;> omega

theorem init_prev (l : CxxList T) {i : Nat} (hi : i < capacity) :
    (l.init capacity).prev i = invalidIndex capacity := by
  rw [CxxList.init, initLoop]
  simp only [setPrevIdx, setNextIdx, Function.update_apply, hi.ne, if_false, beginEndLinkIndex,
    invalidIndex]
  split_ifs <;> omega

theorem init_end (l : CxxList T) :
    (l.init capacity).next capacity = capacity ∧ (l.init capacity).prev capacity = capacity :=
  ⟨Function.update_self .., Function.update_self ..⟩

theorem init_fields (l : CxxList T) :
    (l.init capacity).this = l.this ∧ (l.init capacity).data = l.data := by
  rw [CxxList.init, initLoop]
  exact ⟨rfl, rfl⟩

/-- The elements are linked in a circle through the index behind the last slot, the other slots
are linked in the free list and have no previous one. -/
structure Repr (capacity this : Nat) (l : CxxList T) (elems : List (Nat × T)) (free : List Nat) :
    Prop extends Stored capacity l.data elems free where
  this_eq : l.this = this
  ring : Path l.next l.prev capacity (elems.map Prod.fst) capacity
  chain : Chain l.next (· = capacity) l.freeListHeadIdx free
  invalid : ∀ i ∈ free, l.prev i = invalidIndex capacity
  size : l.size = elems.length

namespace Repr

variable {this : Nat} {l : CxxList T} {elems front rest : List (Nat × T)}
  {free : List Nat} {x : T} {i : Nat}

theorem prev_lt (h : Repr capacity this l elems free)
    (hi : i ∈ elems.map Prod.fst ++ [capacity]) : l.prev i < invalidIndex capacity := by
  have hmem := h.ring.prev_mem_of_mem i hi
  rcases List.mem_cons.mp hmem with heq | hmem
  · rw [heq]
    exact Nat.lt_succ_self _
  · exact Nat.lt_succ_of_lt (h.slot_lt hmem)

theorem valid_iff (h : Repr capacity this l elems free) :
    l.IsValidElementIdx capacity i ↔ i ∈ elems.map Prod.fst := by
  constructor
  · rintro ⟨hlt, hprev⟩
    rcases h.mem_iff.mpr hlt with hi | hi
    · exact hi
    · rw [h.invalid i hi] at hprev
      exact absurd hprev (Nat.lt_irrefl _)
  · intro hi
    exact ⟨h.slot_lt hi, h.prev_lt (List.mem_append_left _ hi)⟩

theorem prev_eq_invalid_iff (h : Repr capacity this l elems free) (hi : i ≤ capacity) :
    l.prev i = invalidIndex capacity ↔ i ∈ free := by
  refine ⟨fun hprev => ?_, h.invalid i⟩
  rcases Nat.lt_or_eq_of_le hi with hlt | rfl
  · rcases h.mem_iff.mpr hlt with hmem | hmem
    · exact absurd hprev (h.prev_lt (List.mem_append_left _ hmem)).ne
    · exact hmem
  · exact absurd hprev (h.prev_lt (List.mem_append_right _ (List.mem_singleton_self _))).ne

theorem isInvalidIterator_eq (h : Repr capacity this l elems free)
    (hi : i ∈ elems.map Prod.fst ++ [capacity]) (list : Nat) :
    l.isInvalidIterator capacity ⟨list, i⟩ = some false :=
  if_pos (h.prev_lt hi)

theorem isInvalidIterator_free (h : Repr capacity this l elems free) (hi : i ∈ free)
    (list : Nat) : l.isInvalidIterator capacity ⟨list, i⟩ = none := by
  refine if_neg ?_
  rw [h.invalid i hi]
  exact Nat.lt_irrefl _

theorem isInvalidIterOrDifferentLists_eq (h : Repr capacity this l elems free)
    (hi : i ∈ elems.map Prod.fst ++ [capacity]) :
    l.isInvalidIterOrDifferentLists capacity ⟨this, i⟩ = some false := by
  rw [isInvalidIterOrDifferentLists, if_pos h.this_eq, h.isInvalidIterator_eq hi]

theorem cbegin_eq (h : Repr capacity this l elems free) :
    l.cbegin capacity = ⟨this, first capacity elems⟩ := by
  rw [cbegin, h.ring.next_eq, h.this_eq, first]

theorem cend_eq (h : Repr capacity this l elems free) :
    l.cend capacity = ⟨this, first capacity ([] : List (Nat × T))⟩ := by
  rw [cend, h.this_eq]
  rfl

theorem deref_eq {e : Nat × T} (h : Repr capacity this l elems free) (he : e ∈ elems)
    (list : Nat) : l.deref capacity ⟨list, e.1⟩ = some e.2 := by
  have hvalid := h.valid_iff.mpr (List.mem_map_of_mem he)
  rw [deref, getDataPtrFromIdx, if_pos hvalid]
  exact h.live e he

theorem deref_eq_none (h : Repr capacity this l elems free) (hi : i ∉ elems.map Prod.fst)
    (list : Nat) : l.deref capacity ⟨list, i⟩ = none := by
  rw [deref, getDataPtrFromIdx, if_neg (mt h.valid_iff.mp hi)]
  rfl

theorem increment_eq {e : Nat × T} (h : Repr capacity this l (front ++ e :: rest) free)
    (list : Nat) :
    l.increment capacity ⟨list, e.1⟩ = some ⟨list, first capacity rest⟩ := by
  have hmem : e.1 ∈ (front ++ e :: rest).map Prod.fst := by simp
  have hring := h.ring
  rw [List.map_append, List.map_cons, Path.append] at hring
  have hnext : l.next e.1 = first capacity rest := hring.2.next_eq
  rw [increment, h.isInvalidIterator_eq (List.mem_append_left _ hmem)]
  simp only [Option.map_some, Bool.false_eq_true, if_false, h.valid_iff, hmem, if_true, hnext]

theorem increment_end (h : Repr capacity this l elems free) (list : Nat) :
    l.increment capacity ⟨list, capacity⟩ = some ⟨list, capacity⟩ := by
  have hvalid : ¬ l.IsValidElementIdx capacity capacity := fun hv => Nat.lt_irrefl _ hv.1
  rw [increment, h.isInvalidIterator_eq (List.mem_append_right _ (List.mem_singleton_self _))]
  simp only [Option.map_some, Bool.false_eq_true, if_false, hvalid]

theorem decrement_eq (h : Repr capacity this l (front ++ rest) free) (list : Nat) :
    l.decrement capacity ⟨list, first capacity rest⟩ =
      some ⟨list, (front.map Prod.fst).getLastD (first capacity rest)⟩ := by
  have hprev : l.prev (first capacity rest) = (front.map Prod.fst).getLastD capacity := by
    have hring := h.ring
    cases rest with
    | nil =>
      rw [List.append_nil] at hring
      exact hring.prev_eq
    | cons e rest =>
      rw [List.map_append, List.map_cons, Path.append] at hring
      exact hring.1.prev_eq
  rw [decrement, h.isInvalidIterator_eq (first_mem capacity front rest)]
  simp only [Option.map_some, Bool.false_eq_true, if_false, hprev]
  cases front using List.reverseRecOn with
  | nil =>
    have hvalid : ¬ l.IsValidElementIdx capacity capacity := fun hv => Nat.lt_irrefl _ hv.1
    exact congrArg some (if_neg hvalid)
  | append_singleton front e =>
    have hlast : ∀ d, ((front ++ [e]).map Prod.fst).getLastD d = e.1 := by simp
    have hvalid : l.IsValidElementIdx capacity e.1 := h.valid_iff.mpr (by simp)
    simp only [hlast, hvalid, if_true]

theorem emplace_full (h : Repr capacity this l elems [])
    (hi : i ∈ elems.map Prod.fst ++ [capacity]) :
    l.emplace capacity ⟨this, i⟩ x = some (⟨this, capacity⟩, l) := by
  have hlength := h.length_add
  have hfull : l.size ≥ capacity := by
    rw [h.size]
    exact hlength.ge
  simp only [CxxList.emplace, h.isInvalidIterOrDifferentLists_eq hi, Option.bind_some,
    Bool.false_eq_true, if_false, hfull, if_true, cend, h.this_eq]

theorem emplace {new : Nat} (h : Repr capacity this l (front ++ rest) (new :: free)) :
    ∃ l', l.emplace capacity ⟨this, first capacity rest⟩ x = some (⟨this, new⟩, l') ∧
      Repr capacity this l' (front ++ (new, x) :: rest) free := by
  have hat := first_mem capacity front rest
  have hnew : new ∉ capacity :: (front ++ rest).map Prod.fst :=
    fun hmem => h.ring_not_free hmem List.mem_cons_self
  have hne : first capacity rest ≠ new :=
    (h.ne_of_free (first_mem_ring capacity front rest) List.mem_cons_self).symm
  have hroom : ¬ l.size ≥ capacity := by
    have hlength := h.length_add
    rw [List.length_cons] at hlength
    rw [h.size]
    omega
  have hvalid : new < capacity ∧ l.prev (first capacity rest) < invalidIndex capacity :=
    ⟨h.free_lt List.mem_cons_self, h.prev_lt hat⟩
  obtain ⟨hhead, -, hchain⟩ := h.chain
  obtain ⟨hnewfree, -⟩ := List.nodup_cons.mp h.nodup.of_append_right
  refine ⟨?l', ?heq, ?repr⟩
  case l' =>
    exact
      { this := l.this
        freeListHeadIdx := l.next new
        next := Function.update (Function.update l.next new (first capacity rest))
          (l.prev (first capacity rest)) new
        prev := Function.update (Function.update l.prev new (l.prev (first capacity rest)))
          (first capacity rest) new
        data := Function.update l.data new (some x)
        size := l.size + 1 }
  case heq =>
    simp only [CxxList.emplace, h.isInvalidIterOrDifferentLists_eq hat, Option.bind_some,
      Bool.false_eq_true, if_false, hroom, construct, getDataPtrFromIdx, IsValidElementIdx,
      setPrevIdx, setNextIdx, hhead, Function.update_self, hvalid, and_self, if_true,
      Option.map_some, Function.update_of_ne hne, h.this_eq]
  case repr =>
    refine
      { toStored := h.toStored.insert
        this_eq := h.this_eq
        ring := ?_
        chain := ?_
        invalid := fun i hi => ?_
        size := ?_ }
    · have hring := h.ring
      have hnodup := h.ring_nodup
      rw [List.map_append] at hring hnodup hnew
      rw [List.map_append, List.map_cons]
      exact hring.insertBefore hnodup hnew rfl
    · refine (hchain.update hnewfree).update fun hmem => ?_
      refine h.ring_not_free ?_ (List.mem_cons_of_mem _ hmem)
      exact h.ring.prev_mem_of_mem _ hat
    · have hiat := h.ne_of_free (first_mem_ring capacity front rest) (List.mem_cons_of_mem _ hi)
      change Function.update (Function.update l.prev new _) _ _ i = _
      rw [Function.update_of_ne hiat, Function.update_of_ne (ne_of_mem_of_not_mem hi hnewfree)]
      exact h.invalid i (List.mem_cons_of_mem _ hi)
    · change l.size + 1 = _
      rw [h.size, List.length_append, List.length_append, List.length_cons, Nat.add_assoc]

theorem erase {e : Nat × T} (h : Repr capacity this l (front ++ e :: rest) free) :
    ∃ l', l.erase capacity ⟨this, e.1⟩ = some (⟨this, first capacity rest⟩, l') ∧
      Repr capacity this l' (front ++ rest) (e.1 :: free) := by
  have hslots : (front ++ e :: rest).map Prod.fst =
      front.map Prod.fst ++ e.1 :: rest.map Prod.fst := by
    rw [List.map_append, List.map_cons]
  have hmem : e.1 ∈ (front ++ e :: rest).map Prod.fst := List.mem_map_of_mem (by simp)
  have hat := List.mem_append_left [capacity] hmem
  have hvalid := h.valid_iff.mpr hmem
  have hsize : ¬ l.size = 0 := by
    rw [h.size, List.length_append, List.length_cons]
    exact Nat.succ_ne_zero _
  have hring := h.ring
  have hcircle := h.ring_nodup
  rw [hslots] at hring hcircle
  obtain ⟨hleft, hright⟩ := Path.append.mp hring
  have hnext : l.next e.1 = first capacity rest := hright.next_eq
  have hcirclePrev : (front.map Prod.fst ++ e.1 :: rest.map Prod.fst ++ [capacity]).Nodup :=
    (List.perm_append_singleton _ _).nodup_iff.mpr hcircle
  have hout := h.slot_notMem
  have hne : first capacity rest ≠ e.1 :=
    ne_of_mem_of_not_mem (first_mem_ring capacity front rest) hout
  have hnefree : ∀ i ∈ free, i ≠ e.1 := fun i hi =>
    h.ne_of_free (List.mem_cons_of_mem _ hmem) hi
  have hlive : l.data e.1 = some e.2 := h.live e (by simp)
  refine ⟨?l', ?heq, ?repr⟩
  case l' =>
    exact
      { this := l.this
        freeListHeadIdx := e.1
        next := Function.update (Function.update l.next (l.prev e.1) (l.next e.1)) e.1
          l.freeListHeadIdx
        prev := Function.update (Function.update l.prev (l.next e.1) (l.prev e.1)) e.1
          (invalidIndex capacity)
        data := Function.update l.data e.1 none
        size := l.size - 1 }
  case heq =>
    simp only [CxxList.erase, h.isInvalidIterOrDifferentLists_eq hat, Option.bind_some,
      Bool.false_eq_true, if_false, not_true_eq_false, hsize, or_self, destruct, deref,
      getDataPtrFromIdx, IsValidElementIdx, setPrevIdx, setNextIdx, hnext,
      Function.update_of_ne hne.symm, hvalid.1, hvalid.2, and_self, if_true, hlive,
      Option.map_some, h.this_eq]
  case repr =>
    refine
      { toStored := h.toStored.erase
        this_eq := h.this_eq
        ring := ?_
        chain := ?_
        invalid := fun i hi => ?_
        size := ?_ }
    · rw [List.map_append] at hout ⊢
      refine (hring.remove hcircle hcirclePrev).congr (fun i hi => ?_) (fun i hi => ?_)
      · exact Function.update_of_ne (ne_of_mem_of_not_mem hi hout) _ _
      · refine Function.update_of_ne (ne_of_mem_of_not_mem ?_ hout) _ _
        exact (List.perm_append_singleton _ _).mem_iff.mp hi
    · refine (h.chain.update fun hfree => ?_).push ?_ (h.slot_lt hmem).ne
      · exact h.ring_not_free (h.ring.prev_mem_of_mem _ hat) hfree
      · exact h.not_free hmem
    · change Function.update (Function.update l.prev (l.next e.1) _) e.1 _ i = _
      rcases List.mem_cons.mp hi with rfl | hi
      · exact Function.update_self ..
      · have hnextmem : l.next e.1 ∈ capacity :: (front ++ e :: rest).map Prod.fst := by
          have hmem := first_mem_ring capacity (front ++ [e]) rest
          rwa [List.append_assoc, List.singleton_append, ← hnext] at hmem
        rw [Function.update_of_ne (hnefree i hi),
          Function.update_of_ne (h.ne_of_free hnextmem hi)]
        exact h.invalid i hi
    · change l.size - 1 = _
      rw [h.size, List.length_append, List.length_append, List.length_cons]
      rfl

theorem erase_end (h : Repr capacity this l elems free) :
    l.erase capacity ⟨this, capacity⟩ = some (⟨this, capacity⟩, l) := by
  have hvalid : ¬ l.IsValidElementIdx capacity capacity := fun hv => Nat.lt_irrefl _ hv.1
  have hat := List.mem_append_right (elems.map Prod.fst) (List.mem_singleton_self capacity)
  simp only [CxxList.erase, h.isInvalidIterOrDifferentLists_eq hat, Option.bind_some,
    Bool.false_eq_true, if_false, hvalid, not_false_eq_true, true_or, if_true, cend, h.this_eq]

theorem store {e : Nat × T} (h : Repr capacity this l (front ++ e :: rest) free) (list : Nat) :
    ∃ l', l.store capacity ⟨list, e.1⟩ x = some l' ∧
      Repr capacity this l' (front ++ (e.1, x) :: rest) free := by
  have hslots : (front ++ (e.1, x) :: rest).map Prod.fst = (front ++ e :: rest).map Prod.fst := by
    rw [List.map_append, List.map_append, List.map_cons, List.map_cons]
  refine ⟨{ l with data := Function.update l.data e.1 (some x) }, ?_, ?_⟩
  · rw [CxxList.store, h.deref_eq (by simp)]
    rfl
  · refine
      { toStored := h.toStored.store
        this_eq := h.this_eq
        ring := hslots ▸ h.ring
        chain := h.chain
        invalid := h.invalid
        size := ?_ }
    have hsize := h.size
    rw [List.length_append, List.length_cons] at hsize ⊢
    exact hsize

theorem equals_end (h : Repr capacity this l (front ++ rest) free) :
    l.equals capacity ⟨this, first capacity rest⟩ (l.cend capacity) =
      some (first capacity rest == capacity) := by
  have hend : capacity ∈ (front ++ rest).map Prod.fst ++ [capacity] :=
    List.mem_append_right _ (List.mem_singleton_self _)
  rw [h.cend_eq, equals]
  change (l.isInvalidIterOrDifferentLists capacity ⟨this, capacity⟩).bind _ = _
  rw [h.isInvalidIterOrDifferentLists_eq hend, Option.bind_some,
    h.isInvalidIterator_eq (first_mem capacity front rest)]
  rfl

theorem equals_end_cons {e : Nat × T} (h : Repr capacity this l (front ++ e :: rest) free) :
    l.equals capacity ⟨this, e.1⟩ (l.cend capacity) = some false := by
  have hmem : e.1 ∈ (front ++ e :: rest).map Prod.fst := List.mem_map_of_mem (by simp)
  exact h.equals_end.trans (congrArg some (beq_false_of_ne (h.slot_lt hmem).ne))

theorem clearLoop (h : Repr capacity this l elems free) :
    ∃ l', CxxList.clearLoop capacity elems.length l = some l' ∧
      Repr capacity this l' [] ((elems.map Prod.fst).reverse ++ free) := by
  induction elems generalizing l free with
  | nil =>
    refine ⟨l, ?_, h⟩
    rw [List.length_nil, CxxList.clearLoop]
    exact if_pos h.size
  | cons e rest ih =>
    have hfirst : Repr capacity this l ([] ++ e :: rest) free := h
    obtain ⟨m, hm, hrest⟩ := hfirst.erase
    obtain ⟨l', hl', hdone⟩ := ih hrest
    refine ⟨l', ?_, ?_⟩
    · have hsize : ¬ l.size = 0 := by
        rw [h.size]
        exact Nat.succ_ne_zero _
      rw [List.length_cons, CxxList.clearLoop, if_neg hsize, h.cbegin_eq]
      change (CxxList.erase capacity l ⟨this, e.1⟩).bind _ = _
      rw [hm]
      exact hl'
    · rwa [List.map_cons, List.reverse_cons, List.append_assoc, List.singleton_append]

theorem clear (h : Repr capacity this l elems free) :
    ∃ l', l.clear capacity = some l' ∧
      Repr capacity this l' [] ((elems.map Prod.fst).reverse ++ free) := by
  rw [CxxList.clear, h.size]
  exact h.clearLoop

theorem eraseLoop (h : Repr capacity this l (front ++ rest) free) :
    ∃ l', CxxList.eraseLoop capacity rest.length ⟨this, first capacity rest⟩ l = some l' ∧
      Repr capacity this l' front ((rest.map Prod.fst).reverse ++ free) := by
  induction rest generalizing l free with
  | nil =>
    refine ⟨l, rfl, ?_⟩
    rwa [List.append_nil] at h
  | cons e rest ih =>
    obtain ⟨m, hm, hrest⟩ := h.erase
    obtain ⟨l', hl', hdone⟩ := ih hrest
    refine ⟨l', ?_, ?_⟩
    · rw [List.length_cons, CxxList.eraseLoop]
      change (CxxList.erase capacity l ⟨this, e.1⟩).bind _ = _
      rw [hm]
      exact hl'
    · rwa [List.map_cons, List.reverse_cons, List.append_assoc, List.singleton_append]

theorem removeIfLoop (pred : T → Bool) {fuel : Nat} (count : Nat)
    (hfuel : rest.length < fuel) (h : Repr capacity this l (front ++ rest) free) :
    ∃ l', CxxList.removeIfLoop capacity pred fuel ⟨this, first capacity rest⟩ count l =
        some (count + rest.countP (fun e => pred e.2), l') ∧
      Repr capacity this l' (front ++ rest.filter fun e => !pred e.2)
        (((rest.filter fun e => pred e.2).map Prod.fst).reverse ++ free) := by
  induction rest generalizing l front free fuel count with
  | nil =>
    obtain ⟨fuel, rfl⟩ := Nat.exists_eq_succ_of_ne_zero (Nat.ne_of_gt hfuel)
    refine ⟨l, ?_, h⟩
    rw [CxxList.removeIfLoop, h.equals_end]
    simp [first]
  | cons e rest ih =>
    obtain ⟨fuel, rfl⟩ := Nat.exists_eq_succ_of_ne_zero (Nat.ne_of_gt (Nat.zero_lt_of_lt hfuel))
    have hfuel' : rest.length < fuel := Nat.lt_of_succ_lt_succ hfuel
    have hround : CxxList.removeIfLoop capacity pred (fuel + 1)
        ⟨this, first capacity (e :: rest)⟩ count l =
        if pred e.2 then
          (l.erase capacity ⟨this, e.1⟩).bind fun r =>
            CxxList.removeIfLoop capacity pred fuel r.1 (count + 1) r.2
        else
          (l.increment capacity ⟨this, e.1⟩).bind fun iter =>
            CxxList.removeIfLoop capacity pred fuel iter count l := by
      change CxxList.removeIfLoop capacity pred (fuel + 1) ⟨this, e.1⟩ count l = _
      rw [CxxList.removeIfLoop, h.equals_end_cons, h.deref_eq (by simp)]
      rfl
    rw [Nat.succ_eq_add_one, hround]
    by_cases hpred : pred e.2 = true
    · obtain ⟨m, hm, hrest⟩ := h.erase
      obtain ⟨l', hl', hdone⟩ := ih (count + 1) hfuel' hrest
      refine ⟨l', ?_, ?_⟩
      · rw [if_pos hpred, hm, Option.bind_some, hl', List.countP_cons, if_pos hpred,
          Nat.add_assoc, Nat.add_comm 1]
      · rw [List.filter_cons, List.filter_cons, if_neg (by simp [hpred]), if_pos hpred,
          List.map_cons, List.reverse_cons, List.append_assoc, List.singleton_append]
        exact hdone
    · have hkeep : front ++ e :: rest = (front ++ [e]) ++ rest := by
        rw [List.append_assoc, List.singleton_append]
      obtain ⟨l', hl', hdone⟩ := ih count hfuel' (hkeep ▸ h)
      refine ⟨l', ?_, ?_⟩
      · rw [if_neg hpred, h.increment_eq, Option.bind_some, hl', List.countP_cons, if_neg hpred,
          Nat.add_zero]
      · rw [List.filter_cons, List.filter_cons, if_pos (by simp [hpred]), if_neg hpred]
        rwa [List.append_assoc, List.singleton_append] at hdone

theorem removeIf {pred : T → Bool} (h : Repr capacity this l elems free) :
    ∃ l', l.removeIf capacity pred = some (elems.countP (fun e => pred e.2), l') ∧
      Repr capacity this l' (elems.filter fun e => !pred e.2)
        (((elems.filter fun e => pred e.2).map Prod.fst).reverse ++ free) := by
  have hall : Repr capacity this l ([] ++ elems) free := h
  obtain ⟨l', hl', hdone⟩ := hall.removeIfLoop pred 0 (Nat.lt_succ_self elems.length)
  refine ⟨l', ?_, hdone⟩
  rw [CxxList.removeIf, h.size, h.cbegin_eq]
  rw [Nat.zero_add] at hl'
  exact hl'

section assignments

variable {that : Nat} {rhs : CxxList T} {front' rest' elems' : List (Nat × T)}
  {free' : List Nat}

theorem overwriteLoop (leave : T → T) {shared shared' : List (Nat × T)}
    (hlength : shared.length = shared'.length)
    (h : Repr capacity this l (front ++ (shared ++ rest)) free)
    (h' : Repr capacity that rhs (front' ++ (shared' ++ rest')) free') :
    ∃ m m', CxxList.overwriteLoop capacity leave shared.length
        ⟨this, first capacity (shared ++ rest)⟩ ⟨that, first capacity (shared' ++ rest')⟩ l rhs =
        some ((⟨this, first capacity rest⟩, m), (⟨that, first capacity rest'⟩, m')) ∧
      Repr capacity this m
        (front ++ ((shared.map Prod.fst).zip (shared'.map Prod.snd) ++ rest)) free ∧
      Repr capacity that m' (front' ++ (shared'.map (fun e => (e.1, leave e.2)) ++ rest'))
        free' := by
  induction shared generalizing shared' l rhs front front' with
  | nil =>
    obtain rfl := List.eq_nil_of_length_eq_zero hlength.symm
    exact ⟨l, rhs, rfl, h, h'⟩
  | cons e es ih =>
    cases shared' with
    | nil => cases hlength
    | cons e' es' =>
      rw [List.cons_append] at h h'
      obtain ⟨m', hm', hrhs⟩ := h'.store (x := leave e'.2) that
      obtain ⟨m, hm, hl⟩ := h.store (x := e'.2) this
      have hstep : front ++ (e.1, e'.2) :: (es ++ rest) =
          (front ++ [(e.1, e'.2)]) ++ (es ++ rest) := by
        rw [List.append_assoc, List.singleton_append]
      have hstep' : front' ++ (e'.1, leave e'.2) :: (es' ++ rest') =
          (front' ++ [(e'.1, leave e'.2)]) ++ (es' ++ rest') := by
        rw [List.append_assoc, List.singleton_append]
      obtain ⟨k, k', hk, hdone, hdone'⟩ := ih (Nat.succ.inj hlength) (hstep ▸ hl) (hstep' ▸ hrhs)
      refine ⟨k, k', ?_, ?_, ?_⟩
      · rw [List.length_cons, CxxList.overwriteLoop, List.cons_append, List.cons_append]
        change (rhs.deref capacity ⟨that, e'.1⟩).bind _ = _
        rw [h'.deref_eq (by simp), Option.bind_some]
        change (rhs.store capacity ⟨that, e'.1⟩ _).bind _ = _
        rw [hm', Option.bind_some]
        change (l.store capacity ⟨this, e.1⟩ _).bind _ = _
        rw [hm, Option.bind_some]
        change (m.increment capacity ⟨this, e.1⟩).bind _ = _
        rw [hl.increment_eq (e := (e.1, e'.2)), Option.bind_some]
        change (m'.increment capacity ⟨that, e'.1⟩).bind _ = _
        rw [hrhs.increment_eq (e := (e'.1, leave e'.2)), Option.bind_some, hk]
      · rwa [List.append_assoc, List.singleton_append] at hdone
      · rwa [List.append_assoc, List.singleton_append] at hdone'

theorem appendLoop (leave : T → T) {new : List Nat} (hlength : new.length = rest'.length)
    (h : Repr capacity this l elems (new ++ free))
    (h' : Repr capacity that rhs (front' ++ rest') free') :
    ∃ m m', CxxList.appendLoop capacity leave rest'.length ⟨that, first capacity rest'⟩ l rhs =
        some (m, m') ∧
      Repr capacity this m (elems ++ new.zip (rest'.map Prod.snd)) free ∧
      Repr capacity that m' (front' ++ rest'.map fun e => (e.1, leave e.2)) free' := by
  induction rest' generalizing new l rhs elems front' with
  | nil =>
    obtain rfl := List.eq_nil_of_length_eq_zero hlength
    refine ⟨l, rhs, rfl, ?_, h'⟩
    rw [List.zip_nil_left, List.append_nil]
    exact h
  | cons e' rest' ih =>
    cases new with
    | nil => cases hlength
    | cons i new =>
      have hl := h
      rw [← List.append_nil elems] at hl
      obtain ⟨m', hm', hrhs⟩ := h'.store (x := leave e'.2) that
      obtain ⟨m, hm, hnext⟩ := hl.emplace (x := e'.2)
      have hstep' : front' ++ (e'.1, leave e'.2) :: rest' =
          (front' ++ [(e'.1, leave e'.2)]) ++ rest' := by
        rw [List.append_assoc, List.singleton_append]
      obtain ⟨k, k', hk, hdone, hdone'⟩ := ih (Nat.succ.inj hlength) hnext (hstep' ▸ hrhs)
      refine ⟨k, k', ?_, ?_, ?_⟩
      · rw [List.length_cons, CxxList.appendLoop]
        change (rhs.deref capacity ⟨that, e'.1⟩).bind _ = _
        rw [h'.deref_eq (by simp), Option.bind_some]
        change (rhs.store capacity ⟨that, e'.1⟩ _).bind _ = _
        rw [hm', Option.bind_some, h.cend_eq, hm, Option.bind_some]
        change (m'.increment capacity ⟨that, e'.1⟩).bind _ = _
        rw [hrhs.increment_eq (e := (e'.1, leave e'.2)), Option.bind_some, hk]
      · rwa [List.append_assoc, List.singleton_append] at hdone
      · rwa [List.append_assoc, List.singleton_append] at hdone'

theorem moveLoop (movedFrom : T → T) {new : List Nat} {fuel : Nat}
    (hfuel : rest'.length < fuel) (hlength : new.length = rest'.length)
    (h : Repr capacity this l elems (new ++ free))
    (h' : Repr capacity that rhs (front' ++ rest') free') :
    ∃ m m', CxxList.moveLoop capacity movedFrom ⟨this, capacity⟩ fuel
        ⟨that, first capacity rest'⟩ l rhs = some (m, m') ∧
      Repr capacity this m (elems ++ new.zip (rest'.map Prod.snd)) free ∧
      Repr capacity that m' (front' ++ rest'.map fun e => (e.1, movedFrom e.2)) free' := by
  induction rest' generalizing new l rhs elems front' fuel with
  | nil =>
    obtain ⟨fuel, rfl⟩ := Nat.exists_eq_succ_of_ne_zero (Nat.ne_of_gt hfuel)
    obtain rfl := List.eq_nil_of_length_eq_zero hlength
    refine ⟨l, rhs, ?_, ?_, h'⟩
    · rw [CxxList.moveLoop, h'.equals_end]
      simp [first]
    · rw [List.zip_nil_left, List.append_nil]
      exact h
  | cons e' rest' ih =>
    obtain ⟨fuel, rfl⟩ := Nat.exists_eq_succ_of_ne_zero (Nat.ne_of_gt (Nat.zero_lt_of_lt hfuel))
    cases new with
    | nil => cases hlength
    | cons i new =>
      have hl := h
      rw [← List.append_nil elems] at hl
      obtain ⟨m', hm', hrhs⟩ := h'.store (x := movedFrom e'.2) that
      obtain ⟨m, hm, hnext⟩ := hl.emplace (x := e'.2)
      have hstep' : front' ++ (e'.1, movedFrom e'.2) :: rest' =
          (front' ++ [(e'.1, movedFrom e'.2)]) ++ rest' := by
        rw [List.append_assoc, List.singleton_append]
      obtain ⟨k, k', hk, hdone, hdone'⟩ := ih (Nat.lt_of_succ_lt_succ hfuel)
        (Nat.succ.inj hlength) hnext (hstep' ▸ hrhs)
      refine ⟨k, k', ?_, ?_, ?_⟩
      · rw [CxxList.moveLoop]
        change (rhs.equals capacity ⟨that, e'.1⟩ _).bind _ = _
        rw [h'.equals_end_cons]
        change (rhs.deref capacity ⟨that, e'.1⟩).bind _ = _
        rw [h'.deref_eq (by simp), Option.bind_some]
        change (rhs.store capacity ⟨that, e'.1⟩ _).bind _ = _
        rw [hm', Option.bind_some]
        change (l.emplace capacity ⟨this, first capacity ([] : List (Nat × T))⟩ _).bind _ = _
        rw [hm, Option.bind_some]
        change (m'.increment capacity ⟨that, e'.1⟩).bind _ = _
        rw [hrhs.increment_eq (e := (e'.1, movedFrom e'.2)), Option.bind_some, hk]
      · rwa [List.append_assoc, List.singleton_append] at hdone
      · rwa [List.append_assoc, List.singleton_append] at hdone'

theorem assign_grow (leave : T → T) {shared' : List (Nat × T)} {unused : List Nat}
    (hshared : elems.length = shared'.length) (hunused : unused.length = rest'.length)
    (h : Repr capacity this l elems (unused ++ free))
    (h' : Repr capacity that rhs (shared' ++ rest') free') :
    ∃ m m', l.assign capacity leave rhs = some (m, m') ∧
      Repr capacity this m
        ((elems.map Prod.fst).zip (shared'.map Prod.snd) ++ unused.zip (rest'.map Prod.snd))
        free ∧
      Repr capacity that m' ((shared' ++ rest').map fun e => (e.1, leave e.2)) free' := by
  have hl : Repr capacity this l ([] ++ (elems ++ [])) (unused ++ free) := by
    rwa [List.append_nil]
  have hrhs : Repr capacity that rhs ([] ++ (shared' ++ rest')) free' := h'
  obtain ⟨k, k', hk, hthis, hthat⟩ := overwriteLoop leave hshared hl hrhs
  rw [List.append_nil] at hthis hk
  obtain ⟨m, m', hm, hdone, hdone'⟩ := hthis.appendLoop leave hunused hthat
  refine ⟨m, m', ?_, hdone, ?_⟩
  · have hsize : rhs.size = elems.length + rest'.length := by
      rw [h'.size, List.length_append, hshared]
    rw [CxxList.assign, h.cbegin_eq, h'.cbegin_eq, h.size, hsize,
      Nat.min_eq_right (Nat.le_add_right _ _), hk, Option.bind_some, Nat.add_sub_cancel_left, hm,
      Option.bind_some, Nat.sub_eq_zero_of_le (Nat.le_add_right _ _)]
    rfl
  · rw [List.map_append]
    exact hdone'

theorem assign_shrink (leave : T → T) {shared : List (Nat × T)}
    (hshared : shared.length = elems'.length)
    (h : Repr capacity this l (shared ++ rest) free) (h' : Repr capacity that rhs elems' free') :
    ∃ m m', l.assign capacity leave rhs = some (m, m') ∧
      Repr capacity this m ((shared.map Prod.fst).zip (elems'.map Prod.snd))
        ((rest.map Prod.fst).reverse ++ free) ∧
      Repr capacity that m' (elems'.map fun e => (e.1, leave e.2)) free' := by
  have hl : Repr capacity this l ([] ++ (shared ++ rest)) free := h
  have hrhs : Repr capacity that rhs ([] ++ (elems' ++ [])) free' := by
    rwa [List.append_nil]
  obtain ⟨k, k', hk, hthis, hthat⟩ := overwriteLoop leave hshared hl hrhs
  rw [List.append_nil] at hthat hk
  rw [List.nil_append] at hthis
  obtain ⟨m, hm, hdone⟩ := hthis.eraseLoop
  refine ⟨m, k', ?_, hdone, hthat⟩
  have hsize : l.size = elems'.length + rest.length := by
    rw [h.size, List.length_append, hshared]
  rw [CxxList.assign, h.cbegin_eq, h'.cbegin_eq, h'.size, hsize,
    Nat.min_eq_left (Nat.le_add_right _ _), ← hshared, hk, Option.bind_some, Nat.sub_self,
    CxxList.appendLoop, Option.bind_some, hshared, Nat.add_sub_cancel_left, hm]
  rfl

theorem assign (leave : T → T) (h : Repr capacity this l elems free)
    (h' : Repr capacity that rhs elems' free') :
    ∃ m m', l.assign capacity leave rhs = some (m, m') ∧
      Repr capacity this m (SlotSeq.assign ⟨elems, free⟩ (elems'.map Prod.snd)).elems
        (SlotSeq.assign ⟨elems, free⟩ (elems'.map Prod.snd)).free ∧
      Repr capacity that m' (elems'.map fun e => (e.1, leave e.2)) free' := by
  rcases Nat.le_total elems.length elems'.length with hle | hle
  · obtain ⟨shared', rest', rfl, hshared⟩ : ∃ shared' rest', elems' = shared' ++ rest' ∧
        elems.length = shared'.length :=
      ⟨elems'.take elems.length, elems'.drop elems.length,
        (List.take_append_drop elems.length elems').symm,
        (List.length_take_of_le hle).symm⟩
    obtain ⟨unused, others, rfl, hunused⟩ : ∃ unused others, free = unused ++ others ∧
        unused.length = rest'.length := by
      refine ⟨free.take rest'.length, free.drop rest'.length,
        (List.take_append_drop rest'.length free).symm, List.length_take_of_le ?_⟩
      have hlength := h.length_add
      have hlength' := h'.length_le
      rw [List.length_append] at hlength'
      omega
    rw [SlotSeq.assign_grow hshared hunused]
    exact assign_grow leave hshared hunused h h'
  · obtain ⟨shared, rest, rfl, hshared⟩ : ∃ shared rest, elems = shared ++ rest ∧
        shared.length = elems'.length :=
      ⟨elems.take elems'.length, elems.drop elems'.length,
        (List.take_append_drop elems'.length elems).symm, List.length_take_of_le hle⟩
    rw [SlotSeq.assign_shrink hshared]
    exact assign_shrink leave hshared h h'

end assignments

theorem chain_range' {next : Nat → Nat} (hnext : ∀ i < capacity, next i = i + 1) (n k : Nat)
    (hk : k + n = capacity) : Chain next (· = capacity) k (List.range' k n) := by
  induction n generalizing k with
  | zero => exact hk
  | succ n ih =>
    have hlt : k < capacity := by omega
    rw [List.range'_succ]
    refine ⟨rfl, hlt.ne, ?_⟩
    rw [hnext k hlt]
    exact ih (k + 1) (by omega)

theorem init (hthis : l.this = this) (hraw : ∀ i < capacity, l.data i = none) :
    Repr capacity this (l.init capacity) [] (List.range capacity) where
  toStored := by
    rw [(init_fields l).2]
    exact Stored.empty hraw
  this_eq := (init_fields l).1.trans hthis
  ring := init_end l
  chain := by
    rw [List.range_eq_range']
    exact chain_range' (fun i hi => init_next l hi) capacity 0 (Nat.zero_add _)
  invalid := fun i hi => init_prev l (List.mem_range.mp hi)
  size := rfl

theorem init_of_empty (h : Repr capacity this l [] free) :
    Repr capacity this (l.init capacity) [] (List.range capacity) :=
  init h.this_eq h.raw_of_empty

theorem emplace_before {s : SlotSeq T} (h : Repr capacity this l s.elems s.free)
    (hi : i ∈ s.slots ∨ i = capacity) :
    ∃ l', l.emplace capacity ⟨this, i⟩ x =
        some (⟨this, (s.insertBefore capacity i x).1⟩, l') ∧
      Repr capacity this l' (s.insertBefore capacity i x).2.elems
        (s.insertBefore capacity i x).2.free := by
  obtain ⟨elems, free⟩ := s
  cases free with
  | nil =>
    refine ⟨l, h.emplace_full ?_, h⟩
    exact List.mem_append.mpr (hi.imp_right List.mem_singleton.mpr)
  | cons new free =>
    have hsplit := SlotSeq.before_append_behind ⟨elems, new :: free⟩ i
    obtain ⟨l', hl', hdone⟩ := (hsplit ▸ h).emplace (x := x)
    rw [SlotSeq.first_behind hi] at hl'
    exact ⟨l', hl', hdone⟩

theorem erase_at {s : SlotSeq T} (h : Repr capacity this l s.elems s.free)
    (hi : i ∈ s.slots ∨ i = capacity) :
    ∃ l', l.erase capacity ⟨this, i⟩ = some (⟨this, (s.erase capacity i).1⟩, l') ∧
      Repr capacity this l' (s.erase capacity i).2.elems (s.erase capacity i).2.free := by
  have hfirst := SlotSeq.first_behind hi
  rw [SlotSeq.erase]
  split
  · next hnone =>
    rw [hnone] at hfirst
    obtain rfl : capacity = i := hfirst
    exact ⟨l, h.erase_end, h⟩
  · next e rest hsome =>
    rw [hsome] at hfirst
    obtain rfl : e.1 = i := hfirst
    rw [← SlotSeq.before_append_behind s e.1, hsome] at h
    exact h.erase

theorem emplace_deref {s : SlotSeq T} (h : Repr capacity this l s.elems s.free)
    (hi : i ∈ s.slots ∨ i = capacity) (hroom : l.size < capacity) :
    ∃ l', ((l.emplace capacity ⟨this, i⟩ x).bind fun r =>
        (r.2.deref capacity r.1).map fun y => (y, r.2)) = some (x, l') ∧
      Repr capacity this l' (s.insertBefore capacity i x).2.elems
        (s.insertBefore capacity i x).2.free := by
  obtain ⟨l', hl', hdone⟩ := h.emplace_before (x := x) hi
  refine ⟨l', ?_, hdone⟩
  obtain ⟨elems, free⟩ := s
  cases free with
  | nil =>
    have hlength : elems.length + 0 = capacity := h.length_add
    have hsize : l.size = elems.length := h.size
    omega
  | cons new free =>
    have hderef := hdone.deref_eq (e := (new, x)) (by simp [SlotSeq.insertBefore]) this
    rw [hl', Option.bind_some]
    change (l'.deref capacity ⟨this, new⟩).map _ = _
    rw [hderef]
    rfl

theorem pushAt {s : SlotSeq T} (h : Repr capacity this l s.elems s.free)
    (hi : i ∈ s.slots ∨ i = capacity) :
    ∃ l', l.pushAt capacity ⟨this, i⟩ x = some (!s.free.isEmpty, l') ∧
      Repr capacity this l' (s.insertBefore capacity i x).2.elems
        (s.insertBefore capacity i x).2.free := by
  obtain ⟨l', hl', hdone⟩ := h.emplace_before (x := x) hi
  obtain ⟨elems, free⟩ := s
  have hlength : elems.length + free.length = capacity := h.length_add
  have hsize : l.size = elems.length := h.size
  cases free with
  | nil =>
    refine ⟨l, ?_, h⟩
    rw [CxxList.pushAt, if_neg (by rw [hsize, ← hlength]; exact Nat.lt_irrefl _)]
    simp
  | cons new free =>
    refine ⟨l', ?_, hdone⟩
    have hgrown : l'.size = l.size + 1 := by
      have hsplit := congrArg List.length (SlotSeq.before_append_behind ⟨elems, new :: free⟩ i)
      rw [List.length_append] at hsplit
      rw [hdone.size, hsize, SlotSeq.insertBefore, List.length_append, List.length_cons,
        ← Nat.add_assoc, hsplit]
    have hroom : l.size < capacity := by
      rw [List.length_cons] at hlength
      omega
    rw [CxxList.pushAt, if_pos hroom, hl']
    simp [hgrown]

theorem popAt {s : SlotSeq T} (h : Repr capacity this l s.elems s.free)
    (hi : i ∈ s.slots ∨ s.elems = [] ∧ i = capacity) :
    ∃ l', ((l.erase capacity ⟨this, i⟩).map fun r => (r.2.size + 1 == l.size, r.2)) =
        some (!s.elems.isEmpty, l') ∧
      Repr capacity this l' (s.erase capacity i).2.elems (s.erase capacity i).2.free := by
  obtain ⟨l', hl', hdone⟩ := h.erase_at (hi.imp_right And.right)
  refine ⟨l', ?_, hdone⟩
  rw [hl', Option.map_some]
  congr 2
  have hsize := hdone.size
  rw [h.size, hsize]
  rcases hi with hi | ⟨hempty, rfl⟩
  · obtain ⟨y, rest, hbehind⟩ := SlotSeq.behind_eq hi
    have hsplit := SlotSeq.before_append_behind s i
    have hone : (s.before i ++ rest).length + 1 = s.elems.length := by
      rw [← hsplit, hbehind, List.length_append, List.length_append, List.length_cons,
        Nat.add_assoc]
    have hnonempty : s.elems.isEmpty = false := by
      rw [← hsplit, hbehind]
      simp
    rw [SlotSeq.erase, hbehind, hnonempty]
    exact beq_iff_eq.mpr hone
  · simp [hempty, SlotSeq.erase, SlotSeq.behind]

theorem decrement_cend (h : Repr capacity this l elems free) :
    l.decrement capacity (l.cend capacity) = some ⟨this, SlotSeq.last capacity ⟨elems, free⟩⟩ := by
  rw [← List.append_nil elems] at h
  rw [h.cend_eq, h.decrement_eq]
  rfl

section constructors

variable {that : Nat} {rhs : CxxList T} {elems' : List (Nat × T)} {free' : List Nat}
  {movedFrom : T → T}

theorem copyAssign (h : Repr capacity this l elems free)
    (h' : Repr capacity that rhs elems' free') :
    ∃ m, l.copyAssign capacity rhs = some m ∧
      Repr capacity this m (SlotSeq.assign ⟨elems, free⟩ (elems'.map Prod.snd)).elems
        (SlotSeq.assign ⟨elems, free⟩ (elems'.map Prod.snd)).free := by
  obtain ⟨m, m', hm, hdone, -⟩ := h.assign id h'
  refine ⟨m, ?_, hdone⟩
  rw [CxxList.copyAssign, hm]
  rfl

theorem moveAssign (h : Repr capacity this l elems free)
    (h' : Repr capacity that rhs elems' free') :
    ∃ m m', l.moveAssign capacity movedFrom rhs = some (m, m') ∧
      Repr capacity this m (SlotSeq.assign ⟨elems, free⟩ (elems'.map Prod.snd)).elems
        (SlotSeq.assign ⟨elems, free⟩ (elems'.map Prod.snd)).free ∧
      Repr capacity that m' [] ((elems'.map Prod.fst).reverse ++ free') := by
  obtain ⟨m, k', hm, hdone, hrhs⟩ := h.assign movedFrom h'
  obtain ⟨m', hm', hcleared⟩ := hrhs.clear
  rw [List.map_map] at hcleared
  refine ⟨m, m', ?_, hdone, hcleared⟩
  rw [CxxList.moveAssign, hm, Option.bind_some, hm']
  rfl

theorem copyConstruct (h : Repr capacity this l elems free)
    (h' : Repr capacity that rhs elems' free') :
    ∃ m, ((l.clear capacity).bind fun m => m.copyConstruct capacity rhs) = some m ∧
      Repr capacity this m (SlotSeq.assign (SlotSeq.new capacity) (elems'.map Prod.snd)).elems
        (SlotSeq.assign (SlotSeq.new capacity) (elems'.map Prod.snd)).free := by
  obtain ⟨k, hk, hcleared⟩ := h.clear
  rw [hk, Option.bind_some]
  exact hcleared.init_of_empty.copyAssign h'

theorem moveConstruct (h : Repr capacity this l elems free)
    (h' : Repr capacity that rhs elems' free') :
    ∃ m m', ((l.clear capacity).bind fun m => m.moveConstruct capacity movedFrom rhs) =
        some (m, m') ∧
      Repr capacity this m (SlotSeq.assign (SlotSeq.new capacity) (elems'.map Prod.snd)).elems
        (SlotSeq.assign (SlotSeq.new capacity) (elems'.map Prod.snd)).free ∧
      Repr capacity that m' [] ((elems'.map Prod.fst).reverse ++ free') := by
  obtain ⟨k, hk, hcleared⟩ := h.clear
  have hnew := hcleared.init_of_empty
  obtain ⟨unused, others, hrange, hunused⟩ : ∃ unused others,
      List.range capacity = unused ++ others ∧ unused.length = elems'.length := by
    refine ⟨(List.range capacity).take elems'.length, (List.range capacity).drop elems'.length,
      (List.take_append_drop _ _).symm, List.length_take_of_le ?_⟩
    rw [List.length_range]
    exact h'.length_le
  have hassign : SlotSeq.assign ⟨[], unused ++ others⟩ (elems'.map Prod.snd) =
      ⟨unused.zip (elems'.map Prod.snd), others⟩ :=
    SlotSeq.assign_grow (Eq.refl ([] : List (Nat × T)).length) hunused
  rw [SlotSeq.new, hrange, hassign]
  rw [hrange] at hnew
  have hall : Repr capacity that rhs ([] ++ elems') free' := h'
  obtain ⟨m, k', hm, hdone, hrhs⟩ := hnew.moveLoop movedFrom
    (Nat.lt_succ_self elems'.length) hunused hall
  obtain ⟨m', hm', hemptied⟩ := hrhs.clear
  rw [List.nil_append, List.map_map] at hemptied
  refine ⟨m, m', ?_, hdone, hemptied⟩
  rw [hk, Option.bind_some, CxxList.moveConstruct, hnew.cbegin_eq, h'.cbegin_eq, h'.size]
  change (CxxList.moveLoop capacity movedFrom ⟨this, capacity⟩ _ _ _ _).bind _ = _
  rw [hm, Option.bind_some, hm']
  rfl

end constructors

end Repr

end CxxList

/-- The operations of any number of lists with the same capacity.  A constructor builds the list
anew where one was destroyed. -/
inductive ListOp (T : Type u)
  | emplace (l : Nat) (iter : CxxIterator) (x : T)
  | insert (l : Nat) (iter : CxxIterator) (x : T)
  | emplaceFront (l : Nat) (x : T)
  | emplaceBack (l : Nat) (x : T)
  | pushFront (l : Nat) (x : T)
  | pushBack (l : Nat) (x : T)
  | popFront (l : Nat)
  | popBack (l : Nat)
  | erase (l : Nat) (iter : CxxIterator)
  | remove (l : Nat) (x : T)
  | removeIf (l : Nat) (pred : T → Bool)
  | clear (l : Nat)
  | copyAssign (l rhs : Nat)
  | moveAssign (l rhs : Nat)
  | copyConstruct (l rhs : Nat)
  | moveConstruct (l rhs : Nat)

namespace ListOp

open ListRun

variable [BEq T] (movedFrom : T → T) (capacity : Nat)

def exec (ls : Nat → CxxList T) : ListOp T → Option (ListResult T × (Nat → CxxList T))
  | .emplace l iter x => on ls l .iter ((ls l).emplace capacity iter x)
  | .insert l iter x => on ls l .iter ((ls l).insert capacity iter x)
  | .emplaceFront l x => on ls l .value ((ls l).emplaceFront capacity x)
  | .emplaceBack l x => on ls l .value ((ls l).emplaceBack capacity x)
  | .pushFront l x => on ls l .flag ((ls l).pushFront capacity x)
  | .pushBack l x => on ls l .flag ((ls l).pushBack capacity x)
  | .popFront l => on ls l .flag ((ls l).popFront capacity)
  | .popBack l => on ls l .flag ((ls l).popBack capacity)
  | .erase l iter => on ls l .iter ((ls l).erase capacity iter)
  | .remove l x => on ls l .count ((ls l).remove capacity x)
  | .removeIf l pred => on ls l .count ((ls l).removeIf capacity pred)
  | .clear l => onOne ls l ((ls l).clear capacity)
  | .copyAssign l rhs =>
    if l = rhs then some (.done, ls)
    else onOne ls l ((ls l).copyAssign capacity (ls rhs))
  | .moveAssign l rhs =>
    if l = rhs then some (.done, ls)
    else onBoth ls l rhs ((ls l).moveAssign capacity movedFrom (ls rhs))
  | .copyConstruct l rhs =>
    onOne ls l (((ls l).clear capacity).bind fun m => m.copyConstruct capacity (ls rhs))
  | .moveConstruct l rhs =>
    onBoth ls l rhs
      (((ls l).clear capacity).bind fun m => m.moveConstruct capacity movedFrom (ls rhs))

def execSeq (ss : Nat → SlotSeq T) : ListOp T → ListResult T × (Nat → SlotSeq T)
  | .emplace l iter x =>
    let r := (ss l).insertBefore capacity iter.idx x
    (.iter ⟨l, r.1⟩, Function.update ss l r.2)
  | .insert l iter x =>
    let r := (ss l).insertBefore capacity iter.idx x
    (.iter ⟨l, r.1⟩, Function.update ss l r.2)
  | .emplaceFront l x =>
    (.value x, Function.update ss l ((ss l).insertBefore capacity ((ss l).begin capacity) x).2)
  | .emplaceBack l x =>
    (.value x, Function.update ss l ((ss l).insertBefore capacity capacity x).2)
  | .pushFront l x =>
    (.flag !(ss l).free.isEmpty,
      Function.update ss l ((ss l).insertBefore capacity ((ss l).begin capacity) x).2)
  | .pushBack l x =>
    (.flag !(ss l).free.isEmpty,
      Function.update ss l ((ss l).insertBefore capacity capacity x).2)
  | .popFront l =>
    (.flag !(ss l).elems.isEmpty,
      Function.update ss l ((ss l).erase capacity ((ss l).begin capacity)).2)
  | .popBack l =>
    (.flag !(ss l).elems.isEmpty,
      Function.update ss l ((ss l).erase capacity ((ss l).last capacity)).2)
  | .erase l iter =>
    let r := (ss l).erase capacity iter.idx
    (.iter ⟨l, r.1⟩, Function.update ss l r.2)
  | .remove l x =>
    let r := (ss l).removeIf fun y => y == x
    (.count r.1, Function.update ss l r.2)
  | .removeIf l pred =>
    let r := (ss l).removeIf pred
    (.count r.1, Function.update ss l r.2)
  | .clear l => (.done, Function.update ss l (ss l).clear)
  | .copyAssign l rhs =>
    if l = rhs then (.done, ss)
    else (.done, Function.update ss l ((ss l).assign (ss rhs).values))
  | .moveAssign l rhs =>
    if l = rhs then (.done, ss)
    else
      (.done,
        Function.update (Function.update ss l ((ss l).assign (ss rhs).values)) rhs (ss rhs).clear)
  | .copyConstruct l rhs =>
    (.done, Function.update ss l ((SlotSeq.new capacity).assign (ss rhs).values))
  | .moveConstruct l rhs =>
    (.done,
      Function.update (Function.update ss l ((SlotSeq.new capacity).assign (ss rhs).values)) rhs
        (ss rhs).clear)

def Removes (ss : Nat → SlotSeq T) (k i : Nat) : ListOp T → Prop
  | .popFront l => k = l ∧ i = (ss l).begin capacity
  | .popBack l => k = l ∧ i = (ss l).last capacity
  | .erase l iter => k = l ∧ i = iter.idx
  | .remove l x => k = l ∧ ∃ y, (i, y) ∈ (ss l).elems ∧ (y == x) = true
  | .removeIf l pred => k = l ∧ ∃ y, (i, y) ∈ (ss l).elems ∧ pred y = true
  | .clear l => k = l
  | .copyAssign l rhs => l ≠ rhs ∧ k = l ∧ i ∈ (ss l).slots.drop (ss rhs).elems.length
  | .moveAssign l rhs =>
    l ≠ rhs ∧ (k = rhs ∨ k = l ∧ i ∈ (ss l).slots.drop (ss rhs).elems.length)
  | .copyConstruct l _ => k = l
  | .moveConstruct l rhs => k = l ∨ k = rhs
  | _ => False

def Overwrites (k : Nat) : ListOp T → Prop
  | .copyAssign l _ => k = l
  | .moveAssign l _ => k = l
  | _ => False

end ListOp

namespace CxxList

variable (movedFrom : T → T) (capacity : Nat)

def start (memory : Nat → Nat) : ListRun (CxxList T) T where
  lists := fun l =>
    CxxList.init capacity
      { this := l
        freeListHeadIdx := 0
        next := memory
        prev := memory
        data := fun _ => none
        size := 0 }
  seqs := fun _ => SlotSeq.new capacity
  results := []
  expected := []

def step [BEq T] (s : ListRun (CxxList T) T) (op : ListOp T) : Option (ListRun (CxxList T) T) :=
  s.advance (op.exec movedFrom capacity s.lists) (op.execSeq capacity s.seqs)

def Denotes (s : ListRun (CxxList T) T) (l : Nat) (iter : CxxIterator) : Prop :=
  iter.list = l ∧ (iter.idx ∈ (s.seqs l).slots ∨ iter.idx = capacity)

def Admissible (s : ListRun (CxxList T) T) : ListOp T → Prop
  | .emplace l iter _ => Denotes capacity s l iter
  | .insert l iter _ => Denotes capacity s l iter
  | .erase l iter => Denotes capacity s l iter
  | .emplaceFront l _ => (s.lists l).size < capacity
  | .emplaceBack l _ => (s.lists l).size < capacity
  | .copyConstruct l rhs => l ≠ rhs
  | .moveConstruct l rhs => l ≠ rhs
  | _ => True

instance (s : ListRun (CxxList T) T) (l : Nat) (iter : CxxIterator) :
    Decidable (Denotes capacity s l iter) :=
  inferInstanceAs (Decidable (_ ∧ _))

instance (s : ListRun (CxxList T) T) : ∀ op : ListOp T, Decidable (Admissible capacity s op)
  | .emplace l iter _ => inferInstanceAs (Decidable (Denotes capacity s l iter))
  | .insert l iter _ => inferInstanceAs (Decidable (Denotes capacity s l iter))
  | .erase l iter => inferInstanceAs (Decidable (Denotes capacity s l iter))
  | .emplaceFront l _ => inferInstanceAs (Decidable ((s.lists l).size < capacity))
  | .emplaceBack l _ => inferInstanceAs (Decidable ((s.lists l).size < capacity))
  | .copyConstruct l rhs => inferInstanceAs (Decidable (l ≠ rhs))
  | .moveConstruct l rhs => inferInstanceAs (Decidable (l ≠ rhs))
  | .pushFront _ _ | .pushBack _ _ | .popFront _ | .popBack _ | .remove _ _ | .removeIf _ _
  | .clear _ | .copyAssign _ _ | .moveAssign _ _ => isTrue trivial

variable {movedFrom} {capacity} {s s' : ListRun (CxxList T) T}

theorem refines_start (memory : Nat → Nat) :
    (start capacity memory : ListRun (CxxList T) T).Refines (Repr capacity) where
  agree := rfl
  repr := fun _ => Repr.init rfl fun _ _ => rfl

theorem refines_step [BEq T] (h : s.Refines (Repr capacity)) {op : ListOp T}
    (hop : Admissible capacity s op) :
    ∃ s', step movedFrom capacity s op = some s' ∧ s'.Refines (Repr capacity) := by
  cases op with
  | emplace l iter x =>
    obtain ⟨list, idx⟩ := iter
    obtain ⟨hl, hi⟩ := hop
    obtain rfl : list = l := hl
    exact h.on ((h.repr list).emplace_before hi)
  | insert l iter x =>
    obtain ⟨list, idx⟩ := iter
    obtain ⟨hl, hi⟩ := hop
    obtain rfl : list = l := hl
    exact h.on ((h.repr list).emplace_before hi)
  | emplaceFront l x =>
    refine h.on ?_
    rw [CxxList.emplaceFront, (h.repr l).cbegin_eq]
    exact (h.repr l).emplace_deref ((SlotSeq.begin_mem _ _).imp_right And.right) hop
  | emplaceBack l x =>
    refine h.on ?_
    rw [CxxList.emplaceBack, (h.repr l).cend_eq]
    exact (h.repr l).emplace_deref (Or.inr rfl) hop
  | pushFront l x =>
    refine h.on ?_
    rw [CxxList.pushFront, (h.repr l).cbegin_eq]
    exact (h.repr l).pushAt ((SlotSeq.begin_mem _ _).imp_right And.right)
  | pushBack l x =>
    refine h.on ?_
    rw [CxxList.pushBack, (h.repr l).cend_eq]
    exact (h.repr l).pushAt (Or.inr rfl)
  | popFront l =>
    refine h.on ?_
    rw [CxxList.popFront, (h.repr l).cbegin_eq]
    exact (h.repr l).popAt (SlotSeq.begin_mem _ _)
  | popBack l =>
    refine h.on ?_
    rw [CxxList.popBack, (h.repr l).decrement_cend]
    exact (h.repr l).popAt (SlotSeq.last_mem _ _)
  | erase l iter =>
    obtain ⟨list, idx⟩ := iter
    obtain ⟨hl, hi⟩ := hop
    obtain rfl : list = l := hl
    exact h.on ((h.repr list).erase_at hi)
  | remove l x => exact h.on (h.repr l).removeIf
  | removeIf l pred => exact h.on (h.repr l).removeIf
  | clear l => exact h.onOne (h.repr l).clear
  | copyAssign l rhs =>
    by_cases heq : l = rhs
    · simp only [step, ListOp.exec, ListOp.execSeq, heq, if_true]
      exact h.same
    · simp only [step, ListOp.exec, ListOp.execSeq, heq, if_false]
      exact h.onOne ((h.repr l).copyAssign (h.repr rhs))
  | moveAssign l rhs =>
    by_cases heq : l = rhs
    · simp only [step, ListOp.exec, ListOp.execSeq, heq, if_true]
      exact h.same
    · simp only [step, ListOp.exec, ListOp.execSeq, heq, if_false]
      exact h.onBoth heq ((h.repr l).moveAssign (h.repr rhs))
  | copyConstruct l rhs => exact h.onOne ((h.repr l).copyConstruct (h.repr rhs))
  | moveConstruct l rhs => exact h.onBoth hop ((h.repr l).moveConstruct (h.repr rhs))

theorem mem_update {ss : Nat → SlotSeq T} {q : SlotSeq T} {k l : Nat} {e : Nat × T}
    (he : e ∈ (ss k).elems) (hq : k = l → e ∈ q.elems) : e ∈ (Function.update ss l q k).elems := by
  by_cases hk : k = l
  · subst hk
    rw [Function.update_self]
    exact hq rfl
  · rwa [Function.update_of_ne hk]

theorem exists_update {ss : Nat → SlotSeq T} {q : SlotSeq T} {k l i : Nat} {x : T}
    (he : (i, x) ∈ (ss k).elems) (hq : k = l → ∃ y, (i, y) ∈ q.elems) :
    ∃ y, (i, y) ∈ (Function.update ss l q k).elems ∧ (k ≠ l → y = x) := by
  by_cases hk : k = l
  · subst hk
    obtain ⟨y, hy⟩ := hq rfl
    refine ⟨y, ?_, fun hne => absurd rfl hne⟩
    rwa [Function.update_self]
  · exact ⟨x, by rwa [Function.update_of_ne hk], fun _ => rfl⟩

theorem survive [BEq T] {ss : Nat → SlotSeq T} {op : ListOp T} {k i : Nat} {x : T}
    (he : (i, x) ∈ (ss k).elems) (hstay : ¬ op.Removes capacity ss k i)
    (hop : ∀ l iter, op = .erase l iter → iter.idx ∈ (ss l).slots ∨ iter.idx = capacity) :
    ∃ y, (i, y) ∈ ((op.execSeq capacity ss).2 k).elems ∧ (¬ op.Overwrites k → y = x) := by
  have hslot : i ∈ (ss k).slots := List.mem_map_of_mem he
  cases op with
  | emplace l iter y =>
    exact ⟨x, mem_update he fun hk => SlotSeq.mem_insertBefore (hk ▸ he), fun _ => rfl⟩
  | insert l iter y =>
    exact ⟨x, mem_update he fun hk => SlotSeq.mem_insertBefore (hk ▸ he), fun _ => rfl⟩
  | emplaceFront l y =>
    exact ⟨x, mem_update he fun hk => SlotSeq.mem_insertBefore (hk ▸ he), fun _ => rfl⟩
  | emplaceBack l y =>
    exact ⟨x, mem_update he fun hk => SlotSeq.mem_insertBefore (hk ▸ he), fun _ => rfl⟩
  | pushFront l y =>
    exact ⟨x, mem_update he fun hk => SlotSeq.mem_insertBefore (hk ▸ he), fun _ => rfl⟩
  | pushBack l y =>
    exact ⟨x, mem_update he fun hk => SlotSeq.mem_insertBefore (hk ▸ he), fun _ => rfl⟩
  | popFront l =>
    refine ⟨x, mem_update he fun hk => ?_, fun _ => rfl⟩
    refine SlotSeq.mem_erase (hk ▸ he) (fun heq => hstay ⟨hk, heq⟩) ?_
    exact (SlotSeq.begin_mem _ _).imp_right And.right
  | popBack l =>
    refine ⟨x, mem_update he fun hk => ?_, fun _ => rfl⟩
    refine SlotSeq.mem_erase (hk ▸ he) (fun heq => hstay ⟨hk, heq⟩) ?_
    exact (SlotSeq.last_mem _ _).imp_right And.right
  | erase l iter =>
    refine ⟨x, mem_update he fun hk => ?_, fun _ => rfl⟩
    exact SlotSeq.mem_erase (hk ▸ he) (fun heq => hstay ⟨hk, heq⟩) (hop l iter rfl)
  | remove l y =>
    refine ⟨x, mem_update he fun hk => ?_, fun _ => rfl⟩
    exact SlotSeq.mem_removeIf (hk ▸ he) fun heq => hstay ⟨hk, x, hk ▸ he, heq⟩
  | removeIf l pred =>
    refine ⟨x, mem_update he fun hk => ?_, fun _ => rfl⟩
    exact SlotSeq.mem_removeIf (hk ▸ he) fun heq => hstay ⟨hk, x, hk ▸ he, heq⟩
  | clear l =>
    exact ⟨x, mem_update he fun hk => absurd hk hstay, fun _ => rfl⟩
  | copyAssign l rhs =>
    by_cases heq : l = rhs
    · simp only [ListOp.execSeq, heq, if_true]
      exact ⟨x, he, fun _ => rfl⟩
    · simp only [ListOp.execSeq, heq, if_false]
      refine exists_update he fun hk => ?_
      refine SlotSeq.mem_assign (hk ▸ hslot) fun hdrop => hstay ⟨heq, hk, ?_⟩
      rwa [SlotSeq.values, List.length_map] at hdrop
  | moveAssign l rhs =>
    by_cases heq : l = rhs
    · simp only [ListOp.execSeq, heq, if_true]
      exact ⟨x, he, fun _ => rfl⟩
    · simp only [ListOp.execSeq, heq, if_false]
      have hrhs : k ≠ rhs := fun hk => hstay ⟨heq, Or.inl hk⟩
      rw [Function.update_of_ne hrhs]
      refine exists_update he fun hk => ?_
      refine SlotSeq.mem_assign (hk ▸ hslot) fun hdrop => hstay ⟨heq, Or.inr ⟨hk, ?_⟩⟩
      rwa [SlotSeq.values, List.length_map] at hdrop
  | copyConstruct l rhs =>
    exact ⟨x, mem_update he fun hk => absurd hk hstay, fun _ => rfl⟩
  | moveConstruct l rhs =>
    obtain ⟨hl, hrhs⟩ := not_or.mp hstay
    refine ⟨x, ?_, fun _ => rfl⟩
    exact mem_update (mem_update he fun hk => absurd hk hl) fun hk => absurd hk hrhs

structure Rejects (capacity : Nat) (l : CxxList T) (iter : CxxIterator) : Prop where
  increment : l.increment capacity iter = none
  decrement : l.decrement capacity iter = none
  deref : l.deref capacity iter = none
  equals : ∀ other, l.equals capacity iter other = none ∧ l.equals capacity other iter = none
  emplace : ∀ x, l.emplace capacity iter x = none
  insert : ∀ x, l.insert capacity iter x = none
  erase : l.erase capacity iter = none

theorem rejects_free {this i : Nat} {l : CxxList T} {elems : List (Nat × T)} {free : List Nat}
    (h : Repr capacity this l elems free) (hi : i ∈ free) : Rejects capacity l ⟨this, i⟩ := by
  have hinvalid : l.isInvalidIterator capacity ⟨this, i⟩ = none := h.isInvalidIterator_free hi this
  have hlist : l.isInvalidIterOrDifferentLists capacity ⟨this, i⟩ = none := by
    rw [isInvalidIterOrDifferentLists, if_pos h.this_eq, hinvalid]
  refine
    { increment := by rw [CxxList.increment, hinvalid]; rfl
      decrement := by rw [CxxList.decrement, hinvalid]; rfl
      deref := h.deref_eq_none (fun hslot => h.not_free hslot hi) this
      equals := fun other => ⟨?_, by rw [CxxList.equals, hlist]; rfl⟩
      emplace := fun x => by rw [CxxList.emplace, hlist]; rfl
      insert := fun x => by rw [CxxList.insert, CxxList.emplace, hlist]; rfl
      erase := by rw [CxxList.erase, hlist]; rfl }
  have hother : l.isInvalidIterOrDifferentLists capacity other = some false ∨
      l.isInvalidIterOrDifferentLists capacity other = none := by
    unfold isInvalidIterOrDifferentLists isInvalidIterator
    split_ifs
    · exact Or.inl rfl
    · exact Or.inr rfl
    · exact Or.inr rfl
  rw [CxxList.equals]
  rcases hother with hother | hother
  · rw [hother, hinvalid]
    rfl
  · rw [hother]
    rfl

structure Guarantees [BEq T] (movedFrom : T → T) (capacity : Nat) (s : ListRun (CxxList T) T) :
    Prop where
  refines : s.Refines (Repr capacity)
  inverse : ∀ l, ∀ i ∈ capacity :: (s.seqs l).slots,
    (s.lists l).prev ((s.lists l).next i) = i ∧ (s.lists l).next ((s.lists l).prev i) = i
  invalid_iff : ∀ l, ∀ i ≤ capacity,
    (s.lists l).prev i = invalidIndex capacity ↔ i ∈ (s.seqs l).free
  deref : ∀ l, ∀ e ∈ (s.seqs l).elems, (s.lists l).deref capacity ⟨l, e.1⟩ = some e.2
  increment : ∀ l front e rest, (s.seqs l).elems = front ++ e :: rest →
    (s.lists l).increment capacity ⟨l, e.1⟩ = some ⟨l, SlotSeq.first capacity rest⟩
  increment_end : ∀ l, (s.lists l).increment capacity ⟨l, capacity⟩ = some ⟨l, capacity⟩
  decrement : ∀ l front rest, (s.seqs l).elems = front ++ rest →
    (s.lists l).decrement capacity ⟨l, SlotSeq.first capacity rest⟩ =
      some ⟨l, (front.map Prod.fst).getLastD (SlotSeq.first capacity rest)⟩
  decrement_begin : ∀ l, (s.lists l).decrement capacity ((s.lists l).cbegin capacity) =
    some ((s.lists l).cbegin capacity)
  rejects : ∀ l, ∀ i ∈ (s.seqs l).free, Rejects capacity (s.lists l) ⟨l, i⟩
  full : ∀ l, (s.lists l).size = capacity → ∀ iter, Denotes capacity s l iter → ∀ x,
    (s.lists l).emplace capacity iter x = some ((s.lists l).cend capacity, s.lists l) ∧
    (s.lists l).insert capacity iter x = some ((s.lists l).cend capacity, s.lists l) ∧
    (s.lists l).pushFront capacity x = some (false, s.lists l) ∧
    (s.lists l).pushBack capacity x = some (false, s.lists l)
  erase_end : ∀ l, (s.lists l).erase capacity ((s.lists l).cend capacity) =
    some ((s.lists l).cend capacity, s.lists l)
  survive : ∀ op s', Admissible capacity s op → step movedFrom capacity s op = some s' →
    ∀ l i x, (i, x) ∈ (s.seqs l).elems → ¬ op.Removes capacity s.seqs l i →
      ∃ y, (i, y) ∈ (s'.seqs l).elems ∧ (¬ op.Overwrites l → y = x)

theorem emplace_full {this : Nat} {l : CxxList T} {elems : List (Nat × T)} {free : List Nat}
    (h : Repr capacity this l elems free) (hfull : l.size = capacity) {i : Nat}
    (hi : i ∈ elems.map Prod.fst ∨ i = capacity) (x : T) :
    l.emplace capacity ⟨this, i⟩ x = some (l.cend capacity, l) ∧
      l.pushFront capacity x = some (false, l) ∧ l.pushBack capacity x = some (false, l) := by
  have hlength := h.length_add
  rw [← h.size, hfull] at hlength
  obtain rfl := List.eq_nil_of_length_eq_zero (Nat.add_eq_left.mp hlength)
  have hpush : ∀ iter, l.pushAt capacity iter x = some (false, l) := by
    intro iter
    rw [CxxList.pushAt, if_neg (by rw [hfull]; exact Nat.lt_irrefl _)]
    simp
  refine ⟨?_, hpush _, hpush _⟩
  rw [h.emplace_full (List.mem_append.mpr (hi.imp_right List.mem_singleton.mpr)), h.cend_eq]
  rfl

theorem guarantees_of_refines [BEq T] (h : s.Refines (Repr capacity)) :
    Guarantees movedFrom capacity s where
  refines := h
  inverse := fun l i hi => by
    refine ⟨(h.repr l).ring.prev_next i hi, (h.repr l).ring.next_prev i ?_⟩
    exact (List.perm_append_singleton _ _).mem_iff.mpr hi
  invalid_iff := fun l _ hi => (h.repr l).prev_eq_invalid_iff hi
  deref := fun l _ he => (h.repr l).deref_eq he l
  increment := fun l front e rest helems => by
    have hrepr := h.repr l
    rw [helems] at hrepr
    exact hrepr.increment_eq l
  increment_end := fun l => (h.repr l).increment_end l
  decrement := fun l front rest helems => by
    have hrepr := h.repr l
    rw [helems] at hrepr
    exact hrepr.decrement_eq l
  decrement_begin := fun l => by
    rw [(h.repr l).cbegin_eq]
    have hrepr : Repr capacity l (s.lists l) ([] ++ (s.seqs l).elems) (s.seqs l).free := h.repr l
    exact hrepr.decrement_eq l
  rejects := fun l _ hi => rejects_free (h.repr l) hi
  full := fun l hfull iter hiter x => by
    obtain ⟨list, idx⟩ := iter
    obtain ⟨hl, hi⟩ := hiter
    obtain rfl : list = l := hl
    obtain ⟨hemplace, hpush⟩ := emplace_full (h.repr list) hfull hi x
    exact ⟨hemplace, hemplace, hpush⟩
  erase_end := fun l => by
    rw [(h.repr l).cend_eq]
    exact (h.repr l).erase_end
  survive := fun op s' hop hstep l i x he hstay => by
    have hseqs : s'.seqs = (op.execSeq capacity s.seqs).2 := by
      obtain ⟨r, -, rfl⟩ := Option.map_eq_some_iff.mp hstep
      rfl
    rw [hseqs]
    refine survive he hstay fun k iter heq => ?_
    subst heq
    exact hop.2

/-- In every run with iterators that denote an element or the end: the lists are the bounded
sequences that they stand for. -/
theorem list_refines [BEq T] (movedFrom : T → T) (capacity : Nat) (memory : Nat → Nat)
    (ops : List (ListOp T))
    (hops : Meets (step movedFrom capacity) (Admissible capacity) (start capacity memory) ops)
    (n : Nat) :
    ∃ s, runSteps (step movedFrom capacity) (start capacity memory) (ops.take n) = some s ∧
      Guarantees movedFrom capacity s := by
  obtain ⟨s, hs, h⟩ := runSteps_total_of_meets (fun s op h hop => refines_step h hop) ops _
    (refines_start memory) hops n
  exact ⟨s, hs, guarantees_of_refines h⟩

theorem list_refines_threeSlots : ∃ s, runSteps (step (fun _ => 0) 3) (start 3 fun _ => 7)
    [.pushBack 0 1, .pushFront 0 2, .insert 0 ⟨0, 0⟩ 3, .emplace 0 ⟨0, 3⟩ 4, .copyAssign 1 0,
      .erase 0 ⟨0, 2⟩, .remove 1 2, .moveAssign 0 1, .popBack 0] = some s ∧
    Guarantees (fun _ => 0) 3 s :=
  list_refines (fun _ => 0) 3 (fun _ => 7)
    [.pushBack 0 1, .pushFront 0 2, .insert 0 ⟨0, 0⟩ 3, .emplace 0 ⟨0, 3⟩ 4, .copyAssign 1 0,
      .erase 0 ⟨0, 2⟩, .remove 1 2, .moveAssign 0 1, .popBack 0] (by decide +kernel) 9

end CxxList

end Iceoryx.Hoofs
