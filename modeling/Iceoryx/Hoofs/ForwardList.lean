import Mathlib.Data.List.Range
import Mathlib.Data.List.Nodup
import Mathlib.Logic.Function.Basic
import Iceoryx.Lib.Chain
import Iceoryx.Lib.Run
import Iceoryx.Hoofs.ListRun

universe u

namespace Iceoryx.Hoofs

open Lib

variable {T : Type u}

structure ForwardList (T : Type u) where
  this : Nat
  freeListHeadIdx : Nat
  next : Nat → Nat
  invalidElement : Nat → Bool
  data : Nat → Option T
  size : Nat

namespace ForwardList

variable (capacity : Nat)

abbrev beforeBeginIndex : Nat := capacity

abbrev endIndex : Nat := capacity + 1

def setNextIdx (l : ForwardList T) (idx nextIdx : Nat) : ForwardList T :=
  { l with next := Function.update l.next idx nextIdx }

def setInvalidElement (l : ForwardList T) (idx : Nat) (value : Bool) : ForwardList T :=
  { l with invalidElement := Function.update l.invalidElement idx value }

def init (l : ForwardList T) : ForwardList T :=
  let l := (List.range' l.freeListHeadIdx (capacity - 1 - l.freeListHeadIdx)).foldl
    (fun l i => (l.setInvalidElement i true).setNextIdx i (i + 1)) l
  let l := (l.setInvalidElement (capacity - 1) true).setNextIdx (capacity - 1) (endIndex capacity)
  let l := (l.setInvalidElement capacity false).setNextIdx capacity (endIndex capacity)
  let l := (l.setInvalidElement (capacity + 1) false).setNextIdx (capacity + 1) (endIndex capacity)
  { l with
    freeListHeadIdx := 0
    size := 0 }

def beforeBegin (l : ForwardList T) : CxxIterator where
  list := l.this
  idx := beforeBeginIndex capacity

def cbegin (l : ForwardList T) : CxxIterator where
  list := l.this
  idx := l.next (beforeBeginIndex capacity)

def cend (l : ForwardList T) : CxxIterator where
  list := l.this
  idx := endIndex capacity

def IsValidElementIdx (l : ForwardList T) (idx : Nat) : Prop :=
  idx < capacity ∧ l.invalidElement idx = false

instance (l : ForwardList T) (idx : Nat) : Decidable (l.IsValidElementIdx capacity idx) :=
  inferInstanceAs (Decidable (_ ∧ _))

def isInvalidIterator (l : ForwardList T) (iter : CxxIterator) : Option Bool :=
  if l.invalidElement iter.idx = false then some false else none

def isInvalidIterOrDifferentLists (l : ForwardList T) (iter : CxxIterator) : Option Bool :=
  if l.this = iter.list then l.isInvalidIterator iter else none

def getDataPtrFromIdx (l : ForwardList T) (idx : Nat) : Option Nat :=
  if l.IsValidElementIdx capacity idx then some idx else none

def deref (l : ForwardList T) (iter : CxxIterator) : Option T :=
  (l.getDataPtrFromIdx capacity iter.idx).bind l.data

def store (l : ForwardList T) (iter : CxxIterator) (x : T) : Option (ForwardList T) :=
  (l.deref capacity iter).map fun _ =>
    { l with data := Function.update l.data iter.idx (some x) }

def construct (l : ForwardList T) (idx : Nat) (x : T) : Option (ForwardList T) :=
  (l.getDataPtrFromIdx capacity idx).map fun i =>
    { l with data := Function.update l.data i (some x) }

def destruct (l : ForwardList T) (idx : Nat) : Option (ForwardList T) :=
  ((l.getDataPtrFromIdx capacity idx).bind l.data).map fun _ =>
    { l with data := Function.update l.data idx none }

def increment (l : ForwardList T) (iter : CxxIterator) : Option CxxIterator :=
  (l.isInvalidIterator iter).map fun invalid =>
    if invalid then iter else { iter with idx := l.next iter.idx }

def equals (l : ForwardList T) (iter rhs : CxxIterator) : Option Bool :=
  (l.isInvalidIterOrDifferentLists rhs).bind fun different =>
    if different then some false
    else (l.isInvalidIterator iter).map fun invalid =>
      if invalid then false else iter.idx == rhs.idx

def emplaceAfter (l : ForwardList T) (iter : CxxIterator) (x : T) :
    Option (CxxIterator × ForwardList T) :=
  (l.isInvalidIterOrDifferentLists iter).bind fun invalid =>
    if invalid then some (l.cend capacity, l)
    else if l.size ≥ capacity then some (l.cend capacity, l)
    else
      let toBeAddedIdx := l.freeListHeadIdx
      let l := { l with freeListHeadIdx := l.next l.freeListHeadIdx }
      let l := l.setInvalidElement toBeAddedIdx false
      (l.construct capacity toBeAddedIdx x).map fun l =>
        let l := l.setNextIdx toBeAddedIdx (l.next iter.idx)
        let l := l.setNextIdx iter.idx toBeAddedIdx
        ({ list := l.this
           idx := toBeAddedIdx },
          { l with size := l.size + 1 })

def eraseAfter (l : ForwardList T) (iter : CxxIterator) : Option (CxxIterator × ForwardList T) :=
  (l.isInvalidIterOrDifferentLists iter).bind fun invalid =>
    if invalid then some (l.cend capacity, l)
    else
      let eraseIdx := l.next iter.idx
      if ¬ l.IsValidElementIdx capacity eraseIdx ∨ l.size = 0 then some (l.cend capacity, l)
      else
        let retIdx := l.next eraseIdx
        let l := l.setNextIdx iter.idx retIdx
        (l.destruct capacity eraseIdx).map fun l =>
          let l := l.setInvalidElement eraseIdx true
          let l := l.setNextIdx eraseIdx l.freeListHeadIdx
          let l := { l with freeListHeadIdx := eraseIdx }
          ({ list := l.this
             idx := retIdx },
            { l with size := l.size - 1 })

def emplaceFront (l : ForwardList T) (x : T) : Option (T × ForwardList T) :=
  (l.emplaceAfter capacity (l.beforeBegin capacity) x).bind fun r =>
    (r.2.deref capacity r.1).map fun y => (y, r.2)

def insertAfter (l : ForwardList T) (iter : CxxIterator) (x : T) :
    Option (CxxIterator × ForwardList T) :=
  l.emplaceAfter capacity iter x

def pushFront (l : ForwardList T) (x : T) : Option (Bool × ForwardList T) :=
  let pushed :=
    if l.size < capacity then (l.emplaceFront capacity x).map fun r => r.2 else some l
  pushed.map fun l' => (l'.size == l.size + 1, l')

def popFront (l : ForwardList T) : Option (Bool × ForwardList T) :=
  (l.eraseAfter capacity (l.beforeBegin capacity)).map fun r => (r.2.size + 1 == l.size, r.2)

def removeIfLoop (pred : T → Bool) :
    Nat → CxxIterator → CxxIterator → Nat → ForwardList T → Option (Nat × ForwardList T)
  | 0, _, _, _, _ => none
  | fuel + 1, iter, nextIter, removedCount, l =>
    (l.equals nextIter (l.cend capacity)).bind fun done =>
      if done then some (removedCount, l)
      else
        (l.deref capacity nextIter).bind fun x =>
          if pred x then
            (l.eraseAfter capacity iter).bind fun r =>
              removeIfLoop pred fuel iter r.1 (removedCount + 1) r.2
          else
            (l.increment nextIter).bind fun afterNext =>
              removeIfLoop pred fuel nextIter afterNext removedCount l

def removeIf (pred : T → Bool) (l : ForwardList T) : Option (Nat × ForwardList T) :=
  removeIfLoop capacity pred (l.size + 1) (l.beforeBegin capacity) (l.cbegin capacity) 0 l

def remove [BEq T] (l : ForwardList T) (x : T) : Option (Nat × ForwardList T) :=
  l.removeIf capacity fun y => y == x

def clearLoop : Nat → ForwardList T → Option (ForwardList T)
  | 0, l => if l.size = 0 then some l else none
  | fuel + 1, l =>
    if l.size = 0 then some l
    else (l.eraseAfter capacity (l.beforeBegin capacity)).bind fun r => clearLoop fuel r.2

def clear (l : ForwardList T) : Option (ForwardList T) := clearLoop capacity l.size l

/-- The first `n` elements of `rhs` are assigned to those of the list.  `leave` is what becomes
of an element of `rhs`: nothing for a copy. -/
def overwriteLoop (leave : T → T) :
    Nat → CxxIterator → CxxIterator → ForwardList T → ForwardList T →
      Option ((CxxIterator × ForwardList T) × (CxxIterator × ForwardList T))
  | 0, iterThis, iterRhs, l, rhs => some ((iterThis, l), (iterRhs, rhs))
  | n + 1, iterThis, iterRhs, l, rhs =>
    (l.increment iterThis).bind fun iterThis =>
      (rhs.increment iterRhs).bind fun iterRhs =>
        (rhs.deref capacity iterRhs).bind fun x =>
          (rhs.store capacity iterRhs (leave x)).bind fun rhs =>
            (l.store capacity iterThis x).bind fun l =>
              overwriteLoop leave n iterThis iterRhs l rhs

def appendLoop (leave : T → T) :
    Nat → CxxIterator → CxxIterator → ForwardList T → ForwardList T →
      Option ((CxxIterator × ForwardList T) × ForwardList T)
  | 0, iterThis, _, l, rhs => some ((iterThis, l), rhs)
  | n + 1, iterThis, iterRhs, l, rhs =>
    (rhs.increment iterRhs).bind fun iterRhs =>
      (rhs.deref capacity iterRhs).bind fun x =>
        (rhs.store capacity iterRhs (leave x)).bind fun rhs =>
          (l.emplaceAfter capacity iterThis x).bind fun r =>
            appendLoop leave n r.1 iterRhs r.2 rhs

def eraseLoop : Nat → CxxIterator → ForwardList T → Option (ForwardList T)
  | 0, _, l => some l
  | n + 1, iterThis, l => (l.eraseAfter capacity iterThis).bind fun r => eraseLoop n iterThis r.2

def assign (leave : T → T) (l rhs : ForwardList T) : Option (ForwardList T × ForwardList T) :=
  let startSize := l.size
  let minOfLhsRhsSize := min rhs.size startSize
  (overwriteLoop capacity leave minOfLhsRhsSize (l.beforeBegin capacity)
      (rhs.beforeBegin capacity) l rhs).bind fun p =>
    (appendLoop capacity leave (rhs.size - minOfLhsRhsSize) p.1.1 p.2.1 p.1.2 p.2.2).bind
      fun q =>
        (eraseLoop capacity (startSize - rhs.size) q.1.1 q.1.2).map fun l => (l, q.2)

def copyAssign (l rhs : ForwardList T) : Option (ForwardList T) :=
  (l.assign capacity id rhs).map fun p => p.1

def moveAssign (movedFrom : T → T) (l rhs : ForwardList T) :
    Option (ForwardList T × ForwardList T) :=
  (l.assign capacity movedFrom rhs).bind fun p =>
    (p.2.clear capacity).map fun rhs => (p.1, rhs)

/-- `forward_list()` in the memory of the list, where `m_freeListHeadIdx` is 0. -/
def defaultConstruct (l : ForwardList T) : ForwardList T :=
  init capacity { l with freeListHeadIdx := 0 }

def copyConstruct (l rhs : ForwardList T) : Option (ForwardList T) :=
  (l.defaultConstruct capacity).copyAssign capacity rhs

def moveConstruct (movedFrom : T → T) (l rhs : ForwardList T) :
    Option (ForwardList T × ForwardList T) :=
  (l.defaultConstruct capacity).moveAssign capacity movedFrom rhs

end ForwardList

namespace SlotSeq

def upTo (i : Nat) : List (Nat × T) → List (Nat × T)
  | [] => []
  | e :: rest => if e.1 = i then [e] else e :: upTo i rest

def beyond (i : Nat) : List (Nat × T) → List (Nat × T)
  | [] => []
  | e :: rest => if e.1 = i then rest else beyond i rest

theorem upTo_append_beyond (i : Nat) (elems : List (Nat × T)) :
    upTo i elems ++ beyond i elems = elems := by
  induction elems with
  | nil => rfl
  | cons e rest ih =>
    rw [upTo, beyond]
    split
    · rfl
    · rw [List.cons_append, ih]

theorem upTo_eq {i : Nat} {elems : List (Nat × T)} (hi : i ∈ elems.map Prod.fst) :
    ∃ before y, upTo i elems = before ++ [(i, y)] := by
  induction elems with
  | nil => cases hi
  | cons e rest ih =>
    rw [upTo]
    split
    · next he => exact ⟨[], e.2, by rw [← he]; rfl⟩
    · next he =>
      obtain ⟨before, y, hup⟩ := ih ((List.mem_cons.mp hi).resolve_left (Ne.symm he))
      exact ⟨e :: before, y, by rw [hup]; rfl⟩

theorem beyond_eq_nil {i : Nat} {elems : List (Nat × T)} (hi : i ∉ elems.map Prod.fst) :
    beyond i elems = [] := by
  induction elems with
  | nil => rfl
  | cons e rest ih =>
    obtain ⟨hne, hrest⟩ := not_or.mp (mt List.mem_cons.mpr hi)
    rw [beyond, if_neg (Ne.symm hne)]
    exact ih hrest

@[simp] theorem latest_nil (capacity : Nat) :
    latest capacity ([] : List (Nat × T)) = capacity := rfl

@[simp] theorem latest_concat (capacity : Nat) (elems : List (Nat × T)) (e : Nat × T) :
    latest capacity (elems ++ [e]) = e.1 := by
  simp [latest]

variable (capacity : Nat)

def front (s : SlotSeq T) (i : Nat) : List (Nat × T) :=
  if i = capacity then [] else upTo i s.elems

def back (s : SlotSeq T) (i : Nat) : List (Nat × T) :=
  if i = capacity then s.elems else beyond i s.elems

def insertAfter (s : SlotSeq T) (i : Nat) (x : T) : Nat × SlotSeq T :=
  match s.free with
  | [] => (ForwardList.endIndex capacity, s)
  | new :: free =>
    if i = ForwardList.endIndex capacity then (ForwardList.endIndex capacity, s)
    else
      (new,
        { elems := s.front capacity i ++ (new, x) :: s.back capacity i
          free := free })

def eraseAfter (s : SlotSeq T) (i : Nat) : Nat × SlotSeq T :=
  match s.back capacity i with
  | [] => (ForwardList.endIndex capacity, s)
  | e :: rest =>
    (first (ForwardList.endIndex capacity) rest,
      { elems := s.front capacity i ++ rest
        free := e.1 :: s.free })

theorem front_append_back (s : SlotSeq T) (i : Nat) :
    s.front capacity i ++ s.back capacity i = s.elems := by
  rw [front, back]
  split
  · rfl
  · exact upTo_append_beyond i s.elems

variable {capacity} {s : SlotSeq T} {i : Nat}

theorem latest_front (hi : i ∈ s.slots ∨ i = capacity) :
    latest capacity (s.front capacity i) = i := by
  rw [front]
  split
  · next heq =>
    rw [heq]
    rfl
  · next hne =>
    obtain ⟨before, y, hup⟩ := upTo_eq (hi.resolve_right hne)
    rw [hup, latest_concat]

end SlotSeq

namespace ForwardList

open SlotSeq

/-- The elements are linked from the index before the begin to the end, which links to itself;
the other slots are linked in the free list and marked as invalid. -/
structure Repr (capacity this : Nat) (l : ForwardList T) (elems : List (Nat × T))
    (free : List Nat) : Prop extends Stored capacity l.data elems free where
  this_eq : l.this = this
  used : Chain l.next (· = endIndex capacity) (beforeBeginIndex capacity)
    (beforeBeginIndex capacity :: elems.map Prod.fst)
  end_link : l.next (endIndex capacity) = endIndex capacity
  chain : Chain l.next (· = endIndex capacity) l.freeListHeadIdx free
  valid : ∀ i ∈ beforeBeginIndex capacity :: elems.map Prod.fst, l.invalidElement i = false
  end_valid : l.invalidElement (endIndex capacity) = false
  invalid : ∀ i ∈ free, l.invalidElement i = true
  size : l.size = elems.length

theorem latest_split (capacity : Nat) (front : List (Nat × T)) :
    ∃ before, capacity :: front.map Prod.fst = before ++ [latest capacity front] := by
  cases front using List.reverseRecOn with
  | nil => exact ⟨[], rfl⟩
  | append_singleton front e =>
    refine ⟨capacity :: front.map Prod.fst, ?_⟩
    rw [latest_concat, List.map_append]
    rfl

theorem latest_mem (capacity : Nat) (front rest : List (Nat × T)) :
    latest capacity front ∈ capacity :: (front ++ rest).map Prod.fst := by
  obtain ⟨before, hbefore⟩ := latest_split capacity front
  rw [List.map_append, ← List.cons_append, hbefore]
  simp

namespace Repr

variable {capacity this : Nat} {l : ForwardList T} {elems front rest : List (Nat × T)}
  {free : List Nat} {x : T} {i : Nat}

theorem valid_iff (h : Repr capacity this l elems free) :
    l.IsValidElementIdx capacity i ↔ i ∈ elems.map Prod.fst := by
  constructor
  · rintro ⟨hlt, hvalid⟩
    rcases h.mem_iff.mpr hlt with hi | hi
    · exact hi
    · rw [h.invalid i hi] at hvalid
      cases hvalid
  · intro hi
    exact ⟨h.slot_lt hi, h.valid i (List.mem_cons_of_mem _ hi)⟩

theorem isInvalidIterator_eq (hi : l.invalidElement i = false) (list : Nat) :
    l.isInvalidIterator ⟨list, i⟩ = some false :=
  if_pos hi

theorem isInvalidIterOrDifferentLists_eq (h : Repr capacity this l elems free)
    (hi : l.invalidElement i = false) :
    l.isInvalidIterOrDifferentLists ⟨this, i⟩ = some false := by
  rw [isInvalidIterOrDifferentLists, if_pos h.this_eq, isInvalidIterator_eq hi]

theorem valid_latest (h : Repr capacity this l (front ++ rest) free) :
    l.invalidElement (latest capacity front) = false :=
  h.valid _ (latest_mem capacity front rest)

theorem next_latest (h : Repr capacity this l (front ++ rest) free) :
    l.next (latest capacity front) = first (endIndex capacity) rest := by
  obtain ⟨before, hbefore⟩ := latest_split capacity front
  have hused := h.used
  rw [List.map_append, ← List.cons_append, hbefore, List.append_assoc,
    List.singleton_append] at hused
  have hnext := hused.next_eq
  cases rest with
  | nil => exact hnext
  | cons e rest => exact hnext.1

theorem deref_eq {e : Nat × T} (h : Repr capacity this l elems free) (he : e ∈ elems)
    (list : Nat) : l.deref capacity ⟨list, e.1⟩ = some e.2 := by
  have hvalid := h.valid_iff.mpr (List.mem_map_of_mem he)
  rw [deref, getDataPtrFromIdx, if_pos hvalid]
  exact h.live e he

theorem increment_eq (h : Repr capacity this l (front ++ rest) free) (list : Nat) :
    l.increment ⟨list, latest capacity front⟩ = some ⟨list, first (endIndex capacity) rest⟩ := by
  rw [increment, isInvalidIterator_eq h.valid_latest]
  simp only [Option.map_some, Bool.false_eq_true, if_false, h.next_latest]

theorem increment_end (h : Repr capacity this l elems free) (list : Nat) :
    l.increment ⟨list, endIndex capacity⟩ = some ⟨list, endIndex capacity⟩ := by
  rw [increment, isInvalidIterator_eq h.end_valid]
  simp only [Option.map_some, Bool.false_eq_true, if_false, h.end_link]

theorem cbegin_eq (h : Repr capacity this l elems free) :
    l.cbegin capacity = ⟨this, first (endIndex capacity) elems⟩ := by
  have hall : Repr capacity this l ([] ++ elems) free := h
  have hnext : l.next (latest capacity ([] : List (Nat × T))) = first (endIndex capacity) elems :=
    hall.next_latest
  rw [cbegin, ← hnext, h.this_eq]
  rfl

theorem beforeBegin_eq (h : Repr capacity this l elems free) :
    l.beforeBegin capacity = ⟨this, latest capacity ([] : List (Nat × T))⟩ := by
  rw [beforeBegin, h.this_eq]
  rfl

theorem cend_eq (h : Repr capacity this l elems free) :
    l.cend capacity = ⟨this, endIndex capacity⟩ := by
  rw [cend, h.this_eq]

theorem emplaceAfter_full (h : Repr capacity this l elems []) (hi : l.invalidElement i = false) :
    l.emplaceAfter capacity ⟨this, i⟩ x = some (⟨this, endIndex capacity⟩, l) := by
  have hlength := h.length_add
  have hfull : l.size ≥ capacity := by
    rw [h.size]
    exact hlength.ge
  simp only [ForwardList.emplaceAfter, h.isInvalidIterOrDifferentLists_eq hi, Option.bind_some,
    Bool.false_eq_true, if_false, hfull, if_true, cend, h.this_eq]

theorem position_lt (h : Repr capacity this l elems free)
    (hi : i ∈ beforeBeginIndex capacity :: elems.map Prod.fst) : i < endIndex capacity := by
  rcases List.mem_cons.mp hi with rfl | hi
  · exact Nat.lt_succ_self _
  · exact Nat.lt_succ_of_lt (h.slot_lt hi)

theorem emplaceAfter {new : Nat} (h : Repr capacity this l (front ++ rest) (new :: free)) :
    ∃ l', l.emplaceAfter capacity ⟨this, latest capacity front⟩ x = some (⟨this, new⟩, l') ∧
      Repr capacity this l' (front ++ (new, x) :: rest) free := by
  have hat := latest_mem capacity front rest
  have hnew : new ∉ capacity :: (front ++ rest).map Prod.fst :=
    fun hmem => h.ring_not_free hmem List.mem_cons_self
  have hlt : new < capacity := h.free_lt List.mem_cons_self
  have hroom : ¬ l.size ≥ capacity := by
    have hlength := h.length_add
    rw [List.length_cons] at hlength
    rw [h.size]
    omega
  obtain ⟨hhead, -, hchain⟩ := h.chain
  obtain ⟨hnewfree, -⟩ := List.nodup_cons.mp h.nodup.of_append_right
  refine ⟨?l', ?heq, ?repr⟩
  case l' =>
    exact
      { this := l.this
        freeListHeadIdx := l.next new
        next := Function.update (Function.update l.next new (l.next (latest capacity front)))
          (latest capacity front) new
        invalidElement := Function.update l.invalidElement new false
        data := Function.update l.data new (some x)
        size := l.size + 1 }
  case heq =>
    simp only [ForwardList.emplaceAfter, h.isInvalidIterOrDifferentLists_eq h.valid_latest,
      Option.bind_some, Bool.false_eq_true, if_false, hroom, construct, getDataPtrFromIdx,
      IsValidElementIdx, setNextIdx, setInvalidElement, hhead, hlt, Function.update_self, and_self,
      if_true, Option.map_some, h.this_eq]
  case repr =>
    refine
      { toStored := h.toStored.insert
        this_eq := h.this_eq
        used := ?_
        end_link := ?_
        chain := ?_
        valid := fun i hi => ?_
        end_valid := ?_
        invalid := fun i hi => ?_
        size := ?_ }
    · obtain ⟨before, hbefore⟩ := latest_split capacity front
      have hused := h.used
      have hnodup := h.ring_nodup
      rw [List.map_append, ← List.cons_append, hbefore, List.append_assoc,
        List.singleton_append] at hused hnodup hnew
      rw [List.map_append, List.map_cons, ← List.cons_append, hbefore, List.append_assoc,
        List.singleton_append]
      exact hused.link hnodup hnew (Nat.lt_succ_of_lt hlt).ne
    · change Function.update (Function.update l.next new _) _ new (endIndex capacity) = _
      rw [Function.update_of_ne (h.position_lt hat).ne', Function.update_of_ne, h.end_link]
      exact (Nat.lt_succ_of_lt hlt).ne'
    · refine (hchain.update hnewfree).update fun hmem => ?_
      exact h.ring_not_free hat (List.mem_cons_of_mem _ hmem)
    · change Function.update l.invalidElement new false i = false
      rw [Function.update_apply]
      split
      · rfl
      · next hne =>
        have hmem := (ring_perm capacity front rest (new, x)).mem_iff.mp hi
        exact h.valid i ((List.mem_cons.mp hmem).resolve_left hne)
    · change Function.update l.invalidElement new false (endIndex capacity) = false
      rw [Function.update_of_ne (Nat.lt_succ_of_lt hlt).ne', h.end_valid]
    · change Function.update l.invalidElement new false i = true
      rw [Function.update_of_ne (ne_of_mem_of_not_mem hi hnewfree)]
      exact h.invalid i (List.mem_cons_of_mem _ hi)
    · change l.size + 1 = _
      rw [h.size, List.length_append, List.length_append, List.length_cons, Nat.add_assoc]

theorem eraseAfter {e : Nat × T} (h : Repr capacity this l (front ++ e :: rest) free) :
    ∃ l', l.eraseAfter capacity ⟨this, latest capacity front⟩ =
        some (⟨this, first (endIndex capacity) rest⟩, l') ∧
      Repr capacity this l' (front ++ rest) (e.1 :: free) := by
  have hmem : e.1 ∈ (front ++ e :: rest).map Prod.fst := List.mem_map_of_mem (by simp)
  have hat := latest_mem capacity front (e :: rest)
  have hvalid := h.valid_iff.mpr hmem
  have hsize : ¬ l.size = 0 := by
    rw [h.size, List.length_append, List.length_cons]
    exact Nat.succ_ne_zero _
  have hnext : l.next (latest capacity front) = e.1 := h.next_latest
  have hnextnext : l.next e.1 = first (endIndex capacity) rest := by
    have hsplit : Repr capacity this l ((front ++ [e]) ++ rest) free := by
      rwa [List.append_assoc, List.singleton_append]
    have hlast := hsplit.next_latest
    rwa [latest_concat] at hlast
  have hout := h.slot_notMem
  have hne : e.1 ≠ latest capacity front :=
    (ne_of_mem_of_not_mem (latest_mem capacity front rest) hout).symm
  have hend : endIndex capacity ≠ e.1 := (h.position_lt (List.mem_cons_of_mem _ hmem)).ne'
  have hnefree : ∀ i ∈ free, i ≠ e.1 := fun i hi =>
    h.ne_of_free (List.mem_cons_of_mem _ hmem) hi
  have hlive : l.data e.1 = some e.2 := h.live e (by simp)
  refine ⟨?l', ?heq, ?repr⟩
  case l' =>
    exact
      { this := l.this
        freeListHeadIdx := e.1
        next := Function.update (Function.update l.next (latest capacity front) (l.next e.1)) e.1
          l.freeListHeadIdx
        invalidElement := Function.update l.invalidElement e.1 true
        data := Function.update l.data e.1 none
        size := l.size - 1 }
  case heq =>
    simp only [ForwardList.eraseAfter, h.isInvalidIterOrDifferentLists_eq h.valid_latest,
      Option.bind_some, Bool.false_eq_true, if_false, hnext, not_true_eq_false, hsize, or_self,
      destruct, getDataPtrFromIdx, IsValidElementIdx, setNextIdx, setInvalidElement, hvalid.1,
      hvalid.2, and_self, if_true, hlive, Option.map_some, h.this_eq, hnextnext]
  case repr =>
    refine
      { toStored := h.toStored.erase
        this_eq := h.this_eq
        used := ?_
        end_link := ?_
        chain := ?_
        valid := fun i hi => ?_
        end_valid := ?_
        invalid := fun i hi => ?_
        size := ?_ }
    · obtain ⟨before, hbefore⟩ := latest_split capacity front
      have hused := h.used
      have hnodup := h.ring_nodup
      rw [List.map_append, List.map_cons, ← List.cons_append, hbefore, List.append_assoc,
        List.singleton_append] at hused hnodup
      have hunlinked := hused.unlink hnodup
      rw [List.map_append, ← List.cons_append, hbefore, List.append_assoc,
        List.singleton_append] at hout ⊢
      exact hunlinked.update hout
    · change Function.update (Function.update l.next _ _) e.1 _ (endIndex capacity) = _
      rw [Function.update_of_ne hend, Function.update_of_ne (h.position_lt hat).ne', h.end_link]
    · refine (h.chain.update fun hfree => ?_).push ?_ hend.symm
      · exact h.ring_not_free hat hfree
      · exact h.not_free hmem
    · change Function.update l.invalidElement e.1 true i = false
      rw [Function.update_of_ne (ne_of_mem_of_not_mem hi hout)]
      exact h.valid i
        ((ring_perm capacity front rest e).mem_iff.mpr (List.mem_cons_of_mem _ hi))
    · change Function.update l.invalidElement e.1 true (endIndex capacity) = false
      rw [Function.update_of_ne hend, h.end_valid]
    · change Function.update l.invalidElement e.1 true i = true
      rcases List.mem_cons.mp hi with rfl | hi
      · exact Function.update_self ..
      · rw [Function.update_of_ne (hnefree i hi)]
        exact h.invalid i hi
    · change l.size - 1 = _
      rw [h.size, List.length_append, List.length_append, List.length_cons]
      rfl

theorem eraseAfter_of_end (h : Repr capacity this l elems free)
    (hi : l.invalidElement i = false) (hnext : l.next i = endIndex capacity) :
    l.eraseAfter capacity ⟨this, i⟩ = some (⟨this, endIndex capacity⟩, l) := by
  have hvalid : ¬ l.IsValidElementIdx capacity (endIndex capacity) :=
    fun hv => Nat.lt_irrefl _ ((Nat.lt_succ_self capacity).trans hv.1)
  simp only [ForwardList.eraseAfter, h.isInvalidIterOrDifferentLists_eq hi, Option.bind_some,
    Bool.false_eq_true, if_false, hnext, hvalid, not_false_eq_true, true_or, if_true, cend,
    h.this_eq]

theorem store {e : Nat × T} (h : Repr capacity this l (front ++ e :: rest) free) (list : Nat) :
    ∃ l', l.store capacity ⟨list, e.1⟩ x = some l' ∧
      Repr capacity this l' (front ++ (e.1, x) :: rest) free := by
  have hslots : (front ++ (e.1, x) :: rest).map Prod.fst = (front ++ e :: rest).map Prod.fst := by
    rw [List.map_append, List.map_append, List.map_cons, List.map_cons]
  refine ⟨{ l with data := Function.update l.data e.1 (some x) }, ?_, ?_⟩
  · rw [ForwardList.store, h.deref_eq (by simp)]
    rfl
  · refine
      { toStored := h.toStored.store
        this_eq := h.this_eq
        used := hslots ▸ h.used
        end_link := h.end_link
        chain := h.chain
        valid := hslots ▸ h.valid
        end_valid := h.end_valid
        invalid := h.invalid
        size := ?_ }
    have hsize := h.size
    rw [List.length_append, List.length_cons] at hsize ⊢
    exact hsize

theorem equals_end (h : Repr capacity this l elems free) (hi : l.invalidElement i = false) :
    l.equals ⟨this, i⟩ (l.cend capacity) = some (i == endIndex capacity) := by
  rw [h.cend_eq, equals, h.isInvalidIterOrDifferentLists_eq h.end_valid, Option.bind_some,
    isInvalidIterator_eq hi]
  rfl

theorem equals_end_cons {e : Nat × T} (h : Repr capacity this l (front ++ e :: rest) free) :
    l.equals ⟨this, e.1⟩ (l.cend capacity) = some false := by
  have hmem : e.1 ∈ beforeBeginIndex capacity :: (front ++ e :: rest).map Prod.fst :=
    List.mem_cons_of_mem _ (List.mem_map_of_mem (by simp))
  rw [h.equals_end (h.valid _ hmem)]
  exact congrArg some (beq_false_of_ne (h.position_lt hmem).ne)

theorem clearLoop (h : Repr capacity this l elems free) :
    ∃ l', ForwardList.clearLoop capacity elems.length l = some l' ∧
      Repr capacity this l' [] ((elems.map Prod.fst).reverse ++ free) := by
  induction elems generalizing l free with
  | nil =>
    refine ⟨l, ?_, h⟩
    rw [List.length_nil, ForwardList.clearLoop]
    exact if_pos h.size
  | cons e rest ih =>
    have hfirst : Repr capacity this l ([] ++ e :: rest) free := h
    obtain ⟨m, hm, hrest⟩ := hfirst.eraseAfter
    obtain ⟨l', hl', hdone⟩ := ih hrest
    refine ⟨l', ?_, ?_⟩
    · have hsize : ¬ l.size = 0 := by
        rw [h.size]
        exact Nat.succ_ne_zero _
      rw [List.length_cons, ForwardList.clearLoop, if_neg hsize, h.beforeBegin_eq, hm]
      exact hl'
    · rwa [List.map_cons, List.reverse_cons, List.append_assoc, List.singleton_append]

theorem clear (h : Repr capacity this l elems free) :
    ∃ l', l.clear capacity = some l' ∧
      Repr capacity this l' [] ((elems.map Prod.fst).reverse ++ free) := by
  rw [ForwardList.clear, h.size]
  exact h.clearLoop

theorem eraseLoop (h : Repr capacity this l (front ++ rest) free) :
    ∃ l', ForwardList.eraseLoop capacity rest.length ⟨this, latest capacity front⟩ l = some l' ∧
      Repr capacity this l' front ((rest.map Prod.fst).reverse ++ free) := by
  induction rest generalizing l free with
  | nil =>
    refine ⟨l, rfl, ?_⟩
    rwa [List.append_nil] at h
  | cons e rest ih =>
    obtain ⟨m, hm, hrest⟩ := h.eraseAfter
    obtain ⟨l', hl', hdone⟩ := ih hrest
    refine ⟨l', ?_, ?_⟩
    · rw [List.length_cons, ForwardList.eraseLoop, hm]
      exact hl'
    · rwa [List.map_cons, List.reverse_cons, List.append_assoc, List.singleton_append]

theorem removeIfLoop (pred : T → Bool) {fuel : Nat} (count : Nat) (hfuel : rest.length < fuel)
    (h : Repr capacity this l (front ++ rest) free) :
    ∃ l', ForwardList.removeIfLoop capacity pred fuel ⟨this, latest capacity front⟩
        ⟨this, first (endIndex capacity) rest⟩ count l =
        some (count + rest.countP (fun e => pred e.2), l') ∧
      Repr capacity this l' (front ++ rest.filter fun e => !pred e.2)
        (((rest.filter fun e => pred e.2).map Prod.fst).reverse ++ free) := by
  induction rest generalizing l front free fuel count with
  | nil =>
    obtain ⟨fuel, rfl⟩ := Nat.exists_eq_succ_of_ne_zero (Nat.ne_of_gt hfuel)
    refine ⟨l, ?_, h⟩
    change ForwardList.removeIfLoop capacity pred (fuel + 1) _ ⟨this, endIndex capacity⟩ count l = _
    rw [ForwardList.removeIfLoop, h.equals_end h.end_valid]
    simp
  | cons e rest ih =>
    obtain ⟨fuel, rfl⟩ := Nat.exists_eq_succ_of_ne_zero (Nat.ne_of_gt (Nat.zero_lt_of_lt hfuel))
    have hfuel' : rest.length < fuel := Nat.lt_of_succ_lt_succ hfuel
    have hround : ForwardList.removeIfLoop capacity pred (fuel + 1) ⟨this, latest capacity front⟩
        ⟨this, first (endIndex capacity) (e :: rest)⟩ count l =
        if pred e.2 then
          (l.eraseAfter capacity ⟨this, latest capacity front⟩).bind fun r =>
            ForwardList.removeIfLoop capacity pred fuel ⟨this, latest capacity front⟩ r.1
              (count + 1) r.2
        else
          (l.increment ⟨this, e.1⟩).bind fun afterNext =>
            ForwardList.removeIfLoop capacity pred fuel ⟨this, e.1⟩ afterNext count l := by
      change ForwardList.removeIfLoop capacity pred (fuel + 1) _ ⟨this, e.1⟩ count l = _
      rw [ForwardList.removeIfLoop, h.equals_end_cons, h.deref_eq (by simp)]
      rfl
    rw [Nat.succ_eq_add_one, hround]
    by_cases hpred : pred e.2 = true
    · obtain ⟨m, hm, hrest⟩ := h.eraseAfter
      obtain ⟨l', hl', hdone⟩ := ih (count + 1) hfuel' hrest
      refine ⟨l', ?_, ?_⟩
      · rw [if_pos hpred, hm, Option.bind_some, hl', List.countP_cons, if_pos hpred,
          Nat.add_assoc, Nat.add_comm 1]
      · rw [List.filter_cons, List.filter_cons, if_neg (by simp [hpred]), if_pos hpred,
          List.map_cons, List.reverse_cons, List.append_assoc, List.singleton_append]
        exact hdone
    · have hkeep : Repr capacity this l ((front ++ [e]) ++ rest) free := by
        rwa [List.append_assoc, List.singleton_append]
      obtain ⟨l', hl', hdone⟩ := ih count hfuel' hkeep
      have hincrement := hkeep.increment_eq this
      rw [latest_concat] at hl' hincrement
      refine ⟨l', ?_, ?_⟩
      · rw [if_neg hpred, hincrement, Option.bind_some, hl', List.countP_cons, if_neg hpred,
          Nat.add_zero]
      · rw [List.filter_cons, List.filter_cons, if_pos (by simp [hpred]), if_neg hpred]
        rwa [List.append_assoc, List.singleton_append] at hdone

theorem removeIf (pred : T → Bool) (h : Repr capacity this l elems free) :
    ∃ l', l.removeIf capacity pred = some (elems.countP (fun e => pred e.2), l') ∧
      Repr capacity this l' (elems.filter fun e => !pred e.2)
        (((elems.filter fun e => pred e.2).map Prod.fst).reverse ++ free) := by
  have hall : Repr capacity this l ([] ++ elems) free := h
  obtain ⟨l', hl', hdone⟩ := hall.removeIfLoop pred 0 (Nat.lt_succ_self elems.length)
  refine ⟨l', ?_, hdone⟩
  rw [ForwardList.removeIf, h.size, h.beforeBegin_eq, h.cbegin_eq]
  rw [Nat.zero_add] at hl'
  exact hl'

section assignments

variable {that : Nat} {rhs : ForwardList T} {front' rest' elems' : List (Nat × T)}
  {free' : List Nat}

theorem overwriteLoop (leave : T → T) {shared shared' : List (Nat × T)}
    (hlength : shared.length = shared'.length)
    (h : Repr capacity this l (front ++ (shared ++ rest)) free)
    (h' : Repr capacity that rhs (front' ++ (shared' ++ rest')) free') :
    ∃ m m', ForwardList.overwriteLoop capacity leave shared.length ⟨this, latest capacity front⟩
        ⟨that, latest capacity front'⟩ l rhs =
        some
          ((⟨this, latest capacity
              (front ++ (shared.map Prod.fst).zip (shared'.map Prod.snd))⟩, m),
            (⟨that, latest capacity
              (front' ++ shared'.map fun e => (e.1, leave e.2))⟩, m')) ∧
      Repr capacity this m
        (front ++ ((shared.map Prod.fst).zip (shared'.map Prod.snd) ++ rest)) free ∧
      Repr capacity that m' (front' ++ (shared'.map (fun e => (e.1, leave e.2)) ++ rest'))
        free' := by
  induction shared generalizing shared' l rhs front front' with
  | nil =>
    obtain rfl := List.eq_nil_of_length_eq_zero hlength.symm
    refine ⟨l, rhs, ?_, h, h'⟩
    simp [ForwardList.overwriteLoop]
  | cons e es ih =>
    cases shared' with
    | nil => cases hlength
    | cons e' es' =>
      rw [List.cons_append] at h h'
      obtain ⟨m', hm', hrhs⟩ := h'.store (x := leave e'.2) that
      obtain ⟨m, hm, hl⟩ := h.store (x := e'.2) this
      have hstep : front ++ (e.1, e'.2) :: (es ++ rest) =
          (front ++ [(e.1, e'.2)]) ++ (es ++ rest) := by
        rw [List.append_assoc, List.singleton_append]
      have hstep' : front' ++ (e'.1, leave e'.2) :: (es' ++ rest') =
          (front' ++ [(e'.1, leave e'.2)]) ++ (es' ++ rest') := by
        rw [List.append_assoc, List.singleton_append]
      obtain ⟨k, k', hk, hdone, hdone'⟩ := ih (Nat.succ.inj hlength) (hstep ▸ hl) (hstep' ▸ hrhs)
      rw [latest_concat, latest_concat, List.append_assoc, List.append_assoc,
        List.singleton_append, List.singleton_append] at hk
      refine ⟨k, k', ?_, ?_, ?_⟩
      · rw [List.length_cons, ForwardList.overwriteLoop, h.increment_eq, Option.bind_some,
          h'.increment_eq, Option.bind_some]
        change (rhs.deref capacity ⟨that, e'.1⟩).bind _ = _
        rw [h'.deref_eq (by simp), Option.bind_some]
        change (rhs.store capacity ⟨that, e'.1⟩ _).bind _ = _
        rw [hm', Option.bind_some]
        change (l.store capacity ⟨this, e.1⟩ _).bind _ = _
        rw [hm, Option.bind_some]
        exact hk
      · rwa [List.append_assoc, List.singleton_append] at hdone
      · rwa [List.append_assoc, List.singleton_append] at hdone'

theorem appendLoop (leave : T → T) {new : List Nat} (hlength : new.length = rest'.length)
    (h : Repr capacity this l front (new ++ free))
    (h' : Repr capacity that rhs (front' ++ rest') free') :
    ∃ m m', ForwardList.appendLoop capacity leave rest'.length ⟨this, latest capacity front⟩
        ⟨that, latest capacity front'⟩ l rhs =
        some ((⟨this, latest capacity (front ++ new.zip (rest'.map Prod.snd))⟩, m), m') ∧
      Repr capacity this m (front ++ new.zip (rest'.map Prod.snd)) free ∧
      Repr capacity that m' (front' ++ rest'.map fun e => (e.1, leave e.2)) free' := by
  induction rest' generalizing new l rhs front front' with
  | nil =>
    obtain rfl := List.eq_nil_of_length_eq_zero hlength
    refine ⟨l, rhs, ?_, ?_, h'⟩
    · simp [ForwardList.appendLoop]
    · rw [List.zip_nil_left, List.append_nil]
      exact h
  | cons e' rest' ih =>
    cases new with
    | nil => cases hlength
    | cons i new =>
      have hl := h
      rw [← List.append_nil front] at hl
      obtain ⟨m', hm', hrhs⟩ := h'.store (x := leave e'.2) that
      obtain ⟨m, hm, hnext⟩ := hl.emplaceAfter (x := e'.2)
      have hstep' : front' ++ (e'.1, leave e'.2) :: rest' =
          (front' ++ [(e'.1, leave e'.2)]) ++ rest' := by
        rw [List.append_assoc, List.singleton_append]
      obtain ⟨k, k', hk, hdone, hdone'⟩ := ih (Nat.succ.inj hlength) hnext (hstep' ▸ hrhs)
      rw [latest_concat, latest_concat, List.append_assoc, List.singleton_append] at hk
      refine ⟨k, k', ?_, ?_, ?_⟩
      · rw [List.length_cons, ForwardList.appendLoop, h'.increment_eq, Option.bind_some]
        change (rhs.deref capacity ⟨that, e'.1⟩).bind _ = _
        rw [h'.deref_eq (by simp), Option.bind_some]
        change (rhs.store capacity ⟨that, e'.1⟩ _).bind _ = _
        rw [hm', Option.bind_some, hm, Option.bind_some]
        exact hk
      · rwa [List.append_assoc, List.singleton_append] at hdone
      · rwa [List.append_assoc, List.singleton_append] at hdone'

theorem assign_grow (leave : T → T) {shared' : List (Nat × T)} {unused : List Nat}
    (hshared : elems.length = shared'.length) (hunused : unused.length = rest'.length)
    (h : Repr capacity this l elems (unused ++ free))
    (h' : Repr capacity that rhs (shared' ++ rest') free') :
    ∃ m m', l.assign capacity leave rhs = some (m, m') ∧
      Repr capacity this m
        ((elems.map Prod.fst).zip (shared'.map Prod.snd) ++ unused.zip (rest'.map Prod.snd))
        free ∧
      Repr capacity that m' ((shared' ++ rest').map fun e => (e.1, leave e.2)) free' := by
  have hl : Repr capacity this l ([] ++ (elems ++ [])) (unused ++ free) := by
    rwa [List.append_nil]
  have hrhs : Repr capacity that rhs ([] ++ (shared' ++ rest')) free' := h'
  obtain ⟨k, k', hk, hthis, hthat⟩ := overwriteLoop leave hshared hl hrhs
  rw [List.append_nil] at hthis
  rw [← List.append_assoc] at hthat
  obtain ⟨m, m', hm, hdone, hdone'⟩ := hthis.appendLoop leave hunused hthat
  refine ⟨m, m', ?_, hdone, ?_⟩
  · have hsize : rhs.size = elems.length + rest'.length := by
      rw [h'.size, List.length_append, hshared]
    rw [ForwardList.assign, h.beforeBegin_eq, h'.beforeBegin_eq, h.size, hsize,
      Nat.min_eq_right (Nat.le_add_right _ _), hk, Option.bind_some, Nat.add_sub_cancel_left, hm,
      Option.bind_some, Nat.sub_eq_zero_of_le (Nat.le_add_right _ _)]
    rfl
  · rw [List.map_append]
    exact hdone'

theorem assign_shrink (leave : T → T) {shared : List (Nat × T)}
    (hshared : shared.length = elems'.length)
    (h : Repr capacity this l (shared ++ rest) free) (h' : Repr capacity that rhs elems' free') :
    ∃ m m', l.assign capacity leave rhs = some (m, m') ∧
      Repr capacity this m ((shared.map Prod.fst).zip (elems'.map Prod.snd))
        ((rest.map Prod.fst).reverse ++ free) ∧
      Repr capacity that m' (elems'.map fun e => (e.1, leave e.2)) free' := by
  have hl : Repr capacity this l ([] ++ (shared ++ rest)) free := h
  have hrhs : Repr capacity that rhs ([] ++ (elems' ++ [])) free' := by
    rwa [List.append_nil]
  obtain ⟨k, k', hk, hthis, hthat⟩ := overwriteLoop leave hshared hl hrhs
  rw [List.append_nil] at hthat
  rw [← List.append_assoc] at hthis
  obtain ⟨m, hm, hdone⟩ := hthis.eraseLoop
  refine ⟨m, k', ?_, hdone, hthat⟩
  have hsize : l.size = elems'.length + rest.length := by
    rw [h.size, List.length_append, hshared]
  rw [ForwardList.assign, h.beforeBegin_eq, h'.beforeBegin_eq, h'.size, hsize,
    Nat.min_eq_left (Nat.le_add_right _ _), ← hshared, hk, Option.bind_some, Nat.sub_self,
    ForwardList.appendLoop, Option.bind_some, hshared, Nat.add_sub_cancel_left, hm]
  rfl

theorem assign (leave : T → T) (h : Repr capacity this l elems free)
    (h' : Repr capacity that rhs elems' free') :
    ∃ m m', l.assign capacity leave rhs = some (m, m') ∧
      Repr capacity this m (SlotSeq.assign ⟨elems, free⟩ (elems'.map Prod.snd)).elems
        (SlotSeq.assign ⟨elems, free⟩ (elems'.map Prod.snd)).free ∧
      Repr capacity that m' (elems'.map fun e => (e.1, leave e.2)) free' := by
  rcases Nat.le_total elems.length elems'.length with hle | hle
  · obtain ⟨shared', rest', rfl, hshared⟩ : ∃ shared' rest', elems' = shared' ++ rest' ∧
        elems.length = shared'.length :=
      ⟨elems'.take elems.length, elems'.drop elems.length,
        (List.take_append_drop elems.length elems').symm,
        (List.length_take_of_le hle).symm⟩
    obtain ⟨unused, others, rfl, hunused⟩ : ∃ unused others, free = unused ++ others ∧
        unused.length = rest'.length := by
      refine ⟨free.take rest'.length, free.drop rest'.length,
        (List.take_append_drop rest'.length free).symm, List.length_take_of_le ?_⟩
      have hlength := h.length_add
      have hlength' := h'.length_le
      rw [List.length_append] at hlength'
      omega
    rw [SlotSeq.assign_grow hshared hunused]
    exact assign_grow leave hshared hunused h h'
  · obtain ⟨shared, rest, rfl, hshared⟩ : ∃ shared rest, elems = shared ++ rest ∧
        shared.length = elems'.length :=
      ⟨elems.take elems'.length, elems.drop elems'.length,
        (List.take_append_drop elems'.length elems).symm, List.length_take_of_le hle⟩
    rw [SlotSeq.assign_shrink hshared]
    exact assign_shrink leave hshared h h'

end assignments

theorem initLoop (n : Nat) (l : ForwardList T) :
    (List.range' 0 n).foldl (fun l i => (l.setInvalidElement i true).setNextIdx i (i + 1)) l =
      { l with
        next := fun i => if i < n then i + 1 else l.next i
        invalidElement := fun i => if i < n then true else l.invalidElement i } := by
  induction n with
  | zero => simp only [List.range'_zero, List.foldl_nil, Nat.not_lt_zero, if_false]
  | succ n ih =>
    rw [List.range'_1_concat, List.foldl_append, ih]
    simp only [List.foldl_cons, List.foldl_nil, setNextIdx, setInvalidElement, Nat.zero_add]
    congr 1
    · funext i
      rw [Function.update_apply]
      split
      · next hi => rw [hi, if_pos (by omega)]
      · next hi => exact if_congr (by omega) rfl rfl
    · funext i
      rw [Function.update_apply]
      split
      · next hi => rw [hi, if_pos (by omega)]
      · next hi => exact if_congr (by omega) rfl rfl

theorem defaultConstruct_next (l : ForwardList T) (hi : i ≤ capacity + 1) :
    (l.defaultConstruct capacity).next i = if i + 1 < capacity then i + 1 else capacity + 1 := by
  rw [defaultConstruct, ForwardList.init, Nat.sub_zero, initLoop]
  simp only [setNextIdx, setInvalidElement, Function.update_apply, endIndex]
  split_ifs <;> omega

theorem defaultConstruct_invalidElement (l : ForwardList T) (hi : i ≤ capacity + 1) :
    (l.defaultConstruct capacity).invalidElement i = if i < capacity then true else false := by
  rw [defaultConstruct, ForwardList.init, Nat.sub_zero, initLoop]
  simp only [setNextIdx, setInvalidElement, Function.update_apply]
  split_ifs <;> first | rfl | omega

theorem defaultConstruct_fields (l : ForwardList T) :
    (l.defaultConstruct capacity).this = l.this ∧
      (l.defaultConstruct capacity).data = l.data := by
  rw [defaultConstruct, ForwardList.init, Nat.sub_zero, initLoop]
  exact ⟨rfl, rfl⟩

theorem chain_range' {next : Nat → Nat}
    (hnext : ∀ i ≤ capacity + 1, next i = if i + 1 < capacity then i + 1 else capacity + 1)
    (n k : Nat) (hk : k + n + 1 = capacity) :
    Chain next (· = endIndex capacity) k (List.range' k (n + 1)) := by
  induction n generalizing k with
  | zero =>
    have hlt : k < capacity + 1 := by omega
    refine ⟨rfl, hlt.ne, ?_⟩
    rw [hnext k (by omega), if_neg (by omega)]
    rfl
  | succ n ih =>
    have hlt : k < capacity + 1 := by omega
    rw [List.range'_succ]
    refine ⟨rfl, hlt.ne, ?_⟩
    rw [hnext k (by omega), if_pos (by omega)]
    exact ih (k + 1) (by omega)

theorem defaultConstruct (hthis : l.this = this) (hraw : ∀ i < capacity, l.data i = none)
    (hcapacity : 0 < capacity) :
    Repr capacity this (l.defaultConstruct capacity) [] (List.range capacity) where
  toStored := by
    rw [(defaultConstruct_fields l).2]
    exact Stored.empty hraw
  this_eq := (defaultConstruct_fields l).1.trans hthis
  used := by
    refine ⟨rfl, Nat.ne_of_lt (Nat.lt_succ_self _), ?_⟩
    change (l.defaultConstruct capacity).next capacity = capacity + 1
    rw [defaultConstruct_next l (Nat.le_succ _), if_neg (by omega)]
  end_link := by
    rw [defaultConstruct_next l le_rfl, if_neg (by omega)]
  chain := by
    obtain ⟨n, rfl⟩ := Nat.exists_eq_succ_of_ne_zero hcapacity.ne'
    rw [List.range_eq_range']
    exact chain_range' (fun i hi => defaultConstruct_next l hi) n 0 (by omega)
  valid := by
    intro i hi
    rw [List.mem_singleton.mp hi, defaultConstruct_invalidElement l (Nat.le_succ _),
      if_neg (Nat.lt_irrefl _)]
  end_valid := by
    rw [defaultConstruct_invalidElement l le_rfl, if_neg (by omega)]
  invalid := fun i hi => by
    have hlt := List.mem_range.mp hi
    rw [defaultConstruct_invalidElement l (by omega), if_pos hlt]
  size := rfl

theorem defaultConstruct_of_empty (h : Repr capacity this l [] free) (hcapacity : 0 < capacity) :
    Repr capacity this (l.defaultConstruct capacity) [] (List.range capacity) :=
  defaultConstruct h.this_eq h.raw_of_empty hcapacity

theorem valid_of_denotes {s : SlotSeq T} (h : Repr capacity this l s.elems s.free)
    (hi : i ∈ s.slots ∨ i = beforeBeginIndex capacity ∨ i = endIndex capacity) :
    l.invalidElement i = false := by
  rcases hi with hi | rfl | rfl
  · exact h.valid i (List.mem_cons_of_mem _ hi)
  · exact h.valid _ List.mem_cons_self
  · exact h.end_valid

theorem end_notMem (h : Repr capacity this l elems free) :
    endIndex capacity ∉ elems.map Prod.fst :=
  fun hmem => Nat.lt_irrefl _ ((Nat.lt_succ_self capacity).trans (h.slot_lt hmem))

theorem emplaceAfter_at {s : SlotSeq T} (h : Repr capacity this l s.elems s.free)
    (hi : i ∈ s.slots ∨ i = beforeBeginIndex capacity ∨ i = endIndex capacity)
    (hend : ¬ (i = endIndex capacity ∧ l.size < capacity)) :
    ∃ l', l.emplaceAfter capacity ⟨this, i⟩ x =
        some (⟨this, (s.insertAfter capacity i x).1⟩, l') ∧
      Repr capacity this l' (s.insertAfter capacity i x).2.elems
        (s.insertAfter capacity i x).2.free := by
  obtain ⟨elems, free⟩ := s
  cases free with
  | nil => exact ⟨l, h.emplaceAfter_full (h.valid_of_denotes hi), h⟩
  | cons new free =>
    have hroom : l.size < capacity := by
      have hlength : elems.length + (free.length + 1) = capacity := h.length_add
      have hsize : l.size = elems.length := h.size
      omega
    have hne : i ≠ endIndex capacity := fun heq => hend ⟨heq, hroom⟩
    have hposition : i ∈ SlotSeq.slots ⟨elems, new :: free⟩ ∨ i = capacity :=
      hi.imp_right fun hi => hi.resolve_right hne
    have hsplit := SlotSeq.front_append_back capacity ⟨elems, new :: free⟩ i
    obtain ⟨l', hl', hdone⟩ := (hsplit ▸ h).emplaceAfter (x := x)
    rw [SlotSeq.latest_front hposition] at hl'
    rw [SlotSeq.insertAfter]
    simp only [if_neg hne]
    exact ⟨l', hl', hdone⟩

theorem eraseAfter_at {s : SlotSeq T} (h : Repr capacity this l s.elems s.free)
    (hi : i ∈ s.slots ∨ i = beforeBeginIndex capacity ∨ i = endIndex capacity) :
    ∃ l', l.eraseAfter capacity ⟨this, i⟩ = some (⟨this, (s.eraseAfter capacity i).1⟩, l') ∧
      Repr capacity this l' (s.eraseAfter capacity i).2.elems
        (s.eraseAfter capacity i).2.free := by
  by_cases heq : i = endIndex capacity
  · subst heq
    have hback : s.back capacity (endIndex capacity) = [] := by
      rw [SlotSeq.back, if_neg (Nat.succ_ne_self capacity)]
      exact beyond_eq_nil h.end_notMem
    refine ⟨l, ?_, ?_⟩
    · rw [SlotSeq.eraseAfter, hback]
      exact h.eraseAfter_of_end h.end_valid h.end_link
    · rw [SlotSeq.eraseAfter, hback]
      exact h
  · have hposition : i ∈ s.slots ∨ i = capacity := hi.imp_right fun hi => hi.resolve_right heq
    have hsplit := SlotSeq.front_append_back capacity s i
    have hlatest := SlotSeq.latest_front hposition
    rw [SlotSeq.eraseAfter]
    split
    · next hnone =>
      rw [hnone] at hsplit
      have hnext := (hsplit ▸ h).next_latest
      rw [hlatest] at hnext
      exact ⟨l, h.eraseAfter_of_end (h.valid_of_denotes hi) hnext, h⟩
    · next e rest hsome =>
      rw [hsome] at hsplit
      have herase := (hsplit ▸ h).eraseAfter
      rw [hlatest] at herase
      exact herase

theorem size_lt_iff {s : SlotSeq T} (h : Repr capacity this l s.elems s.free) :
    l.size < capacity ↔ s.free ≠ [] := by
  have hlength := h.length_add
  rw [h.size, ← List.length_pos_iff]
  omega

theorem emplaceFront {s : SlotSeq T} (h : Repr capacity this l s.elems s.free)
    (hroom : l.size < capacity) :
    ∃ l', l.emplaceFront capacity x = some (x, l') ∧
      Repr capacity this l' (s.insertAfter capacity capacity x).2.elems
        (s.insertAfter capacity capacity x).2.free := by
  obtain ⟨l', hl', hdone⟩ := h.emplaceAfter_at (x := x) (Or.inr (Or.inl rfl))
    fun hend => absurd hend.1 (Nat.succ_ne_self capacity).symm
  refine ⟨l', ?_, hdone⟩
  obtain ⟨elems, free⟩ := s
  cases free with
  | nil => exact absurd rfl (h.size_lt_iff.mp hroom)
  | cons new free =>
    have hne : capacity ≠ endIndex capacity := (Nat.succ_ne_self capacity).symm
    simp only [SlotSeq.insertAfter, if_neg hne] at hl' hdone
    have hderef := hdone.deref_eq (e := (new, x)) (by simp) this
    rw [ForwardList.emplaceFront, h.beforeBegin_eq]
    change (l.emplaceAfter capacity ⟨this, capacity⟩ x).bind _ = _
    rw [hl', Option.bind_some, hderef]
    rfl

theorem pushFront {s : SlotSeq T} (h : Repr capacity this l s.elems s.free) :
    ∃ l', l.pushFront capacity x = some (!s.free.isEmpty, l') ∧
      Repr capacity this l' (s.insertAfter capacity capacity x).2.elems
        (s.insertAfter capacity capacity x).2.free := by
  by_cases hroom : l.size < capacity
  · obtain ⟨l', hl', hdone⟩ := h.emplaceFront (x := x) hroom
    refine ⟨l', ?_, hdone⟩
    have hfree := h.size_lt_iff.mp hroom
    have hgrown : l'.size = l.size + 1 := by
      obtain ⟨elems, free⟩ := s
      cases free with
      | nil => exact absurd rfl hfree
      | cons new free =>
        have hsize : l'.size = elems.length + 1 := by
          simpa [SlotSeq.insertAfter, SlotSeq.front, SlotSeq.back] using hdone.size
        rw [hsize, h.size]
    rw [ForwardList.pushFront, if_pos hroom, hl']
    simp [hgrown, hfree]
  · have hfull : s.free = [] := not_not.mp (mt h.size_lt_iff.mpr hroom)
    refine ⟨l, ?_, ?_⟩
    · rw [ForwardList.pushFront, if_neg hroom]
      simp [hfull]
    · obtain ⟨elems, free⟩ := s
      obtain rfl : free = [] := hfull
      exact h

theorem popFront {s : SlotSeq T} (h : Repr capacity this l s.elems s.free) :
    ∃ l', l.popFront capacity = some (!s.elems.isEmpty, l') ∧
      Repr capacity this l' (s.eraseAfter capacity capacity).2.elems
        (s.eraseAfter capacity capacity).2.free := by
  obtain ⟨l', hl', hdone⟩ := h.eraseAfter_at (Or.inr (Or.inl rfl))
  refine ⟨l', ?_, hdone⟩
  rw [ForwardList.popFront, h.beforeBegin_eq]
  change (l.eraseAfter capacity ⟨this, capacity⟩).map _ = _
  rw [hl', Option.map_some]
  congr 2
  rw [hdone.size, h.size]
  obtain ⟨elems, free⟩ := s
  cases elems with
  | nil => simp [SlotSeq.eraseAfter, SlotSeq.back]
  | cons e rest => simp [SlotSeq.eraseAfter, SlotSeq.back, SlotSeq.front]

section constructors

variable {that : Nat} {rhs : ForwardList T} {elems' : List (Nat × T)} {free' : List Nat}
  {movedFrom : T → T}

theorem copyAssign (h : Repr capacity this l elems free)
    (h' : Repr capacity that rhs elems' free') :
    ∃ m, l.copyAssign capacity rhs = some m ∧
      Repr capacity this m (SlotSeq.assign ⟨elems, free⟩ (elems'.map Prod.snd)).elems
        (SlotSeq.assign ⟨elems, free⟩ (elems'.map Prod.snd)).free := by
  obtain ⟨m, m', hm, hdone, -⟩ := h.assign id h'
  refine ⟨m, ?_, hdone⟩
  rw [ForwardList.copyAssign, hm]
  rfl

theorem moveAssign (h : Repr capacity this l elems free)
    (h' : Repr capacity that rhs elems' free') :
    ∃ m m', l.moveAssign capacity movedFrom rhs = some (m, m') ∧
      Repr capacity this m (SlotSeq.assign ⟨elems, free⟩ (elems'.map Prod.snd)).elems
        (SlotSeq.assign ⟨elems, free⟩ (elems'.map Prod.snd)).free ∧
      Repr capacity that m' [] ((elems'.map Prod.fst).reverse ++ free') := by
  obtain ⟨m, k', hm, hdone, hrhs⟩ := h.assign movedFrom h'
  obtain ⟨m', hm', hcleared⟩ := hrhs.clear
  rw [List.map_map] at hcleared
  refine ⟨m, m', ?_, hdone, hcleared⟩
  rw [ForwardList.moveAssign, hm, Option.bind_some, hm']
  rfl

theorem copyConstruct (h : Repr capacity this l elems free)
    (h' : Repr capacity that rhs elems' free') (hcapacity : 0 < capacity) :
    ∃ m, ((l.clear capacity).bind fun m => m.copyConstruct capacity rhs) = some m ∧
      Repr capacity this m (SlotSeq.assign (SlotSeq.new capacity) (elems'.map Prod.snd)).elems
        (SlotSeq.assign (SlotSeq.new capacity) (elems'.map Prod.snd)).free := by
  obtain ⟨k, hk, hcleared⟩ := h.clear
  rw [hk, Option.bind_some]
  exact (hcleared.defaultConstruct_of_empty hcapacity).copyAssign h'

theorem moveConstruct (h : Repr capacity this l elems free)
    (h' : Repr capacity that rhs elems' free') (hcapacity : 0 < capacity) :
    ∃ m m', ((l.clear capacity).bind fun m => m.moveConstruct capacity movedFrom rhs) =
        some (m, m') ∧
      Repr capacity this m (SlotSeq.assign (SlotSeq.new capacity) (elems'.map Prod.snd)).elems
        (SlotSeq.assign (SlotSeq.new capacity) (elems'.map Prod.snd)).free ∧
      Repr capacity that m' [] ((elems'.map Prod.fst).reverse ++ free') := by
  obtain ⟨k, hk, hcleared⟩ := h.clear
  rw [hk, Option.bind_some]
  exact (hcleared.defaultConstruct_of_empty hcapacity).moveAssign h'

end constructors

end Repr

/-- Fewer elements are linked behind the begin than the size says. -/
structure Stuck (capacity : Nat) (l : ForwardList T) (elems : List (Nat × T)) : Prop where
  used : Chain l.next (· = endIndex capacity) (beforeBeginIndex capacity)
    (beforeBeginIndex capacity :: elems.map Prod.fst)
  nodup : (beforeBeginIndex capacity :: elems.map Prod.fst).Nodup
  valid : ∀ i ∈ beforeBeginIndex capacity :: elems.map Prod.fst, l.invalidElement i = false
  slot_lt : ∀ i ∈ elems.map Prod.fst, i < capacity
  live : ∀ e ∈ elems, l.data e.1 = some e.2
  more : elems.length < l.size

namespace Stuck

variable {capacity this : Nat} {l : ForwardList T} {elems rest : List (Nat × T)}
  {free : List Nat} {x : T}

theorem not_repr {elems' : List (Nat × T)} (h : Stuck capacity l elems) :
    ¬ Repr capacity this l elems' free := by
  intro h'
  have hslots := congrArg List.length (h'.used.unique h.used)
  have hmore := h.more
  rw [h'.size] at hmore
  simp only [List.length_cons, List.length_map] at hslots
  omega

theorem isInvalidIterOrDifferentLists_eq (h : Stuck capacity l elems) :
    l.isInvalidIterOrDifferentLists ⟨l.this, beforeBeginIndex capacity⟩ = some false := by
  rw [isInvalidIterOrDifferentLists, if_pos rfl]
  exact if_pos (h.valid _ List.mem_cons_self)

theorem eraseAfter_nil (h : Stuck capacity l []) :
    l.eraseAfter capacity (l.beforeBegin capacity) = some (l.cend capacity, l) := by
  have hnext : l.next (beforeBeginIndex capacity) = endIndex capacity := h.used.2.2
  have hvalid : ¬ l.IsValidElementIdx capacity (endIndex capacity) :=
    fun hv => Nat.lt_irrefl _ ((Nat.lt_succ_self capacity).trans hv.1)
  simp only [eraseAfter, h.isInvalidIterOrDifferentLists_eq, Option.bind_some,
    Bool.false_eq_true, if_false, beforeBegin, hnext, hvalid, not_false_eq_true, true_or, if_true]

theorem eraseAfter_cons {e : Nat × T} (h : Stuck capacity l (e :: rest)) :
    ∃ iter l', l.eraseAfter capacity (l.beforeBegin capacity) = some (iter, l') ∧
      Stuck capacity l' rest := by
  have hused := h.used
  obtain ⟨-, -, hnext, -, hrest⟩ := hused
  have hlt : e.1 < capacity := h.slot_lt e.1 List.mem_cons_self
  have hvalid : l.invalidElement e.1 = false :=
    h.valid e.1 (List.mem_cons_of_mem _ List.mem_cons_self)
  have hlive := h.live e List.mem_cons_self
  have hmore := h.more
  have hsize : ¬ l.size = 0 := fun hzero => by
    rw [hzero] at hmore
    cases hmore
  have hout : e.1 ∉ capacity :: rest.map Prod.fst := by
    have hswap := (List.Perm.swap e.1 capacity (rest.map Prod.fst)).nodup_iff.mp h.nodup
    exact (List.nodup_cons.mp hswap).1
  refine ⟨⟨l.this, l.next e.1⟩, ?l', ?heq, ?stuck⟩
  case l' =>
    exact
      { this := l.this
        freeListHeadIdx := e.1
        next := Function.update (Function.update l.next capacity (l.next e.1)) e.1
          l.freeListHeadIdx
        invalidElement := Function.update l.invalidElement e.1 true
        data := Function.update l.data e.1 none
        size := l.size - 1 }
  case heq =>
    simp only [eraseAfter, h.isInvalidIterOrDifferentLists_eq, Option.bind_some,
      Bool.false_eq_true, if_false, beforeBegin, hnext, not_true_eq_false, hsize, or_self,
      destruct, getDataPtrFromIdx, IsValidElementIdx, setNextIdx, setInvalidElement, hlt, hvalid,
      and_self, if_true, hlive, Option.map_some]
  case stuck =>
    refine
      { used := ?_
        nodup := (List.sublist_cons_self e.1 _).cons_cons capacity |>.nodup h.nodup
        valid := fun i hi => ?_
        slot_lt := fun i hi => h.slot_lt i (List.mem_cons_of_mem _ hi)
        live := fun e' he => ?_
        more := ?_ }
    · have hunlinked : Chain (Function.update l.next capacity (l.next e.1))
          (· = endIndex capacity) capacity ([] ++ capacity :: rest.map Prod.fst) :=
        Chain.unlink h.used h.nodup
      exact hunlinked.update hout
    · change Function.update l.invalidElement e.1 true i = false
      rw [Function.update_of_ne (ne_of_mem_of_not_mem hi hout)]
      refine h.valid i ?_
      rcases List.mem_cons.mp hi with rfl | hi
      · exact List.mem_cons_self
      · exact List.mem_cons_of_mem _ (List.mem_cons_of_mem _ hi)
    · change Function.update l.data e.1 none e'.1 = some e'.2
      rw [Function.update_of_ne, h.live e' (List.mem_cons_of_mem _ he)]
      exact ne_of_mem_of_not_mem (List.mem_cons_of_mem _ (List.mem_map_of_mem he)) hout
    · change rest.length < l.size - 1
      rw [List.length_cons] at hmore
      omega

theorem clearLoop (h : Stuck capacity l elems) (fuel : Nat) :
    ForwardList.clearLoop capacity fuel l = none := by
  induction fuel generalizing l elems with
  | zero =>
    rw [ForwardList.clearLoop, if_neg (Nat.ne_of_gt (Nat.zero_lt_of_lt h.more))]
  | succ fuel ih =>
    rw [ForwardList.clearLoop, if_neg (Nat.ne_of_gt (Nat.zero_lt_of_lt h.more))]
    cases elems with
    | nil =>
      rw [h.eraseAfter_nil]
      exact ih h
    | cons e rest =>
      obtain ⟨iter, l', hl', hstuck⟩ := h.eraseAfter_cons
      rw [hl']
      exact ih hstuck

end Stuck

theorem Repr.emplaceAfter_end {capacity this new : Nat} {l : ForwardList T}
    {elems : List (Nat × T)} {free : List Nat} {x : T}
    (h : Repr capacity this l elems (new :: free)) :
    ∃ l', l.emplaceAfter capacity ⟨this, endIndex capacity⟩ x = some (⟨this, new⟩, l') ∧
      Stuck capacity l' elems := by
  have hlt : new < capacity := h.free_lt List.mem_cons_self
  have hnew : new ∉ capacity :: elems.map Prod.fst :=
    fun hmem => h.ring_not_free hmem List.mem_cons_self
  have hend : endIndex capacity ∉ capacity :: elems.map Prod.fst :=
    fun hmem => Nat.lt_irrefl _ (h.position_lt hmem)
  have hroom : ¬ l.size ≥ capacity := by
    have hlength := h.length_add
    rw [List.length_cons] at hlength
    rw [h.size]
    omega
  obtain ⟨hhead, -, -⟩ := h.chain
  refine ⟨?l', ?heq, ?stuck⟩
  case l' =>
    exact
      { this := l.this
        freeListHeadIdx := l.next new
        next := Function.update (Function.update l.next new (l.next (endIndex capacity)))
          (endIndex capacity) new
        invalidElement := Function.update l.invalidElement new false
        data := Function.update l.data new (some x)
        size := l.size + 1 }
  case heq =>
    simp only [ForwardList.emplaceAfter, h.isInvalidIterOrDifferentLists_eq h.end_valid,
      Option.bind_some, Bool.false_eq_true, if_false, hroom, construct, getDataPtrFromIdx,
      IsValidElementIdx, setNextIdx, setInvalidElement, hhead, hlt, Function.update_self,
      and_self, if_true,
      Option.map_some, h.this_eq]
  case stuck =>
    refine
      { used := (h.used.update hnew).update hend
        nodup := h.ring_nodup
        valid := fun i hi => ?_
        slot_lt := fun i hi => h.slot_lt hi
        live := fun e he => ?_
        more := ?_ }
    · change Function.update l.invalidElement new false i = false
      rw [Function.update_of_ne (ne_of_mem_of_not_mem hi hnew), h.valid i hi]
    · change Function.update l.data new (some x) e.1 = some e.2
      rw [Function.update_of_ne, h.live e he]
      exact ne_of_mem_of_not_mem (List.mem_cons_of_mem _ (List.mem_map_of_mem he)) hnew
    · change elems.length < l.size + 1
      rw [h.size]
      exact Nat.lt_succ_self _

end ForwardList

inductive ForwardListOp (T : Type u)
  | emplaceAfter (l : Nat) (iter : CxxIterator) (x : T)
  | insertAfter (l : Nat) (iter : CxxIterator) (x : T)
  | emplaceFront (l : Nat) (x : T)
  | pushFront (l : Nat) (x : T)
  | popFront (l : Nat)
  | eraseAfter (l : Nat) (iter : CxxIterator)
  | remove (l : Nat) (x : T)
  | removeIf (l : Nat) (pred : T → Bool)
  | clear (l : Nat)
  | copyAssign (l rhs : Nat)
  | moveAssign (l rhs : Nat)
  | copyConstruct (l rhs : Nat)
  | moveConstruct (l rhs : Nat)

namespace ForwardListOp

open ListRun

variable [BEq T] (movedFrom : T → T) (capacity : Nat)

def exec (ls : Nat → ForwardList T) :
    ForwardListOp T → Option (ListResult T × (Nat → ForwardList T))
  | .emplaceAfter l iter x => on ls l .iter ((ls l).emplaceAfter capacity iter x)
  | .insertAfter l iter x => on ls l .iter ((ls l).insertAfter capacity iter x)
  | .emplaceFront l x => on ls l .value ((ls l).emplaceFront capacity x)
  | .pushFront l x => on ls l .flag ((ls l).pushFront capacity x)
  | .popFront l => on ls l .flag ((ls l).popFront capacity)
  | .eraseAfter l iter => on ls l .iter ((ls l).eraseAfter capacity iter)
  | .remove l x => on ls l .count ((ls l).remove capacity x)
  | .removeIf l pred => on ls l .count ((ls l).removeIf capacity pred)
  | .clear l => onOne ls l ((ls l).clear capacity)
  | .copyAssign l rhs =>
    if l = rhs then some (.done, ls)
    else onOne ls l ((ls l).copyAssign capacity (ls rhs))
  | .moveAssign l rhs =>
    if l = rhs then some (.done, ls)
    else onBoth ls l rhs ((ls l).moveAssign capacity movedFrom (ls rhs))
  | .copyConstruct l rhs =>
    onOne ls l (((ls l).clear capacity).bind fun m => m.copyConstruct capacity (ls rhs))
  | .moveConstruct l rhs =>
    onBoth ls l rhs
      (((ls l).clear capacity).bind fun m => m.moveConstruct capacity movedFrom (ls rhs))

def execSeq (ss : Nat → SlotSeq T) :
    ForwardListOp T → ListResult T × (Nat → SlotSeq T)
  | .emplaceAfter l iter x =>
    let r := (ss l).insertAfter capacity iter.idx x
    (.iter ⟨l, r.1⟩, Function.update ss l r.2)
  | .insertAfter l iter x =>
    let r := (ss l).insertAfter capacity iter.idx x
    (.iter ⟨l, r.1⟩, Function.update ss l r.2)
  | .emplaceFront l x =>
    (.value x, Function.update ss l ((ss l).insertAfter capacity capacity x).2)
  | .pushFront l x =>
    (.flag !(ss l).free.isEmpty,
      Function.update ss l ((ss l).insertAfter capacity capacity x).2)
  | .popFront l =>
    (.flag !(ss l).elems.isEmpty,
      Function.update ss l ((ss l).eraseAfter capacity capacity).2)
  | .eraseAfter l iter =>
    let r := (ss l).eraseAfter capacity iter.idx
    (.iter ⟨l, r.1⟩, Function.update ss l r.2)
  | .remove l x =>
    let r := (ss l).removeIf fun y => y == x
    (.count r.1, Function.update ss l r.2)
  | .removeIf l pred =>
    let r := (ss l).removeIf pred
    (.count r.1, Function.update ss l r.2)
  | .clear l => (.done, Function.update ss l (ss l).clear)
  | .copyAssign l rhs =>
    if l = rhs then (.done, ss)
    else (.done, Function.update ss l ((ss l).assign (ss rhs).values))
  | .moveAssign l rhs =>
    if l = rhs then (.done, ss)
    else
      (.done,
        Function.update (Function.update ss l ((ss l).assign (ss rhs).values)) rhs (ss rhs).clear)
  | .copyConstruct l rhs =>
    (.done, Function.update ss l ((SlotSeq.new capacity).assign (ss rhs).values))
  | .moveConstruct l rhs =>
    (.done,
      Function.update (Function.update ss l ((SlotSeq.new capacity).assign (ss rhs).values)) rhs
        (ss rhs).clear)

end ForwardListOp

namespace ForwardList

open SlotSeq

variable (movedFrom : T → T) (capacity : Nat)

def start (links : Nat → Nat) (flags : Nat → Bool) : ListRun (ForwardList T) T where
  lists := fun l =>
    ForwardList.defaultConstruct capacity
      { this := l
        freeListHeadIdx := 0
        next := links
        invalidElement := flags
        data := fun _ => none
        size := 0 }
  seqs := fun _ => SlotSeq.new capacity
  results := []
  expected := []

def step [BEq T] (s : ListRun (ForwardList T) T) (op : ForwardListOp T) :
    Option (ListRun (ForwardList T) T) :=
  s.advance (op.exec movedFrom capacity s.lists) (op.execSeq capacity s.seqs)

def Denotes (s : ListRun (ForwardList T) T) (l : Nat) (iter : CxxIterator) : Prop :=
  iter.list = l ∧ (iter.idx ∈ (s.seqs l).slots ∨ iter.idx = beforeBeginIndex capacity ∨
    iter.idx = endIndex capacity)

def Admissible (s : ListRun (ForwardList T) T) : ForwardListOp T → Prop
  | .emplaceAfter l iter _ => Denotes capacity s l iter
  | .insertAfter l iter _ => Denotes capacity s l iter
  | .eraseAfter l iter => Denotes capacity s l iter
  | .emplaceFront l _ => (s.lists l).size < capacity
  | .copyConstruct l rhs => l ≠ rhs
  | .moveConstruct l rhs => l ≠ rhs
  | _ => True

def NotBehindEnd (s : ListRun (ForwardList T) T) : ForwardListOp T → Prop
  | .emplaceAfter l iter _ => ¬ (iter.idx = endIndex capacity ∧ (s.lists l).size < capacity)
  | .insertAfter l iter _ => ¬ (iter.idx = endIndex capacity ∧ (s.lists l).size < capacity)
  | _ => True

instance (s : ListRun (ForwardList T) T) (l : Nat) (iter : CxxIterator) :
    Decidable (Denotes capacity s l iter) :=
  inferInstanceAs (Decidable (_ ∧ _))

instance (s : ListRun (ForwardList T) T) :
    ∀ op : ForwardListOp T, Decidable (Admissible capacity s op)
  | .emplaceAfter l iter _ => inferInstanceAs (Decidable (Denotes capacity s l iter))
  | .insertAfter l iter _ => inferInstanceAs (Decidable (Denotes capacity s l iter))
  | .eraseAfter l iter => inferInstanceAs (Decidable (Denotes capacity s l iter))
  | .emplaceFront l _ => inferInstanceAs (Decidable ((s.lists l).size < capacity))
  | .copyConstruct l rhs => inferInstanceAs (Decidable (l ≠ rhs))
  | .moveConstruct l rhs => inferInstanceAs (Decidable (l ≠ rhs))
  | .pushFront _ _ | .popFront _ | .remove _ _ | .removeIf _ _ | .clear _ | .copyAssign _ _
  | .moveAssign _ _ => isTrue trivial

variable {movedFrom} {capacity} {s s' : ListRun (ForwardList T) T}

theorem refines_start (links : Nat → Nat) (flags : Nat → Bool) (hcapacity : 0 < capacity) :
    (start capacity links flags : ListRun (ForwardList T) T).Refines (Repr capacity) where
  agree := rfl
  repr := fun _ => Repr.defaultConstruct rfl (fun _ _ => rfl) hcapacity

theorem refines_step [BEq T] (h : s.Refines (Repr capacity)) (hcapacity : 0 < capacity)
    {op : ForwardListOp T} (hop : Admissible capacity s op) (hend : NotBehindEnd capacity s op) :
    ∃ s', step movedFrom capacity s op = some s' ∧ s'.Refines (Repr capacity) := by
  cases op with
  | emplaceAfter l iter x =>
    obtain ⟨list, idx⟩ := iter
    obtain ⟨hl, hi⟩ := hop
    obtain rfl : list = l := hl
    exact h.on ((h.repr list).emplaceAfter_at hi hend)
  | insertAfter l iter x =>
    obtain ⟨list, idx⟩ := iter
    obtain ⟨hl, hi⟩ := hop
    obtain rfl : list = l := hl
    exact h.on ((h.repr list).emplaceAfter_at hi hend)
  | emplaceFront l x => exact h.on ((h.repr l).emplaceFront hop)
  | pushFront l x => exact h.on (h.repr l).pushFront
  | popFront l => exact h.on (h.repr l).popFront
  | eraseAfter l iter =>
    obtain ⟨list, idx⟩ := iter
    obtain ⟨hl, hi⟩ := hop
    obtain rfl : list = l := hl
    exact h.on ((h.repr list).eraseAfter_at hi)
  | remove l x => exact h.on ((h.repr l).removeIf _)
  | removeIf l pred => exact h.on ((h.repr l).removeIf _)
  | clear l => exact h.onOne (h.repr l).clear
  | copyAssign l rhs =>
    by_cases heq : l = rhs
    · simp only [step, ForwardListOp.exec, ForwardListOp.execSeq, heq, if_true]
      exact h.same
    · simp only [step, ForwardListOp.exec, ForwardListOp.execSeq, heq, if_false]
      exact h.onOne ((h.repr l).copyAssign (h.repr rhs))
  | moveAssign l rhs =>
    by_cases heq : l = rhs
    · simp only [step, ForwardListOp.exec, ForwardListOp.execSeq, heq, if_true]
      exact h.same
    · simp only [step, ForwardListOp.exec, ForwardListOp.execSeq, heq, if_false]
      exact h.onBoth heq ((h.repr l).moveAssign (h.repr rhs))
  | copyConstruct l rhs =>
    exact h.onOne ((h.repr l).copyConstruct (h.repr rhs) hcapacity)
  | moveConstruct l rhs =>
    exact h.onBoth hop ((h.repr l).moveConstruct (h.repr rhs) hcapacity)

theorem stuck_of_behind_end {l : Nat} {iter : CxxIterator} {x : T}
    (h : s.Refines (Repr capacity)) (hiter : Denotes capacity s l iter)
    (hend : iter.idx = endIndex capacity ∧ (s.lists l).size < capacity) :
    ∃ iter' m, (s.lists l).emplaceAfter capacity iter x = some (iter', m) ∧
      Stuck capacity m (s.seqs l).elems := by
  obtain ⟨list, idx⟩ := iter
  obtain ⟨hl, -⟩ := hiter
  obtain ⟨hidx, hroom⟩ := hend
  obtain rfl : list = l := hl
  obtain rfl : idx = endIndex capacity := hidx
  have hrepr := h.repr list
  have hfree := hrepr.size_lt_iff.mp hroom
  obtain ⟨new, free, hsplit⟩ := List.exists_cons_of_ne_nil hfree
  rw [hsplit] at hrepr
  obtain ⟨m, hm, hstuck⟩ := hrepr.emplaceAfter_end (x := x)
  exact ⟨_, m, hm, hstuck⟩

theorem notBehindEnd_of_refines [BEq T] (h : s.Refines (Repr capacity)) {op : ForwardListOp T}
    (hop : Admissible capacity s op) (hstep : step movedFrom capacity s op = some s')
    (h' : s'.Refines (Repr capacity)) : NotBehindEnd capacity s op := by
  cases op with
  | emplaceAfter l iter x =>
    intro hend
    obtain ⟨iter', m, hm, hstuck⟩ := stuck_of_behind_end (x := x) h hop hend
    simp only [step, ForwardListOp.exec, hm] at hstep
    cases hstep
    have hrepr := h'.repr l
    simp only [Function.update_self] at hrepr
    exact hstuck.not_repr hrepr
  | insertAfter l iter x =>
    intro hend
    obtain ⟨iter', m, hm, hstuck⟩ := stuck_of_behind_end (x := x) h hop hend
    simp only [step, ForwardListOp.exec, insertAfter, hm] at hstep
    cases hstep
    have hrepr := h'.repr l
    simp only [Function.update_self] at hrepr
    exact hstuck.not_repr hrepr
  | emplaceFront | pushFront | popFront | eraseAfter | remove | removeIf | clear | copyAssign
  | moveAssign | copyConstruct | moveConstruct => trivial

structure Guarantees (capacity : Nat) (s : ListRun (ForwardList T) T) : Prop where
  refines : s.Refines (Repr capacity)
  cover : ∀ l, ((s.seqs l).slots ++ (s.seqs l).free).Perm (List.range capacity)
  chain : ∀ l, Chain (s.lists l).next (· = endIndex capacity)
    ((s.lists l).next (beforeBeginIndex capacity)) (s.seqs l).slots
  size : ∀ l, (s.lists l).size = (s.seqs l).slots.length
  valid : ∀ l, ∀ i ∈ (s.seqs l).slots, (s.lists l).IsValidElementIdx capacity i
  end_link : ∀ l, (s.lists l).next (endIndex capacity) = endIndex capacity
  contents : ∀ l, ∀ e ∈ (s.seqs l).elems, (s.lists l).deref capacity ⟨l, e.1⟩ = some e.2
  erase_end : ∀ l, (s.lists l).eraseAfter capacity ((s.lists l).cend capacity) =
    some ((s.lists l).cend capacity, s.lists l)
  emplace_full : ∀ l, (s.lists l).size = capacity → ∀ iter, Denotes capacity s l iter → ∀ x,
    (s.lists l).emplaceAfter capacity iter x = some ((s.lists l).cend capacity, s.lists l)
  clear : ∀ l, ∃ m, (s.lists l).clear capacity = some m
  removeIf : ∀ l pred, ∃ r, (s.lists l).removeIf capacity pred = some r

theorem guarantees_of_refines (h : s.Refines (Repr capacity)) : Guarantees capacity s where
  refines := h
  cover := fun l => (h.repr l).cover
  chain := fun l => (h.repr l).used.2.2
  size := fun l => by
    rw [(h.repr l).size, SlotSeq.slots, List.length_map]
  valid := fun l _ hi => (h.repr l).valid_iff.mpr hi
  end_link := fun l => (h.repr l).end_link
  contents := fun l _ he => (h.repr l).deref_eq he l
  erase_end := fun l => by
    rw [(h.repr l).cend_eq]
    exact (h.repr l).eraseAfter_of_end (h.repr l).end_valid (h.repr l).end_link
  emplace_full := fun l hfull iter hiter x => by
    obtain ⟨list, idx⟩ := iter
    obtain ⟨hl, hi⟩ := hiter
    obtain rfl : list = l := hl
    have hrepr := h.repr list
    have hnone : (s.seqs list).free = [] :=
      not_not.mp (mt hrepr.size_lt_iff.mpr (Nat.not_lt.mpr hfull.ge))
    have hvalid := hrepr.valid_of_denotes hi
    rw [hrepr.cend_eq]
    rw [hnone] at hrepr
    exact hrepr.emplaceAfter_full hvalid
  clear := fun l => by
    obtain ⟨m, hm, -⟩ := (h.repr l).clear
    exact ⟨m, hm⟩
  removeIf := fun l pred => by
    obtain ⟨m, hm, -⟩ := (h.repr l).removeIf pred
    exact ⟨_, hm⟩

/-- In every run with iterators that denote a position of the list: the lists are the sequences
that they stand for, exactly as long as nothing is inserted behind the end. -/
theorem forwardList_refines_iff [BEq T] (movedFrom : T → T) (capacity : Nat)
    (hcapacity : 1 ≤ capacity) (links : Nat → Nat) (flags : Nat → Bool)
    (ops : List (ForwardListOp T))
    (hops : Meets (step movedFrom capacity) (Admissible capacity) (start capacity links flags)
      ops) :
    (∀ n, ∃ s, runSteps (step movedFrom capacity) (start capacity links flags) (ops.take n) =
        some s ∧ Guarantees capacity s) ↔
      Meets (step movedFrom capacity) (NotBehindEnd capacity) (start capacity links flags) ops :=
  runSteps_keeps_iff (fun _ h => guarantees_of_refines h)
    (fun _ _ h hop hend => refines_step h hcapacity hop hend)
    (fun _ _ _ h hop hstep h' => notBehindEnd_of_refines h hop hstep h'.refines) ops _
    (refines_start links flags hcapacity) hops

theorem forwardList_refines_iff_threeSlots :
    (∀ n, ∃ s, runSteps (step (fun _ => 0) 3) (start 3 (fun _ => 7) fun _ => true)
        ([.pushFront 0 1, .insertAfter 0 ⟨0, 0⟩ 2, .emplaceAfter 0 ⟨0, 3⟩ 3, .copyAssign 1 0,
          .eraseAfter 0 ⟨0, 0⟩, .remove 1 3, .emplaceAfter 1 ⟨1, 3⟩ 5, .emplaceAfter 1 ⟨1, 4⟩ 6,
          .moveAssign 0 1].take n) = some s ∧ Guarantees 3 s) ↔
      Meets (step (fun _ => 0) 3) (NotBehindEnd 3) (start 3 (fun _ => 7) fun _ => true)
        [.pushFront 0 1, .insertAfter 0 ⟨0, 0⟩ 2, .emplaceAfter 0 ⟨0, 3⟩ 3, .copyAssign 1 0,
          .eraseAfter 0 ⟨0, 0⟩, .remove 1 3, .emplaceAfter 1 ⟨1, 3⟩ 5, .emplaceAfter 1 ⟨1, 4⟩ 6,
          .moveAssign 0 1] :=
  forwardList_refines_iff (fun _ => 0) 3 (by decide) (fun _ => 7) (fun _ => true)
    [.pushFront 0 1, .insertAfter 0 ⟨0, 0⟩ 2, .emplaceAfter 0 ⟨0, 3⟩ 3, .copyAssign 1 0,
      .eraseAfter 0 ⟨0, 0⟩, .remove 1 3, .emplaceAfter 1 ⟨1, 3⟩ 5, .emplaceAfter 1 ⟨1, 4⟩ 6,
      .moveAssign 0 1] (by decide +kernel)

/-- The element behind the end counts but is not linked, and `clear` waits for it forever. -/
theorem emplaceAfter_end_never_clears :
    ∃ s : ListRun (ForwardList Nat) Nat,
      runSteps (step id 3) (start 3 (fun _ => 0) fun _ => true)
        [.pushFront 0 1, .emplaceAfter 0 ⟨0, 4⟩ 2] = some s ∧
      Meets (step id 3) (Admissible 3) (start 3 (fun _ => 0) fun _ => true)
        [.pushFront 0 1, .emplaceAfter 0 ⟨0, 4⟩ 2] ∧
      (s.lists 0).size = 2 ∧ (s.lists 0).next 3 = 0 ∧ (s.lists 0).next 0 = 4 ∧
      (s.lists 0).next 4 = 1 ∧ (∀ fuel, clearLoop 3 fuel (s.lists 0) = none) ∧
      ¬ Guarantees 3 s := by
  refine ⟨_, rfl, by decide +kernel, rfl, rfl, rfl, rfl, fun fuel => ?_, fun h => ?_⟩
  · refine @Stuck.clearLoop _ 3 _ [(0, 1)] ?_ fuel
    exact
      { used := ⟨rfl, by decide, rfl, by decide, rfl⟩
        nodup := by decide
        valid := by decide +kernel
        slot_lt := by decide
        live := by decide +kernel
        more := by decide +kernel }
  · have hsize := h.size 0
    revert hsize
    decide +kernel

end ForwardList

end Iceoryx.Hoofs
