import Mathlib.Data.List.Range
import Mathlib.Logic.Function.Basic
import Iceoryx.Lib.Run

universe u

namespace Iceoryx.Hoofs

open Lib

variable {T : Type u}

/-- A cell without a value is raw memory.  `faulty` is set by a construction over a live
element and by an access to raw memory; the source has no such flag. -/
structure CxxVector (T : Type u) where
  cells : Nat → Option T
  size : Nat
  faulty : Bool

namespace CxxVector

variable (movedFrom : T → T) (capacity : Nat)

def fault (v : CxxVector T) : CxxVector T := { v with faulty := true }

def construct (v : CxxVector T) (i : Nat) (x : T) : CxxVector T :=
  { v with
    cells := Function.update v.cells i (some x)
    faulty := v.faulty || (v.cells i).isSome }

def assign (v : CxxVector T) (i : Nat) (x : T) : CxxVector T :=
  { v with
    cells := Function.update v.cells i (some x)
    faulty := v.faulty || (v.cells i).isNone }

def destruct (v : CxxVector T) (i : Nat) : CxxVector T :=
  { v with
    cells := Function.update v.cells i none
    faulty := v.faulty || (v.cells i).isNone }

def moveCell (v : CxxVector T) (dst src : Nat) : CxxVector T :=
  match v.cells src with
  | some x => (v.assign dst x).assign src (movedFrom x)
  | none => v.fault

def emplaceBack (v : CxxVector T) (x : T) : Bool × CxxVector T :=
  if v.size < capacity then (true, { v with size := v.size + 1 }.construct v.size x)
  else (false, v)

def emplaceBackMoved (v : CxxVector T) (src : Nat) : CxxVector T :=
  match v.cells src with
  | some x => ((v.emplaceBack capacity x).2).assign src (movedFrom x)
  | none => v.fault

def shiftRight (position : Nat) : Nat → CxxVector T → CxxVector T
  | 0, v => v
  | i + 1, v =>
    if i + 1 > position then shiftRight position i (v.moveCell movedFrom (i + 1) i) else v

def emplace (v : CxxVector T) (position : Nat) (x : T) : Bool × CxxVector T :=
  if v.size ≥ capacity ∨ position ≥ capacity ∨ position > v.size then (false, v)
  else if position = v.size then v.emplaceBack capacity x
  else
    let v := v.emplaceBackMoved movedFrom capacity (v.size - 1)
    (true, (shiftRight movedFrom position (v.size - 1) v).construct position x)

def popBack (v : CxxVector T) : Bool × CxxVector T :=
  if v.size > 0 then (true, { v with size := v.size - 1 }.destruct (v.size - 1)) else (false, v)

/-- `clear` calls `pop_back` until it fails, which it does after `size` rounds. -/
def clearLoop : Nat → CxxVector T → CxxVector T
  | 0, v => v
  | n + 1, v =>
    match v.popBack with
    | (true, v') => clearLoop n v'
    | (false, v') => v'

def clear (v : CxxVector T) : CxxVector T := clearLoop (v.size + 1) v

def repeatTimes (f : CxxVector T → CxxVector T) : Nat → CxxVector T → CxxVector T
  | 0, v => v
  | n + 1, v => repeatTimes f n (f v)

def resize (v : CxxVector T) (count : Nat) (x : T) : Bool × CxxVector T :=
  if count > capacity then (false, v)
  else if count < v.size then (true, repeatTimes (fun v => v.popBack.2) (v.size - count) v)
  else (true, repeatTimes (fun v => (v.emplaceBack capacity x).2) (count - v.size) v)

def shiftLeft : Nat → Nat → CxxVector T → CxxVector T
  | _, 0, v => v
  | n, k + 1, v => shiftLeft (n + 1) k (v.moveCell movedFrom n (n + 1))

/-- `position` is the distance of the iterator to `begin()`. -/
def erase (v : CxxVector T) (position : Nat) : CxxVector T :=
  if position < v.size then
    let v := (shiftLeft movedFrom position (v.size - 1 - position) v).destruct (v.size - 1)
    { v with size := v.size - 1 }
  else v

def ofCount (v : CxxVector T) (count : Nat) (x : T) : CxxVector T :=
  repeatTimes (fun v => (v.emplaceBack capacity x).2) (min count capacity) { v with size := 0 }

def ofDefault (v : CxxVector T) (count : Nat) (x : T) : CxxVector T :=
  (List.range (min count capacity)).foldl (fun v i => v.construct i x)
    { v with size := min count capacity }

def moveOut (v : CxxVector T) (i : Nat) : CxxVector T :=
  match v.cells i with
  | some x => v.assign i (movedFrom x)
  | none => v.fault

/-- The element `rhs.at(i)` is stored by `put`, and `leave` is what happens to it in `rhs`. -/
def takeOver (put : CxxVector T → Nat → T → CxxVector T) (leave : CxxVector T → Nat → CxxVector T)
    (p : CxxVector T × CxxVector T) (i : Nat) : CxxVector T × CxxVector T :=
  match p.2.cells i with
  | some x => (put p.1 i x, leave p.2 i)
  | none => (p.1.fault, p.2)

def assignAll (leave : CxxVector T → Nat → CxxVector T) (v rhs : CxxVector T) :
    CxxVector T × CxxVector T :=
  let common := min rhs.size v.size
  let p := (List.range' 0 common).foldl (takeOver assign leave) (v, rhs)
  let p := (List.range' common (rhs.size - common)).foldl
    (takeOver (fun v _ x => (v.emplaceBack capacity x).2) leave) p
  let v := (List.range' rhs.size (p.1.size - rhs.size)).foldl destruct p.1
  ({ v with size := rhs.size }, p.2)

def copyAssign (v rhs : CxxVector T) : CxxVector T :=
  (assignAll capacity (fun rhs _ => rhs) v rhs).1

def moveAssign (v rhs : CxxVector T) : CxxVector T × CxxVector T :=
  let p := assignAll capacity (moveOut movedFrom) v rhs
  (p.1, p.2.clear)

def ofList (l : List T) : CxxVector T where
  cells := fun i => l[i]?
  size := l.length
  faulty := false

variable {movedFrom} {capacity} {l : List T} {x y : T} {i : Nat}

@[simp] theorem ofList_size : (ofList l).size = l.length := rfl

@[simp] theorem ofList_cells : (ofList l).cells i = l[i]? := rfl

theorem update_append_cons (front rest : List T) :
    (Function.update (fun i => (front ++ y :: rest)[i]?) front.length (some x)) =
      fun i => (front ++ x :: rest)[i]? := by
  funext i
  rw [Function.update_apply]
  split
  · next hi => rw [hi, List.getElem?_append_right le_rfl, Nat.sub_self, List.getElem?_cons_zero]
  · next hi =>
    rcases Nat.lt_or_ge i front.length with hlt | hge
    · rw [List.getElem?_append_left hlt, List.getElem?_append_left hlt]
    · rw [List.getElem?_append_right hge, List.getElem?_append_right hge]
      obtain ⟨k, hk⟩ : ∃ k, i - front.length = k + 1 := ⟨i - front.length - 1, by omega⟩
      rw [hk, List.getElem?_cons_succ, List.getElem?_cons_succ]

theorem getElem?_front (front rest : List T) : (front ++ x :: rest)[front.length]? = some x := by
  rw [List.getElem?_append_right le_rfl, Nat.sub_self, List.getElem?_cons_zero]

theorem update_length (l : List T) (x : T) :
    Function.update (fun i => l[i]?) l.length (some x) = fun i => (l ++ [x])[i]? := by
  funext i
  rw [Function.update_apply]
  split
  · next hi => rw [hi, getElem?_front]
  · next hi =>
    rcases Nat.lt_or_ge i l.length with hlt | hge
    · rw [List.getElem?_append_left hlt]
    · rw [List.getElem?_eq_none hge, List.getElem?_eq_none]
      rw [List.length_append, List.length_singleton]
      omega

theorem update_length_none (l : List T) (x : T) :
    Function.update (fun i => (l ++ [x])[i]?) l.length none = fun i => l[i]? := by
  have hnone : (fun i => l[i]?) l.length = none := List.getElem?_eq_none le_rfl
  rw [← update_length, Function.update_idem, ← hnone, Function.update_eq_self]

theorem assign_ofList (front rest : List T) :
    (ofList (front ++ y :: rest)).assign front.length x = ofList (front ++ x :: rest) := by
  simp only [assign, ofList, update_append_cons, getElem?_front, Option.isNone_some,
    Bool.or_self, List.length_append, List.length_cons]

theorem emplaceBack_ofList (h : l.length < capacity) :
    (ofList l).emplaceBack capacity x = (true, ofList (l ++ [x])) := by
  simp only [emplaceBack, construct, ofList, h, if_true, update_length,
    List.getElem?_eq_none le_rfl, Option.isSome_none, Bool.or_self, List.length_append,
    List.length_singleton]

theorem emplaceBack_ofList_full (h : ¬ l.length < capacity) :
    (ofList l).emplaceBack capacity x = (false, ofList l) := if_neg h

theorem popBack_ofList_concat : (ofList (l ++ [x])).popBack = (true, ofList l) := by
  simp only [popBack, destruct, ofList, List.length_append, List.length_singleton,
    Nat.add_sub_cancel, Nat.succ_pos, gt_iff_lt, if_true, update_length_none, getElem?_front,
    Option.isNone_some, Bool.or_self]

theorem clear_ofList (l : List T) : (ofList l).clear = ofList [] := by
  have hloop : clearLoop (l.length + 1) (ofList l) = ofList [] := by
    induction l using List.reverseRecOn with
    | nil => rfl
    | append_singleton l x ih =>
      rw [List.length_append, clearLoop, popBack_ofList_concat]
      exact ih
  exact hloop

theorem repeat_emplaceBack (n : Nat) (h : l.length + n ≤ capacity) :
    repeatTimes (fun v => (v.emplaceBack capacity x).2) n (ofList l) =
      ofList (l ++ List.replicate n x) := by
  induction n generalizing l with
  | zero => rw [List.replicate_zero, List.append_nil, repeatTimes]
  | succ n ih =>
    rw [repeatTimes, emplaceBack_ofList (by omega), ih (by rw [List.length_append]; simp; omega),
      List.append_assoc, List.replicate_succ, List.singleton_append]

theorem repeat_popBack (l rest : List T) :
    repeatTimes (fun v => v.popBack.2) rest.length (ofList (l ++ rest)) = ofList l := by
  induction rest using List.reverseRecOn with
  | nil => rw [List.append_nil, List.length_nil, repeatTimes]
  | append_singleton rest x ih =>
    rw [List.length_append, ← List.append_assoc]
    change repeatTimes _ rest.length (ofList (l ++ rest ++ [x])).popBack.2 = _
    rw [popBack_ofList_concat]
    exact ih

theorem resize_ofList {count : Nat} :
    (ofList l).resize capacity count x =
      if count > capacity then (false, ofList l)
      else (true, ofList (l.take count ++ List.replicate (count - l.length) x)) := by
  unfold resize
  split
  · rfl
  · next hcount =>
    split
    · next hlt =>
      rw [ofList_size] at hlt
      have hdrop : (ofList l).size - count = (l.drop count).length := by
        rw [List.length_drop, ofList_size]
      have hsplit := repeat_popBack (l.take count) (l.drop count)
      rw [List.take_append_drop] at hsplit
      rw [hdrop, hsplit, Nat.sub_eq_zero_of_le hlt.le, List.replicate_zero, List.append_nil]
    · next hge =>
      rw [ofList_size] at hge
      rw [ofList_size, repeat_emplaceBack _ (by omega), List.take_of_length_le (by omega)]

theorem moveCell_ofList (front rest : List T) (y z : T) :
    (ofList (front ++ y :: z :: rest)).moveCell movedFrom front.length (front.length + 1) =
      ofList (front ++ z :: movedFrom z :: rest) := by
  have hsecond : ∀ w : T, front ++ w :: z :: rest = (front ++ [w]) ++ z :: rest := by
    intro w
    rw [List.append_assoc, List.singleton_append]
  have hlength : ∀ w : T, front.length + 1 = (front ++ [w]).length := by
    intro w
    rw [List.length_append, List.length_singleton]
  have hread : (ofList (front ++ y :: z :: rest)).cells (front.length + 1) = some z := by
    rw [ofList_cells, hsecond y, hlength y, getElem?_front]
  rw [moveCell, hread]
  simp only
  rw [assign_ofList, hsecond z, hlength z, assign_ofList, List.append_assoc, List.singleton_append]

theorem shiftLeft_ofList (front rest : List T) (y : T) :
    ∃ w, shiftLeft movedFrom front.length rest.length (ofList (front ++ y :: rest)) =
      ofList (front ++ rest ++ [w]) := by
  induction rest generalizing front y with
  | nil =>
    refine ⟨y, ?_⟩
    rw [List.length_nil, shiftLeft, List.append_nil]
  | cons z rest ih =>
    obtain ⟨w, hw⟩ := ih (front ++ [z]) (movedFrom z)
    refine ⟨w, ?_⟩
    simp only [List.length_append, List.length_singleton, List.append_assoc,
      List.singleton_append] at hw
    rw [List.length_cons, shiftLeft, moveCell_ofList, hw, List.append_assoc, List.cons_append]

theorem erase_ofList (l : List T) (i : Nat) :
    (ofList l).erase movedFrom i = ofList (l.eraseIdx i) := by
  unfold erase
  split
  · next hi =>
    rw [ofList_size] at hi
    obtain ⟨front, y, rest, rfl, rfl⟩ : ∃ front y rest, l = front ++ y :: rest ∧
        i = front.length := by
      refine ⟨l.take i, l[i], l.drop (i + 1), ?_, ?_⟩
      · rw [← List.drop_eq_getElem_cons hi, List.take_append_drop]
      · rw [List.length_take, Nat.min_eq_left hi.le]
    have hk : (ofList (front ++ y :: rest)).size - 1 - front.length = rest.length := by
      rw [ofList_size, List.length_append, List.length_cons]
      omega
    obtain ⟨w, hw⟩ : ∃ w, shiftLeft movedFrom front.length rest.length
        (ofList (front ++ y :: rest)) = ofList (front ++ rest ++ [w]) :=
      shiftLeft_ofList front rest y
    have hpop := popBack_ofList_concat (l := front ++ rest) (x := w)
    have hsize : (front ++ y :: rest).length = (front ++ rest ++ [w]).length := by
      simp only [List.length_append, List.length_cons, List.length_nil]
      omega
    rw [hk, hw, List.eraseIdx_append_of_length_le le_rfl, Nat.sub_self, List.eraseIdx_cons_zero]
    rw [popBack, if_pos (by rw [ofList_size, List.length_append]; exact Nat.succ_pos _)] at hpop
    rw [ofList_size, hsize]
    exact congrArg Prod.snd hpop
  · next hi =>
    rw [ofList_size] at hi
    rw [List.eraseIdx_of_length_le (Nat.le_of_not_lt hi)]

theorem ofCount_eq (count : Nat) (x : T) :
    (ofList []).ofCount capacity count x = ofList (List.replicate (min count capacity) x) := by
  change repeatTimes _ _ (ofList []) = _
  rw [repeat_emplaceBack _ (by rw [List.length_nil]; omega), List.nil_append]

theorem ofDefault_eq (count : Nat) (x : T) :
    (ofList []).ofDefault capacity count x = ofList (List.replicate (min count capacity) x) := by
  have hloop : ∀ n size, (List.range n).foldl (fun v i => v.construct i x)
      { ofList [] with size := size } = { ofList (List.replicate n x) with size := size } := by
    intro n size
    induction n with
    | zero => rfl
    | succ n ih =>
      have hcells := update_length (List.replicate n x) x
      rw [List.length_replicate, ← List.replicate_succ'] at hcells
      have hraw : (List.replicate n x)[n]? = none :=
        List.getElem?_eq_none (by rw [List.length_replicate])
      rw [List.range_succ, List.foldl_append, ih]
      simp only [List.foldl_cons, List.foldl_nil, construct, ofList, hcells, hraw,
        Option.isSome_none, Bool.or_self]
  rw [ofDefault, hloop]
  simp only [ofList, List.length_replicate]

theorem moveOut_ofList (front rest : List T) (y : T) :
    (ofList (front ++ y :: rest)).moveOut movedFrom front.length =
      ofList (front ++ movedFrom y :: rest) := by
  rw [moveOut, ofList_cells, getElem?_front]
  exact assign_ofList front rest

section Assign

variable {leave : CxxVector T → Nat → CxxVector T} {left : T → T}
  (hleave : ∀ (front rest : List T) (y : T),
    leave (ofList (front ++ y :: rest)) front.length = ofList (front ++ left y :: rest))

include hleave

theorem takeOver_assign (k : Nat) (front old rest : List T) (hold : k ≤ old.length)
    (hrest : k ≤ rest.length) :
    (List.range' front.length k).foldl (takeOver assign leave)
        (ofList (front ++ old), ofList (front.map left ++ rest)) =
      (ofList (front ++ rest.take k ++ old.drop k),
        ofList ((front ++ rest.take k).map left ++ rest.drop k)) := by
  induction k generalizing front old rest with
  | zero =>
    simp only [List.range'_zero, List.foldl_nil, List.take_zero, List.append_nil, List.drop_zero]
  | succ k ih =>
    cases old with
    | nil => cases hold
    | cons y old =>
      cases rest with
      | nil => cases hrest
      | cons x rest =>
        have hread : (ofList (front.map left ++ x :: rest)).cells front.length = some x := by
          have := getElem?_front (front.map left) rest (x := x)
          rwa [List.length_map] at this
        have hsource := hleave (front.map left) rest x
        rw [List.length_map] at hsource
        have hrest := ih (front ++ [x]) old rest (Nat.le_of_succ_le_succ hold)
          (Nat.le_of_succ_le_succ hrest)
        simp only [List.length_append, List.length_singleton, List.append_assoc,
          List.singleton_append, List.map_append, List.map_cons, List.map_nil] at hrest
        rw [List.range'_succ, List.foldl_cons, takeOver, hread]
        simp only [assign_ofList, hsource, hrest, List.take_succ_cons, List.drop_succ_cons,
          List.map_append, List.map_cons, List.append_assoc, List.cons_append]

theorem takeOver_append (front rest : List T) (hroom : front.length + rest.length ≤ capacity) :
    (List.range' front.length rest.length).foldl
        (takeOver (fun v _ x => (v.emplaceBack capacity x).2) leave)
        (ofList front, ofList (front.map left ++ rest)) =
      (ofList (front ++ rest), ofList ((front ++ rest).map left)) := by
  induction rest generalizing front with
  | nil => simp only [List.length_nil, List.range'_zero, List.foldl_nil, List.append_nil]
  | cons x rest ih =>
    rw [List.length_cons] at hroom
    have hread : (ofList (front.map left ++ x :: rest)).cells front.length = some x := by
      have := getElem?_front (front.map left) rest (x := x)
      rwa [List.length_map] at this
    have hsource := hleave (front.map left) rest x
    rw [List.length_map] at hsource
    have hrest := ih (front ++ [x]) (by rw [List.length_append, List.length_singleton]; omega)
    simp only [List.length_append, List.length_singleton, List.append_assoc,
      List.singleton_append, List.map_append, List.map_cons, List.map_nil] at hrest
    rw [List.length_cons, List.range'_succ, List.foldl_cons, takeOver, hread]
    simp only [emplaceBack_ofList (show front.length < capacity by omega), hsource, hrest,
      List.map_append, List.map_cons]

theorem takeOver_loops (l m : List T) (hm : m.length ≤ capacity) :
    (List.range' (min m.length l.length) (m.length - min m.length l.length)).foldl
        (takeOver (fun v _ x => (v.emplaceBack capacity x).2) leave)
        ((List.range' 0 (min m.length l.length)).foldl (takeOver assign leave)
          (ofList l, ofList m)) =
      (ofList (m ++ l.drop m.length), ofList (m.map left)) := by
  rcases Nat.lt_or_ge l.length m.length with hlt | hge
  · have hfirst := takeOver_assign hleave l.length [] l m le_rfl hlt.le
    have hlength : (m.take l.length).length = l.length := by
      rw [List.length_take, Nat.min_eq_left hlt.le]
    have hroom : (m.take l.length).length + (m.drop l.length).length ≤ capacity := by
      rw [← List.length_append, List.take_append_drop]
      exact hm
    have hsecond := takeOver_append hleave (m.take l.length) (m.drop l.length) hroom
    simp only [List.length_nil, List.nil_append, List.map_nil, List.drop_length,
      List.append_nil] at hfirst
    simp only [hlength, List.length_drop, List.take_append_drop] at hsecond
    rw [Nat.min_eq_right hlt.le, hfirst, hsecond, List.drop_of_length_le hlt.le, List.append_nil]
  · have hfirst := takeOver_assign hleave m.length [] l m hge le_rfl
    simp only [List.length_nil, List.nil_append, List.map_nil, List.drop_length,
      List.append_nil, List.take_length] at hfirst
    rw [Nat.min_eq_left hge, Nat.sub_self, hfirst]
    rfl

end Assign

theorem foldl_destruct (is : List Nat) (hnodup : is.Nodup) (v : CxxVector T)
    (hlive : ∀ i ∈ is, (v.cells i).isSome) :
    is.foldl destruct v = { v with cells := fun i => if i ∈ is then none else v.cells i } := by
  induction is generalizing v with
  | nil => simp only [List.foldl_nil, List.not_mem_nil, if_false]
  | cons j is ih =>
    obtain ⟨hj, hnodup⟩ := List.nodup_cons.mp hnodup
    have hfirst : (v.cells j).isNone = false := by
      rw [Option.isNone_eq_false_iff]
      exact hlive j List.mem_cons_self
    have hothers : ∀ i ∈ is, ((v.destruct j).cells i).isSome := by
      intro i hi
      have hcell : (v.destruct j).cells i = v.cells i :=
        Function.update_of_ne (ne_of_mem_of_not_mem hi hj) _ _
      rw [hcell]
      exact hlive i (List.mem_cons_of_mem j hi)
    rw [List.foldl_cons, ih hnodup _ hothers]
    simp only [destruct, hfirst, Bool.or_false]
    congr 1
    funext i
    rw [Function.update_apply]
    by_cases hij : i = j
    · simp [hij]
    · simp [hij]

theorem destruct_tail (front rest : List T) :
    { (List.range' front.length rest.length).foldl destruct (ofList (front ++ rest)) with
      size := front.length } = ofList front := by
  have hlive : ∀ i ∈ List.range' front.length rest.length,
      ((ofList (front ++ rest)).cells i).isSome := by
    intro i hi
    rw [List.mem_range'_1, ← List.length_append] at hi
    rw [ofList_cells, List.getElem?_eq_getElem hi.2]
    rfl
  rw [foldl_destruct _ List.nodup_range' _ hlive]
  simp only [ofList]
  congr 1
  funext i
  split
  · next hi =>
    rw [List.mem_range'_1] at hi
    exact (List.getElem?_eq_none hi.1).symm
  · next hi =>
    rw [List.mem_range'_1] at hi
    rcases Nat.lt_or_ge i front.length with hlt | hge
    · rw [List.getElem?_append_left hlt]
    · rw [List.getElem?_eq_none hge, List.getElem?_eq_none]
      rw [List.length_append]
      omega

theorem assignAll_ofList {leave : CxxVector T → Nat → CxxVector T} {left : T → T}
    (hleave : ∀ (front rest : List T) (y : T),
      leave (ofList (front ++ y :: rest)) front.length = ofList (front ++ left y :: rest))
    (l m : List T) (hm : m.length ≤ capacity) :
    assignAll capacity leave (ofList l) (ofList m) = (ofList m, ofList (m.map left)) := by
  have hrest : (m ++ l.drop m.length).length - m.length = (l.drop m.length).length := by
    rw [List.length_append, Nat.add_sub_cancel_left]
  simp only [assignAll, ofList_size, takeOver_loops hleave l m hm, hrest, destruct_tail]

theorem copyAssign_ofList (l m : List T) (hm : m.length ≤ capacity) :
    (ofList l).copyAssign capacity (ofList m) = ofList m := by
  have hleave : ∀ (front rest : List T) (y : T),
      (fun (rhs : CxxVector T) (_ : Nat) => rhs) (ofList (front ++ y :: rest)) front.length =
        ofList (front ++ id y :: rest) := fun _ _ _ => rfl
  rw [copyAssign, assignAll_ofList hleave l m hm]

theorem moveAssign_ofList (l m : List T) (hm : m.length ≤ capacity) :
    (ofList l).moveAssign movedFrom capacity (ofList m) = (ofList m, ofList []) := by
  have hleave : ∀ (front rest : List T) (y : T),
      moveOut movedFrom (ofList (front ++ y :: rest)) front.length =
        ofList (front ++ movedFrom y :: rest) := fun front rest y => moveOut_ofList front rest y
  rw [moveAssign, assignAll_ofList hleave l m hm]
  simp only [clear_ofList]

theorem moveCell_isSome {v : CxxVector T} {dst src j : Nat} (h : (v.cells j).isSome) :
    ((v.moveCell movedFrom dst src).cells j).isSome := by
  have hassign : ∀ {w : CxxVector T} {k : Nat} {z : T}, (w.cells j).isSome →
      ((w.assign k z).cells j).isSome := by
    intro w k z hw
    simp only [assign, Function.update_apply]
    split
    · rfl
    · exact hw
  unfold moveCell
  split
  · exact hassign (hassign h)
  · exact h

theorem shiftRight_isSome {position j : Nat} (n : Nat) {v : CxxVector T}
    (h : (v.cells j).isSome) : ((shiftRight movedFrom position n v).cells j).isSome := by
  induction n generalizing v with
  | zero => exact h
  | succ n ih =>
    rw [shiftRight]
    split
    · exact ih (moveCell_isSome h)
    · exact h

theorem emplace_ofList_end (h : l.length < capacity) :
    (ofList l).emplace movedFrom capacity l.length x = (true, ofList (l ++ [x])) := by
  rw [emplace, if_neg (by rw [ofList_size]; omega), ofList_size, if_pos rfl, emplaceBack_ofList h]

theorem emplace_ofList_reject {position : Nat} (h : l.length ≥ capacity ∨ position > l.length) :
    (ofList l).emplace movedFrom capacity position x = (false, ofList l) := by
  rw [emplace, if_pos (by rw [ofList_size]; omega)]

theorem emplace_faulty {position : Nat} (hl : l.length < capacity) (hp : position < l.length) :
    ((ofList l).emplace movedFrom capacity position x).2.faulty = true := by
  have hbefore : ((ofList l).cells position).isSome := by
    rw [ofList_cells, List.getElem?_eq_getElem hp]
    rfl
  have hback : (((ofList l).emplaceBackMoved movedFrom capacity (l.length - 1)).cells
      position).isSome := by
    unfold emplaceBackMoved
    split
    · rw [emplaceBack_ofList hl]
      simp only [assign, Function.update_apply]
      split
      · rfl
      · rw [ofList_cells, List.getElem?_append_left hp]
        exact hbefore
    · exact hbefore
  rw [emplace, if_neg (by rw [ofList_size]; omega), if_neg (by rw [ofList_size]; omega)]
  simp only [construct, ofList_size, shiftRight_isSome _ hback, Bool.or_true]

end CxxVector

/-- The operations of any number of vectors with the same capacity; the destructor is `clear`,
and the copy and move constructors are the assignments to an empty vector. -/
inductive VectorOp (T : Type u)
  | ofCount (v count : Nat) (x : T)
  | ofDefault (v count : Nat) (x : T)
  | emplaceBack (v : Nat) (x : T)
  | pushBack (v : Nat) (x : T)
  | emplace (v position : Nat) (x : T)
  | popBack (v : Nat)
  | resize (v count : Nat) (x : T)
  | erase (v position : Nat)
  | clear (v : Nat)
  | copyAssign (v rhs : Nat)
  | moveAssign (v rhs : Nat)

namespace VectorOp

variable (movedFrom : T → T) (capacity : Nat)

def set {A : Type u} (vs : Nat → A) (v : Nat) (r : Bool × A) : Bool × (Nat → A) :=
  (r.1, Function.update vs v r.2)

def exec (vs : Nat → CxxVector T) : VectorOp T → Bool × (Nat → CxxVector T)
  | .ofCount v count x => set vs v (true, (vs v).clear.ofCount capacity count x)
  | .ofDefault v count x => set vs v (true, (vs v).clear.ofDefault capacity count x)
  | .emplaceBack v x => set vs v ((vs v).emplaceBack capacity x)
  | .pushBack v x => set vs v ((vs v).emplaceBack capacity x)
  | .emplace v position x => set vs v ((vs v).emplace movedFrom capacity position x)
  | .popBack v => set vs v (vs v).popBack
  | .resize v count x => set vs v ((vs v).resize capacity count x)
  | .erase v position => set vs v (true, (vs v).erase movedFrom position)
  | .clear v => set vs v (true, (vs v).clear)
  | .copyAssign v rhs =>
    if v = rhs then (true, vs) else set vs v (true, (vs v).copyAssign capacity (vs rhs))
  | .moveAssign v rhs =>
    if v = rhs then (true, vs)
    else
      let p := (vs v).moveAssign movedFrom capacity (vs rhs)
      (true, Function.update (Function.update vs v p.1) rhs p.2)

def execList (ls : Nat → List T) : VectorOp T → Bool × (Nat → List T)
  | .ofCount v count x => set ls v (true, List.replicate (min count capacity) x)
  | .ofDefault v count x => set ls v (true, List.replicate (min count capacity) x)
  | .emplaceBack v x =>
    set ls v (if (ls v).length < capacity then (true, ls v ++ [x]) else (false, ls v))
  | .pushBack v x =>
    set ls v (if (ls v).length < capacity then (true, ls v ++ [x]) else (false, ls v))
  | .emplace v position x =>
    set ls v (if (ls v).length < capacity ∧ position ≤ (ls v).length then
      (true, (ls v).insertIdx position x) else (false, ls v))
  | .popBack v => set ls v (if ls v = [] then (false, []) else (true, (ls v).dropLast))
  | .resize v count x =>
    set ls v (if count > capacity then (false, ls v)
      else (true, (ls v).take count ++ List.replicate (count - (ls v).length) x))
  | .erase v position => set ls v (true, (ls v).eraseIdx position)
  | .clear v => set ls v (true, [])
  | .copyAssign v rhs => set ls v (true, ls rhs)
  | .moveAssign v rhs =>
    if v = rhs then (true, ls) else (true, Function.update (Function.update ls v (ls rhs)) rhs [])

end VectorOp

/-- The vectors beside the lists that they stand for; `agree` says that the operations have
returned the same so far. -/
structure VectorRun (T : Type u) where
  vectors : Nat → CxxVector T
  lists : Nat → List T
  agree : Bool

namespace VectorRun

open CxxVector VectorOp

variable (movedFrom : T → T) (capacity : Nat)

def start : VectorRun T where
  vectors := fun _ =>
    { cells := fun _ => none
      size := 0
      faulty := false }
  lists := fun _ => []
  agree := true

def step (s : VectorRun T) (op : VectorOp T) : Option (VectorRun T) :=
  let r := op.exec movedFrom capacity s.vectors
  let r' := op.execList capacity s.lists
  some
    { vectors := r.2
      lists := r'.2
      agree := s.agree && r.1 == r'.1 }

structure Holds (v : CxxVector T) (l : List T) : Prop where
  size : v.size = l.length
  cells : ∀ i, v.cells i = l[i]?
  sound : v.faulty = false

structure Refines (s : VectorRun T) : Prop where
  agree : s.agree = true
  bounded : ∀ v, (s.lists v).length ≤ capacity
  holds : ∀ v, Holds (s.vectors v) (s.lists v)

def AtEnd (s : VectorRun T) : VectorOp T → Prop
  | .emplace v position _ =>
    ¬ (position < (s.vectors v).size ∧ (s.vectors v).size < capacity)
  | _ => True

variable {movedFrom} {capacity} {s s' : VectorRun T}

theorem holds_iff {v : CxxVector T} {l : List T} : Holds v l ↔ v = ofList l := by
  constructor
  · rintro ⟨hsize, hcells, hsound⟩
    obtain ⟨cells, size, faulty⟩ := v
    dsimp only at hsize hcells hsound
    subst hsize hsound
    rw [ofList, ← funext hcells]
  · rintro rfl
    exact ⟨rfl, fun _ => rfl, rfl⟩

theorem Refines.start : (start : VectorRun T).Refines capacity where
  agree := rfl
  bounded := fun _ => Nat.zero_le _
  holds := fun _ => holds_iff.mpr rfl

theorem Refines.vectors_eq (h : s.Refines capacity) : s.vectors = fun v => ofList (s.lists v) :=
  funext fun v => holds_iff.mp (h.holds v)

theorem Refines.set (h : s.Refines capacity) {v : Nat} {r : Bool × CxxVector T}
    {r' : Bool × List T} (hr : r = (r'.1, ofList r'.2)) (hbounded : r'.2.length ≤ capacity) :
    Refines capacity
      { vectors := (VectorOp.set s.vectors v r).2
        lists := (VectorOp.set s.lists v r').2
        agree := s.agree && (VectorOp.set s.vectors v r).1 == (VectorOp.set s.lists v r').1 } := by
  subst hr
  refine ⟨?_, fun w => ?_, fun w => ?_⟩
  · simp only [VectorOp.set, h.agree, beq_self_eq_true, Bool.and_self]
  · simp only [VectorOp.set, Function.update_apply]
    split
    · exact hbounded
    · exact h.bounded w
  · simp only [VectorOp.set, Function.update_apply]
    split
    · exact holds_iff.mpr rfl
    · exact h.holds w

theorem emplaceBack_eq (l : List T) (x : T) :
    (ofList l).emplaceBack capacity x =
      ((if l.length < capacity then (true, l ++ [x]) else (false, l)).1,
        ofList (if l.length < capacity then (true, l ++ [x]) else (false, l)).2) := by
  split
  · next hlt => exact emplaceBack_ofList hlt
  · next hge => exact emplaceBack_ofList_full hge

theorem length_emplaceBack_le {l : List T} {x : T} (h : l.length ≤ capacity) :
    (if l.length < capacity then (true, l ++ [x]) else (false, l)).2.length ≤ capacity := by
  split
  · next hlt =>
    rw [List.length_append]
    exact hlt
  · exact h

theorem popBack_eq (l : List T) :
    (ofList l).popBack =
      ((if l = [] then (false, []) else (true, l.dropLast)).1,
        ofList (if l = [] then (false, []) else (true, l.dropLast)).2) := by
  cases l using List.reverseRecOn with
  | nil => rfl
  | append_singleton l x =>
    rw [if_neg (List.concat_ne_nil x l), popBack_ofList_concat, List.dropLast_concat]

theorem Refines.moveAssign (h : s.Refines capacity) (v rhs : Nat) :
    Refines capacity
      { vectors := Function.update (Function.update s.vectors v
          ((s.vectors v).moveAssign movedFrom capacity (s.vectors rhs)).1) rhs
          ((s.vectors v).moveAssign movedFrom capacity (s.vectors rhs)).2
        lists := Function.update (Function.update s.lists v (s.lists rhs)) rhs []
        agree := s.agree && true == true } := by
  have hmove : (ofList (s.lists v)).moveAssign movedFrom capacity (ofList (s.lists rhs)) =
      (ofList (s.lists rhs), ofList []) :=
    moveAssign_ofList (s.lists v) (s.lists rhs) (h.bounded rhs)
  refine ⟨?_, fun w => ?_, fun w => ?_⟩
  · rw [h.agree]
    rfl
  · simp only [Function.update_apply]
    split
    · exact Nat.zero_le _
    · split
      · exact h.bounded rhs
      · exact h.bounded w
  · simp only [h.vectors_eq, hmove, Function.update_apply]
    split
    · exact holds_iff.mpr rfl
    · split
      · exact holds_iff.mpr rfl
      · exact holds_iff.mpr rfl

theorem Refines.emplace (h : s.Refines capacity) {v : Nat} {position : Nat} {x : T}
    (hs : s.step movedFrom capacity (.emplace v position x) = some s') :
    (s.AtEnd capacity (.emplace v position x) → s'.Refines capacity) ∧
      (s'.Refines capacity → s.AtEnd capacity (.emplace v position x)) := by
  cases hs
  have hvectors : ∀ v, s.vectors v = ofList (s.lists v) := fun v => holds_iff.mp (h.holds v)
  have hbounded := h.bounded v
  constructor
  · intro hend
    simp only [AtEnd, hvectors, ofList_size] at hend
    refine h.set ?_ ?_
    · rw [hvectors]
      by_cases hfits : (s.lists v).length < capacity ∧ position ≤ (s.lists v).length
      · have hposition : position = (s.lists v).length := by omega
        rw [if_pos hfits, hposition, emplace_ofList_end hfits.1, List.insertIdx_length_self]
      · rw [if_neg hfits, emplace_ofList_reject (by omega)]
    · split
      · next hfits =>
        rw [List.length_insertIdx_of_le_length hfits.2]
        exact hfits.1
      · exact hbounded
  · rintro hrefines ⟨hposition, hroom⟩
    rw [hvectors, ofList_size] at hposition hroom
    have hsound := (hrefines.holds v).sound
    simp only [VectorOp.exec, VectorOp.set, Function.update_self, hvectors,
      emplace_faulty hroom hposition] at hsound
    cases hsound

theorem Refines.step (h : s.Refines capacity) {op : VectorOp T}
    (hs : s.step movedFrom capacity op = some s') :
    (s.AtEnd capacity op → s'.Refines capacity) ∧ (s'.Refines capacity → s.AtEnd capacity op) := by
  cases hs
  have hvectors : ∀ v, s.vectors v = ofList (s.lists v) := fun v => holds_iff.mp (h.holds v)
  cases op with
  | ofCount v count x =>
    refine ⟨fun _ => h.set ?_ ?_, fun _ => trivial⟩
    · rw [hvectors, clear_ofList, ofCount_eq]
    · rw [List.length_replicate]
      exact min_le_right _ _
  | ofDefault v count x =>
    refine ⟨fun _ => h.set ?_ ?_, fun _ => trivial⟩
    · rw [hvectors, clear_ofList, ofDefault_eq]
    · rw [List.length_replicate]
      exact min_le_right _ _
  | emplaceBack v x =>
    refine ⟨fun _ => h.set ?_ ?_, fun _ => trivial⟩
    · rw [hvectors, emplaceBack_eq]
    · exact length_emplaceBack_le (h.bounded v)
  | pushBack v x =>
    refine ⟨fun _ => h.set ?_ ?_, fun _ => trivial⟩
    · rw [hvectors, emplaceBack_eq]
    · exact length_emplaceBack_le (h.bounded v)
  | emplace v position x => exact h.emplace rfl
  | popBack v =>
    refine ⟨fun _ => h.set ?_ ?_, fun _ => trivial⟩
    · rw [hvectors, popBack_eq]
    · split
      · exact Nat.zero_le _
      · rw [List.length_dropLast]
        exact (Nat.sub_le _ _).trans (h.bounded v)
  | resize v count x =>
    refine ⟨fun _ => h.set ?_ ?_, fun _ => trivial⟩
    · rw [hvectors, resize_ofList]
      split
      · rfl
      · rfl
    · have hbounded := h.bounded v
      split
      · exact hbounded
      · next hcount =>
        rw [List.length_append, List.length_take, List.length_replicate]
        omega
  | erase v position =>
    refine ⟨fun _ => h.set ?_ ?_, fun _ => trivial⟩
    · rw [hvectors, erase_ofList]
    · exact (List.length_eraseIdx_le _ _).trans (h.bounded v)
  | clear v =>
    refine ⟨fun _ => h.set ?_ (Nat.zero_le _), fun _ => trivial⟩
    rw [hvectors, clear_ofList]
  | copyAssign v rhs =>
    refine ⟨fun _ => ?_, fun _ => trivial⟩
    by_cases heq : v = rhs
    · subst heq
      have hself : Function.update s.lists v (s.lists v) = s.lists := Function.update_eq_self _ _
      simp only [VectorOp.exec, VectorOp.execList, VectorOp.set, if_true, hself, beq_self_eq_true,
        Bool.and_true]
      exact h
    · simp only [VectorOp.exec, VectorOp.execList, heq, if_false]
      refine h.set ?_ (h.bounded rhs)
      rw [hvectors, hvectors, copyAssign_ofList _ _ (h.bounded rhs)]
  | moveAssign v rhs =>
    refine ⟨fun _ => ?_, fun _ => trivial⟩
    by_cases heq : v = rhs
    · simp only [VectorOp.exec, VectorOp.execList, heq, if_true, beq_self_eq_true, Bool.and_true]
      exact h
    · simp only [VectorOp.exec, VectorOp.execList, heq, if_false]
      exact h.moveAssign v rhs

/-- In every run: the vectors are the lists that they stand for, exactly as long as nothing is
inserted before an element. -/
theorem vector_refines_iff (movedFrom : T → T) (capacity : Nat) (ops : List (VectorOp T)) :
    (∀ n m, runSteps (step movedFrom capacity) start (ops.take n) = some m →
        m.Refines capacity) ↔
      Meets (step movedFrom capacity) (AtEnd capacity) start ops := by
  obtain ⟨s', hs', _⟩ := runSteps_total (I := fun _ => True)
    (fun s op _ => ⟨_, (rfl : step movedFrom capacity s op = some _), trivial⟩) ops start trivial
  exact runSteps_always_iff (fun _ h => h) (fun _ _ _ h hs => h.step hs) ops start s'
    Refines.start hs'

theorem emplace_loses_last : ∃ s', runSteps (step (fun _ => 0) 3) start
      [.emplaceBack 0 1, .emplaceBack 0 2, .emplace 0 0 9] = some s' ∧
    (List.range 3).map (s'.vectors 0).cells = [some 9, some 1, some 0] ∧
    s'.lists 0 = [9, 1, 2] ∧ (s'.vectors 0).faulty = true ∧ ¬ s'.Refines 3 := by
  refine ⟨_, rfl, rfl, rfl, rfl, fun h => ?_⟩
  have := (h.holds 0).sound
  cases this

end VectorRun

end Iceoryx.Hoofs
