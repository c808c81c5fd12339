import Mathlib.Data.List.Basic

universe u

namespace Lib

variable {A : Type u}

structure Fifo (A : Type u) where
  capacity : Nat
  elements : List A

namespace Fifo

def tryPush (f : Fifo A) (value : A) : Bool × Fifo A :=
  if f.elements.length < f.capacity then
    (true, { f with elements := f.elements ++ [value] })
  else (false, f)

def push (f : Fifo A) (value : A) : Option A × Fifo A :=
  if f.elements.length < f.capacity then
    (none, { f with elements := f.elements ++ [value] })
  else
    ((f.elements ++ [value]).head?, { f with elements := (f.elements ++ [value]).tail })

def pop (f : Fifo A) : Option A × Fifo A :=
  (f.elements.head?, { f with elements := f.elements.tail })

def setCapacity (maxCapacity : Nat) (f : Fifo A) (newCapacity : Nat) :
    (Bool × List A) × Fifo A :=
  if newCapacity > maxCapacity then ((false, []), f)
  else
    let excess := f.elements.length - newCapacity
    ((true, f.elements.take excess),
      { capacity := newCapacity, elements := f.elements.drop excess })

variable (f : Fifo A) (value : A)

@[simp] theorem tryPush_capacity : (f.tryPush value).2.capacity = f.capacity := by
  unfold tryPush
  split <;> rfl

@[simp] theorem push_capacity : (f.push value).2.capacity = f.capacity := by
  unfold push
  split <;> rfl

@[simp] theorem pop_capacity : f.pop.2.capacity = f.capacity := rfl

end Fifo

end Lib
