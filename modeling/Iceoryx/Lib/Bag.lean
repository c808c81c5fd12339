import Mathlib.Data.Multiset.AddSub

universe u

namespace Lib

structure Bag (A : Type u) where
  capacity : Nat
  elements : Multiset A
  bounded : elements.card ≤ capacity

namespace Bag

variable {A : Type u}

def empty (capacity : Nat) : Bag A where
  capacity := capacity
  elements := 0
  bounded := Nat.zero_le _

def insert (b : Bag A) (a : A) : Bool × Bag A :=
  if h : b.elements.card < b.capacity then
    (true, { b with
      elements := a ::ₘ b.elements
      bounded := by rwa [Multiset.card_cons] })
  else (false, b)

def remove [DecidableEq A] (b : Bag A) (a : A) : Bool × Bag A :=
  if a ∈ b.elements then
    (true, { b with
      elements := b.elements.erase a
      bounded := le_trans (Multiset.card_le_card (Multiset.erase_le a _)) b.bounded })
  else (false, b)

variable {b : Bag A} {a : A}

theorem insert_room (h : b.elements.card < b.capacity) :
    (b.insert a).1 = true ∧ (b.insert a).2.elements = a ::ₘ b.elements := by
  rw [insert, dif_pos h]
  exact ⟨rfl, rfl⟩

theorem insert_full (h : b.elements.card = b.capacity) : b.insert a = (false, b) := by
  rw [insert, dif_neg (by omega)]

@[simp] theorem insert_capacity (b : Bag A) (a : A) : (b.insert a).2.capacity = b.capacity := by
  unfold insert
  split <;> rfl

variable [DecidableEq A]

theorem remove_mem {rest : Multiset A} (h : b.elements = a ::ₘ rest) :
    (b.remove a).1 = true ∧ (b.remove a).2.elements = rest := by
  rw [remove, if_pos (h ▸ Multiset.mem_cons_self a rest)]
  refine ⟨rfl, ?_⟩
  simp only [h, Multiset.erase_cons_head]

theorem remove_notMem (h : a ∉ b.elements) : b.remove a = (false, b) := by
  rw [remove, if_neg h]

@[simp] theorem remove_capacity (b : Bag A) (a : A) : (b.remove a).2.capacity = b.capacity := by
  unfold remove
  split <;> rfl

end Bag

end Lib
