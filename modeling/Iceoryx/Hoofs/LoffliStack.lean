import Iceoryx.Hoofs.Loffli
import Iceoryx.Lib.Refine

namespace Iceoryx.Hoofs.Loffli

inductive Operation
  | pop
  | push (index : Nat)
  deriving DecidableEq, Repr

inductive Answer
  | popped (index : Option Nat)
  | pushed (accepted : Bool)
  deriving DecidableEq, Repr

def perform (l : Loffli) : Operation → Option (Answer × Loffli)
  | .pop =>
    match l.pop with
    | some (index, l') => some (.popped (some index), l')
    | none => some (.popped none, l)
  | .push index =>
    match l.push index with
    | some l' => some (.pushed true, l')
    | none => some (.pushed false, l)

def stackStep (capacity : Nat) (stack : List Nat) : Operation → Option (Answer × List Nat)
  | .pop => some (.popped stack.head?, stack.tail)
  | .push index =>
    if index < capacity ∧ index ∉ stack then some (.pushed true, index :: stack)
    else some (.pushed false, stack)

theorem stackStep_isSome (capacity : Nat) (stack : List Nat) (op : Operation) :
    (stackStep capacity stack op).isSome := by
  cases op with
  | pop => rfl
  | push index =>
    rw [stackStep]
    split <;> rfl

theorem push_eq_none {l : Loffli} {free : List Nat} {index : Nat} (h : Rep l free)
    (hnot : ¬ (index < l.size ∧ index ∉ free)) : l.push index = none := by
  cases hpush : l.push index with
  | none => rfl
  | some l' => exact absurd (push_inv h hpush) hnot

def Stores (capacity : Nat) (l : Loffli) (stack : List Nat) : Prop :=
  l.size = capacity ∧ Rep l stack

theorem perform_simulates (capacity : Nat) :
    Lib.Simulates perform (stackStep capacity) (fun _ _ => True) (Stores capacity) := by
  rintro l stack op out stack' ⟨rfl, hrep⟩ _ hspec
  cases op with
  | pop =>
    cases stack with
    | nil =>
      cases hspec
      refine ⟨l, ?_, rfl, hrep⟩
      rw [perform, pop_nil hrep]
      rfl
    | cons index rest =>
      cases hspec
      obtain ⟨l', hpop, hsize, hrep'⟩ := pop_cons hrep
      refine ⟨l', ?_, hsize, hrep'⟩
      rw [perform, hpop]
      rfl
  | push index =>
    rw [stackStep] at hspec
    split at hspec
    · rename_i hout
      cases hspec
      obtain ⟨l', hpush, hsize, hrep'⟩ := push_taken hrep hout.1 hout.2
      refine ⟨l', ?_, hsize, hrep'⟩
      rw [perform, hpush]
    · rename_i hout
      cases hspec
      refine ⟨l, ?_, rfl, hrep⟩
      rw [perform, push_eq_none hrep hout]

theorem free_list_is_stack {capacity : Nat} {l : Loffli} (h : init capacity = some l)
    (ops : List Operation) :
    ∃ outs stack l', Lib.runOps (stackStep capacity) (List.range capacity) ops =
        some (outs, stack) ∧
      Lib.runOps perform l ops = some (outs, l') ∧ l'.free = stack ∧ stack.Nodup ∧
      ∀ i ∈ stack, i < capacity := by
  obtain ⟨outs, stack, hspec⟩ :=
    Lib.runOps_total (stackStep_isSome capacity) ops (List.range capacity)
  obtain ⟨l', hrun, hsize, hrep⟩ :=
    (perform_simulates capacity).run ops l _ stack outs (init_rep h)
      (Lib.admits_of_forall (fun _ _ => trivial) ops l) hspec
  refine ⟨outs, stack, l', hspec, hrun, hrep.free_eq, hrep.nodup, ?_⟩
  rw [← hsize]
  exact hrep.lt

theorem free_list_is_stack_two : ∃ l outs stack l', init 2 = some l ∧
    Lib.runOps (stackStep 2) (List.range 2) [.pop, .push 0, .push 0, .push 7] =
      some (outs, stack) ∧
    Lib.runOps perform l [.pop, .push 0, .push 0, .push 7] = some (outs, l') ∧
    l'.free = stack := by
  obtain ⟨l, hinit⟩ := Option.isSome_iff_exists.mp (show (init 2).isSome by decide)
  obtain ⟨outs, stack, l', hspec, hrun, hfree, _⟩ :=
    free_list_is_stack hinit [.pop, .push 0, .push 0, .push 7]
  exact ⟨l, outs, stack, l', hinit, hspec, hrun, hfree⟩

end Iceoryx.Hoofs.Loffli
