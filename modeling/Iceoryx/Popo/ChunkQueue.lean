import Iceoryx.Popo.Ports
import Iceoryx.Popo.UsedChunkList

namespace Iceoryx.Popo

open Mepoo Lib

inductive VariantQueueTypes
  | fiFoSingleProducerSingleConsumer
  | soFiSingleProducerSingleConsumer
  | fiFoMultiProducerSingleConsumer
  | soFiMultiProducerSingleConsumer
  deriving DecidableEq, Repr

structure VariantQueue (A : Type) where
  type : VariantQueueTypes
  capacity : Nat
  elements : List A
  deriving DecidableEq, Repr

namespace VariantQueue

variable {A : Type}

/-- The value that did not fit, or had to make room, and the queue afterwards.
`none` is the endless loop of a full `ResizeableLockFreeQueue` that has nothing
to evict. -/
def push (q : VariantQueue A) (value : A) : Option (Option A × VariantQueue A) :=
  match q.type with
  | .fiFoSingleProducerSingleConsumer | .fiFoMultiProducerSingleConsumer =>
    if q.elements.length < q.capacity then
      some (none, { q with elements := q.elements ++ [value] })
    else some (some value, q)
  | .soFiSingleProducerSingleConsumer =>
    -- the value is written before the sizes are compared
    if q.elements.length + 1 ≤ q.capacity then
      some (none, { q with elements := q.elements ++ [value] })
    else
      match q.elements ++ [value] with
      | oldest :: rest => some (some oldest, { q with elements := rest })
      | [] => none
  | .soFiMultiProducerSingleConsumer =>
    if q.elements.length < q.capacity then
      some (none, { q with elements := q.elements ++ [value] })
    else
      match q.elements with
      | oldest :: rest => some (some oldest, { q with elements := rest ++ [value] })
      | [] => none

def pop (q : VariantQueue A) : Option (A × VariantQueue A) :=
  match q.elements with
  | [] => none
  | value :: rest => some (value, { q with elements := rest })

theorem push_perm {q q' : VariantQueue A} {value : A} {overflow : Option A}
    (h : q.push value = some (overflow, q')) :
    (overflow.toList ++ q'.elements).Perm (value :: q.elements) := by
  have happend : (q.elements ++ [value]).Perm (value :: q.elements) := List.perm_append_comm
  unfold push at h
  split at h
  · split at h <;> cases h
    · exact happend
    · exact List.Perm.refl _
  · split at h <;> cases h
    · exact happend
    · exact List.Perm.refl _
  · split at h
    · cases h
      exact happend
    · split at h
      · next hsplit =>
        cases h
        rw [hsplit] at happend
        exact happend
      · cases h
  · split at h
    · cases h
      exact happend
    · split at h
      · next hsplit =>
        cases h
        rw [hsplit] at happend ⊢
        exact happend
      · cases h

theorem pop_elements {q q' : VariantQueue A} {value : A} (h : q.pop = some (value, q')) :
    q.elements = value :: q'.elements := by
  unfold pop at h
  split at h
  · cases h
  · next hsplit =>
    cases h
    exact hsplit

end VariantQueue

structure ChunkQueueData where
  uniqueId : Nat
  queue : VariantQueue Nat
  queueHasLostChunks : Bool
  queueFullPolicy : QueueFullPolicy

structure ChunkReceiverData extends ChunkQueueData where
  chunksInUse : UsedChunkList

variable {S R : Type}

structure ChunkDistributorData (R : Type) where
  historyCapacity : Nat
  maxQueues : Nat
  queues : List R
  history : List Nat
  consumerTooSlowPolicy : ConsumerTooSlowPolicy

structure ChunkSenderData (R : Type) extends ChunkDistributorData R where
  chunksInUse : UsedChunkList
  sequenceNumber : Nat
  lastChunkUnmanaged : Option Nat

structure World (S R : Type) where
  memory : MemoryManager
  senders : S → ChunkSenderData R
  receivers : R → ChunkReceiverData

abbrev Exec (S R A : Type) : Type := Prog Halt (World S R) A

namespace Exec

def onMemory {A : Type} (x : Prog Halt MemoryManager A) : Exec S R A :=
  focus World.memory (fun mm w => { w with memory := mm }) x

def sender (s : S) : Exec S R (ChunkSenderData R) := fun w => .ok (w.senders s, w)

def receiver (r : R) : Exec S R ChunkReceiverData := fun w => .ok (w.receivers r, w)

def setSender [DecidableEq S] (s : S) (d : ChunkSenderData R) : Exec S R Unit := fun w =>
  .ok ((), { w with senders := Function.update w.senders s d })

def setReceiver [DecidableEq R] (r : R) (d : ChunkReceiverData) : Exec S R Unit := fun w =>
  .ok ((), { w with receivers := Function.update w.receivers r d })

def copy (m : Nat) : Exec S R PUnit := onMemory (SharedChunk.incrementReferenceCounter m)

def destroy (m : Nat) : Exec S R PUnit := onMemory (SharedChunk.decrementReferenceCounter m)

def destroy? : Option Nat → Exec S R PUnit
  | none => pure ⟨⟩
  | some m => destroy m

end Exec

end Iceoryx.Popo
