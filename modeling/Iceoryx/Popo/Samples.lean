import Iceoryx.Lib.Run
import Iceoryx.Popo.HeldChunks
import Iceoryx.Popo.ZeroCopy

namespace Iceoryx.Popo

open Mepoo Lib

variable {S R N : Type}

/-- `cxx::unique_ptr` to the payload of a chunk, given by the header.  The deleter gives the chunk
back to a port. -/
structure UniquePtr (S R : Type) where
  ptr : Option Nat := none
  deleter : Option (S ⊕ R) := none

/-- A sample that was loaned has the publisher that publishes it, one that was taken has none. -/
structure Sample (S R : Type) where
  smartChunkUniquePtr : UniquePtr S R := {}
  producerRef : Option S := none

/-- The samples by their names; before and after its lifetime a sample is empty. -/
structure Application (S R N : Type) where
  world : World S R
  offeringRequested : S → Bool := fun _ => false
  samples : N → Sample S R := fun _ => {}

abbrev AppExec (S R N A : Type) : Type := Prog Halt (Application S R N) A

section Definitions

variable [DecidableEq S] [LinearOrder R]

def releaseChunk : S ⊕ R → Nat → Exec S R PUnit
  | .inl s, chunkHeader => ChunkSender.release s chunkHeader
  | .inr r, chunkHeader => ChunkReceiver.release r chunkHeader

namespace UniquePtr

def release (u : UniquePtr S R) : Option Nat × UniquePtr S R := (u.ptr, { u with ptr := none })

def reset (ptr : Option Nat) (u : UniquePtr S R) : Exec S R (UniquePtr S R) := do
  match u.ptr, u.deleter with
  | some chunkHeader, some port => releaseChunk port chunkHeader
  | _, _ => pure ⟨⟩
  pure { u with ptr := ptr }

def moveAssign (u rhs : UniquePtr S R) : Exec S R (UniquePtr S R × UniquePtr S R) := do
  let (ptr, rhs) := rhs.release
  let u ← u.reset ptr
  pure ({ u with deleter := rhs.deleter }, { rhs with deleter := none })

end UniquePtr

namespace Application

variable [DecidableEq N]

def onWorld {A : Type} (x : Exec S R A) : AppExec S R N A :=
  focus Application.world (fun w a => { a with world := w }) x

def sample (n : N) : AppExec S R N (Sample S R) := fun a => .ok (a.samples n, a)

def setSample (n : N) (x : Sample S R) : AppExec S R N PUnit := fun a =>
  .ok (⟨⟩, { a with samples := Function.update a.samples n x })

def keep (n : N) (result : Sample S R) : AppExec S R N PUnit := do
  let x ← sample n
  let (u, _) ← onWorld (x.smartChunkUniquePtr.moveAssign result.smartChunkUniquePtr)
  setSample n { smartChunkUniquePtr := u, producerRef := result.producerRef }

def loan (s : S) (n : N) (originId userPayloadSize userPayloadAlignment userHeaderSize
    userHeaderAlignment : Nat) : AppExec S R N PUnit := do
  let result ← onWorld (ChunkSender.tryAllocate s originId userPayloadSize userPayloadAlignment
    userHeaderSize userHeaderAlignment)
  match result with
  | .error _ => pure ⟨⟩
  | .ok chunkHeader =>
    keep n
      { smartChunkUniquePtr := { ptr := some chunkHeader, deleter := some (.inl s) }
        producerRef := some s }

def take (r : R) (n : N) : AppExec S R N PUnit := do
  let result ← onWorld (ChunkReceiver.tryGet r)
  match result with
  | .error _ => pure ⟨⟩
  | .ok chunkHeader =>
    keep n { smartChunkUniquePtr := { ptr := some chunkHeader, deleter := some (.inr r) } }

def sendChunk (patience : Nat) (s : S) (chunkHeader : Nat) : AppExec S R N PUnit := do
  let a ← get
  if a.offeringRequested s then do
    let _ ← onWorld (ChunkSender.send s chunkHeader patience)
    pure ⟨⟩
  else onWorld (ChunkSender.pushToHistory s chunkHeader)

/-- `PublisherImpl::publish`, which looks for the header in front of the payload. -/
def publish (patience : Nat) (s : S) (n : N) : AppExec S R N PUnit := do
  let x ← sample n
  let (userPayload, u) := x.smartChunkUniquePtr.release
  setSample n { x with smartChunkUniquePtr := u }
  match userPayload with
  | none => throw .nullptr
  | some chunkHeader => sendChunk patience s chunkHeader

/-- `Sample::publish`, which reports an empty sample.  A sample that was taken has no such
function. -/
def publishSample (patience : Nat) (n : N) : AppExec S R N PUnit := do
  let x ← sample n
  match x.smartChunkUniquePtr.ptr, x.producerRef with
  | some _, some producer => publish patience producer n
  | _, _ => pure ⟨⟩

/-- `PublisherImpl::publishCopyOf` and `publishResultOf`: the sample is a local one. -/
def publishCopyOf (patience : Nat) (s : S) (originId userPayloadSize userPayloadAlignment
    userHeaderSize userHeaderAlignment : Nat) : AppExec S R N PUnit := do
  let result ← onWorld (ChunkSender.tryAllocate s originId userPayloadSize userPayloadAlignment
    userHeaderSize userHeaderAlignment)
  match result with
  | .error _ => pure ⟨⟩
  | .ok chunkHeader => sendChunk patience s chunkHeader

def moveAssign (n m : N) : AppExec S R N PUnit :=
  if n = m then pure ⟨⟩
  else do
    let x ← sample n
    let rhs ← sample m
    let (u, v) ← onWorld (x.smartChunkUniquePtr.moveAssign rhs.smartChunkUniquePtr)
    setSample n { smartChunkUniquePtr := u, producerRef := rhs.producerRef }
    setSample m { rhs with smartChunkUniquePtr := v }

def destroy (n : N) : AppExec S R N PUnit := do
  let x ← sample n
  let _ ← onWorld (x.smartChunkUniquePtr.reset none)
  setSample n {}

end Application

end Definitions

inductive SampleOp (S R N : Type)
  | loan (s : S) (n : N) (originId userPayloadSize userPayloadAlignment userHeaderSize
      userHeaderAlignment : Nat)
  | publishCopyOf (s : S) (originId userPayloadSize userPayloadAlignment userHeaderSize
      userHeaderAlignment : Nat)
  | take (r : R) (n : N)
  | publish (s : S) (n : N)
  | publishSample (n : N)
  | moveAssign (n m : N)
  | destroy (n : N)
  | setOffering (s : S) (offeringRequested : Bool)
  | releaseQueuedData (r : R)
  | tryAddQueue (s : S) (r : R) (requestedHistory : Nat)
  | tryRemoveQueue (s : S) (r : R)
  | removeAllQueues (s : S)

namespace Application

section Steps

variable [DecidableEq S] [LinearOrder R] [DecidableEq N]

def exec (patience : Nat) : SampleOp S R N → AppExec S R N PUnit
  | .loan s n originId userPayloadSize userPayloadAlignment userHeaderSize userHeaderAlignment =>
    loan s n originId userPayloadSize userPayloadAlignment userHeaderSize userHeaderAlignment
  | .publishCopyOf s originId userPayloadSize userPayloadAlignment userHeaderSize
      userHeaderAlignment =>
    publishCopyOf patience s originId userPayloadSize userPayloadAlignment userHeaderSize
      userHeaderAlignment
  | .take r n => take r n
  | .publish s n => publish patience s n
  | .publishSample n => publishSample patience n
  | .moveAssign n m => moveAssign n m
  | .destroy n => destroy n
  | .setOffering s offeringRequested =>
    modify fun a =>
      { a with offeringRequested := Function.update a.offeringRequested s offeringRequested }
  | .releaseQueuedData r => onWorld (ChunkReceiver.clear r)
  | .tryAddQueue s r requestedHistory => do
    let _ ← onWorld (ChunkDistributor.tryAddQueue s r requestedHistory)
    pure ⟨⟩
  | .tryRemoveQueue s r => do
    let _ ← onWorld (ChunkDistributor.tryRemoveQueue s r)
    pure ⟨⟩
  | .removeAllQueues s => do
    let _ ← onWorld (ChunkDistributor.removeAllQueues s)
    pure ⟨⟩

def advance (patience : Nat) (a : Application S R N) (op : SampleOp S R N) :
    Option (Application S R N) :=
  (exec patience op a).toOption.map Prod.snd

end Steps

def start (mm : MemoryManager) (senders : S → ChunkSenderOptions)
    (receivers : R → ChunkReceiverOptions) : Application S R N where
  world := World.start mm senders receivers

def Admissible (a : Application S R N) : SampleOp S R N → Prop
  | .publish s n => ∃ chunkHeader, (a.samples n).smartChunkUniquePtr =
      { ptr := some chunkHeader, deleter := some (.inl s) }
  | _ => True

end Application

namespace Sample

def Complete (x : Sample S R) : Prop :=
  ∀ chunkHeader, x.smartChunkUniquePtr.ptr = some chunkHeader →
    (∃ s, x.smartChunkUniquePtr.deleter = some (.inl s) ∧ x.producerRef = some s) ∨
      ∃ r, x.smartChunkUniquePtr.deleter = some (.inr r) ∧ x.producerRef = none

theorem Complete.deleter {x : Sample S R} (h : x.Complete) {chunkHeader : Nat}
    (hptr : x.smartChunkUniquePtr.ptr = some chunkHeader) :
    ∃ p, x.smartChunkUniquePtr = { ptr := some chunkHeader, deleter := some p } := by
  obtain ⟨s, hdeleter, -⟩ | ⟨r, hdeleter, -⟩ := h chunkHeader hptr
  · exact ⟨_, by rw [← hptr, ← hdeleter]⟩
  · exact ⟨_, by rw [← hptr, ← hdeleter]⟩

end Sample

section Holding

variable [DecidableEq S] [LinearOrder R]

def UniquePtr.held (u : UniquePtr S R) (p : S ⊕ R) : Multiset Nat :=
  if u.deleter = some p then u.ptr.toList else 0

namespace Sample

def held (x : Sample S R) (p : S ⊕ R) : Multiset Nat := x.smartChunkUniquePtr.held p

end Sample

variable [Fintype S] [Fintype R] {E : Halt → Prop} {Γ : List (Nat × Nat)}
  {F : S ⊕ R → Multiset Nat}

end Holding

namespace Application

section Rules

variable [Fintype S] [Fintype R] {E : Halt → Prop} {Γ : List (Nat × Nat)}
  {F : S ⊕ R → Multiset Nat} {X : N → Sample S R} {A : Type} {n : N}

def Holds (Γ : List (Nat × Nat)) (F : S ⊕ R → Multiset Nat) (X : N → Sample S R)
    (a : Application S R N) : Prop :=
  Owned Γ F a.world ∧ a.samples = X

theorem onWorld_holds {x : Exec S R A} {Q : A → World S R → Prop}
    (hx : Triple E (Owned Γ F) x Q) :
    Triple E (Holds Γ F X) (onWorld x : AppExec S R N A) fun r a => Q r a.world ∧ a.samples = X := by
  refine Triple.focus fun a ha => ?_
  exact (hx a.world ha.1).mono fun r w hw => ⟨hw, ha.2⟩

theorem sample_bind {f : Sample S R → AppExec S R N A} {Q : A → Application S R N → Prop}
    (h : Triple E (Holds Γ F X) (f (X n)) Q) : Triple E (Holds Γ F X) (sample n >>= f) Q := by
  intro a ha
  have hf := h a ha
  rw [← ha.2] at hf
  exact hf

theorem setSample_holds [DecidableEq N] (n : N) (x : Sample S R) :
    Triple E (Holds Γ F X) (setSample n x) fun _ => Holds Γ F (Function.update X n x) := by
  rintro a ⟨hF, rfl⟩
  exact ⟨hF, rfl⟩

variable [DecidableEq S] [LinearOrder R]

theorem sendChunk_holds (hE : E .blocked) (patience : Nat) (s : S) (chunkHeader : Nat) :
    Triple E (Holds Γ F X) (sendChunk patience s chunkHeader : AppExec S R N PUnit)
      fun _ => Holds Γ (without F (.inl s) chunkHeader) X := by
  refine Triple.bind (Triple.get (R := fun _ => Holds Γ F X) fun a ha => ha) fun a => ?_
  split
  · exact Triple.bind (onWorld_holds (ChunkSender.send_owned hE s chunkHeader patience)) fun _ =>
      Triple.pure fun a ha => ha
  · exact onWorld_holds (ChunkSender.pushToHistory_owned s chunkHeader)

variable [DecidableEq N]

theorem publish_holds (hE : E .blocked) (patience : Nat) (s : S) {chunkHeader : Nat}
    (hx : (X n).smartChunkUniquePtr.ptr = some chunkHeader) :
    Triple E (Holds Γ F X) (publish patience s n) fun _ => Holds Γ (without F (.inl s) chunkHeader)
      (Function.update X n { X n with
        smartChunkUniquePtr := { (X n).smartChunkUniquePtr with ptr := none } }) := by
  refine sample_bind (Triple.bind (setSample_holds n _) fun _ => ?_)
  simp only [hx]
  exact sendChunk_holds hE patience s chunkHeader

end Rules

section Accounts

variable [DecidableEq S] [LinearOrder R] [Fintype N] [DecidableEq N]

def total (X : N → Sample S R) (p : S ⊕ R) : Multiset Nat := ∑ n, (X n).held p

def Accounted (a : Application S R N) : Prop :=
  ∀ p, (chunksInUse a.world.senders a.world.receivers p).slots.map
    (fun m => (a.world.memory.blocks m).chunkHeader) = total a.samples p

variable [Fintype S] [Fintype R]

structure Inv (Γ : List (Nat × Nat)) (a : Application S R N) : Prop where
  complete : ∀ n, (a.samples n).Complete
  owned : Owned Γ (total a.samples) a.world

omit [DecidableEq S] [LinearOrder R] in
theorem addresses_eq {F : S ⊕ R → Multiset Nat} {w : World S R} (h : Owned Γ F w) (p : S ⊕ R) :
    (chunksInUse w.senders w.receivers p).slots.map
      (fun m => (w.memory.blocks m).chunkHeader) = F p := by
  obtain ⟨H, U, ⟨A, B, hw, rfl⟩, hF⟩ := h
  rw [hw.senders, hw.receivers, ← hF p]
  refine Multiset.map_congr rfl fun m hm => hw.ledger.header m ?_
  rw [zero_add]
  exact mem_slots_list hm

omit [DecidableEq N] in
theorem Inv.accounted {a : Application S R N} (h : Inv Γ a) : Accounted a :=
  fun p => addresses_eq h.owned p

variable {E : Halt → Prop} {patience : Nat}

end Accounts

end Application

end Iceoryx.Popo
