import Mathlib.Algebra.BigOperators.Group.Finset.Basic
import Iceoryx.Popo.ChunkQueue

namespace Iceoryx.Popo

open Mepoo Lib

variable {S R : Type}

def ChunkReceiverData.slots (d : ChunkReceiverData) : Multiset Nat :=
  d.queue.elements + d.chunksInUse.slots

def ChunkSenderData.slots (d : ChunkSenderData R) : Multiset Nat :=
  d.history + d.chunksInUse.slots + d.lastChunkUnmanaged.toList

def slots [Fintype S] [Fintype R] (senders : S → ChunkSenderData R)
    (receivers : R → ChunkReceiverData) : Multiset Nat :=
  ∑ s, (senders s).slots + ∑ r, (receivers r).slots

/-- The data of the senders and of the receivers are `A` and `B`, the pools have the sizes `Γ`,
and the memory counts the references `refs`. -/
structure Counts (Γ : List (Nat × Nat)) (A : S → ChunkSenderData R) (B : R → ChunkReceiverData)
    (H : Nat → Nat) (refs : Multiset Nat) (w : World S R) : Prop where
  senders : w.senders = A
  receivers : w.receivers = B
  senderLists : ∀ s, (A s).chunksInUse.Ok
  receiverLists : ∀ r, (B r).chunksInUse.Ok
  ledger : MemoryManager.Ledger H refs w.memory
  shape : w.memory.shape = Γ

/-- The books of the program: the memory counts the references in the data
together with the references `L` that local variables hold. -/
def Books [Fintype S] [Fintype R] (Γ : List (Nat × Nat)) (A : S → ChunkSenderData R)
    (B : R → ChunkReceiverData) (H : Nat → Nat) (L : Multiset Nat) : World S R → Prop :=
  Counts Γ A B H (L + slots A B)

def Held [Fintype S] [Fintype R] (Γ : List (Nat × Nat)) (A : S → ChunkSenderData R)
    (H : Nat → Nat) (L : Multiset Nat) (w : World S R) : Prop :=
  ∃ B, Books Γ A B H L w

def Owes [Fintype S] [Fintype R] (Γ : List (Nat × Nat)) (H : Nat → Nat) (L : Multiset Nat)
    (w : World S R) : Prop :=
  ∃ A, Held Γ A H L w

section Rules

variable {E : Halt → Prop} {Γ : List (Nat × Nat)} {A : S → ChunkSenderData R}
  {B : R → ChunkReceiverData} {H : Nat → Nat} {refs : Multiset Nat} {T : Type}

theorem Counts.onMemory_of {x : Prog Halt MemoryManager T} {Q : T → World S R → Prop}
    {C : MemoryManager → Prop} {P : T → MemoryManager → Prop} (hkeeps : MemoryManager.KeepsShape x)
    (hx : Triple E (fun mm => MemoryManager.Ledger H refs mm ∧ C mm) x P)
    (hQ : ∀ (a : T) (mm : MemoryManager) (w : World S R), Counts Γ A B H refs w →
      mm.shape = Γ → P a mm → Q a { w with memory := mm }) :
    Triple E (fun w => Counts Γ A B H refs w ∧ C w.memory) (Exec.onMemory x) Q := by
  refine Triple.focus fun w hw => ?_
  exact (Triple.and hx (hkeeps Γ) w.memory ⟨⟨hw.1.ledger, hw.2⟩, hw.1.shape⟩).mono
    fun a mm h => hQ a mm w hw.1 h.2 h.1

theorem Counts.onMemory {x : Prog Halt MemoryManager T} {Q : T → World S R → Prop}
    {P : T → MemoryManager → Prop} (hkeeps : MemoryManager.KeepsShape x)
    (hx : Triple E (MemoryManager.Ledger H refs) x P)
    (hQ : ∀ (a : T) (mm : MemoryManager) (w : World S R), Counts Γ A B H refs w →
      mm.shape = Γ → P a mm → Q a { w with memory := mm }) :
    Triple E (Counts Γ A B H refs) (Exec.onMemory x) Q := by
  have hx' : Triple E (fun mm => MemoryManager.Ledger H refs mm ∧ True) x P :=
    hx.pre fun _ h => h.1
  exact (Counts.onMemory_of hkeeps hx' hQ).pre fun _ hw => ⟨hw, trivial⟩

theorem setSender_counts [DecidableEq S] {s : S} {d : ChunkSenderData R}
    (hd : d.chunksInUse.Ok) :
    Triple E (Counts Γ A B H refs) (Exec.setSender s d)
      fun _ => Counts Γ (Function.update A s d) B H refs := by
  intro w hw
  refine ⟨?_, hw.receivers, ?_, hw.receiverLists, hw.ledger, hw.shape⟩
  · simp [hw.senders]
  · intro t
    by_cases ht : t = s
    · subst ht
      simpa using hd
    · rw [Function.update_of_ne ht]
      exact hw.senderLists t

theorem setReceiver_counts [DecidableEq R] {r : R} {d : ChunkReceiverData}
    (hd : d.chunksInUse.Ok) :
    Triple E (Counts Γ A B H refs) (Exec.setReceiver r d)
      fun _ => Counts Γ A (Function.update B r d) H refs := by
  intro w hw
  refine ⟨hw.senders, ?_, hw.senderLists, ?_, hw.ledger, hw.shape⟩
  · simp [hw.receivers]
  · intro t
    by_cases ht : t = r
    · subst ht
      simpa using hd
    · rw [Function.update_of_ne ht]
      exact hw.receiverLists t

variable [Fintype S] [Fintype R] {L L' : Multiset Nat}

theorem Books.onMemory {x : Prog Halt MemoryManager T} {Q : T → World S R → Prop}
    {P : T → MemoryManager → Prop} (hkeeps : MemoryManager.KeepsShape x)
    (hx : Triple E (MemoryManager.Ledger H (L + slots A B)) x P)
    (hQ : ∀ (a : T) (mm : MemoryManager) (w : World S R), Books Γ A B H L w →
      mm.shape = Γ → P a mm → Q a { w with memory := mm }) :
    Triple E (Books Γ A B H L) (Exec.onMemory x) Q :=
  Counts.onMemory hkeeps hx hQ

theorem Books.lists {x : Exec S R T} {Q : T → World S R → Prop}
    (h : (∀ s, (A s).chunksInUse.Ok) → (∀ r, (B r).chunksInUse.Ok) →
      Triple E (Books Γ A B H L) x Q) : Triple E (Books Γ A B H L) x Q := by
  intro w hw
  exact h hw.senderLists hw.receiverLists w hw

theorem Books.aligned {x : Exec S R T} {Q : T → World S R → Prop} {m : Nat}
    (hm : m ∈ L + slots A B)
    (h : alignofChunkHeader ∣ H m → Triple E (Books Γ A B H L) x Q) :
    Triple E (Books Γ A B H L) x Q := by
  intro w hw
  exact h (hw.ledger.aligned hm) w hw

theorem Books.withMemory {H' : Nat → Nat} {w : World S R} {mm : MemoryManager}
    (h : Books Γ A B H L w) (hshape : mm.shape = Γ)
    (hmm : MemoryManager.Ledger H' (L' + slots A B) mm) :
    Books Γ A B H' L' { w with memory := mm } :=
  ⟨h.senders, h.receivers, h.senderLists, h.receiverLists, hmm, hshape⟩

theorem writeHeader_triple (address : Nat) (header : ChunkHeader) :
    Triple E (Books Γ A B H L)
      (Exec.onMemory (modify fun mm => mm.writeHeader address header) : Exec S R PUnit)
      fun _ => Books Γ A B H L := by
  refine Books.onMemory (fun _ _ hshape => hshape)
    (Triple.modify fun mm hmm => hmm.writeHeader address header)
    fun _ mm w hw hshape hmm => hw.withMemory hshape hmm

theorem copy_triple {m : Nat} (hm : m ∈ L + slots A B) :
    Triple E (Books Γ A B H L) (Exec.copy m) fun _ => Books Γ A B H (m ::ₘ L) := by
  refine Books.onMemory (MemoryManager.keepsShape_increment m) (MemoryManager.increment_triple hm)
    fun _ mm w hw hshape hmm => ?_
  exact hw.withMemory hshape (by rwa [Multiset.cons_add])

theorem destroy_triple {m : Nat} :
    Triple E (Books Γ A B H (m ::ₘ L)) (Exec.destroy m) fun _ => Books Γ A B H L := by
  have hdrop : Triple E (MemoryManager.Ledger H (m ::ₘ L + slots A B))
      (SharedChunk.decrementReferenceCounter m)
      fun _ => MemoryManager.Ledger H (L + slots A B) := by
    rw [Multiset.cons_add]
    exact MemoryManager.decrement_triple
  exact Books.onMemory (MemoryManager.keepsShape_decrement m) hdrop
    fun _ mm w hw hshape hmm => hw.withMemory hshape hmm

theorem destroy?_triple {o : Option Nat} :
    Triple E (Books Γ A B H (o.toList + L)) (Exec.destroy? o) fun _ => Books Γ A B H L := by
  cases o with
  | none => exact Triple.pure fun w hw => by simpa using hw
  | some m => exact destroy_triple.pre fun w hw => by simpa using hw

theorem sender_bind {f : ChunkSenderData R → Exec S R T} {Q : T → World S R → Prop} {s : S}
    (h : Triple E (Books Γ A B H L) (f (A s)) Q) :
    Triple E (Books Γ A B H L) (Exec.sender s >>= f) Q := by
  intro w hw
  have := h w hw
  rw [← hw.senders] at this
  exact this

theorem receiver_bind {f : ChunkReceiverData → Exec S R T} {Q : T → World S R → Prop} {r : R}
    (h : Triple E (Books Γ A B H L) (f (B r)) Q) :
    Triple E (Books Γ A B H L) (Exec.receiver r >>= f) Q := by
  intro w hw
  have := h w hw
  rw [← hw.receivers] at this
  exact this

theorem slots_update_sender [DecidableEq S] (s : S) (d : ChunkSenderData R) :
    slots (Function.update A s d) B + (A s).slots = slots A B + d.slots := by
  have := sum_update ChunkSenderData.slots A s d
  unfold slots
  rw [add_right_comm, this, add_right_comm]

theorem slots_update_receiver [DecidableEq R] (r : R) (d : ChunkReceiverData) :
    slots A (Function.update B r d) + (B r).slots = slots A B + d.slots := by
  have := sum_update ChunkReceiverData.slots B r d
  unfold slots
  rw [add_assoc, this, add_assoc]

theorem mem_slots_sender {s : S} {m : Nat} (h : m ∈ (A s).slots) : m ∈ slots A B :=
  Multiset.mem_add.mpr (Or.inl (Multiset.mem_sum.mpr ⟨s, Finset.mem_univ s, h⟩))

theorem setSender_triple [DecidableEq S] {s : S} {d : ChunkSenderData R}
    (hd : d.chunksInUse.Ok) (heq : L' + d.slots = L + (A s).slots) :
    Triple E (Books Γ A B H L) (Exec.setSender s d)
      fun _ => Books Γ (Function.update A s d) B H L' := by
  unfold Books
  rw [add_eq_of_transfer (slots_update_sender s d) heq]
  exact setSender_counts hd

theorem setSender_self [DecidableEq S] (s : S) :
    Triple E (Books Γ A B H L) (Exec.setSender s (A s)) fun _ => Books Γ A B H L := by
  intro w hw
  refine ⟨?_, hw.receivers, hw.senderLists, hw.receiverLists, hw.ledger, hw.shape⟩
  simp [hw.senders]

theorem setReceiver_triple [DecidableEq R] {r : R} {d : ChunkReceiverData}
    (hd : d.chunksInUse.Ok) (heq : L' + d.slots = L + (B r).slots) :
    Triple E (Books Γ A B H L) (Exec.setReceiver r d)
      fun _ => Books Γ A (Function.update B r d) H L' := by
  unfold Books
  rw [add_eq_of_transfer (slots_update_receiver r d) heq]
  exact setReceiver_counts hd

theorem setReceiver_self [DecidableEq R] (r : R) :
    Triple E (Books Γ A B H L) (Exec.setReceiver r (B r)) fun _ => Books Γ A B H L := by
  intro w hw
  refine ⟨hw.senders, ?_, hw.senderLists, hw.receiverLists, hw.ledger, hw.shape⟩
  simp [hw.receivers]

end Rules

end Iceoryx.Popo
