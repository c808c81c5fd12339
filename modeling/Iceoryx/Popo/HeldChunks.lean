import Iceoryx.Popo.Accounting

namespace Iceoryx.Popo

open Mepoo Lib Exec

variable {S R T : Type}

def chunksInUse (A : S → ChunkSenderData R) (B : R → ChunkReceiverData) : S ⊕ R → UsedChunkList :=
  Sum.elim (fun s => (A s).chunksInUse) fun r => (B r).chunksInUse

def Lists (U : S ⊕ R → UsedChunkList) (w : World S R) : Prop :=
  chunksInUse w.senders w.receivers = U

def KeepsLists (x : Exec S R T) : Prop :=
  ∀ U, Triple (fun _ => True) (Lists U) x fun _ => Lists U

section Rules

variable {U : S ⊕ R → UsedChunkList} {Q : T → World S R → Prop} {s : S} {r : R}

theorem KeepsLists.pure (a : T) : KeepsLists (pure a : Exec S R T) :=
  fun _ => Triple.pure fun _ hw => hw

theorem KeepsLists.throw (e : Halt) : KeepsLists (throw e : Exec S R T) :=
  fun _ => Triple.throw True.intro

theorem KeepsLists.bind {T' : Type} {x : Exec S R T} {f : T → Exec S R T'} (hx : KeepsLists x)
    (hf : ∀ a, KeepsLists (f a)) : KeepsLists (x >>= f) :=
  fun U => Triple.bind (hx U) fun a => hf a U

theorem KeepsLists.forM {A : Type} {f : A → Exec S R PUnit} (hf : ∀ a, KeepsLists (f a))
    (l : List A) : KeepsLists (l.forM f) :=
  fun U => Triple.forM_mem l fun a _ => hf a U

theorem keepsLists_onMemory (x : Prog Halt MemoryManager T) :
    KeepsLists (onMemory x : Exec S R T) := by
  intro U
  refine Triple.focus fun w hw => ?_
  cases x w.memory with
  | ok result => exact hw
  | error e => exact True.intro

theorem lists_sender_bind {f : ChunkSenderData R → Exec S R T}
    (h : ∀ d, d.chunksInUse = U (.inl s) → Triple (fun _ => True) (Lists U) (f d) Q) :
    Triple (fun _ => True) (Lists U) (sender s >>= f) Q :=
  fun w hw => h (w.senders s) (congrFun hw (.inl s)) w hw

theorem lists_receiver_bind {f : ChunkReceiverData → Exec S R T}
    (h : ∀ d, d.chunksInUse = U (.inr r) → Triple (fun _ => True) (Lists U) (f d) Q) :
    Triple (fun _ => True) (Lists U) (receiver r >>= f) Q :=
  fun w hw => h (w.receivers r) (congrFun hw (.inr r)) w hw

variable [DecidableEq S] [LinearOrder R]

theorem chunksInUse_update_sender (A : S → ChunkSenderData R) (B : R → ChunkReceiverData) (s : S)
    (d : ChunkSenderData R) : chunksInUse (Function.update A s d) B =
      Function.update (chunksInUse A B) (.inl s) d.chunksInUse := by
  funext p
  cases p with
  | inl t =>
    by_cases ht : t = s
    · subst ht
      simp [chunksInUse]
    · rw [Function.update_of_ne (by simpa using ht)]
      simp [chunksInUse, Function.update_of_ne ht]
  | inr r =>
    rw [Function.update_of_ne (by simp)]
    rfl

theorem chunksInUse_update_receiver (A : S → ChunkSenderData R) (B : R → ChunkReceiverData) (r : R)
    (d : ChunkReceiverData) : chunksInUse A (Function.update B r d) =
      Function.update (chunksInUse A B) (.inr r) d.chunksInUse := by
  funext p
  cases p with
  | inl s =>
    rw [Function.update_of_ne (by simp)]
    rfl
  | inr t =>
    by_cases ht : t = r
    · subst ht
      simp [chunksInUse]
    · rw [Function.update_of_ne (by simpa using ht)]
      simp [chunksInUse, Function.update_of_ne ht]

theorem lists_setSender (d : ChunkSenderData R) :
    Triple (fun _ => True) (Lists U) (setSender s d)
      fun _ => Lists (Function.update U (.inl s) d.chunksInUse) := by
  intro w hw
  change chunksInUse _ _ = _
  rw [chunksInUse_update_sender, hw]

theorem lists_setReceiver (d : ChunkReceiverData) :
    Triple (fun _ => True) (Lists U) (setReceiver r d)
      fun _ => Lists (Function.update U (.inr r) d.chunksInUse) := by
  intro w hw
  change chunksInUse _ _ = _
  rw [chunksInUse_update_receiver, hw]

theorem lists_setSender_same {d : ChunkSenderData R} (hd : d.chunksInUse = U (.inl s)) :
    Triple (fun _ => True) (Lists U) (setSender s d) fun _ => Lists U := by
  have h := lists_setSender (U := U) (s := s) d
  rwa [hd, Function.update_eq_self] at h

theorem lists_setReceiver_same {d : ChunkReceiverData} (hd : d.chunksInUse = U (.inr r)) :
    Triple (fun _ => True) (Lists U) (setReceiver r d) fun _ => Lists U := by
  have h := lists_setReceiver (U := U) (r := r) d
  rwa [hd, Function.update_eq_self] at h

end Rules

theorem keepsLists_copy (m : Nat) : KeepsLists (copy m : Exec S R PUnit) :=
  keepsLists_onMemory _

theorem keepsLists_destroy (m : Nat) : KeepsLists (destroy m : Exec S R PUnit) :=
  keepsLists_onMemory _

theorem keepsLists_destroy? (o : Option Nat) : KeepsLists (destroy? o : Exec S R PUnit) := by
  cases o with
  | none => exact KeepsLists.pure _
  | some m => exact keepsLists_destroy m

theorem keepsLists_modifyHeader (m : Nat) (f : ChunkHeader → ChunkHeader) :
    KeepsLists (modifyHeader m f : Exec S R PUnit) := by
  intro U w hw
  exact hw

variable [DecidableEq S] [LinearOrder R]

namespace ChunkDistributor

theorem keepsLists_push (r : R) (chunk : Nat) : KeepsLists (push r chunk : Exec S R Bool) := by
  refine KeepsLists.bind (keepsLists_copy chunk) fun _ U => lists_receiver_bind fun d hd => ?_
  cases d.queue.push chunk with
  | none => exact Triple.throw True.intro
  | some result =>
    exact Triple.bind (lists_setReceiver_same hd) fun _ =>
      Triple.bind (keepsLists_destroy? _ U) fun _ =>
        Triple.bind (keepsLists_destroy _ U) fun _ => Triple.pure fun _ hw => hw

theorem keepsLists_pushToQueue (r : R) (chunk : Nat) :
    KeepsLists (pushToQueue r chunk : Exec S R Bool) :=
  (keepsLists_copy chunk).bind fun _ => (keepsLists_push r chunk).bind fun _ =>
    (keepsLists_destroy chunk).bind fun _ => KeepsLists.pure _

theorem keepsLists_deliver (r : R) (chunk : Nat) :
    KeepsLists (do copy chunk; pushToQueue r chunk : Exec S R Bool) :=
  (keepsLists_copy chunk).bind fun _ => keepsLists_pushToQueue r chunk

theorem keepsLists_lostAChunk (r : R) : KeepsLists (lostAChunk r : Exec S R Unit) :=
  fun _ => lists_receiver_bind fun _ hd => lists_setReceiver_same hd

theorem keepsLists_deliverySection (s : S) (chunk : Nat) :
    KeepsLists (deliverySection s chunk : Exec S R (Nat × List R)) :=
  fun U => lists_sender_bind fun d _ => Triple.bind
    (Triple.get (R := fun _ => Lists U) fun _ hw => hw) fun w =>
      deliverToQueues_triple (fun r => keepsLists_deliver r chunk U)
        (fun r => keepsLists_lostAChunk r U) (waitsFor w d) d.queues

theorem keepsLists_retrySection (s : S) (chunk : Nat) (remainingQueues : List R) :
    KeepsLists (retrySection s chunk remainingQueues : Exec S R (Nat × List R)) :=
  fun U => lists_sender_bind fun _ hd => Triple.bind (lists_setSender_same hd) fun _ =>
    Triple.bind (retryQueues_triple (fun r => keepsLists_deliver r chunk U) _) fun _ =>
      Triple.pure fun _ hw => hw

theorem keepsLists_busyWait (s : S) (chunk : Nat) :
    ∀ (patience : Nat) (queues : List R), KeepsLists (busyWait s chunk patience queues) := by
  intro patience
  induction patience with
  | zero =>
    intro queues
    cases queues with
    | nil => exact KeepsLists.pure _
    | cons r queues => exact KeepsLists.throw _
  | succ patience ih =>
    intro queues
    cases queues with
    | nil => exact KeepsLists.pure _
    | cons r queues =>
      exact (keepsLists_retrySection s chunk _).bind fun p =>
        (ih p.2).bind fun _ => KeepsLists.pure _

theorem keepsLists_addToHistoryWithoutDelivery (s : S) (chunk : Nat) :
    KeepsLists (addToHistoryWithoutDelivery s chunk : Exec S R PUnit) := by
  intro U
  refine lists_sender_bind fun d hd => ?_
  split
  · exact Triple.bind (lists_setSender_same hd) fun _ =>
      Triple.bind (keepsLists_destroy? _ U) fun _ => Triple.bind (keepsLists_copy _ U) fun _ =>
        Triple.bind (lists_setSender_same hd) fun _ => keepsLists_destroy _ U
  · exact keepsLists_destroy _ U

theorem keepsLists_deliverToAllStoredQueues (s : S) (chunk patience : Nat) :
    KeepsLists (deliverToAllStoredQueues s chunk patience : Exec S R Nat) :=
  (keepsLists_deliverySection s chunk).bind fun p =>
    (keepsLists_busyWait s chunk patience p.2).bind fun _ => (keepsLists_copy chunk).bind fun _ =>
      (keepsLists_addToHistoryWithoutDelivery s chunk).bind fun _ =>
        (keepsLists_destroy chunk).bind fun _ => KeepsLists.pure _

end ChunkDistributor

theorem ChunkSender.keepsLists_storeLastChunk (s : S) (chunk : Nat) :
    KeepsLists (storeLastChunk s chunk : Exec S R Unit) := by
  have hrelease : KeepsLists (releaseLastChunk s : Exec S R PUnit) := fun U =>
    lists_sender_bind fun _ hd => Triple.bind (lists_setSender_same hd) fun _ =>
      keepsLists_destroy? _ U
  exact hrelease.bind fun _ => (keepsLists_copy chunk).bind fun _ U =>
    lists_sender_bind fun _ hd => lists_setSender_same hd

variable [Fintype S] [Fintype R] {E : Halt → Prop} {A : S → ChunkSenderData R}
  {B : R → ChunkReceiverData} {Γ : List (Nat × Nat)} {H : Nat → Nat} {L : Multiset Nat} {m : Nat}
  {U : S ⊕ R → UsedChunkList} {w : World S R}

def OwesLists (Γ : List (Nat × Nat)) (H : Nat → Nat) (L : Multiset Nat)
    (U : S ⊕ R → UsedChunkList) (w : World S R) : Prop :=
  ∃ A B, Books Γ A B H L w ∧ chunksInUse A B = U

omit [DecidableEq S] [LinearOrder R] in
theorem OwesLists.frame {x : Exec S R T} {C : T → Prop} {K : T → Multiset Nat}
    (hx : Triple E (Owes Γ H L) x fun a w => C a ∧ Owes Γ H (K a) w) (hkeeps : KeepsLists x) :
    Triple E (OwesLists Γ H L U) x fun a w => C a ∧ OwesLists Γ H (K a) U w := by
  refine (Triple.and hx (hkeeps U)).conseq ?_ ?_
  · rintro w ⟨A, B, hw, hU⟩
    refine ⟨⟨A, B, hw⟩, ?_⟩
    rw [Lists, hw.senders, hw.receivers]
    exact hU
  · rintro a w ⟨⟨ha, A, B, hw⟩, hU⟩
    rw [Lists, hw.senders, hw.receivers] at hU
    exact ⟨ha, A, B, hw, hU⟩

omit [DecidableEq S] [LinearOrder R] in
theorem OwesLists.step {x : Exec S R T} {L' : Multiset Nat}
    (hx : Triple E (Owes Γ H L) x fun _ => Owes Γ H L') (hkeeps : KeepsLists x) :
    Triple E (OwesLists Γ H L U) x fun _ => OwesLists Γ H L' U := by
  refine (OwesLists.frame (C := fun _ => True) (K := fun _ => L') ?_ hkeeps).post ?_
  · exact hx.post fun _ _ hw => ⟨trivial, hw⟩
  · exact fun _ _ hw => hw.2

omit [DecidableEq S] [LinearOrder R] in
theorem mem_slots_list {p : S ⊕ R} (h : m ∈ (chunksInUse A B p).slots) : m ∈ slots A B := by
  cases p with
  | inl s =>
    exact mem_slots_sender (Multiset.mem_add.mpr (Or.inl (Multiset.mem_add.mpr (Or.inr h))))
  | inr r =>
    refine Multiset.mem_add.mpr (Or.inr (Multiset.mem_sum.mpr ⟨r, Finset.mem_univ r, ?_⟩))
    exact Multiset.mem_add.mpr (Or.inr h)

def Removed (Γ : List (Nat × Nat)) (H : Nat → Nat) (U : S ⊕ R → UsedChunkList) (p : S ⊕ R)
    (address : Nat) (L : Multiset Nat) (o : Option Nat) (w : World S R) : Prop :=
  (o = none ∧ (∀ m ∈ (U p).slots, H m ≠ address) ∧ OwesLists Γ H L U w) ∨
    ∃ m l, o = some m ∧ H m = address ∧ (U p).slots = m ::ₘ l.slots ∧
      OwesLists Γ H (m ::ₘ L) (Function.update U p l) w

namespace ChunkSender

theorem removeChunk_lists (s : S) (chunkHeader : Nat) :
    Triple E (OwesLists Γ H L U) (removeChunk s chunkHeader : Exec S R (Option Nat))
      (Removed Γ H U (.inl s) chunkHeader L) := by
  refine Triple.exists fun A => Triple.exists fun B => ?_
  rintro w ⟨hw, rfl⟩
  refine (removeChunk_books s chunkHeader w hw).mono fun chunk w' hw' => ?_
  obtain ⟨rfl, hnone, hw'⟩ | ⟨m, l, rfl, hm, hslots, hw'⟩ := hw'
  · exact Or.inl ⟨rfl, hnone, A, B, hw', rfl⟩
  · exact Or.inr ⟨m, l, rfl, hm, hslots, _, B, hw', chunksInUse_update_sender A B s _⟩

theorem getChunkReadyForSend_lists (s : S) (chunkHeader : Nat) :
    Triple E (OwesLists Γ H L U) (getChunkReadyForSend s chunkHeader : Exec S R (Option Nat))
      (Removed Γ H U (.inl s) chunkHeader L) := by
  refine Triple.bind (removeChunk_lists s chunkHeader) fun chunk => ?_
  cases chunk with
  | none => exact Triple.pure fun w hw => hw
  | some m =>
    refine Triple.or (Triple.assume fun h => by cases h) (Triple.exists fun m' =>
      Triple.exists fun l => Triple.assume fun h => Triple.assume fun hm =>
        Triple.assume fun hslots => ?_)
    cases h
    refine (OwesLists.frame (C := fun o => o = some m) (K := fun _ => m ::ₘ L) ?_ ?_).post ?_
    · refine Triple.exists fun A => Triple.exists fun B => sender_bind ?_
      refine Triple.bind (modifyHeader_triple m _) fun _ => Books.lists fun hok _ => ?_
      refine Triple.bind (setSender_triple ?_ ?_) fun _ =>
        Triple.pure fun w hw => ⟨rfl, _, _, hw⟩
      · exact hok s
      · rfl
    · exact fun U => lists_sender_bind fun d hd => Triple.bind (keepsLists_modifyHeader m _ U)
        fun _ => Triple.bind (lists_setSender_same hd) fun _ => Triple.pure fun w hw => hw
    · rintro o w ⟨rfl, hw⟩
      exact Or.inr ⟨m, l, rfl, hm, hslots, hw⟩

theorem deliver_lists (hE : E .blocked) (s : S) (patience : Nat) :
    Triple E (OwesLists Γ H (m ::ₘ L) U) (do
      copy m
      let n ← ChunkDistributor.deliverToAllStoredQueues s m patience
      storeLastChunk s m
      destroy m
      pure n : Exec S R Nat) fun _ => OwesLists Γ H L U := by
  refine OwesLists.step (Triple.bind copy_owed fun _ => Triple.bind
    (ChunkDistributor.deliverToAllStoredQueues_triple hE s patience) fun n =>
      finish_triple s n) ?_
  exact (keepsLists_copy m).bind fun _ =>
    (ChunkDistributor.keepsLists_deliverToAllStoredQueues s m patience).bind fun _ =>
      (keepsLists_storeLastChunk s m).bind fun _ => (keepsLists_destroy m).bind fun _ =>
        KeepsLists.pure _

theorem store_lists (s : S) :
    Triple E (OwesLists Γ H (m ::ₘ L) U) (do
      copy m
      ChunkDistributor.addToHistoryWithoutDelivery s m
      storeLastChunk s m
      destroy m : Exec S R PUnit) fun _ => OwesLists Γ H L U := by
  refine OwesLists.step (Triple.bind copy_owed fun _ => Triple.bind
    (ChunkDistributor.addToHistoryWithoutDelivery_triple s) fun _ =>
      Triple.bind (storeLastChunk_triple s) fun _ => ?_) ?_
  · exact Triple.exists fun A => Triple.exists fun B => destroy_triple.post fun _ w hw =>
      ⟨_, _, hw⟩
  exact (keepsLists_copy m).bind fun _ =>
    (ChunkDistributor.keepsLists_addToHistoryWithoutDelivery s m).bind fun _ =>
      (keepsLists_storeLastChunk s m).bind fun _ => keepsLists_destroy m

end ChunkSender

def Owned (Γ : List (Nat × Nat)) (F : S ⊕ R → Multiset Nat) (w : World S R) : Prop :=
  ∃ H U, OwesLists Γ H 0 U w ∧ ∀ p, (U p).slots.map H = F p

def without (F : S ⊕ R → Multiset Nat) (p : S ⊕ R) (address : Nat) : S ⊕ R → Multiset Nat :=
  Function.update F p ((F p).erase address)

variable {F : S ⊕ R → Multiset Nat}

theorem owned_removed {p : S ⊕ R} {address : Nat} {x : Exec S R (Option Nat)}
    {f : Option Nat → Exec S R T}
    (hx : ∀ H U, Triple E (OwesLists Γ H 0 U) x (Removed Γ H U p address 0))
    (hnone : KeepsLists (f none) ∧ ∀ H, Triple E (Owes Γ H 0) (f none) fun _ => Owes Γ H 0)
    (hsome : ∀ H U m,
      Triple E (OwesLists Γ H (m ::ₘ 0) U) (f (some m)) fun _ => OwesLists Γ H 0 U) :
    Triple E (Owned Γ F) (x >>= f) fun _ => Owned Γ (without F p address) := by
  refine Triple.exists fun H => Triple.exists fun U => ?_
  rintro w ⟨hw, hF⟩
  refine Triple.bind (hx H U) (fun o => ?_) w hw
  refine Triple.or (Triple.assume fun ho => Triple.assume fun hnot => ?_)
    (Triple.exists fun m => Triple.exists fun l => Triple.assume fun ho =>
      Triple.assume fun hm => Triple.assume fun hslots => ?_)
  · rw [ho]
    refine (OwesLists.step (hnone.2 H) hnone.1).post fun _ w hw => ⟨H, U, hw, fun q => ?_⟩
    have habsent : address ∉ F p := by
      rw [← hF p]
      simpa using hnot
    rw [hF q, without, Multiset.erase_of_notMem habsent, Function.update_eq_self]
  · rw [ho]
    refine (hsome H _ m).post fun _ w hw => ⟨H, _, hw, fun q => ?_⟩
    rcases eq_or_ne q p with rfl | hq
    · rw [Function.update_self, without, Function.update_self, ← hF q, hslots,
        Multiset.map_cons, hm, Multiset.erase_cons_head]
    · rw [Function.update_of_ne hq, without, Function.update_of_ne hq, hF q]

namespace ChunkSender

theorem send_owned (hE : E .blocked) (s : S) (chunkHeader patience : Nat) :
    Triple E (Owned Γ F) (send s chunkHeader patience : Exec S R Nat)
      fun _ => Owned Γ (without F (.inl s) chunkHeader) :=
  owned_removed (fun _ _ => getChunkReadyForSend_lists s chunkHeader)
    ⟨KeepsLists.pure _, fun _ => Triple.pure fun _ hw => hw⟩
    fun _ _ _ => deliver_lists hE s patience

theorem pushToHistory_owned (s : S) (chunkHeader : Nat) :
    Triple E (Owned Γ F) (pushToHistory s chunkHeader : Exec S R PUnit)
      fun _ => Owned Γ (without F (.inl s) chunkHeader) :=
  owned_removed (fun _ _ => getChunkReadyForSend_lists s chunkHeader)
    ⟨KeepsLists.pure _, fun _ => Triple.pure fun _ hw => hw⟩
    fun _ _ _ => store_lists s

end ChunkSender

namespace ChunkReceiver

end ChunkReceiver

end Iceoryx.Popo
