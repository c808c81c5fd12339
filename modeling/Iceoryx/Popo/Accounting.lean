import Mathlib.Algebra.Order.BigOperators.Group.Finset
import Mathlib.Tactic.Abel
import Iceoryx.Popo.ChunkSender

namespace Iceoryx.Popo

open Mepoo Lib Exec

variable {S R : Type} [DecidableEq S] [Fintype S] [Fintype R] {E : Halt → Prop}
  {Γ : List (Nat × Nat)} {A : S → ChunkSenderData R} {B : R → ChunkReceiverData} {H : Nat → Nat}
  {L : Multiset Nat} {m : Nat}

omit [DecidableEq S] in
theorem modifyHeader_triple (m : Nat) (f : ChunkHeader → ChunkHeader) :
    Triple E (Books Γ A B H L) (modifyHeader m f) fun _ => Books Γ A B H L := by
  intro w hw
  exact hw.withMemory hw.shape (hw.ledger.writeHeader _ _)

omit [DecidableEq S] in
theorem insert_books {l : UsedChunkList} (hl : l.Ok) :
    Triple E (Books Γ A B H (m ::ₘ L)) (onMemory (l.insert m)) fun r w =>
      (r.1 = true ∧ r.2.Ok ∧ r.2.slots = m ::ₘ l.slots ∧ Books Γ A B H (m ::ₘ L) w) ∨
      (r = (false, l) ∧ Books Γ A B H L w) := by
  have hinsert := (UsedChunkList.insert_triple (E := E) (H := H) hl m).pre
    fun mm (hmm : MemoryManager.Ledger H (m ::ₘ L + slots A B) mm) => by
      rw [Multiset.cons_add] at hmm
      exact hmm
  refine Books.onMemory (l.keepsShape_insert m) hinsert fun r mm w hw hshape h => ?_
  rcases h with ⟨hin, hok, hslots, hmm⟩ | ⟨hfull, hmm⟩
  · exact Or.inl ⟨hin, hok, hslots, hw.withMemory hshape (by rwa [Multiset.cons_add])⟩
  · exact Or.inr ⟨hfull, hw.withMemory hshape hmm⟩

omit [DecidableEq S] in
theorem remove_books {l : UsedChunkList} (hl : l.Ok) (chunkHeader : Nat)
    (hmem : ∀ m ∈ l.slots, m ∈ slots A B) :
    Triple E (Books Γ A B H L) (onMemory (l.remove chunkHeader)) fun r w =>
      (r = (none, l) ∧ (∀ m ∈ l.slots, H m ≠ chunkHeader) ∧ Books Γ A B H L w) ∨
      ∃ m, r.1 = some m ∧ H m = chunkHeader ∧ r.2.Ok ∧ l.slots = m ::ₘ r.2.slots ∧
        Books Γ A B H L w := by
  have hrefs : ∀ m ∈ l.slots, m ∈ L + slots A B :=
    fun m hm => Multiset.mem_add.mpr (Or.inr (hmem m hm))
  refine Books.onMemory (l.keepsShape_remove chunkHeader)
    (UsedChunkList.remove_triple hl chunkHeader hrefs) fun r mm w hw hshape h => ?_
  obtain ⟨hmm, ⟨hnone, hne⟩ | ⟨m, hsome, hheader, hok, hslots⟩⟩ := h
  · exact Or.inl ⟨hnone, hne, hw.withMemory hshape hmm⟩
  · exact Or.inr ⟨m, hsome, hheader, hok, hslots, hw.withMemory hshape hmm⟩

namespace ChunkSender

theorem insertChunk_triple (s : S) :
    Triple E (Books Γ A B H (m ::ₘ L)) (insertChunk s m : Exec S R Bool) fun inserted w =>
      (inserted = true ∧ ∃ l, l.slots = m ::ₘ (A s).chunksInUse.slots ∧
        Books Γ (Function.update A s { A s with chunksInUse := l }) B H L w) ∨
      (inserted = false ∧ Books Γ A B H L w) := by
  refine sender_bind (Books.lists fun hok _ => Triple.bind (insert_books (hok s)) fun p => ?_)
  obtain ⟨inserted, l⟩ := p
  refine Triple.or ?_ ?_
  · refine Triple.assume fun hin => Triple.assume fun hl => Triple.assume fun hslots => ?_
    have heq : L + { A s with chunksInUse := l }.slots = m ::ₘ L + (A s).slots := by
      simp only at hslots
      simp only [ChunkSenderData.slots, hslots, Multiset.add_cons, Multiset.cons_add]
    refine Triple.bind (setSender_triple hl heq) fun _ => Triple.pure fun w hw => ?_
    exact Or.inl ⟨hin, l, hslots, hw⟩
  · refine Triple.assume fun hfull => ?_
    cases hfull
    refine Triple.bind (setSender_self s) fun _ => Triple.pure fun w hw => ?_
    exact Or.inr ⟨rfl, hw⟩

theorem removeChunk_books (s : S) (chunkHeader : Nat) :
    Triple E (Books Γ A B H L) (removeChunk s chunkHeader : Exec S R (Option Nat)) fun chunk w =>
      (chunk = none ∧ (∀ m ∈ (A s).chunksInUse.slots, H m ≠ chunkHeader) ∧ Books Γ A B H L w) ∨
      ∃ m l, chunk = some m ∧ H m = chunkHeader ∧ (A s).chunksInUse.slots = m ::ₘ l.slots ∧
        Books Γ (Function.update A s { A s with chunksInUse := l }) B H (m ::ₘ L) w := by
  have hmem : ∀ m ∈ (A s).chunksInUse.slots, m ∈ slots A B := by
    intro m hm
    refine mem_slots_sender (s := s) ?_
    exact Multiset.mem_add.mpr (Or.inl (Multiset.mem_add.mpr (Or.inr hm)))
  refine sender_bind (Books.lists fun hok _ =>
    Triple.bind (remove_books (hok s) chunkHeader hmem) fun p => ?_)
  obtain ⟨chunk, l⟩ := p
  refine Triple.or ?_ (Triple.exists fun m => ?_)
  · refine Triple.assume fun hnone => Triple.assume fun hne => ?_
    cases hnone
    refine Triple.bind (setSender_self s) fun _ => Triple.pure fun w hw => ?_
    exact Or.inl ⟨rfl, hne, hw⟩
  · refine Triple.assume fun hsome => Triple.assume fun hheader => Triple.assume fun hl =>
      Triple.assume fun hslots => ?_
    simp only at hsome hl hslots
    subst hsome
    have heq : m ::ₘ L + { A s with chunksInUse := l }.slots = L + (A s).slots := by
      simp only [ChunkSenderData.slots, hslots, Multiset.add_cons, Multiset.cons_add]
    refine Triple.bind (setSender_triple hl heq) fun _ => Triple.pure fun w hw => ?_
    exact Or.inr ⟨m, l, rfl, hheader, hslots, hw⟩

theorem removeChunk_triple (s : S) (chunkHeader : Nat) :
    Triple E (Books Γ A B H L) (removeChunk s chunkHeader : Exec S R (Option Nat)) fun chunk =>
      Owes Γ H (chunk.toList + L) := by
  refine (removeChunk_books s chunkHeader).post fun chunk w hw => ?_
  obtain ⟨rfl, -, hw⟩ | ⟨m, l, rfl, -, -, hw⟩ := hw
  · exact ⟨_, _, by simpa using hw⟩
  · exact ⟨_, _, by simpa using hw⟩

/-- Nothing but one entry of the list of `s`, and perhaps its last chunk, names
the block `m`. -/
def Granted (A : S → ChunkSenderData R) (B : R → ChunkReceiverData) (s : S) (m : Nat) : Prop :=
  (A s).chunksInUse.slots.count m = 1 ∧
  (slots A B).count m = 1 + (A s).lastChunkUnmanaged.toList.count m

omit [DecidableEq S] in
theorem count_sender_le (s : S) (m : Nat) : (A s).slots.count m ≤ (slots A B).count m := by
  refine Multiset.count_le_of_le m ?_
  refine le_trans ?_ (Multiset.le_add_right _ _)
  exact Finset.single_le_sum (f := fun s => (A s).slots) (fun _ _ => Multiset.zero_le _)
    (Finset.mem_univ s)

omit [DecidableEq S] in
theorem Granted.notMem_history {s : S} (h : Granted A B s m) : m ∉ (A s).history := by
  have hle := count_sender_le (A := A) (B := B) s m
  obtain ⟨hlist, htotal⟩ := h
  simp only [ChunkSenderData.slots, Multiset.count_add, Multiset.coe_count] at hle htotal
  exact List.count_eq_zero.mp (by omega)

omit [DecidableEq S] in
theorem Granted.notMem_of_le {s : S} {others : Multiset Nat} (h : Granted A B s m)
    (hle : others + (A s).slots ≤ slots A B) : m ∉ others := by
  have hcount := Multiset.count_le_of_le m hle
  obtain ⟨hlist, htotal⟩ := h
  simp only [ChunkSenderData.slots, Multiset.count_add, Multiset.coe_count] at hcount htotal
  exact Multiset.count_eq_zero.mp (by omega)

theorem Granted.notMem_sender {s t : S} (h : Granted A B s m) (hts : t ≠ s) :
    m ∉ (A t).slots := by
  apply h.notMem_of_le
  refine le_trans ?_ (Multiset.le_add_right _ _)
  rw [← Finset.sum_erase_add _ _ (Finset.mem_univ s)]
  refine add_le_add_left ?_ _
  exact Finset.single_le_sum (f := fun s => (A s).slots) (fun _ _ => Multiset.zero_le _)
    (Finset.mem_erase.mpr ⟨hts, Finset.mem_univ t⟩)

omit [DecidableEq S] in
theorem Granted.notMem_receiver {s : S} (h : Granted A B s m) (r : R) : m ∉ (B r).slots := by
  apply h.notMem_of_le
  rw [add_comm]
  refine add_le_add ?_ ?_
  · exact Finset.single_le_sum (f := fun s => (A s).slots) (fun _ _ => Multiset.zero_le _)
      (Finset.mem_univ s)
  · exact Finset.single_le_sum (f := fun r => (B r).slots) (fun _ _ => Multiset.zero_le _)
      (Finset.mem_univ r)

theorem Granted.of_insert {l : UsedChunkList} {s : S}
    (hslots : l.slots = m ::ₘ (A s).chunksInUse.slots)
    (hcount : (slots A B).count m = (A s).lastChunkUnmanaged.toList.count m) :
    Granted (Function.update A s { A s with chunksInUse := l }) B s m := by
  have hle := count_sender_le (A := A) (B := B) s m
  have hupdate := congrArg (Multiset.count m)
    (slots_update_sender (A := A) (B := B) s { A s with chunksInUse := l })
  simp only [ChunkSenderData.slots, hslots, Multiset.count_add, Multiset.count_cons_self,
    Multiset.coe_count] at hle hupdate
  constructor
  · simp only [Function.update_self, hslots, Multiset.count_cons_self]
    omega
  · simp only [Function.update_self]
    omega

def AllocatedBy (Γ : List (Nat × Nat)) (B : R → ChunkReceiverData) (s : S)
    (result : Except AllocationError Nat) (w : World S R) : Prop :=
  ∃ H A, Books Γ A B H 0 w ∧ ∀ address, result = .ok address → ∃ m, H m = address ∧ Granted A B s m

theorem reuseLastChunk_triple {chunkSettings : ChunkSettings} {chunkSize : Nat} {s : S}
    (hs : chunkSettings.WellFormed) (hsize : chunkSettings.requiredChunkSize ≤ chunkSize)
    (hlast : (A s).lastChunkUnmanaged = some m) (hcount : (slots A B).count m = 1) :
    Triple E (Books Γ A B H 0) (reuseLastChunk s m (H m) chunkSize chunkSettings : Exec S R _)
      (AllocatedBy Γ B s) := by
  have hm : m ∈ slots A B := Multiset.count_pos.mp (by omega)
  refine Triple.bind (copy_triple (by simpa using hm)) fun _ =>
    Triple.bind (copy_triple (by simp)) fun _ => Triple.bind (insertChunk_triple s) fun b => ?_
  refine Triple.or (Triple.assume fun hin => Triple.exists fun l => Triple.assume fun hslots => ?_)
    (Triple.assume fun hfull => ?_)
  · rw [if_pos hin]
    refine Books.aligned (m := m) (by simp) fun haligned => ?_
    obtain ⟨header, hheader, _⟩ := ChunkHeader.create_eq_some haligned hs hsize
    rw [hheader]
    refine Triple.bind (writeHeader_triple _ _) fun _ => Triple.bind destroy_triple fun _ =>
      Triple.pure fun w hw => ⟨H, _, hw, fun address h => ⟨m, Except.ok.inj h, ?_⟩⟩
    exact Granted.of_insert hslots (by simp [hcount, hlast])
  · rw [hfull]
    refine Triple.bind destroy_triple fun _ => Triple.pure fun w hw => ?_
    exact ⟨H, A, hw, fun address h => by cases h⟩

omit [DecidableEq S] in
theorem getChunk_books {chunkSettings : ChunkSettings} (hs : chunkSettings.WellFormed) :
    Triple E (fun w => Books Γ A B H 0 w ∧ MemoryManager.Within chunkSettings w.memory)
      (onMemory (MemoryManager.getChunk chunkSettings)) fun r w =>
      match r with
      | .error _ => Books Γ A B H 0 w
      | .ok m => ∃ H', m ∉ slots A B ∧ Books Γ A B H' (m ::ₘ 0) w := by
  refine Counts.onMemory_of (MemoryManager.keepsShape_getChunk chunkSettings)
    (MemoryManager.getChunk_triple hs) fun r mm w hw hshape h => ?_
  cases r with
  | error e => exact Books.withMemory hw hshape h
  | ok m =>
    obtain ⟨a, hfresh, _, hmm⟩ := h
    refine ⟨Function.update H m a, by simpa using hfresh, Books.withMemory hw hshape ?_⟩
    rw [Multiset.cons_add]
    exact hmm

theorem allocateNewChunk_triple {chunkSettings : ChunkSettings} (s : S) (originId : Nat)
    (hs : chunkSettings.WellFormed) :
    Triple E (fun w => Books Γ A B H 0 w ∧ MemoryManager.Within chunkSettings w.memory)
      (allocateNewChunk s originId chunkSettings : Exec S R _) (AllocatedBy Γ B s) := by
  refine Triple.bind (getChunk_books hs) fun r => ?_
  cases r with
  | error e => exact Triple.pure fun w hw => ⟨H, A, hw, fun address h => by cases h⟩
  | ok m =>
    refine Triple.exists fun H' => Triple.assume fun hfresh => ?_
    refine Triple.bind (copy_triple (by simp)) fun _ =>
      Triple.bind (insertChunk_triple s) fun b => ?_
    refine Triple.or
      (Triple.assume fun hin => Triple.exists fun l => Triple.assume fun hslots => ?_)
      (Triple.assume fun hfull => ?_)
    · rw [if_pos hin]
      have hlast : (A s).lastChunkUnmanaged.toList.count m = 0 := by
        have := count_sender_le (A := A) (B := B) s m
        rw [Multiset.count_eq_zero.mpr hfresh] at this
        simp only [ChunkSenderData.slots, Multiset.count_add, Multiset.coe_count] at this
        omega
      have hgranted := Granted.of_insert (B := B) hslots
        ((Multiset.count_eq_zero.mpr hfresh).trans hlast.symm)
      generalize Function.update A s { A s with chunksInUse := l } = A' at hgranted ⊢
      refine Triple.bind (modifyHeader_triple m _) fun _ => ?_
      refine Triple.bind (Triple.get (R := fun w₀ w =>
        (w₀.memory.blocks m).chunkHeader = H' m ∧ Books Γ A' B H' (m ::ₘ 0) w)
        fun w hw => ⟨hw.ledger.header m (by simp), hw⟩) fun w₀ => ?_
      refine Triple.assume fun hheader => Triple.bind destroy_triple fun _ =>
        Triple.pure fun w hw => ⟨H', A', hw, fun address h => ⟨m, ?_, hgranted⟩⟩
      exact hheader.symm.trans (Except.ok.inj h)
    · rw [hfull]
      refine Triple.bind destroy_triple fun _ => Triple.pure fun w hw => ?_
      exact ⟨H', A, hw, fun address h => by cases h⟩

omit [DecidableEq S] [Fintype S] [Fintype R] in
theorem lastChunkToReuse_eq_some {w : World S R} {s : S} {requiredChunkSize : Nat}
    (h : lastChunkToReuse w s requiredChunkSize = some m) :
    (w.senders s).lastChunkUnmanaged = some m ∧ (w.memory.blocks m).referenceCounter = 1 ∧
      requiredChunkSize ≤ (w.memory.headers (w.memory.blocks m).chunkHeader).chunkSize := by
  unfold lastChunkToReuse at h
  cases hlast : (w.senders s).lastChunkUnmanaged with
  | none => simp [hlast, isNotLogicalNullptrAndHasNoOtherOwners] at h
  | some x =>
    by_cases hone : (w.memory.blocks x).referenceCounter = 1
    · simp only [hlast, isNotLogicalNullptrAndHasNoOtherOwners, hone, decide_true, if_true,
        Option.filter_eq_some_iff, Option.some.injEq, decide_eq_true_eq] at h
      obtain ⟨rfl, hsize⟩ := h
      exact ⟨rfl, hone, hsize⟩
    · simp [hlast, isNotLogicalNullptrAndHasNoOtherOwners, hone] at h

/-- If `tryAllocate` takes a chunk out of a pool, the chunk and its block lie below 4 GiB in their
pools. -/
def AllocatesWithin (s : S) (userPayloadSize userPayloadAlignment userHeaderSize
    userHeaderAlignment : Nat) (w : World S R) : Prop :=
  match ChunkSettings.create userPayloadSize userPayloadAlignment userHeaderSize
      userHeaderAlignment with
  | .error _ => True
  | .ok chunkSettings => lastChunkToReuse w s chunkSettings.requiredChunkSize = none →
      MemoryManager.Within chunkSettings w.memory

instance (s : S) (userPayloadSize userPayloadAlignment userHeaderSize userHeaderAlignment : Nat)
    (w : World S R) : Decidable (AllocatesWithin s userPayloadSize userPayloadAlignment
      userHeaderSize userHeaderAlignment w) := by
  unfold AllocatesWithin
  split <;> infer_instance

omit [DecidableEq S] in
theorem allocatesWithin_of_fits (s : S) (userPayloadSize userPayloadAlignment userHeaderSize
    userHeaderAlignment : Nat) {w : World S R} (h : Books Γ A B H L w)
    (hfits : ∀ size ∈ Γ, MemPool.Fits size.1 size.2) :
    AllocatesWithin s userPayloadSize userPayloadAlignment userHeaderSize userHeaderAlignment w := by
  unfold AllocatesWithin
  split
  · trivial
  · exact fun _ => h.ledger.within (h.shape ▸ hfits) _

theorem tryAllocate_triple (s : S) (originId userPayloadSize userPayloadAlignment userHeaderSize
    userHeaderAlignment : Nat) :
    Triple E (fun w => Books Γ A B H 0 w ∧ AllocatesWithin s userPayloadSize userPayloadAlignment
        userHeaderSize userHeaderAlignment w)
      (tryAllocate s originId userPayloadSize userPayloadAlignment userHeaderSize
        userHeaderAlignment : Exec S R _) (AllocatedBy Γ B s) := by
  unfold tryAllocate AllocatesWithin
  cases hcreate : ChunkSettings.create userPayloadSize userPayloadAlignment userHeaderSize
      userHeaderAlignment with
  | error e => exact Triple.pure fun w hw => ⟨H, A, hw.1, fun address h => by cases h⟩
  | ok chunkSettings =>
    have hs := ChunkSettings.create_wellFormed hcreate
    refine Triple.bind (Triple.get (R := fun w₀ w => w₀ = w ∧ Books Γ A B H 0 w ∧
      (lastChunkToReuse w s chunkSettings.requiredChunkSize = none →
        MemoryManager.Within chunkSettings w.memory)) fun w hw => ⟨rfl, hw⟩) fun w => ?_
    rintro _ ⟨rfl, hw, hwithin⟩
    cases hreuse : lastChunkToReuse w s chunkSettings.requiredChunkSize with
    | none => exact allocateNewChunk_triple s originId hs w ⟨hw, hwithin hreuse⟩
    | some m =>
      obtain ⟨hlast, hone, hsize⟩ := lastChunkToReuse_eq_some hreuse
      rw [hw.senders] at hlast
      rw [hw.ledger.counter, zero_add] at hone
      have hm : m ∈ 0 + slots A B := by
        rw [zero_add]
        exact Multiset.count_pos.mp (by omega)
      simp only [hw.ledger.header m hm] at hsize ⊢
      exact reuseLastChunk_triple hs hsize hlast hone w hw

theorem release_triple (s : S) (chunkHeader : Nat) :
    Triple E (Owes Γ H L) (release s chunkHeader : Exec S R PUnit) fun _ => Owes Γ H L := by
  refine Triple.exists fun A => Triple.exists fun B => ?_
  refine Triple.bind (removeChunk_triple s chunkHeader) fun chunk => ?_
  refine Triple.exists fun A => Triple.exists fun B => ?_
  exact destroy?_triple.post fun _ w hw => ⟨_, _, hw⟩

theorem getChunkReadyForSend_triple (s : S) (chunkHeader : Nat) :
    Triple E (Owes Γ H L) (getChunkReadyForSend s chunkHeader : Exec S R (Option Nat))
      fun chunk => Owes Γ H (chunk.toList + L) := by
  refine Triple.exists fun A => Triple.exists fun B => ?_
  refine Triple.bind (removeChunk_triple s chunkHeader) fun chunk => ?_
  cases chunk with
  | none => exact Triple.pure fun w hw => hw
  | some m =>
    refine Triple.exists fun A => Triple.exists fun B => sender_bind ?_
    refine Triple.bind (modifyHeader_triple m _) fun _ => Books.lists fun hok _ => ?_
    refine Triple.bind (setSender_triple ?_ ?_) fun _ => Triple.pure fun w hw => ⟨_, _, hw⟩
    · exact hok s
    · rfl

theorem releaseLastChunk_triple (s : S) :
    Triple E (Books Γ A B H L) (releaseLastChunk s : Exec S R PUnit)
      fun _ => Books Γ (Function.update A s { A s with lastChunkUnmanaged := none }) B H L := by
  refine sender_bind ?_
  have heq : (A s).lastChunkUnmanaged.toList + L + { A s with lastChunkUnmanaged := none }.slots =
      L + (A s).slots := by
    simp only [ChunkSenderData.slots, Option.toList_none, Multiset.coe_nil]
    abel
  refine Books.lists fun hok _ => Triple.bind (setSender_triple ?_ heq) fun _ => destroy?_triple
  exact hok s

theorem storeLastChunk_triple (s : S) :
    Triple E (Owes Γ H (m ::ₘ L)) (storeLastChunk s m : Exec S R Unit)
      fun _ => Owes Γ H (m ::ₘ L) := by
  refine Triple.exists fun A => Triple.exists fun B => ?_
  refine Triple.bind (releaseLastChunk_triple s) fun _ =>
    Triple.bind (copy_triple (by simp)) fun _ => sender_bind ?_
  have heq : m ::ₘ L + { A s with lastChunkUnmanaged := some m }.slots = m ::ₘ m ::ₘ L +
      (Function.update A s { A s with lastChunkUnmanaged := none } s).slots := by
    rw [Function.update_self]
    simp only [ChunkSenderData.slots, Option.toList_none, Option.toList_some, Multiset.coe_nil,
      Multiset.coe_singleton, ← Multiset.singleton_add]
    abel
  refine Books.lists fun hok _ => (setSender_triple ?_ ?_).post fun _ w hw => ⟨_, _, hw⟩
  · exact hok s
  · rw [Function.update_self] at heq ⊢
    exact heq

theorem finish_triple {T : Type} (s : S) (result : T) :
    Triple E (Owes Γ H (m ::ₘ L)) (do
      storeLastChunk s m
      destroy m
      pure result : Exec S R T) fun _ => Owes Γ H L := by
  refine Triple.bind (storeLastChunk_triple s) fun _ => ?_
  refine Triple.exists fun A => Triple.exists fun B => ?_
  exact Triple.bind destroy_triple fun _ => Triple.pure fun w hw => ⟨_, _, hw⟩

omit [DecidableEq S] in
theorem copy_owed : Triple E (Owes Γ H (m ::ₘ L)) (copy m : Exec S R PUnit)
    fun _ => Owes Γ H (m ::ₘ m ::ₘ L) := by
  refine Triple.exists fun A => Triple.exists fun B => ?_
  exact (copy_triple (by simp)).post fun _ w hw => ⟨_, _, hw⟩

theorem pushToHistory_triple (s : S) (chunkHeader : Nat) :
    Triple E (Owes Γ H L) (pushToHistory s chunkHeader : Exec S R PUnit) fun _ => Owes Γ H L := by
  refine Triple.bind (getChunkReadyForSend_triple s chunkHeader) fun chunk => ?_
  cases chunk with
  | none => exact Triple.pure fun w hw => by simpa using hw
  | some m =>
    refine Triple.pre (P := Owes Γ H (m ::ₘ L)) ?_ fun w hw => by simpa using hw
    refine Triple.bind copy_owed fun _ =>
      Triple.bind (ChunkDistributor.addToHistoryWithoutDelivery_triple s) fun _ => ?_
    refine Triple.bind (storeLastChunk_triple s) fun _ => ?_
    refine Triple.exists fun A => Triple.exists fun B => ?_
    exact destroy_triple.post fun _ w hw => ⟨_, _, hw⟩

theorem cleanupChunksInUse_triple (s : S) :
    Triple E (Books Γ A B H L) (cleanupChunksInUse s : Exec S R Unit)
      fun _ => Books Γ (Function.update A s
        { A s with chunksInUse := UsedChunkList.init (A s).chunksInUse.capacity }) B H L := by
  generalize hd : ({ A s with chunksInUse := UsedChunkList.init (A s).chunksInUse.capacity } :
    ChunkSenderData R) = d
  refine sender_bind ?_
  have hrefs : L + slots A B = (A s).chunksInUse.slots + (L + slots (Function.update A s d) B) := by
    have heq : (A s).chunksInUse.slots + L + d.slots = L + (A s).slots := by
      rw [← hd]
      simp only [ChunkSenderData.slots, UsedChunkList.init_slots]
      abel
    rw [← add_assoc]
    exact (add_eq_of_transfer (slots_update_sender s d) heq).symm
  have hcleanup : Triple E (MemoryManager.Ledger H (L + slots A B)) (A s).chunksInUse.cleanup _ :=
    hrefs ▸ UsedChunkList.cleanup_triple (A s).chunksInUse
  -- between the two statements the list still shows what was released
  refine Triple.bind (Counts.onMemory (UsedChunkList.keepsShape_cleanup _) hcleanup
    (Q := fun l w => l = _ ∧ Counts Γ A B H _ w) fun l mm w hw hshape h =>
      ⟨h.1, hw.senders, hw.receivers, hw.senderLists, hw.receiverLists, h.2, hshape⟩)
    fun l => Triple.assume fun hl => ?_
  subst hl
  rw [hd]
  exact setSender_counts (hd ▸ UsedChunkList.init_ok _)

theorem releaseAll_triple (s : S) :
    Triple E (Books Γ A B H L) (releaseAll s : Exec S R PUnit) fun _ w =>
      ∃ d, d.slots = 0 ∧ Books Γ (Function.update A s d) B H L w := by
  refine Triple.bind (cleanupChunksInUse_triple s) fun _ =>
    Triple.bind (ChunkDistributor.clearHistory_triple s) fun _ =>
    (releaseLastChunk_triple s).post fun _ w hw => ?_
  rw [Function.update_idem, Function.update_idem] at hw
  refine ⟨_, ?_, hw⟩
  simp [ChunkSenderData.slots]

section Queues

variable [LinearOrder R]

theorem send_triple (hE : E .blocked) (s : S) (chunkHeader patience : Nat) :
    Triple E (Owes Γ H L) (send s chunkHeader patience : Exec S R Nat) fun _ => Owes Γ H L := by
  refine Triple.bind (getChunkReadyForSend_triple s chunkHeader) fun chunk => ?_
  cases chunk with
  | none => exact Triple.pure fun w hw => by simpa using hw
  | some m =>
    refine Triple.pre (P := Owes Γ H (m ::ₘ L)) ?_ fun w hw => by simpa using hw
    exact Triple.bind copy_owed fun _ =>
      Triple.bind (ChunkDistributor.deliverToAllStoredQueues_triple hE s patience) fun n =>
      finish_triple s n

theorem sendToQueue_triple (hE : E .blocked) (s : S)
    (chunkHeader uniqueQueueId lastKnownQueueIndex patience : Nat) :
    Triple E (Owes Γ H L)
      (sendToQueue s chunkHeader uniqueQueueId lastKnownQueueIndex patience : Exec S R Bool)
      fun _ => Owes Γ H L := by
  refine Triple.bind (getChunkReadyForSend_triple s chunkHeader) fun chunk => ?_
  cases chunk with
  | none => exact Triple.pure fun w hw => by simpa using hw
  | some m =>
    refine Triple.pre (P := Owes Γ H (m ::ₘ L)) ?_ fun w hw => by simpa using hw
    exact Triple.bind copy_owed fun _ =>
      Triple.bind (ChunkDistributor.deliverToQueue_triple hE s uniqueQueueId lastKnownQueueIndex
        patience) fun result => finish_triple s result.isOk

end Queues

end ChunkSender

namespace ChunkReceiver

variable [LinearOrder R]

omit [DecidableEq S] in
theorem tryPop_triple (r : R) :
    Triple E (Owes Γ H L) (tryPop r : Exec S R (Option Nat)) fun chunk =>
      Owes Γ H (chunk.toList + L) := by
  refine Triple.exists fun A => Triple.exists fun B => receiver_bind ?_
  cases hpop : (B r).queue.pop with
  | none => exact Triple.pure fun w hw => ⟨_, _, by simpa using hw⟩
  | some result =>
    obtain ⟨m, queue⟩ := result
    have heq : m ::ₘ L + { B r with queue := queue }.slots = L + (B r).slots := by
      simp only [ChunkReceiverData.slots, VariantQueue.pop_elements hpop, ← Multiset.cons_coe,
        Multiset.cons_add, Multiset.add_cons]
    refine Books.lists fun _ hok => Triple.bind (setReceiver_triple ?_ heq) fun _ => ?_
    · exact hok r
    · refine Triple.bind (Triple.get (R := fun _ => Books Γ _ _ H (m ::ₘ L)) fun w hw => hw)
        fun w => ?_
      simp only
      split
      · exact Triple.bind destroy_triple fun _ => Triple.pure fun w hw =>
          ⟨_, _, by simpa using hw⟩
      · exact Triple.bind (copy_triple (by simp)) fun _ => Triple.bind destroy_triple fun _ =>
          Triple.pure fun w hw => ⟨_, _, by simpa using hw⟩

omit [DecidableEq S] in
theorem insertChunk_triple (r : R) :
    Triple E (Owes Γ H (m ::ₘ L)) (insertChunk r m : Exec S R Bool) fun _ => Owes Γ H L := by
  refine Triple.exists fun A => Triple.exists fun B => receiver_bind ?_
  refine Books.lists fun _ hok => Triple.bind (insert_books (hok r)) fun p => ?_
  obtain ⟨inserted, l⟩ := p
  refine Triple.or ?_ ?_
  · refine Triple.assume fun _ => Triple.assume fun hl => Triple.assume fun hslots => ?_
    have heq : L + { B r with chunksInUse := l }.slots = m ::ₘ L + (B r).slots := by
      simp only at hslots
      simp only [ChunkReceiverData.slots, hslots, Multiset.add_cons, Multiset.cons_add]
    exact Triple.bind (setReceiver_triple hl heq) fun _ => Triple.pure fun w hw => ⟨_, _, hw⟩
  · refine Triple.assume fun hfull => ?_
    cases hfull
    exact Triple.bind (setReceiver_self r) fun _ => Triple.pure fun w hw => ⟨_, _, hw⟩

omit [DecidableEq S] in
theorem tryGet_triple (r : R) :
    Triple E (Owes Γ H L) (tryGet r : Exec S R (Except ChunkReceiveResult Nat))
      fun _ => Owes Γ H L := by
  refine Triple.bind (tryPop_triple r) fun chunk => ?_
  cases chunk with
  | none => exact Triple.pure fun w hw => by simpa using hw
  | some m =>
    refine Triple.pre (P := Owes Γ H (m ::ₘ L)) ?_ fun w hw => by simpa using hw
    refine Triple.bind ChunkSender.copy_owed fun _ => Triple.bind ChunkSender.copy_owed fun _ =>
      Triple.bind (insertChunk_triple r) fun inserted => ?_
    refine Triple.bind (Triple.get (R := fun _ => Owes Γ H (m ::ₘ m ::ₘ L)) fun w hw => hw)
      fun w => ?_
    refine Triple.exists fun A => Triple.exists fun B => ?_
    refine Triple.bind destroy_triple fun _ => Triple.bind destroy_triple fun _ => ?_
    cases inserted <;> exact Triple.pure fun w hw => ⟨_, _, hw⟩

omit [DecidableEq S] in
theorem release_triple (r : R) (chunkHeader : Nat) :
    Triple E (Owes Γ H L) (release r chunkHeader : Exec S R PUnit) fun _ => Owes Γ H L := by
  refine Triple.exists fun A => Triple.exists fun B => receiver_bind ?_
  have hmem : ∀ m ∈ (B r).chunksInUse.slots, m ∈ slots A B := by
    intro m hm
    refine Multiset.mem_add.mpr (Or.inr (Multiset.mem_sum.mpr ⟨r, Finset.mem_univ r, ?_⟩))
    exact Multiset.mem_add.mpr (Or.inr hm)
  refine Books.lists fun _ hok => Triple.bind (remove_books (hok r) chunkHeader hmem) fun p => ?_
  obtain ⟨chunk, l⟩ := p
  refine Triple.or ?_ (Triple.exists fun m => ?_)
  · refine Triple.assume fun hnone => Triple.assume fun _ => ?_
    cases hnone
    refine Triple.bind (setReceiver_self r) fun _ => Triple.pure fun w hw => ⟨_, _, hw⟩
  · refine Triple.assume fun hsome => Triple.assume fun _ => Triple.assume fun hl =>
      Triple.assume fun hslots => ?_
    simp only at hsome hl hslots
    subst hsome
    have heq : m ::ₘ L + { B r with chunksInUse := l }.slots = L + (B r).slots := by
      simp only [ChunkReceiverData.slots, hslots, Multiset.add_cons, Multiset.cons_add]
    exact Triple.bind (setReceiver_triple hl heq) fun _ => destroy_triple.post fun _ w hw =>
      ⟨_, _, hw⟩

omit [DecidableEq S] in
theorem clear_triple (r : R) :
    Triple E (Books Γ A B H L) (clear r : Exec S R PUnit) fun _ => Books Γ A (Function.update B r
      { B r with queue := { (B r).queue with elements := [] } }) H L := by
  refine receiver_bind ?_
  have heq : (B r).queue.elements + L +
      { B r with queue := { (B r).queue with elements := [] } }.slots = L + (B r).slots := by
    simp only [ChunkReceiverData.slots, Multiset.coe_nil]
    abel
  refine Books.lists fun _ hok => Triple.bind (setReceiver_triple ?_ heq) fun _ =>
    ChunkDistributor.destroyAll_triple _
  exact hok r

omit [DecidableEq S] in
theorem cleanupChunksInUse_triple (r : R) :
    Triple E (Books Γ A B H L) (cleanupChunksInUse r : Exec S R Unit)
      fun _ => Books Γ A (Function.update B r
        { B r with chunksInUse := UsedChunkList.init (B r).chunksInUse.capacity }) H L := by
  generalize hd : ({ B r with chunksInUse := UsedChunkList.init (B r).chunksInUse.capacity } :
    ChunkReceiverData) = d
  refine receiver_bind ?_
  have hrefs : L + slots A B = (B r).chunksInUse.slots + (L + slots A (Function.update B r d)) := by
    have heq : (B r).chunksInUse.slots + L + d.slots = L + (B r).slots := by
      rw [← hd]
      simp only [ChunkReceiverData.slots, UsedChunkList.init_slots]
      abel
    rw [← add_assoc]
    exact (add_eq_of_transfer (slots_update_receiver r d) heq).symm
  have hcleanup : Triple E (MemoryManager.Ledger H (L + slots A B)) (B r).chunksInUse.cleanup _ :=
    hrefs ▸ UsedChunkList.cleanup_triple (B r).chunksInUse
  refine Triple.bind (Counts.onMemory (UsedChunkList.keepsShape_cleanup _) hcleanup
    (Q := fun l w => l = _ ∧ Counts Γ A B H _ w) fun l mm w hw hshape h =>
      ⟨h.1, hw.senders, hw.receivers, hw.senderLists, hw.receiverLists, h.2, hshape⟩)
    fun l => Triple.assume fun hl => ?_
  subst hl
  rw [hd]
  exact setReceiver_counts (hd ▸ UsedChunkList.init_ok _)

omit [DecidableEq S] in
theorem releaseAll_triple (r : R) :
    Triple E (Books Γ A B H L) (releaseAll r : Exec S R PUnit) fun _ w =>
      ∃ d, d.slots = 0 ∧ Books Γ A (Function.update B r d) H L w := by
  refine Triple.bind (cleanupChunksInUse_triple r) fun _ =>
    (clear_triple r).post fun _ w hw => ?_
  rw [Function.update_idem] at hw
  refine ⟨_, ?_, hw⟩
  simp [ChunkReceiverData.slots]

end ChunkReceiver

end Iceoryx.Popo
