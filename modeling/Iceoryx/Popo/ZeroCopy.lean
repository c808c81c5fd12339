import Iceoryx.Mepoo.Configuration
import Iceoryx.Popo.Accounting

namespace Iceoryx.Popo

open Mepoo Lib

structure ChunkSenderOptions where
  maxChunksAllocatedSimultaneously : Nat
  maxQueues : Nat
  maxHistoryCapacity : Nat
  historyCapacity : Nat
  consumerTooSlowPolicy : ConsumerTooSlowPolicy
  deriving DecidableEq, Repr

structure ChunkReceiverOptions where
  uniqueId : Nat
  queueType : VariantQueueTypes
  queueCapacity : Nat
  queueFullPolicy : QueueFullPolicy
  maxChunksHeldSimultaneously : Nat
  deriving DecidableEq, Repr

variable {S R : Type}

def ChunkSenderData.create (o : ChunkSenderOptions) : ChunkSenderData R where
  historyCapacity := min o.historyCapacity o.maxHistoryCapacity
  maxQueues := o.maxQueues
  queues := []
  history := []
  consumerTooSlowPolicy := o.consumerTooSlowPolicy
  chunksInUse := UsedChunkList.init o.maxChunksAllocatedSimultaneously
  sequenceNumber := 0
  lastChunkUnmanaged := none

/-- The list of a receiver has room for one chunk more than the user may hold. -/
def ChunkReceiverData.create (o : ChunkReceiverOptions) : ChunkReceiverData where
  uniqueId := o.uniqueId
  queue := { type := o.queueType, capacity := o.queueCapacity, elements := [] }
  queueHasLostChunks := false
  queueFullPolicy := o.queueFullPolicy
  chunksInUse := UsedChunkList.init (o.maxChunksHeldSimultaneously + 1)

inductive Op (S R : Type)
  | tryAllocate (s : S) (originId userPayloadSize userPayloadAlignment userHeaderSize
      userHeaderAlignment : Nat)
  | release (s : S) (chunkHeader : Nat)
  | send (s : S) (chunkHeader : Nat)
  | sendToQueue (s : S) (chunkHeader uniqueQueueId lastKnownQueueIndex : Nat)
  | pushToHistory (s : S) (chunkHeader : Nat)
  | releaseAll (s : S)
  | tryAddQueue (s : S) (queueToAdd : R) (requestedHistory : Nat)
  | tryRemoveQueue (s : S) (queueToRemove : R)
  | removeAllQueues (s : S)
  | clearHistory (s : S)
  | tryGet (r : R)
  | receiverRelease (r : R) (chunkHeader : Nat)
  | clear (r : R)
  | receiverReleaseAll (r : R)
  deriving DecidableEq, Repr

namespace World

def start (mm : MemoryManager) (senders : S → ChunkSenderOptions)
    (receivers : R → ChunkReceiverOptions) : World S R where
  memory := mm
  senders := fun s => ChunkSenderData.create (senders s)
  receivers := fun r => ChunkReceiverData.create (receivers r)

variable [DecidableEq S] [LinearOrder R]

/-- One operation; a blocking delivery is retried at most `patience` times. -/
def exec (patience : Nat) : Op S R → Exec S R Unit
  | .tryAllocate s originId userPayloadSize userPayloadAlignment userHeaderSize
      userHeaderAlignment => do
    let _ ← ChunkSender.tryAllocate s originId userPayloadSize userPayloadAlignment
      userHeaderSize userHeaderAlignment
  | .release s chunkHeader => ChunkSender.release s chunkHeader
  | .send s chunkHeader => do
    let _ ← ChunkSender.send s chunkHeader patience
  | .sendToQueue s chunkHeader uniqueQueueId lastKnownQueueIndex => do
    let _ ← ChunkSender.sendToQueue s chunkHeader uniqueQueueId lastKnownQueueIndex patience
  | .pushToHistory s chunkHeader => ChunkSender.pushToHistory s chunkHeader
  | .releaseAll s => ChunkSender.releaseAll s
  | .tryAddQueue s queueToAdd requestedHistory => do
    let _ ← ChunkDistributor.tryAddQueue s queueToAdd requestedHistory
  | .tryRemoveQueue s queueToRemove => do
    let _ ← ChunkDistributor.tryRemoveQueue s queueToRemove
  | .removeAllQueues s => ChunkDistributor.removeAllQueues s
  | .clearHistory s => ChunkDistributor.clearHistory s
  | .tryGet r => do
    let _ ← ChunkReceiver.tryGet r
  | .receiverRelease r chunkHeader => ChunkReceiver.release r chunkHeader
  | .clear r => ChunkReceiver.clear r
  | .receiverReleaseAll r => ChunkReceiver.releaseAll r

def run (patience : Nat) (ops : List (Op S R)) : Exec S R PUnit := ops.forM (exec patience)

def advance (patience : Nat) (w : World S R) (op : Op S R) : Option (World S R) :=
  (exec patience op w).toOption.map Prod.snd

omit [DecidableEq S] [LinearOrder R] in
/-- No operation takes a chunk or a block from beyond 4 GiB in its pool. -/
def Within (w : World S R) : Op S R → Prop
  | .tryAllocate s _ userPayloadSize userPayloadAlignment userHeaderSize userHeaderAlignment =>
    ChunkSender.AllocatesWithin s userPayloadSize userPayloadAlignment userHeaderSize
      userHeaderAlignment w
  | _ => True

instance (w : World S R) (op : Op S R) : Decidable (w.Within op) := by
  cases op <;> unfold Within <;> infer_instance

variable [Fintype S] [Fintype R]

/-- Nobody but the running operations holds references outside the data. -/
def Settled (w : World S R) : Prop := ∃ Γ H, Owes Γ H 0 w

def SettledWith (Γ : List (Nat × Nat)) (w : World S R) : Prop := ∃ H, Owes Γ H 0 w

variable {Γ : List (Nat × Nat)}

omit [DecidableEq S] [LinearOrder R] in
theorem settled_of_owes {T : Type} {E : Halt → Prop} {x : Exec S R T}
    {C : World S R → Prop} (h : ∀ H, Triple E (Owes Γ H 0) x fun _ => Owes Γ H 0) :
    Triple E (fun w => SettledWith Γ w ∧ C w) x fun _ => SettledWith Γ :=
  Triple.pre (Triple.exists fun H => (h H).post fun _ _ hw => ⟨H, hw⟩) fun _ hw => hw.1

omit [DecidableEq S] [LinearOrder R] in
theorem settled_of_books {T : Type} {E : Halt → Prop} {x : Exec S R T}
    {C : World S R → Prop} (h : ∀ A B H, Triple E (Books Γ A B H 0) x fun _ => SettledWith Γ) :
    Triple E (fun w => SettledWith Γ w ∧ C w) x fun _ => SettledWith Γ :=
  Triple.pre (Triple.exists fun H => Triple.exists fun A => Triple.exists fun B => h A B H)
    fun _ hw => hw.1

theorem exec_triple {E : Halt → Prop} (hE : E .blocked) (patience : Nat) (op : Op S R) :
    Triple E (fun w => SettledWith Γ w ∧ w.Within op) (exec patience op)
      fun _ => SettledWith Γ := by
  have hquiet : ∀ {T : Type} {P : World S R → Prop} {x : Exec S R T},
      Triple E P x (fun _ => SettledWith Γ) →
      Triple E P (do let _ ← x) fun _ => SettledWith Γ :=
    fun hx => Triple.bind hx fun _ => Triple.pure fun w hw => hw
  cases op with
  | tryAllocate s originId size alignment headerSize headerAlignment =>
    rintro w ⟨⟨H, A, B, hw⟩, hwithin⟩
    refine Triple.bind (ChunkSender.tryAllocate_triple s originId size alignment headerSize
      headerAlignment) (fun _ => Triple.pure fun w hw => ?_) w ⟨hw, hwithin⟩
    obtain ⟨H', A', hbooks, _⟩ := hw
    exact ⟨H', A', B, hbooks⟩
  | release s chunkHeader =>
    exact settled_of_owes fun H => ChunkSender.release_triple s chunkHeader
  | send s chunkHeader =>
    exact hquiet (settled_of_owes fun H => ChunkSender.send_triple hE s chunkHeader patience)
  | sendToQueue s chunkHeader uniqueQueueId lastKnownQueueIndex =>
    exact hquiet (settled_of_owes fun H => ChunkSender.sendToQueue_triple hE s chunkHeader
      uniqueQueueId lastKnownQueueIndex patience)
  | pushToHistory s chunkHeader =>
    exact settled_of_owes fun H => ChunkSender.pushToHistory_triple s chunkHeader
  | releaseAll s =>
    refine settled_of_books fun A B H => (ChunkSender.releaseAll_triple s).post fun _ w hw => ?_
    obtain ⟨d, _, hbooks⟩ := hw
    exact ⟨H, _, _, hbooks⟩
  | tryAddQueue s queueToAdd requestedHistory =>
    exact hquiet (settled_of_owes fun H =>
      ChunkDistributor.tryAddQueue_triple hE s queueToAdd requestedHistory)
  | tryRemoveQueue s queueToRemove =>
    exact hquiet (settled_of_owes fun H => ChunkDistributor.tryRemoveQueue_triple s queueToRemove)
  | removeAllQueues s =>
    exact settled_of_owes fun H => ChunkDistributor.removeAllQueues_triple s
  | clearHistory s =>
    exact settled_of_books fun A B H =>
      (ChunkDistributor.clearHistory_triple s).post fun _ w hw => ⟨H, _, _, hw⟩
  | tryGet r => exact hquiet (settled_of_owes fun H => ChunkReceiver.tryGet_triple r)
  | receiverRelease r chunkHeader =>
    exact settled_of_owes fun H => ChunkReceiver.release_triple r chunkHeader
  | clear r =>
    exact settled_of_books fun A B H =>
      (ChunkReceiver.clear_triple r).post fun _ w hw => ⟨H, _, _, hw⟩
  | receiverReleaseAll r =>
    refine settled_of_books fun A B H => (ChunkReceiver.releaseAll_triple r).post fun _ w hw => ?_
    obtain ⟨d, _, hbooks⟩ := hw
    exact ⟨H, _, _, hbooks⟩

theorem run_triple {E : Halt → Prop} (hE : E .blocked) (patience : Nat) (ops : List (Op S R)) :
    Triple E (fun w => SettledWith Γ w ∧ Meets (advance patience) Within w ops) (run patience ops)
      fun _ => SettledWith Γ :=
  Triple.forM_meets (exec_triple hE patience) ops

section Start

variable {mePooConfig : MePooConfig} {management chunks : Nat}
  {allocators allocators' : Nat → Hoofs.Allocator} {mm : MemoryManager}

omit [DecidableEq S] [LinearOrder R] in
theorem start_settled
    (h : MemoryManager.configureMemoryManager mePooConfig management chunks allocators =
      some (mm, allocators'))
    (hcounts : mePooConfig.totalNumberOfChunks < Hoofs.uint32Range)
    (senders : S → ChunkSenderOptions) (receivers : R → ChunkReceiverOptions) :
    (start mm senders receivers).SettledWith mm.shape := by
  refine ⟨fun _ => 0, _, _, rfl, rfl, ?_, ?_, ?_, rfl⟩
  · exact fun s => UsedChunkList.init_ok _
  · exact fun r => UsedChunkList.init_ok _
  · have hempty : slots (start mm senders receivers).senders (start mm senders receivers).receivers
        = 0 := by
      simp [slots, start, ChunkSenderData.create, ChunkReceiverData.create, ChunkSenderData.slots,
        ChunkReceiverData.slots, UsedChunkList.init_slots]
    rw [hempty]
    exact MemoryManager.configureMemoryManager_ledger h hcounts

omit [DecidableEq S] [LinearOrder R] in
theorem SettledWith.within {w : World S R} (h : w.SettledWith Γ)
    (hfits : ∀ size ∈ Γ, MemPool.Fits size.1 size.2) (op : Op S R) : w.Within op := by
  obtain ⟨H, A, B, hw⟩ := h
  cases op with
  | tryAllocate s originId size alignment headerSize headerAlignment =>
    exact ChunkSender.allocatesWithin_of_fits s size alignment headerSize headerAlignment hw hfits
  | _ => trivial

theorem meets_within_of_fits
    (h : MemoryManager.configureMemoryManager mePooConfig management chunks allocators =
      some (mm, allocators'))
    (hfits : mePooConfig.Fits) (senders : S → ChunkSenderOptions)
    (receivers : R → ChunkReceiverOptions) (patience : Nat) (ops : List (Op S R)) :
    Meets (advance patience) Within (start mm senders receivers) ops := by
  have hshape := MemoryManager.configureMemoryManager_fits h hfits
  refine meets_of_invariant (I := SettledWith mm.shape) (fun w op hw => hw.within hshape op) ?_
    ops _ (start_settled h hfits.totalNumberOfChunks_lt senders receivers)
  intro w op w' hw hstep
  obtain ⟨⟨u, w''⟩, hexec, rfl⟩ := Option.map_eq_some_iff.mp hstep
  exact (exec_triple (E := fun _ => True) trivial patience op).of_ok ⟨hw, hw.within hshape op⟩
    (eq_ok_of_toOption hexec)

end Start

structure ReferencesAccounted (w : World S R) : Prop where
  counter : ∀ m, (w.memory.blocks m).referenceCounter = (slots w.senders w.receivers).count m
  named : ∀ m ∈ slots w.senders w.receivers, m ∈ w.memory.chunkManagementPool.span ∧
    ∃ p ∈ w.memory.memPoolVector, (w.memory.blocks m).chunkHeader ∈ p.span
  block : ∀ i < w.memory.chunkManagementPool.numberOfChunks,
    i ∈ w.memory.chunkManagementPool.free ↔
      w.memory.chunkManagementPool.chunkAt i ∉ slots w.senders w.receivers
  chunk : ∀ p ∈ w.memory.memPoolVector, ∀ i < p.numberOfChunks,
    i ∈ p.free ↔
      ∀ m ∈ slots w.senders w.receivers, (w.memory.blocks m).chunkHeader ≠ p.chunkAt i

omit [DecidableEq S] [LinearOrder R] in
theorem Settled.accounted {w : World S R} (h : w.Settled) : w.ReferencesAccounted := by
  obtain ⟨Γ, H, A, B, hw⟩ := h
  obtain rfl := hw.senders
  obtain rfl := hw.receivers
  have hledger := hw.ledger
  rw [zero_add] at hledger
  refine ⟨hledger.counter, ?_, ?_, ?_⟩
  · intro m hm
    obtain ⟨p, hp, hout⟩ := hledger.owner m hm
    rw [hledger.header m hm]
    exact ⟨MemPool.out_subset_span ((hledger.block m).mp hm), p, List.mem_of_getElem? hp,
      MemPool.out_subset_span hout⟩
  · intro i hi
    rw [hledger.management.mem_free_iff hi, hledger.block]
  · intro p hp i hi
    rw [(hledger.pool p hp).mem_free_iff hi, hledger.mem_out_iff hp ⟨i, hi, rfl⟩]
    simp

def releaseEverything (patience : Nat) (order : List (S ⊕ R)) : Exec S R PUnit :=
  run patience (order.map (Sum.elim Op.releaseAll Op.receiverReleaseAll))

/-- Only those that are still to come have references. -/
def Draining (order : List (S ⊕ R)) (w : World S R) : Prop :=
  ∃ Γ H A B, Books Γ A B H 0 w ∧ (∀ s, Sum.inl s ∉ order → (A s).slots = 0) ∧
    ∀ r, Sum.inr r ∉ order → (B r).slots = 0

theorem releaseEverything_triple {E : Halt → Prop} (patience : Nat) :
    ∀ order : List (S ⊕ R),
      Triple E (Draining order) (releaseEverything patience order) fun _ => Draining [] := by
  intro order
  induction order with
  | nil => exact Triple.pure fun w hw => hw
  | cons x order ih =>
    refine Triple.bind (Triple.exists fun Γ => Triple.exists fun H => Triple.exists fun A =>
      Triple.exists fun B => ?_) fun _ => ih
    rintro w ⟨hw, hA, hB⟩
    cases x with
    | inl s =>
      refine (ChunkSender.releaseAll_triple s w hw).mono fun _ w hw => ?_
      obtain ⟨d, hd, hw⟩ := hw
      refine ⟨Γ, H, _, _, hw, fun t ht => ?_, fun r hr => hB r (by simpa using hr)⟩
      by_cases hts : t = s
      · subst hts
        simpa using hd
      · rw [Function.update_of_ne hts]
        exact hA t (by simp [hts, ht])
    | inr r =>
      refine (ChunkReceiver.releaseAll_triple r w hw).mono fun _ w hw => ?_
      obtain ⟨d, hd, hw⟩ := hw
      refine ⟨Γ, H, _, _, hw, fun s hs => hA s (by simpa using hs), fun t ht => ?_⟩
      by_cases htr : t = r
      · subst htr
        simpa using hd
      · rw [Function.update_of_ne htr]
        exact hB t (by simp [htr, ht])

omit [DecidableEq S] [LinearOrder R] in
theorem Draining.usedChunks {w : World S R} (h : w.Draining []) :
    w.memory.chunkManagementPool.usedChunks = 0 ∧
      ∀ p ∈ w.memory.memPoolVector, p.usedChunks = 0 := by
  obtain ⟨Γ, H, A, B, hw, hA, hB⟩ := h
  have hledger := hw.ledger
  have hempty : slots A B = 0 := by
    simp [slots, hA, hB]
  rw [hempty, add_zero] at hledger
  refine ⟨hledger.management.usedChunks_eq_zero ?_, fun p hp => ?_⟩
  · refine Set.eq_empty_of_forall_notMem fun m hm => ?_
    exact Multiset.notMem_zero m ((hledger.block m).mpr hm)
  · refine (hledger.pool p hp).usedChunks_eq_zero ?_
    refine Set.eq_empty_of_forall_notMem fun a ha => ?_
    obtain ⟨m, hm, _⟩ := (hledger.mem_out_iff hp (MemPool.out_subset_span ha)).mp ha
    exact Multiset.notMem_zero m hm

omit [DecidableEq S] [LinearOrder R] in
theorem Settled.draining {w : World S R} (h : w.Settled) {order : List (S ⊕ R)}
    (hall : ∀ x, x ∈ order) : w.Draining order := by
  obtain ⟨Γ, H, A, B, hw⟩ := h
  exact ⟨Γ, H, A, B, hw, fun s hs => absurd (hall _) hs, fun r hr => absurd (hall _) hr⟩

/-- Along every run that takes no chunk and no block from beyond 4 GiB in its pool. -/
theorem references_accounted {mePooConfig : MePooConfig} {management chunks : Nat}
    {allocators allocators' : Nat → Hoofs.Allocator} {mm : MemoryManager}
    (h : MemoryManager.configureMemoryManager mePooConfig management chunks allocators =
      some (mm, allocators'))
    (hcounts : mePooConfig.totalNumberOfChunks < Hoofs.uint32Range)
    (senders : S → ChunkSenderOptions) (receivers : R → ChunkReceiverOptions) (patience : Nat)
    (ops : List (Op S R))
    (hwithin : Meets (advance patience) Within (start mm senders receivers) ops) :
    (∀ e, run patience ops (start mm senders receivers) = .error e → e = .blocked) ∧
    ∀ w, run patience ops (start mm senders receivers) = .ok (⟨⟩, w) →
      w.ReferencesAccounted ∧
      ∀ order : List (S ⊕ R), (∀ x, x ∈ order) →
        ∃ w', releaseEverything patience order w = .ok (⟨⟩, w') ∧
          w'.memory.chunkManagementPool.usedChunks = 0 ∧
          ∀ p ∈ w'.memory.memPoolVector, p.usedChunks = 0 := by
  have hstart := start_settled h hcounts senders receivers
  have hrun : Triple (fun e => e = .blocked)
      (fun w : World S R => SettledWith mm.shape w ∧ Meets (advance patience) Within w ops)
      (run patience ops) fun _ => SettledWith mm.shape :=
    run_triple (E := fun e => e = .blocked) rfl patience ops
  refine ⟨fun e he => hrun.of_error ⟨hstart, hwithin⟩ he, fun w hw => ?_⟩
  have hsettled : w.Settled := ⟨_, hrun.of_ok ⟨hstart, hwithin⟩ hw⟩
  refine ⟨hsettled.accounted, fun order hall => ?_⟩
  obtain ⟨_, w', hrelease, hempty⟩ :=
    (releaseEverything_triple patience order).returns (hsettled.draining hall)
  exact ⟨w', hrelease, hempty.usedChunks⟩

def exampleMemory (i : Nat) : Hoofs.Allocator where
  startAddress := if i = 0 then 4096 else 2 ^ 40
  length := 2 ^ 40 - 4096
  currentPosition := 0

def exampleSender (_ : Fin 1) : ChunkSenderOptions where
  maxChunksAllocatedSimultaneously := 8
  maxQueues := 4
  maxHistoryCapacity := 16
  historyCapacity := 1
  consumerTooSlowPolicy := .waitForConsumer

def exampleReceiver (_ : Fin 1) : ChunkReceiverOptions where
  uniqueId := 1
  queueType := .soFiSingleProducerSingleConsumer
  queueCapacity := 1
  queueFullPolicy := .discardOldestData
  maxChunksHeldSimultaneously := 2

def smallConfig : MePooConfig where
  mempoolConfig := [{ size := 64, chunkCount := 3 }, { size := 128, chunkCount := 2 }]
  bounded := by decide

def hugeConfig : MePooConfig where
  mempoolConfig := [{ size := 2 ^ 31 - sizeofChunkHeader, chunkCount := 3 }]
  bounded := by decide

def allocate : Op (Fin 1) (Fin 1) := .tryAllocate 0 7 8 8 0 1

def halted {T : Type} : Except Halt T → Option Halt
  | .ok _ => none
  | .error e => some e

theorem halted_eq_some {T : Type} {x : Except Halt T} {e : Halt} (h : halted x = some e) :
    x = .error e := by
  cases x with
  | ok _ => cases h
  | error _ => exact congrArg Except.error (Option.some.inj h)

theorem halted_eq_none {T : Type} {x : Except Halt (PUnit × T)} (h : halted x = none) :
    ∃ w, x = .ok (⟨⟩, w) := by
  cases x with
  | ok r => exact ⟨r.2, rfl⟩
  | error _ => cases h

def belowFourGib : List (Op (Fin 1) (Fin 1)) :=
  [.tryAddQueue 0 0 1, allocate, .send 0 (2 ^ 40), allocate, .tryGet 0]

theorem references_accounted_huge : ∃ mm allocators w,
    MemoryManager.configureMemoryManager hugeConfig 0 1 exampleMemory = some (mm, allocators) ∧
    ¬ hugeConfig.Fits ∧
    Meets (advance 0) Within (start mm exampleSender exampleReceiver) belowFourGib ∧
    run 0 belowFourGib (start mm exampleSender exampleReceiver) = .ok (⟨⟩, w) ∧
    w.ReferencesAccounted := by
  have h : (MemoryManager.configureMemoryManager hugeConfig 0 1 exampleMemory).map (fun r =>
      (decide (Meets (advance 0) Within (start r.1 exampleSender exampleReceiver) belowFourGib),
        halted (run 0 belowFourGib (start r.1 exampleSender exampleReceiver)))) =
      some (true, none) := by
    decide +kernel
  obtain ⟨⟨mm, allocators⟩, hmm, hrun⟩ := Option.map_eq_some_iff.mp h
  obtain ⟨hmeets, hhalted⟩ := Prod.ext_iff.mp hrun
  have hwithin := of_decide_eq_true hmeets
  obtain ⟨w, hw⟩ := halted_eq_none hhalted
  exact ⟨mm, allocators, w, hmm, by decide, hwithin, hw,
    ((references_accounted hmm (by decide) _ _ 0 _ hwithin).2 w hw).1⟩

/-- The third chunk of 2 GiB lies 4 GiB behind the first, at an offset that a
`uint32_t` does not hold: it is handed out at the address of the first. -/
theorem double_free_beyond_four_gib : ∃ mm allocators,
    MemoryManager.configureMemoryManager hugeConfig 0 1 exampleMemory = some (mm, allocators) ∧
    run 0 [allocate, allocate, allocate, .release 0 (2 ^ 40), .release 0 (2 ^ 40)]
      (start mm exampleSender exampleReceiver) = .error .doubleFree := by
  have h : (MemoryManager.configureMemoryManager hugeConfig 0 1 exampleMemory).map (fun r =>
      halted (run 0 [allocate, allocate, allocate, .release 0 (2 ^ 40), .release 0 (2 ^ 40)]
        (start r.1 exampleSender exampleReceiver))) = some (some .doubleFree) := by
    decide +kernel
  obtain ⟨⟨mm, allocators⟩, hmm, hrun⟩ := Option.map_eq_some_iff.mp h
  exact ⟨mm, allocators, hmm, halted_eq_some hrun⟩

/-- The chunk at `chunkHeader` is written by `s` and seen by nobody else: its own
last chunk apart, one entry of its list is all that names it. -/
structure ExclusiveTo (w : World S R) (s : S) (chunkHeader : Nat) : Prop where
  queue : ∀ r, ∀ m ∈ (w.receivers r).queue.elements, (w.memory.blocks m).chunkHeader ≠ chunkHeader
  receiver : ∀ r, ∀ m ∈ (w.receivers r).chunksInUse.slots,
    (w.memory.blocks m).chunkHeader ≠ chunkHeader
  history : ∀ t, ∀ m ∈ (w.senders t).history, (w.memory.blocks m).chunkHeader ≠ chunkHeader
  sender : ∀ t, t ≠ s → ∀ m ∈ (w.senders t).chunksInUse.slots,
    (w.memory.blocks m).chunkHeader ≠ chunkHeader
  lastChunk : ∀ t, t ≠ s → ∀ m ∈ (w.senders t).lastChunkUnmanaged,
    (w.memory.blocks m).chunkHeader ≠ chunkHeader
  once : ((w.senders s).chunksInUse.slots.map
    fun m => (w.memory.blocks m).chunkHeader).count chunkHeader = 1

omit [LinearOrder R] in
theorem Granted.exclusive {A : S → ChunkSenderData R} {B : R → ChunkReceiverData} {H : Nat → Nat}
    {s : S} {m : Nat} {w : World S R} (h : Books Γ A B H 0 w) (hm : ChunkSender.Granted A B s m) :
    w.ExclusiveTo s (H m) := by
  obtain rfl := h.senders
  obtain rfl := h.receivers
  have hledger := h.ledger
  rw [zero_add] at hledger
  have hmem : m ∈ slots w.senders w.receivers := by
    refine Multiset.count_pos.mp ?_
    have := hm.2
    omega
  have heq : ∀ x ∈ slots w.senders w.receivers, (w.memory.blocks x).chunkHeader = H m → x = m := by
    intro x hx hxm
    rw [hledger.header x hx] at hxm
    exact hledger.unique x hx m hmem hxm
  have hsender : ∀ t, ∀ x ∈ (w.senders t).slots, x ∈ slots w.senders w.receivers :=
    fun t x hx => mem_slots_sender hx
  have hreceiver : ∀ r, ∀ x ∈ (w.receivers r).slots, (w.memory.blocks x).chunkHeader ≠ H m := by
    intro r x hx hxm
    have hstored : x ∈ slots w.senders w.receivers :=
      Multiset.mem_add.mpr (Or.inr (Multiset.mem_sum.mpr ⟨r, Finset.mem_univ r, hx⟩))
    exact hm.notMem_receiver r (heq x hstored hxm ▸ hx)
  have hother : ∀ t, t ≠ s → ∀ x ∈ (w.senders t).slots,
      (w.memory.blocks x).chunkHeader ≠ H m := by
    intro t hts x hx hxm
    exact hm.notMem_sender hts (heq x (hsender t x hx) hxm ▸ hx)
  have hlist : ∀ t, ∀ x ∈ (w.senders t).chunksInUse.slots, x ∈ (w.senders t).slots :=
    fun t x hx => Multiset.mem_add.mpr (Or.inl (Multiset.mem_add.mpr (Or.inr hx)))
  have hhistory : ∀ t, ∀ x ∈ (w.senders t).history, x ∈ (w.senders t).slots :=
    fun t x hx => Multiset.mem_add.mpr (Or.inl (Multiset.mem_add.mpr (Or.inl hx)))
  refine ⟨?_, ?_, ?_, ?_, ?_, ?_⟩
  · exact fun r x hx => hreceiver r x (Multiset.mem_add.mpr (Or.inl hx))
  · exact fun r x hx => hreceiver r x (Multiset.mem_add.mpr (Or.inr hx))
  · intro t x hx hxm
    by_cases hts : t = s
    · subst hts
      exact hm.notMem_history (heq x (hsender t x (hhistory t x hx)) hxm ▸ hx)
    · exact hother t hts x (hhistory t x hx) hxm
  · exact fun t hts x hx => hother t hts x (hlist t x hx)
  · intro t hts x hx
    refine hother t hts x (Multiset.mem_add.mpr (Or.inr ?_))
    simpa using hx
  · rw [Multiset.count_map, ← hm.1, Multiset.count_eq_card_filter_eq]
    congr 1
    refine Multiset.filter_congr fun x hx => ?_
    constructor
    · intro hxm
      exact (heq x (hsender s x (hlist s x hx)) hxm.symm).symm
    · rintro rfl
      exact (hledger.header m hmem).symm

theorem exclusive_write_access {mePooConfig : MePooConfig} {management chunks : Nat}
    {allocators allocators' : Nat → Hoofs.Allocator} {mm : MemoryManager}
    (h : MemoryManager.configureMemoryManager mePooConfig management chunks allocators =
      some (mm, allocators'))
    (hcounts : mePooConfig.totalNumberOfChunks < Hoofs.uint32Range)
    (senders : S → ChunkSenderOptions) (receivers : R → ChunkReceiverOptions) (patience : Nat)
    (ops : List (Op S R))
    (hwithin : Meets (advance patience) Within (start mm senders receivers) ops)
    (w w' : World S R) (s : S) (originId userPayloadSize userPayloadAlignment userHeaderSize
      userHeaderAlignment chunkHeader : Nat)
    (hrun : run patience ops (start mm senders receivers) = .ok (⟨⟩, w))
    (hnext : ChunkSender.AllocatesWithin s userPayloadSize userPayloadAlignment userHeaderSize
      userHeaderAlignment w)
    (hallocate : ChunkSender.tryAllocate s originId userPayloadSize userPayloadAlignment
      userHeaderSize userHeaderAlignment w = .ok (.ok chunkHeader, w')) :
    w'.ExclusiveTo s chunkHeader := by
  obtain ⟨H, A, B, hw⟩ := (run_triple (E := fun e => e = .blocked) rfl patience ops).of_ok
    ⟨start_settled h hcounts senders receivers, hwithin⟩ hrun
  obtain ⟨H', A', hbooks, hgranted⟩ := (ChunkSender.tryAllocate_triple (E := fun _ => True) s
    originId userPayloadSize userPayloadAlignment userHeaderSize userHeaderAlignment).of_ok
    ⟨hw, hnext⟩ hallocate
  obtain ⟨m, rfl, hm⟩ := hgranted chunkHeader rfl
  exact Granted.exclusive hbooks hm

def allocateAfter (mePooConfig : MePooConfig) (ops : List (Op (Fin 1) (Fin 1))) :
    Option (Nat × Nat × Bool) := do
  let (mm, _) ← MemoryManager.configureMemoryManager mePooConfig 0 1 exampleMemory
  let w₀ := start mm exampleSender exampleReceiver
  let (_, w) ← (run 0 ops w₀).toOption
  let (result, w') ← (ChunkSender.tryAllocate 0 7 8 8 0 1 w).toOption
  let chunkHeader ← result.toOption
  some (chunkHeader, ((w'.senders 0).chunksInUse.slots.map
    fun m => (w'.memory.blocks m).chunkHeader).count chunkHeader,
    Meets (advance 0) Within w₀ ops ∧ ChunkSender.AllocatesWithin 0 8 8 0 1 w)

theorem allocateAfter_eq_some {mePooConfig : MePooConfig} {ops : List (Op (Fin 1) (Fin 1))}
    {chunkHeader n : Nat} {b : Bool}
    (h : allocateAfter mePooConfig ops = some (chunkHeader, n, b)) :
    ∃ mm allocators w w',
      MemoryManager.configureMemoryManager mePooConfig 0 1 exampleMemory = some (mm, allocators) ∧
      run 0 ops (start mm exampleSender exampleReceiver) = .ok (⟨⟩, w) ∧
      ChunkSender.tryAllocate 0 7 8 8 0 1 w = .ok (.ok chunkHeader, w') ∧
      ((w'.senders 0).chunksInUse.slots.map
        fun m => (w'.memory.blocks m).chunkHeader).count chunkHeader = n ∧
      (b = true → Meets (advance 0) Within (start mm exampleSender exampleReceiver) ops ∧
        ChunkSender.AllocatesWithin 0 8 8 0 1 w) := by
  obtain ⟨⟨mm, allocators⟩, hmm, h⟩ := Option.bind_eq_some_iff.mp h
  obtain ⟨⟨_, w⟩, hrun, h⟩ := Option.bind_eq_some_iff.mp h
  obtain ⟨⟨result, w'⟩, hallocate, h⟩ := Option.bind_eq_some_iff.mp h
  obtain ⟨_, hresult, h⟩ := Option.bind_eq_some_iff.mp h
  cases h
  obtain rfl := eq_ok_of_toOption hresult
  exact ⟨mm, allocators, w, w', hmm, eq_ok_of_toOption hrun,
    eq_ok_of_toOption hallocate, rfl, of_decide_eq_true⟩

theorem exclusive_write_access_second : ∃ mm allocators w w',
    MemoryManager.configureMemoryManager hugeConfig 0 1 exampleMemory = some (mm, allocators) ∧
    run 0 [allocate, .send 0 (2 ^ 40), .clearHistory 0, allocate]
      (start mm exampleSender exampleReceiver) = .ok (⟨⟩, w) ∧
    ChunkSender.tryAllocate 0 7 8 8 0 1 w = .ok (.ok (2 ^ 40 + 2 ^ 31), w') ∧
    w'.ExclusiveTo 0 (2 ^ 40 + 2 ^ 31) := by
  have h : allocateAfter hugeConfig [allocate, .send 0 (2 ^ 40), .clearHistory 0, allocate] =
      some (2 ^ 40 + 2 ^ 31, 1, true) := by decide +kernel
  obtain ⟨mm, allocators, w, w', hmm, hrun, hallocate, -, hwithin⟩ := allocateAfter_eq_some h
  obtain ⟨hmeets, hnext⟩ := hwithin rfl
  exact ⟨mm, allocators, w, w', hmm, hrun, hallocate,
    exclusive_write_access hmm (by decide) _ _ 0 _ hmeets w w' 0
    7 8 8 0 1 _ hrun hnext hallocate⟩

theorem chunk_handed_out_twice : ∃ mm allocators w w',
    MemoryManager.configureMemoryManager hugeConfig 0 1 exampleMemory = some (mm, allocators) ∧
    run 0 [allocate, allocate] (start mm exampleSender exampleReceiver) = .ok (⟨⟩, w) ∧
    ChunkSender.tryAllocate 0 7 8 8 0 1 w = .ok (.ok (2 ^ 40), w') ∧
    ¬ w'.ExclusiveTo 0 (2 ^ 40) := by
  have h : allocateAfter hugeConfig [allocate, allocate] = some (2 ^ 40, 2, false) := by
    decide +kernel
  obtain ⟨mm, allocators, w, w', hmm, hrun, hallocate, hcount, -⟩ := allocateAfter_eq_some h
  refine ⟨mm, allocators, w, w', hmm, hrun, hallocate, fun hexclusive => ?_⟩
  have := hexclusive.once
  omega

end World

end Iceoryx.Popo
