import Iceoryx.Popo.SerialVariantQueue
import Iceoryx.Popo.ZeroCopy

namespace Iceoryx.Popo

open Mepoo Hoofs Lib

namespace VariantQueue

variable {A : Type} (maxCapacity : Nat) (q : VariantQueue A) (newCapacity : Nat)

def toFifo : Fifo A where
  capacity := q.capacity
  elements := q.elements

def discarded : List A :=
  match q.type with
  | .fiFoSingleProducerSingleConsumer | .soFiSingleProducerSingleConsumer => []
  | .fiFoMultiProducerSingleConsumer | .soFiMultiProducerSingleConsumer =>
    if newCapacity > maxCapacity then [] else q.elements.take (q.elements.length - newCapacity)

def setCapacity : Bool × VariantQueue A :=
  match q.type with
  | .fiFoSingleProducerSingleConsumer => (false, q)
  | .soFiSingleProducerSingleConsumer =>
    if q.elements.isEmpty ∧ (newCapacity + 1) % 2 ^ 64 ≤ SerialSoFi.internalSofiSize maxCapacity then
      (true, { q with capacity := newCapacity })
    else (true, q)
  | .fiFoMultiProducerSingleConsumer | .soFiMultiProducerSingleConsumer =>
    if newCapacity > maxCapacity then (false, q)
    else
      (true, { q with
        capacity := newCapacity
        elements := q.elements.drop (q.elements.length - newCapacity) })

def Keeps : Prop :=
  (q.type = .fiFoSingleProducerSingleConsumer ∨ q.type = .soFiSingleProducerSingleConsumer) ∨
    newCapacity > maxCapacity ∨ q.elements.length ≤ newCapacity

theorem discarded_append :
    q.discarded maxCapacity newCapacity ++ (q.setCapacity maxCapacity newCapacity).2.elements =
      q.elements := by
  cases htype : q.type with
  | fiFoSingleProducerSingleConsumer => simp only [discarded, setCapacity, htype, List.nil_append]
  | soFiSingleProducerSingleConsumer =>
    simp only [discarded, setCapacity, htype, List.nil_append]
    split <;> rfl
  | fiFoMultiProducerSingleConsumer =>
    simp only [discarded, setCapacity, htype]
    split
    · rfl
    · exact List.take_append_drop _ _
  | soFiMultiProducerSingleConsumer =>
    simp only [discarded, setCapacity, htype]
    split
    · rfl
    · exact List.take_append_drop _ _

theorem discarded_eq_nil_iff :
    q.discarded maxCapacity newCapacity = [] ↔ q.Keeps maxCapacity newCapacity := by
  have htake : (if newCapacity > maxCapacity then []
      else q.elements.take (q.elements.length - newCapacity)) = [] ↔
        newCapacity > maxCapacity ∨ q.elements.length ≤ newCapacity := by
    split
    · next hlarge => exact iff_of_true rfl (Or.inl hlarge)
    · next hlarge =>
      rw [← List.length_eq_zero_iff, List.length_take]
      omega
  cases htype : q.type with
  | fiFoSingleProducerSingleConsumer =>
    simp only [discarded, htype]
    exact iff_of_true trivial (Or.inl (Or.inl htype))
  | soFiSingleProducerSingleConsumer =>
    simp only [discarded, htype]
    exact iff_of_true trivial (Or.inl (Or.inr htype))
  | fiFoMultiProducerSingleConsumer =>
    simp only [discarded, Keeps, htype, htake, reduceCtorEq, or_self, false_or]
  | soFiMultiProducerSingleConsumer =>
    simp only [discarded, Keeps, htype, htake, reduceCtorEq, or_self, false_or]

end VariantQueue

namespace SerialVariantQueue

variable {A : Type} {C fuel : Nat} {q : SerialVariantQueue A} {v : VariantQueue A}

structure Implements (C : Nat) (q : SerialVariantQueue A) (v : VariantQueue A) : Prop where
  type : q.type = v.type
  content : q.StandsFor C v.toFifo

theorem implements_construct (hC : SerialIndexQueue.ValidCapacity C) (type : VariantQueueTypes) :
    (construct C type : SerialVariantQueue A).Implements C
      { type := type
        capacity := (construct C type : SerialVariantQueue A).capacity C
        elements := [] } where
  type := by cases type <;> rfl
  content := standsFor_construct hC type

@[simp] theorem boundedPush_capacity (f : Fifo A) (value : A) (type : VariantQueueTypes) :
    (boundedPush f value type).2.capacity = f.capacity := by
  cases type with
  | fiFoSingleProducerSingleConsumer => exact f.tryPush_capacity value
  | soFiSingleProducerSingleConsumer => exact f.push_capacity value
  | fiFoMultiProducerSingleConsumer => exact f.tryPush_capacity value
  | soFiMultiProducerSingleConsumer => exact f.push_capacity value

theorem push_eq_boundedPush (v : VariantQueue A) (value : A)
    (h : v.type = .soFiMultiProducerSingleConsumer → v.capacity ≠ 0) :
    v.push value = some ((boundedPush v.toFifo value v.type).1,
      { v with elements := (boundedPush v.toFifo value v.type).2.elements }) := by
  by_cases hroom : v.elements.length < v.capacity
  · have htry : v.toFifo.tryPush value =
        (true, { v.toFifo with elements := v.elements ++ [value] }) := if_pos hroom
    have hpush : v.toFifo.push value =
        (none, { v.toFifo with elements := v.elements ++ [value] }) := if_pos hroom
    cases htype : v.type <;>
      simp only [VariantQueue.push, boundedPush, htype, htry, hpush, Nat.add_one_le_iff,
        if_pos hroom, if_true]
  · have htry : v.toFifo.tryPush value = (false, v.toFifo) := if_neg hroom
    have hpush : v.toFifo.push value = ((v.elements ++ [value]).head?,
        { v.toFifo with elements := (v.elements ++ [value]).tail }) := if_neg hroom
    cases htype : v.type with
    | fiFoSingleProducerSingleConsumer =>
      simp only [VariantQueue.push, boundedPush, htype, htry, if_neg hroom]
      rw [← htype]
      rfl
    | soFiSingleProducerSingleConsumer =>
      simp only [VariantQueue.push, boundedPush, htype, hpush, Nat.add_one_le_iff, if_neg hroom]
      cases v.elements <;> rfl
    | fiFoMultiProducerSingleConsumer =>
      simp only [VariantQueue.push, boundedPush, htype, htry, if_neg hroom]
      rw [← htype]
      rfl
    | soFiMultiProducerSingleConsumer =>
      have hcapacity := h htype
      simp only [VariantQueue.push, boundedPush, htype, hpush, if_neg hroom]
      cases helements : v.elements with
      | nil =>
        rw [helements, List.length_nil] at hroom
        omega
      | cons oldest rest => rfl

theorem Implements.push (h : q.Implements C v) (hC : SerialIndexQueue.ValidCapacity C)
    (hfuel : 0 < fuel) (husable : q.Usable) (value : A) (hwrap : q.NoWrap C (.push value)) :
    ∃ lost q' v', q.push C fuel value = some (lost, q') ∧ v.push value = some (lost, v') ∧
      q'.Implements C v' ∧ q'.Usable := by
  obtain ⟨q', hpush, hcontent, husable', htype⟩ :=
    push_simulates hC hfuel h.content husable value hwrap
  rw [h.type] at hpush hcontent
  refine ⟨_, q', _, hpush, push_eq_boundedPush v value ?_, ⟨htype.trans h.type, ?_⟩, husable'⟩
  · intro hmulti
    cases q with
    | soFiMultiProducerSingleConsumer fifo =>
      rw [Usable, ResizeableLockFreeQueue.capacity_eq h.content] at husable
      exact husable
    | _ => cases h.type.trans hmulti
  · have hcapacity : (boundedPush v.toFifo value v.type).2.capacity = v.capacity :=
      boundedPush_capacity _ _ _
    rw [VariantQueue.toFifo, ← hcapacity]
    exact hcontent

theorem Implements.pop (h : q.Implements C v) (hC : SerialIndexQueue.ValidCapacity C)
    (hfuel : 0 < fuel) (hwrap : q.NoWrap C .pop) :
    ∃ q', q.pop C fuel = some (v.pop.map Prod.fst, q') ∧
      q'.Implements C ((v.pop.map Prod.snd).getD v) := by
  obtain ⟨q', hpop, hcontent, _, htype⟩ := pop_simulates hC hfuel h.content hwrap
  refine ⟨q', ?_⟩
  rw [hpop, VariantQueue.pop]
  rw [Fifo.pop, VariantQueue.toFifo] at hcontent ⊢
  cases helements : v.elements with
  | nil =>
    rw [helements] at hcontent
    refine ⟨rfl, htype.trans h.type, ?_⟩
    rw [Option.map_none, Option.getD_none, VariantQueue.toFifo, helements]
    exact hcontent
  | cons value rest =>
    rw [helements] at hcontent
    exact ⟨rfl, htype.trans h.type, hcontent⟩

theorem setCapacity_multi (v : VariantQueue A) (n : Nat)
    (h : v.type = .fiFoMultiProducerSingleConsumer ∨ v.type = .soFiMultiProducerSingleConsumer) :
    (v.setCapacity C n).1 = (v.toFifo.setCapacity C n).1.1 ∧
      (v.setCapacity C n).2.type = v.type ∧
      (v.setCapacity C n).2.toFifo = (v.toFifo.setCapacity C n).2 := by
  have hmulti : v.setCapacity C n = if n > C then (false, v) else
      (true, { v with
        capacity := n
        elements := v.elements.drop (v.elements.length - n) }) := by
    rcases h with h | h <;> simp only [VariantQueue.setCapacity, h]
  rw [hmulti, Fifo.setCapacity]
  by_cases hlarge : n > C
  · rw [if_pos hlarge, if_pos hlarge]
    exact ⟨rfl, rfl, rfl⟩
  · rw [if_neg hlarge, if_neg hlarge]
    exact ⟨rfl, rfl, rfl⟩

theorem Implements.setCapacity (h : q.Implements C v) (hC : SerialIndexQueue.ValidCapacity C)
    (hfuel : C + 1 < fuel) {n : Nat} (hn : n < 2 ^ 64) (hwrap : q.NoWrap C (.setCapacity n)) :
    ∃ q', q.setCapacity C fuel n = some ((v.setCapacity C n).1, q') ∧
      q'.Implements C (v.setCapacity C n).2 := by
  obtain ⟨htype, hcontent⟩ := h
  cases q with
  | fiFoSingleProducerSingleConsumer fifo =>
    rw [VariantQueue.setCapacity, ← htype]
    exact ⟨_, rfl, htype, hcontent⟩
  | soFiSingleProducerSingleConsumer fifo =>
    obtain ⟨hrep, hcapacity⟩ := hcontent
    rw [VariantQueue.setCapacity, ← htype]
    simp only [SerialVariantQueue.type, List.isEmpty_iff]
    rcases hrep.setCapacity n with ⟨hempty, hfits, fifo', hset, hrep', hsize⟩ | ⟨hnot, hset⟩
    · have heq : n = fifo'.capacity := by
        rw [SerialSoFi.capacity, hsize]
        omega
      rw [if_pos ⟨hempty, hfits⟩]
      refine ⟨.soFiSingleProducerSingleConsumer fifo', ?_, rfl, ?_, heq⟩
      · rw [SerialVariantQueue.setCapacity, hset]
      · rw [← show v.toFifo.elements = [] from hempty] at hrep'
        exact hrep'
    · rw [VariantQueue.toFifo] at hnot
      rw [if_neg hnot]
      refine ⟨.soFiSingleProducerSingleConsumer fifo, ?_, htype, hrep, hcapacity⟩
      rw [SerialVariantQueue.setCapacity, hset]
  | fiFoMultiProducerSingleConsumer fifo =>
    obtain ⟨fifo', hset, h'⟩ :=
      ResizeableLockFreeQueue.setCapacity_simulates hC hfuel hcontent n hwrap
    obtain ⟨hresult, hsame, hfifo⟩ := setCapacity_multi (C := C) v n (Or.inl htype.symm)
    refine ⟨.fiFoMultiProducerSingleConsumer fifo', ?_, htype.trans hsame.symm, ?_⟩
    · rw [SerialVariantQueue.setCapacity, hset, hresult]
      rfl
    · rw [hfifo]
      exact h'
  | soFiMultiProducerSingleConsumer fifo =>
    obtain ⟨fifo', hset, h'⟩ :=
      ResizeableLockFreeQueue.setCapacity_simulates hC hfuel hcontent n hwrap
    obtain ⟨hresult, hsame, hfifo⟩ := setCapacity_multi (C := C) v n (Or.inr htype.symm)
    refine ⟨.soFiMultiProducerSingleConsumer fifo', ?_, htype.trans hsame.symm, ?_⟩
    · rw [SerialVariantQueue.setCapacity, hset, hresult]
      rfl
    · rw [hfifo]
      exact h'

end SerialVariantQueue

namespace ChunkReceiver

open Exec

variable {S R : Type} [DecidableEq R]

def setCapacity (maxCapacity : Nat) (r : R) (newCapacity : Nat) : Exec S R Unit := do
  let d ← receiver r
  setReceiver r { d with queue := (d.queue.setCapacity maxCapacity newCapacity).2 }

variable [Fintype S] [Fintype R] {E : Halt → Prop} {A : S → ChunkSenderData R}
  {B : R → ChunkReceiverData} {Γ : List (Nat × Nat)} {H : Nat → Nat} {L : Multiset Nat}

/-- From `w` to `w'` every counter has gone down by the entries that have left the queue of `r`,
and the books are as before. -/
structure Released (Γ : List (Nat × Nat)) (H : Nat → Nat) (L : Multiset Nat) (r : R)
    (w w' : World S R) : Prop where
  counter : ∀ m, (w'.memory.blocks m).referenceCounter + (w.receivers r).queue.elements.count m =
    (w.memory.blocks m).referenceCounter + (w'.receivers r).queue.elements.count m
  books : Owes Γ H L w'

/-- The values that are removed are never handed back: the memory goes on counting them. -/
theorem setCapacity_triple (maxCapacity : Nat) (r : R) (n : Nat) :
    Triple E (Books Γ A B H L) (setCapacity maxCapacity r n : Exec S R Unit) fun _ =>
      Books Γ A (Function.update B r
        { B r with queue := ((B r).queue.setCapacity maxCapacity n).2 }) H
        ((B r).queue.discarded maxCapacity n + L) := by
  refine receiver_bind ?_
  have heq : ((B r).queue.discarded maxCapacity n : Multiset Nat) + L +
      { B r with queue := ((B r).queue.setCapacity maxCapacity n).2 }.slots =
        L + (B r).slots := by
    rw [ChunkReceiverData.slots, ChunkReceiverData.slots,
      ← (B r).queue.discarded_append maxCapacity n, ← Multiset.coe_add]
    abel
  exact Books.lists fun _ hok => setReceiver_triple (hok r) heq

theorem setCapacity_released_iff (maxCapacity : Nat) (r : R) (n : Nat) {w : World S R}
    (h : Owes Γ H L w) :
    ∃ w', setCapacity maxCapacity r n w = .ok ((), w') ∧
      (Released Γ H L r w w' ↔ (w.receivers r).queue.Keeps maxCapacity n) := by
  obtain ⟨A, B, h⟩ := h
  have hset : setCapacity maxCapacity r n w = .ok ((), { w with
      receivers := Function.update w.receivers r { w.receivers r with
        queue := ((w.receivers r).queue.setCapacity maxCapacity n).2 } }) := rfl
  have h' := (setCapacity_triple (E := fun _ => True) maxCapacity r n).of_ok h hset
  have hsplit : ∀ m, (w.receivers r).queue.elements.count m =
      ((w.receivers r).queue.discarded maxCapacity n).count m +
        ((w.receivers r).queue.setCapacity maxCapacity n).2.elements.count m := by
    intro m
    rw [← List.count_append, VariantQueue.discarded_append]
  refine ⟨_, hset, ?_⟩
  rw [← VariantQueue.discarded_eq_nil_iff]
  constructor
  · rintro ⟨hcounter, _⟩
    refine List.eq_nil_iff_forall_not_mem.mpr fun m => List.count_eq_zero.mp ?_
    have hm := hcounter m
    simp only [hsplit m, Function.update_self] at hm
    omega
  · intro hnil
    rw [← h.receivers, hnil, Multiset.coe_nil, zero_add] at h'
    refine ⟨fun m => ?_, _, _, h'⟩
    simp only [hsplit m, hnil, Function.update_self, List.count_nil, zero_add]

section Example

open World

def resizeableReceiver (_ : Fin 1) : ChunkReceiverOptions where
  uniqueId := 1
  queueType := .fiFoMultiProducerSingleConsumer
  queueCapacity := 2
  queueFullPolicy := .discardOldestData
  maxChunksHeldSimultaneously := 2

def deliveries : List (Op (Fin 1) (Fin 1)) :=
  [.tryAddQueue 0 0 0, allocate, .send 0 (2 ^ 40), allocate, .send 0 (2 ^ 40 + 104)]

def balanceAfter (mePooConfig : MePooConfig) (ops : List (Op (Fin 1) (Fin 1)))
    (maxCapacity n m : Nat) : Option (Nat × Nat) := do
  let (mm, _) ← MemoryManager.configureMemoryManager mePooConfig 0 1 exampleMemory
  let (_, w) ← (run 0 ops (start mm exampleSender resizeableReceiver)).toOption
  let (_, w') ← (setCapacity maxCapacity 0 n w).toOption
  some ((w'.memory.blocks m).referenceCounter + (w.receivers 0).queue.elements.count m,
    (w.memory.blocks m).referenceCounter + (w'.receivers 0).queue.elements.count m)

theorem balanceAfter_eq_some {mePooConfig : MePooConfig} {ops : List (Op (Fin 1) (Fin 1))}
    {maxCapacity n m a b : Nat} (h : balanceAfter mePooConfig ops maxCapacity n m = some (a, b)) :
    ∃ mm allocators w w',
      MemoryManager.configureMemoryManager mePooConfig 0 1 exampleMemory = some (mm, allocators) ∧
      run 0 ops (start mm exampleSender resizeableReceiver) = .ok (⟨⟩, w) ∧
      setCapacity maxCapacity 0 n w = .ok ((), w') ∧
      (w'.memory.blocks m).referenceCounter + (w.receivers 0).queue.elements.count m = a ∧
      (w.memory.blocks m).referenceCounter + (w'.receivers 0).queue.elements.count m = b := by
  obtain ⟨⟨mm, allocators⟩, hmm, h⟩ := Option.bind_eq_some_iff.mp h
  obtain ⟨⟨_, w⟩, hrun, h⟩ := Option.bind_eq_some_iff.mp h
  obtain ⟨⟨_, w'⟩, hset, h⟩ := Option.bind_eq_some_iff.mp h
  cases h
  exact ⟨mm, allocators, w, w', hmm, eq_ok_of_toOption hrun, eq_ok_of_toOption hset, rfl, rfl⟩

theorem setCapacity_released_one : ∃ mm allocators Γ H, ∃ w : World (Fin 1) (Fin 1), ∃ w',
    MemoryManager.configureMemoryManager smallConfig 0 1 exampleMemory = some (mm, allocators) ∧
    run 0 [.tryAddQueue 0 0 0, allocate, .send 0 (2 ^ 40)]
      (start mm exampleSender resizeableReceiver) = .ok (⟨⟩, w) ∧
    setCapacity 2 0 1 w = .ok ((), w') ∧
    (Released Γ H 0 0 w w' ↔ (w.receivers 0).queue.Keeps 2 1) := by
  have h : balanceAfter smallConfig [.tryAddQueue 0 0 0, allocate, .send 0 (2 ^ 40)] 2 1 4128 =
      some (4, 4) := by decide +kernel
  obtain ⟨mm, allocators, w, _, hmm, hrun, _⟩ := balanceAfter_eq_some h
  obtain ⟨H, hw⟩ := (run_triple (E := fun e => e = .blocked) rfl 0 _).of_ok
    ⟨start_settled hmm (by decide) _ _, meets_within_of_fits hmm (by decide) _ _ 0 _⟩ hrun
  obtain ⟨w', hset, hiff⟩ := setCapacity_released_iff 2 0 1 hw
  exact ⟨mm, allocators, mm.shape, H, w, w', hmm, hrun, hset, hiff⟩

theorem setCapacity_leaks : ∃ mm allocators, ∃ w : World (Fin 1) (Fin 1), ∃ w',
    MemoryManager.configureMemoryManager smallConfig 0 1 exampleMemory = some (mm, allocators) ∧
    run 0 deliveries (start mm exampleSender resizeableReceiver) = .ok (⟨⟩, w) ∧
    setCapacity 2 0 1 w = .ok ((), w') ∧
    ∀ Γ H L, ¬ Released Γ H L 0 w w' := by
  have h : balanceAfter smallConfig deliveries 2 1 4128 = some (2, 1) := by decide +kernel
  obtain ⟨mm, allocators, w, w', hmm, hrun, hset, hbefore, hafter⟩ := balanceAfter_eq_some h
  refine ⟨mm, allocators, w, w', hmm, hrun, hset, ?_⟩
  rintro Γ H L ⟨hcounter, _⟩
  have hm := hcounter 4128
  omega

end Example

end ChunkReceiver

end Iceoryx.Popo
