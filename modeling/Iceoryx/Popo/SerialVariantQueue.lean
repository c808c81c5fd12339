import Iceoryx.Hoofs.ResizeableLockFreeQueue
import Iceoryx.Hoofs.SerialFiFo
import Iceoryx.Popo.ChunkQueue

/-! `cxx::VariantQueue` in the hands of one thread: three kinds of queues behind one interface,
and what its `setCapacity` says about them.  `none` as a result is undefined behaviour, or a call
that does not return. -/

namespace Iceoryx.Popo

open Hoofs Lib

inductive SerialVariantQueue (A : Type)
  | fiFoSingleProducerSingleConsumer (fifo : SerialFiFo A)
  | soFiSingleProducerSingleConsumer (fifo : SerialSoFi A)
  | fiFoMultiProducerSingleConsumer (fifo : ResizeableLockFreeQueue A)
  | soFiMultiProducerSingleConsumer (fifo : ResizeableLockFreeQueue A)

namespace SerialVariantQueue

variable {A : Type} (maxCapacity fuel : Nat)

def construct : VariantQueueTypes → SerialVariantQueue A
  | .fiFoSingleProducerSingleConsumer => .fiFoSingleProducerSingleConsumer .construct
  | .soFiSingleProducerSingleConsumer =>
    .soFiSingleProducerSingleConsumer (.construct maxCapacity)
  | .fiFoMultiProducerSingleConsumer => .fiFoMultiProducerSingleConsumer (.construct maxCapacity)
  | .soFiMultiProducerSingleConsumer => .soFiMultiProducerSingleConsumer (.construct maxCapacity)

def type : SerialVariantQueue A → VariantQueueTypes
  | .fiFoSingleProducerSingleConsumer _ => .fiFoSingleProducerSingleConsumer
  | .soFiSingleProducerSingleConsumer _ => .soFiSingleProducerSingleConsumer
  | .fiFoMultiProducerSingleConsumer _ => .fiFoMultiProducerSingleConsumer
  | .soFiMultiProducerSingleConsumer _ => .soFiMultiProducerSingleConsumer

def push (value : A) : SerialVariantQueue A → Option (Option A × SerialVariantQueue A)
  | .fiFoSingleProducerSingleConsumer fifo =>
    let (hadSpace, fifo) := fifo.push maxCapacity value
    some (if hadSpace then none else some value, .fiFoSingleProducerSingleConsumer fifo)
  | .soFiSingleProducerSingleConsumer fifo =>
    (fifo.push maxCapacity value).map fun r => (r.1, .soFiSingleProducerSingleConsumer r.2)
  | .fiFoMultiProducerSingleConsumer fifo =>
    (fifo.tryPush maxCapacity fuel value).map fun r =>
      (if r.1 then none else some value, .fiFoMultiProducerSingleConsumer r.2)
  | .soFiMultiProducerSingleConsumer fifo =>
    (fifo.push maxCapacity fuel value).map fun r => (r.1, .soFiMultiProducerSingleConsumer r.2)

def pop : SerialVariantQueue A → Option (Option A × SerialVariantQueue A)
  | .fiFoSingleProducerSingleConsumer fifo =>
    let (value, fifo) := fifo.pop maxCapacity
    some (value, .fiFoSingleProducerSingleConsumer fifo)
  | .soFiSingleProducerSingleConsumer fifo =>
    (fifo.pop maxCapacity).map fun r => (r.1, .soFiSingleProducerSingleConsumer r.2)
  | .fiFoMultiProducerSingleConsumer fifo =>
    (fifo.pop maxCapacity fuel).map fun r => (r.1, .fiFoMultiProducerSingleConsumer r.2)
  | .soFiMultiProducerSingleConsumer fifo =>
    (fifo.pop maxCapacity fuel).map fun r => (r.1, .soFiMultiProducerSingleConsumer r.2)

/-- The result of `SoFi::setCapacity` is not looked at.  For the `FiFo` the function is not
implemented; its `assert` is compiled out of a release build. -/
def setCapacity (newCapacity : Nat) : SerialVariantQueue A → Option (Bool × SerialVariantQueue A)
  | .fiFoSingleProducerSingleConsumer fifo =>
    some (false, .fiFoSingleProducerSingleConsumer fifo)
  | .soFiSingleProducerSingleConsumer fifo =>
    some (true, .soFiSingleProducerSingleConsumer (fifo.setCapacity maxCapacity newCapacity).2)
  | .fiFoMultiProducerSingleConsumer fifo =>
    (fifo.setCapacity maxCapacity fuel newCapacity).map fun r =>
      (r.1.1, .fiFoMultiProducerSingleConsumer r.2)
  | .soFiMultiProducerSingleConsumer fifo =>
    (fifo.setCapacity maxCapacity fuel newCapacity).map fun r =>
      (r.1.1, .soFiMultiProducerSingleConsumer r.2)

def capacity : SerialVariantQueue A → Nat
  | .fiFoSingleProducerSingleConsumer _ => maxCapacity
  | .soFiSingleProducerSingleConsumer fifo => fifo.capacity
  | .fiFoMultiProducerSingleConsumer fifo => fifo.capacity
  | .soFiMultiProducerSingleConsumer fifo => fifo.capacity

def empty : SerialVariantQueue A → Bool
  | .fiFoSingleProducerSingleConsumer fifo => fifo.empty
  | .soFiSingleProducerSingleConsumer fifo => fifo.empty
  | .fiFoMultiProducerSingleConsumer fifo => fifo.empty maxCapacity
  | .soFiMultiProducerSingleConsumer fifo => fifo.empty maxCapacity

def elements : SerialVariantQueue A → List A
  | .fiFoSingleProducerSingleConsumer fifo => fifo.elements maxCapacity
  | .soFiSingleProducerSingleConsumer fifo => fifo.elements
  | .fiFoMultiProducerSingleConsumer fifo => fifo.elements maxCapacity
  | .soFiMultiProducerSingleConsumer fifo => fifo.elements maxCapacity

inductive Operation (A : Type)
  | push (value : A)
  | pop
  | setCapacity (newCapacity : Nat)

inductive Answer (A : Type)
  | pushed (lost : Option A)
  | popped (value : Option A)
  | resized (result : Bool)

def perform (q : SerialVariantQueue A) : Operation A → Option (Answer A × SerialVariantQueue A)
  | .push value => (q.push maxCapacity fuel value).map fun r => (.pushed r.1, r.2)
  | .pop => (q.pop maxCapacity fuel).map fun r => (.popped r.1, r.2)
  | .setCapacity n => (q.setCapacity maxCapacity fuel n).map fun r => (.resized r.1, r.2)

def NoWrap : SerialVariantQueue A → Operation A → Prop
  | .fiFoSingleProducerSingleConsumer fifo, .push _ =>
    maxCapacity ∣ 2 ^ 64 ∨ fifo.writePos + 1 < 2 ^ 64
  | .soFiSingleProducerSingleConsumer fifo, .push _ =>
    fifo.readPosition + fifo.internalSize < 2 ^ 64
  | .fiFoMultiProducerSingleConsumer fifo, .push value => fifo.NoWrap maxCapacity (.tryPush value)
  | .soFiMultiProducerSingleConsumer fifo, .push value => fifo.NoWrap maxCapacity (.push value)
  | .fiFoMultiProducerSingleConsumer fifo, .pop
  | .soFiMultiProducerSingleConsumer fifo, .pop => fifo.NoWrap maxCapacity .pop
  | .fiFoMultiProducerSingleConsumer fifo, .setCapacity n
  | .soFiMultiProducerSingleConsumer fifo, .setCapacity n =>
    fifo.NoWrap maxCapacity (.setCapacity n)
  | .fiFoSingleProducerSingleConsumer _, _
  | .soFiSingleProducerSingleConsumer _, _ => True

/-- What is expected of a push: the overflowing kinds drop the oldest value, the others the new
one. -/
def boundedPush (f : Fifo A) (value : A) : VariantQueueTypes → Option A × Fifo A
  | .fiFoSingleProducerSingleConsumer
  | .fiFoMultiProducerSingleConsumer =>
    let (hadSpace, f) := f.tryPush value
    (if hadSpace then none else some value, f)
  | .soFiSingleProducerSingleConsumer
  | .soFiMultiProducerSingleConsumer => f.push value

def boundedStep (type : VariantQueueTypes) (f : Fifo A) :
    Operation A → Option (Answer A × Fifo A)
  | .push value => some (.pushed (boundedPush f value type).1, (boundedPush f value type).2)
  | .pop => some (.popped f.pop.1, f.pop.2)
  | .setCapacity _ => none

def Behaves (q : SerialVariantQueue A) : Prop :=
  ∀ ops outs f, Admits (perform maxCapacity fuel) (NoWrap maxCapacity) q ops →
    runOps (boundedStep q.type)
      { capacity := q.capacity maxCapacity, elements := q.elements maxCapacity } ops =
        some (outs, f) →
    ∃ q', runOps (perform maxCapacity fuel) q ops = some (outs, q') ∧
      q'.capacity maxCapacity = f.capacity ∧ q'.elements maxCapacity = f.elements

def Honest (q : SerialVariantQueue A) (newCapacity : Nat) : Prop :=
  ∃ result q', q.setCapacity maxCapacity fuel newCapacity = some (result, q') ∧
    (result = true ↔ q'.capacity maxCapacity = newCapacity) ∧
    (result = false → q'.capacity maxCapacity = q.capacity maxCapacity ∧
      q'.elements maxCapacity = q.elements maxCapacity) ∧
    q'.Behaves maxCapacity fuel

def Resizable (q : SerialVariantQueue A) (newCapacity : Nat) : Prop :=
  match q with
  | .fiFoSingleProducerSingleConsumer _ => newCapacity ≠ maxCapacity
  | .soFiSingleProducerSingleConsumer fifo =>
    newCapacity < SerialSoFi.internalSofiSize maxCapacity ∧
      (fifo.empty = true ∨ newCapacity = fifo.capacity)
  | .fiFoMultiProducerSingleConsumer _ => True
  | .soFiMultiProducerSingleConsumer fifo =>
    if newCapacity ≤ maxCapacity then newCapacity ≠ 0 else fifo.capacity ≠ 0

def StandsFor (q : SerialVariantQueue A) (f : Fifo A) : Prop :=
  match q with
  | .fiFoSingleProducerSingleConsumer fifo =>
    (∃ r, fifo.Rep maxCapacity r f.elements) ∧ f.capacity = maxCapacity
  | .soFiSingleProducerSingleConsumer fifo =>
    fifo.Rep maxCapacity f.elements ∧ f.capacity = fifo.capacity
  | .fiFoMultiProducerSingleConsumer fifo
  | .soFiMultiProducerSingleConsumer fifo => fifo.StandsFor maxCapacity f

def Usable : SerialVariantQueue A → Prop
  | .soFiSingleProducerSingleConsumer fifo => 0 < fifo.internalSize
  | .soFiMultiProducerSingleConsumer fifo => fifo.capacity ≠ 0
  | .fiFoSingleProducerSingleConsumer _
  | .fiFoMultiProducerSingleConsumer _ => True

variable {C : Nat} {fuel} {q q' : SerialVariantQueue A} {f : Fifo A}

theorem standsFor_construct (hC : SerialIndexQueue.ValidCapacity C) (type : VariantQueueTypes) :
    (construct C type : SerialVariantQueue A).StandsFor C
      { capacity := (construct C type : SerialVariantQueue A).capacity C, elements := [] } := by
  cases type with
  | fiFoSingleProducerSingleConsumer => exact ⟨⟨0, SerialFiFo.rep_construct⟩, rfl⟩
  | soFiSingleProducerSingleConsumer => exact ⟨SerialSoFi.rep_construct, rfl⟩
  | fiFoMultiProducerSingleConsumer => exact ResizeableLockFreeQueue.standsFor_construct hC
  | soFiMultiProducerSingleConsumer => exact ResizeableLockFreeQueue.standsFor_construct hC

theorem usable_construct (hC : SerialIndexQueue.ValidCapacity C) {type : VariantQueueTypes}
    (h : type = .soFiSingleProducerSingleConsumer → (C + 1) % 2 ^ 32 ≠ 0) :
    (construct C type : SerialVariantQueue A).Usable := by
  cases type with
  | fiFoSingleProducerSingleConsumer => trivial
  | soFiSingleProducerSingleConsumer => exact Nat.pos_of_ne_zero (h rfl)
  | fiFoMultiProducerSingleConsumer => trivial
  | soFiMultiProducerSingleConsumer => exact Nat.pos_iff_ne_zero.mp hC.positive

theorem noWrap_of_dvd (hC : C ∣ 2 ^ 64) (h : q.type ≠ .soFiSingleProducerSingleConsumer)
    (op : Operation A) : q.NoWrap C op := by
  cases q with
  | fiFoSingleProducerSingleConsumer fifo =>
    cases op with
    | push value => exact Or.inl hC
    | _ => trivial
  | soFiSingleProducerSingleConsumer fifo => exact absurd rfl h
  | fiFoMultiProducerSingleConsumer fifo =>
    cases op with
    | push value => exact ResizeableLockFreeQueue.noWrap_of_dvd hC fifo (.tryPush value)
    | pop => exact ResizeableLockFreeQueue.noWrap_of_dvd hC fifo .pop
    | setCapacity n => exact ResizeableLockFreeQueue.noWrap_of_dvd hC fifo (.setCapacity n)
  | soFiMultiProducerSingleConsumer fifo =>
    cases op with
    | push value => exact ResizeableLockFreeQueue.noWrap_of_dvd hC fifo (.push value)
    | pop => exact ResizeableLockFreeQueue.noWrap_of_dvd hC fifo .pop
    | setCapacity n => exact ResizeableLockFreeQueue.noWrap_of_dvd hC fifo (.setCapacity n)

theorem StandsFor.capacity_eq (h : q.StandsFor C f) : q.capacity C = f.capacity := by
  cases q with
  | fiFoSingleProducerSingleConsumer fifo => exact h.2.symm
  | soFiSingleProducerSingleConsumer fifo => exact h.2.symm
  | fiFoMultiProducerSingleConsumer fifo => exact ResizeableLockFreeQueue.capacity_eq h
  | soFiMultiProducerSingleConsumer fifo => exact ResizeableLockFreeQueue.capacity_eq h

theorem StandsFor.elements_eq (h : q.StandsFor C f) (hC : SerialIndexQueue.ValidCapacity C) :
    q.elements C = f.elements := by
  cases q with
  | fiFoSingleProducerSingleConsumer fifo =>
    obtain ⟨⟨r, hrep⟩, _⟩ := h
    exact hrep.elements_eq hC.lt
  | soFiSingleProducerSingleConsumer fifo => exact h.1.elements_eq
  | fiFoMultiProducerSingleConsumer fifo =>
    exact ResizeableLockFreeQueue.elements_eq hC h
  | soFiMultiProducerSingleConsumer fifo =>
    exact ResizeableLockFreeQueue.elements_eq hC h

theorem push_simulates (hC : SerialIndexQueue.ValidCapacity C) (hfuel : 0 < fuel)
    (h : q.StandsFor C f) (husable : q.Usable) (value : A)
    (hwrap : q.NoWrap C (.push value)) :
    ∃ q', q.push C fuel value = some ((boundedPush f value q.type).1, q') ∧
      q'.StandsFor C (boundedPush f value q.type).2 ∧ q'.Usable ∧ q'.type = q.type := by
  cases q with
  | fiFoSingleProducerSingleConsumer fifo =>
    obtain ⟨⟨r, hrep⟩, hcapacity⟩ := h
    have hroom := hrep.room
    rw [push, type, boundedPush, Fifo.tryPush, hcapacity]
    by_cases hspace : f.elements.length < C
    · obtain ⟨fifo', hpush, hrep'⟩ := hrep.push_room hC.lt hspace value hwrap
      rw [if_pos hspace, hpush]
      exact ⟨_, rfl, ⟨⟨r, hrep'⟩, rfl⟩, trivial, rfl⟩
    · rw [if_neg hspace, hrep.push_full hC.lt (by omega)]
      exact ⟨_, rfl, ⟨⟨r, hrep⟩, hcapacity⟩, trivial, rfl⟩
  | soFiSingleProducerSingleConsumer fifo =>
    obtain ⟨hrep, hcapacity⟩ := h
    obtain ⟨fifo', hpush, hrep', hsize⟩ := hrep.push husable value hwrap
    have hf : f = { capacity := fifo.capacity, elements := f.elements } := by
      rw [← hcapacity]
    rw [← hf] at hpush hrep'
    refine ⟨.soFiSingleProducerSingleConsumer fifo', ?_, ⟨hrep', ?_⟩, ?_, rfl⟩
    · rw [push, hpush]
      rfl
    · rw [type, boundedPush, Fifo.push_capacity, hcapacity, SerialSoFi.capacity,
        SerialSoFi.capacity, hsize]
    · rw [Usable, hsize]
      exact husable
  | fiFoMultiProducerSingleConsumer fifo =>
    obtain ⟨fifo', hpush, h'⟩ :=
      ResizeableLockFreeQueue.tryPush_simulates hC hfuel h value hwrap
    refine ⟨.fiFoMultiProducerSingleConsumer fifo', ?_, h', trivial, rfl⟩
    rw [push, hpush]
    rfl
  | soFiMultiProducerSingleConsumer fifo =>
    have hcapacity := ResizeableLockFreeQueue.capacity_eq h
    obtain ⟨fifo', hpush, h'⟩ :=
      ResizeableLockFreeQueue.push_simulates hC hfuel h (hcapacity ▸ husable) value hwrap
    refine ⟨.soFiMultiProducerSingleConsumer fifo', ?_, h', ?_, rfl⟩
    · rw [push, hpush]
      rfl
    · rw [Usable, ResizeableLockFreeQueue.capacity_eq h', Fifo.push_capacity, ← hcapacity]
      exact husable

theorem pop_simulates (hC : SerialIndexQueue.ValidCapacity C) (hfuel : 0 < fuel)
    (h : q.StandsFor C f) (hwrap : q.NoWrap C .pop) :
    ∃ q', q.pop C fuel = some (f.pop.1, q') ∧ q'.StandsFor C f.pop.2 ∧
      (q.Usable → q'.Usable) ∧ q'.type = q.type := by
  cases q with
  | fiFoSingleProducerSingleConsumer fifo =>
    obtain ⟨⟨r, hrep⟩, hcapacity⟩ := h
    rw [pop, Fifo.pop]
    cases helements : f.elements with
    | nil =>
      rw [helements] at hrep
      rw [hrep.pop_nil]
      exact ⟨_, rfl, ⟨⟨r, hrep⟩, hcapacity⟩, id, rfl⟩
    | cons a rest =>
      rw [helements] at hrep
      obtain ⟨fifo', hpop, hrep'⟩ := hrep.pop_cons hC.lt
      rw [hpop]
      exact ⟨_, rfl, ⟨⟨r + 1, hrep'⟩, hcapacity⟩, id, rfl⟩
  | soFiSingleProducerSingleConsumer fifo =>
    obtain ⟨hrep, hcapacity⟩ := h
    obtain ⟨fifo', hpop, hrep', hsize⟩ := hrep.pop
    have hf : f = { capacity := fifo.capacity, elements := f.elements } := by
      rw [← hcapacity]
    rw [← hf] at hpop hrep'
    refine ⟨.soFiSingleProducerSingleConsumer fifo', ?_, ⟨hrep', ?_⟩, ?_, rfl⟩
    · rw [pop, hpop]
      rfl
    · rw [Fifo.pop_capacity, hcapacity, SerialSoFi.capacity, SerialSoFi.capacity, hsize]
    · rw [Usable, Usable, hsize]
      exact id
  | fiFoMultiProducerSingleConsumer fifo =>
    obtain ⟨fifo', hpop, h'⟩ := ResizeableLockFreeQueue.pop_simulates hC hfuel h hwrap
    refine ⟨.fiFoMultiProducerSingleConsumer fifo', ?_, h', id, rfl⟩
    rw [pop, hpop]
    rfl
  | soFiMultiProducerSingleConsumer fifo =>
    obtain ⟨fifo', hpop, h'⟩ := ResizeableLockFreeQueue.pop_simulates hC hfuel h hwrap
    refine ⟨.soFiMultiProducerSingleConsumer fifo', ?_, h', ?_, rfl⟩
    · rw [pop, hpop]
      rfl
    · rw [Usable, Usable, ResizeableLockFreeQueue.capacity_eq h', Fifo.pop_capacity,
        ResizeableLockFreeQueue.capacity_eq h]
      exact id

theorem perform_simulates (hC : SerialIndexQueue.ValidCapacity C) (hfuel : 0 < fuel)
    (type : VariantQueueTypes) :
    Simulates (perform C fuel) (boundedStep type) (NoWrap C)
      (fun (q : SerialVariantQueue A) f => q.StandsFor C f ∧ q.Usable ∧ q.type = type) := by
  rintro q f op out f' ⟨h, husable, rfl⟩ hwrap hspec
  cases op with
  | push value =>
    cases hspec
    obtain ⟨q', hpush, h', husable', htype⟩ := push_simulates hC hfuel h husable value hwrap
    exact ⟨q', by rw [perform, hpush]; rfl, h', husable', htype⟩
  | pop =>
    cases hspec
    obtain ⟨q', hpop, h', husable', htype⟩ := pop_simulates hC hfuel h hwrap
    exact ⟨q', by rw [perform, hpop]; rfl, h', husable' husable, htype⟩
  | setCapacity n => cases hspec

/-- Without a place to push to, a push divides by zero or never comes back. -/
theorem push_unusable (hC : SerialIndexQueue.ValidCapacity C) (h : q.StandsFor C f)
    (hnot : ¬ q.Usable) (value : A) :
    q.NoWrap C (.push value) ∧ q.push C fuel value = none := by
  cases q with
  | fiFoSingleProducerSingleConsumer fifo => exact absurd trivial hnot
  | fiFoMultiProducerSingleConsumer fifo => exact absurd trivial hnot
  | soFiSingleProducerSingleConsumer fifo =>
    have hzero : fifo.internalSize = 0 := Nat.eq_zero_of_not_pos hnot
    constructor
    · have hwrite := h.1.write
      have hrange := h.1.inRange
      rw [NoWrap, hzero]
      omega
    · rw [push, SerialSoFi.push, SerialSoFi.slot, if_pos hzero]
      rfl
  | soFiMultiProducerSingleConsumer fifo =>
    have hzero : fifo.capacity = 0 := not_not.mp hnot
    obtain ⟨v, hv, hhand, _⟩ := h
    have hcapacity := hv.capacity
    constructor
    · have hfree : v.free = [] := List.eq_nil_of_length_eq_zero (by omega)
      have hused : v.used = [] := List.eq_nil_of_length_eq_zero (by omega)
      rw [NoWrap, ResizeableLockFreeQueue.NoWrap, hv.free.contents_eq hC, hv.used.contents_eq hC,
        hfree, hused]
      intro x hx
      cases hx
    · rw [push, hv.push_never hC hzero]
      rfl

theorem behaves_iff_usable (hC : SerialIndexQueue.ValidCapacity C) (hfuel : 0 < fuel)
    (h : q.StandsFor C f) (value : A) : q.Behaves C fuel ↔ q.Usable := by
  have hf : f = { capacity := q.capacity C, elements := q.elements C } := by
    rw [h.capacity_eq, h.elements_eq hC]
  constructor
  · intro hbehaves
    by_contra hnot
    have ⟨hwrap, hnone⟩ : q.NoWrap C (.push value) ∧ q.push C fuel value = none :=
      push_unusable hC h hnot value
    have hperform : q.perform C fuel (.push value) = none := by
      rw [perform, hnone]
      rfl
    obtain ⟨q', hrun, _⟩ := hbehaves [.push value] _ _
      ⟨hwrap, fun r hr => trivial⟩ rfl
    rw [runOps, hperform] at hrun
    cases hrun
  · intro husable ops outs f' hwrap hspec
    rw [← hf] at hspec
    obtain ⟨q', hrun, h', _⟩ :=
      (perform_simulates hC hfuel q.type).run ops q f f' outs ⟨h, husable, rfl⟩ hwrap hspec
    exact ⟨q', hrun, h'.capacity_eq, h'.elements_eq hC⟩

/-- What `setCapacity` leaves behind.  Its result tells the truth exactly when the queue is
resizable. -/
theorem setCapacity_returns (hC : SerialIndexQueue.ValidCapacity C) (hfuel : C + 1 < fuel)
    (h : q.StandsFor C f) (n : Nat) (hwrap : q.NoWrap C (.setCapacity n)) :
    ∃ result q' f', q.setCapacity C fuel n = some (result, q') ∧ q'.StandsFor C f' ∧
      ((result = true ↔ f'.capacity = n) ∧ (result = false → f' = f) ∧ q'.Usable ↔
        q.Resizable C n) := by
  cases q with
  | fiFoSingleProducerSingleConsumer fifo =>
    refine ⟨false, .fiFoSingleProducerSingleConsumer fifo, f, rfl, h, ?_⟩
    rw [h.2, Resizable, Usable]
    constructor
    · rintro ⟨hresult, _⟩ rfl
      cases hresult.mpr rfl
    · intro hne
      exact ⟨⟨nofun, fun heq => absurd heq.symm hne⟩, fun _ => rfl, trivial⟩
  | soFiSingleProducerSingleConsumer fifo =>
    obtain ⟨hrep, hcapacity⟩ := h
    have hlt : SerialSoFi.internalSofiSize C < 2 ^ 32 := SerialSoFi.internalSofiSize_lt
    have hbounded := hrep.bounded
    rcases hrep.setCapacity n with ⟨hempty, hfits, fifo', hset, hrep', hsize⟩ | ⟨hnot, hset⟩
    · refine ⟨true, .soFiSingleProducerSingleConsumer fifo',
        { capacity := fifo'.capacity, elements := [] }, ?_, ⟨hrep', rfl⟩, ?_⟩
      · rw [setCapacity, hset]
      · rw [Resizable, hrep.empty_iff, Usable, hsize]
        constructor
        · rintro ⟨hresult, _, hpos⟩
          have heq : fifo'.capacity = n := hresult.mp rfl
          rw [hrep'.capacity_eq (by omega), hsize] at heq
          exact ⟨by omega, Or.inl hempty⟩
        · rintro ⟨hsmall, _⟩
          have heq : fifo'.capacity = n := by
            rw [hrep'.capacity_eq (by omega), hsize]
            omega
          exact ⟨⟨fun _ => heq, fun _ => rfl⟩, nofun, by omega⟩
    · refine ⟨true, .soFiSingleProducerSingleConsumer fifo, f, ?_, ⟨hrep, hcapacity⟩, ?_⟩
      · rw [setCapacity, hset]
      · rw [Resizable, hrep.empty_iff, Usable, hcapacity]
        constructor
        · rintro ⟨hresult, _, hpos⟩
          have heq := hresult.mp rfl
          have hsmall : n < SerialSoFi.internalSofiSize C := by
            rw [hrep.capacity_eq hpos] at heq
            omega
          exact ⟨hsmall, Or.inr heq.symm⟩
        · rintro ⟨hsmall, hempty | heq⟩
          · exact absurd ⟨hempty, by omega⟩ hnot
          · have hpos : 0 < fifo.internalSize := by
              rcases hrep.room with hroom | hempty
              · omega
              · exact absurd ⟨hempty, by omega⟩ hnot
            exact ⟨⟨fun _ => heq.symm, fun _ => rfl⟩, nofun, hpos⟩
  | fiFoMultiProducerSingleConsumer fifo =>
    obtain ⟨fifo', hset, h'⟩ :=
      ResizeableLockFreeQueue.setCapacity_simulates hC hfuel h n hwrap
    have hle := ResizeableLockFreeQueue.capacity_le h
    refine ⟨(f.setCapacity C n).1.1, .fiFoMultiProducerSingleConsumer fifo', _, ?_, h', ?_⟩
    · rw [setCapacity, hset]
      rfl
    · rw [Fifo.setCapacity, Resizable, Usable]
      split
      · exact iff_of_true ⟨⟨fun heq => absurd heq Bool.false_ne_true,
          fun heq => absurd (show f.capacity = n from heq) (by omega)⟩,
          fun _ => rfl, trivial⟩ trivial
      · exact iff_of_true ⟨⟨fun _ => rfl, fun _ => rfl⟩,
          fun heq => absurd heq.symm Bool.false_ne_true, trivial⟩ trivial
  | soFiMultiProducerSingleConsumer fifo =>
    obtain ⟨fifo', hset, h'⟩ :=
      ResizeableLockFreeQueue.setCapacity_simulates hC hfuel h n hwrap
    have hle := ResizeableLockFreeQueue.capacity_le h
    refine ⟨(f.setCapacity C n).1.1, .soFiMultiProducerSingleConsumer fifo', _, ?_, h', ?_⟩
    · rw [setCapacity, hset]
      rfl
    · rw [Resizable, Usable, ResizeableLockFreeQueue.capacity_eq h',
        ResizeableLockFreeQueue.capacity_eq h, Fifo.setCapacity]
      by_cases hlarge : n > C
      · rw [if_pos hlarge, if_neg (by omega)]
        exact ⟨fun hall => hall.2.2, fun hpos =>
          ⟨⟨fun heq => absurd heq Bool.false_ne_true,
            fun heq => absurd (show f.capacity = n from heq) (by omega)⟩, fun _ => rfl, hpos⟩⟩
      · rw [if_neg hlarge, if_pos (by omega)]
        exact ⟨fun hall => hall.2.2, fun hpos => ⟨⟨fun _ => rfl, fun _ => rfl⟩,
          fun heq => absurd heq.symm Bool.false_ne_true, hpos⟩⟩

theorem perform_standsFor (hC : SerialIndexQueue.ValidCapacity C) (hfuel : C + 1 < fuel)
    {op : Operation A} {out : Answer A} (h : ∃ f, q.StandsFor C f) (hwrap : q.NoWrap C op)
    (hstep : q.perform C fuel op = some (out, q')) : ∃ f, q'.StandsFor C f := by
  obtain ⟨f, h⟩ := h
  have hpos : 0 < fuel := by omega
  cases op with
  | push value =>
    obtain ⟨r, hpush, hr⟩ := Option.map_eq_some_iff.mp hstep
    cases hr
    by_cases husable : q.Usable
    · obtain ⟨m, hm, h', _⟩ := push_simulates hC hpos h husable value hwrap
      rw [hm] at hpush
      cases hpush
      exact ⟨_, h'⟩
    · rw [(push_unusable hC h husable value).2] at hpush
      cases hpush
  | pop =>
    obtain ⟨r, hpop, hr⟩ := Option.map_eq_some_iff.mp hstep
    cases hr
    obtain ⟨m, hm, h', _⟩ := pop_simulates hC hpos h hwrap
    rw [hm] at hpop
    cases hpop
    exact ⟨_, h'⟩
  | setCapacity n =>
    obtain ⟨r, hset, hr⟩ := Option.map_eq_some_iff.mp hstep
    cases hr
    obtain ⟨_, m, f', hm, h', _⟩ := setCapacity_returns hC hfuel h n hwrap
    rw [hm] at hset
    cases hset
    exact ⟨f', h'⟩

theorem run_standsFor (hC : SerialIndexQueue.ValidCapacity C) (hfuel : C + 1 < fuel)
    (type : VariantQueueTypes) (ops : List (Operation A))
    (hwrap : Admits (perform C fuel) (NoWrap C) (construct C type) ops) {outs : List (Answer A)}
    (hrun : runOps (perform C fuel) (construct C type) ops = some (outs, q)) :
    ∃ f, q.StandsFor C f :=
  runOps_invariant (I := fun q => ∃ f, q.StandsFor C f)
    (fun _ _ _ _ h hwrap hstep => perform_standsFor hC hfuel h hwrap hstep) ops _ q outs
    ⟨_, standsFor_construct hC type⟩ hwrap hrun

theorem setCapacity_honest_iff_resizable [Nonempty A] (hC : SerialIndexQueue.ValidCapacity C)
    (hfuel : C + 1 < fuel) (type : VariantQueueTypes) (ops : List (Operation A))
    (hwrap : Admits (perform C fuel) (NoWrap C) (construct C type) ops) {outs : List (Answer A)}
    (hrun : runOps (perform C fuel) (construct C type) ops = some (outs, q)) (n : Nat)
    (hresize : q.NoWrap C (.setCapacity n)) : q.Honest C fuel n ↔ q.Resizable C n := by
  obtain ⟨value⟩ := (inferInstance : Nonempty A)
  obtain ⟨f, h⟩ := run_standsFor hC hfuel type ops hwrap hrun
  obtain ⟨result, q', f', hset, h', htrust⟩ := setCapacity_returns hC hfuel h n hresize
  have hbehaves := behaves_iff_usable hC (show 0 < fuel by omega) h' value
  rw [← htrust, ← hbehaves]
  constructor
  · rintro ⟨_, _, hset', hresult, hsame, hafter⟩
    rw [hset] at hset'
    cases hset'
    rw [h'.capacity_eq] at hresult
    refine ⟨hresult, fun hfalse => ?_, hafter⟩
    obtain ⟨hcapacity, helements⟩ := hsame hfalse
    rw [h'.capacity_eq, h.capacity_eq] at hcapacity
    rw [h'.elements_eq hC, h.elements_eq hC] at helements
    cases f'
    cases f
    rw [Fifo.mk.injEq]
    exact ⟨hcapacity, helements⟩
  · rintro ⟨hresult, hsame, hafter⟩
    refine ⟨result, q', hset, ?_, fun hfalse => ?_, hafter⟩
    · rw [h'.capacity_eq]
      exact hresult
    · rw [h'.capacity_eq, h'.elements_eq hC, hsame hfalse, h.capacity_eq, h.elements_eq hC]
      exact ⟨rfl, rfl⟩

theorem setCapacity_honest_two : ∃ outs, ∃ q : SerialVariantQueue Nat,
    runOps (perform 2 4) (construct 2 .soFiMultiProducerSingleConsumer) [.push 5] =
      some (outs, q) ∧
    (q.Honest 2 4 1 ↔ q.Resizable 2 1) := by
  have hC : SerialIndexQueue.ValidCapacity 2 := ⟨by decide, by decide⟩
  have hdvd : 2 ∣ 2 ^ 64 := by decide
  have hwrap : Admits (perform 2 4) (NoWrap 2)
      (construct 2 .soFiMultiProducerSingleConsumer : SerialVariantQueue Nat) [.push 5] :=
    ⟨noWrap_of_dvd hdvd (by decide) _, fun _ _ => trivial⟩
  obtain ⟨q, hrun, _, _, htype⟩ :=
    (perform_simulates hC (show 0 < 4 by decide) .soFiMultiProducerSingleConsumer).run
      [.push 5] (construct 2 .soFiMultiProducerSingleConsumer) _ _ _
      ⟨standsFor_construct hC _, usable_construct hC (by decide), rfl⟩ hwrap rfl
  have hresize : q.NoWrap 2 (.setCapacity 1) := noWrap_of_dvd hdvd (by rw [htype]; decide) _
  exact ⟨_, q, hrun, setCapacity_honest_iff_resizable hC (by decide) _ _ hwrap hrun 1 hresize⟩

theorem setCapacity_not_honest : ∃ outs, ∃ q : SerialVariantQueue Nat,
    runOps (perform 2 4) (construct 2 .soFiSingleProducerSingleConsumer) [.push 5] =
      some (outs, q) ∧
    q.capacity 2 = 2 ∧ q.setCapacity 2 4 1 = some (true, q) ∧ ¬ q.Honest 2 4 1 := by
  have hC : SerialIndexQueue.ValidCapacity 2 := ⟨by decide, by decide⟩
  have hcapacity : (construct 2 .soFiSingleProducerSingleConsumer :
      SerialVariantQueue Nat).capacity 2 = 2 := by decide
  have hconstruct : (construct 2 .soFiSingleProducerSingleConsumer :
      SerialVariantQueue Nat).StandsFor 2 { capacity := 2, elements := [] } :=
    hcapacity ▸ standsFor_construct hC .soFiSingleProducerSingleConsumer
  have hwrap : Admits (perform 2 4) (NoWrap 2)
      (construct 2 .soFiSingleProducerSingleConsumer : SerialVariantQueue Nat) [.push 5] :=
    ⟨show 0 + (2 + 1) % 2 ^ 32 < 2 ^ 64 by decide, fun _ _ => trivial⟩
  obtain ⟨q, hrun, h, _, htype⟩ :=
    (perform_simulates hC (show 0 < 4 by decide) .soFiSingleProducerSingleConsumer).run
      [.push 5] _ _ _ _ ⟨hconstruct, usable_construct hC fun _ => by decide, rfl⟩ hwrap rfl
  have hq : q.capacity 2 = 2 := h.capacity_eq
  have hset : q.setCapacity 2 4 1 = some (true, q) := by
    cases q with
    | soFiSingleProducerSingleConsumer fifo =>
      rcases h.1.setCapacity 1 with ⟨hempty, _⟩ | ⟨_, hset⟩
      · cases hempty
      · rw [setCapacity, hset]
    | _ => cases htype
  refine ⟨_, q, hrun, hq, hset, ?_⟩
  rintro ⟨result, q', hset', hresult, _⟩
  rw [hset] at hset'
  cases hset'
  rw [hq] at hresult
  cases hresult.mp rfl

end SerialVariantQueue

end Iceoryx.Popo
