import Iceoryx.Hoofs.SerialFiFo
import Iceoryx.Lib.Fifo
import Iceoryx.Lib.Refine
import Iceoryx.Lib.Ring
import Iceoryx.Lib.Run

universe u

namespace Iceoryx.Hoofs

/-- Where the producer is in `push`; the two loads of `is_full` come first. -/
inductive PushPc (V : Type u)
  | idle
  | loadWrite (value : V)
  | loadRead (value : V) (writePos : Nat)
  | loadCurrent (value : V)
  | writeBegin (value : V) (currentWritePos : Nat)
  | writing (value : V) (currentWritePos : Nat)
  | publish (value : V) (currentWritePos : Nat)

inductive PopPc (V : Type u)
  | idle
  | loadRead
  | loadWrite (currentReadPos : Nat)
  | copyBegin (currentReadPos : Nat)
  | copying (currentReadPos : Nat) (torn : Bool)
  | advance (currentReadPos : Nat) (out : V)

inductive FiFoCall (V : Type u)
  | push (value : V)
  | pop

inductive FiFoAnswer (V : Type u)
  | pushed (success : Bool)
  | popped (value : Option V)

/-- The queue with its two threads.  The last three fields record the values that were
published, the number of those that were popped, and the calls in the order in which they took
effect: no step reads them. -/
structure FiFo (V : Type u) where
  capacity : Nat
  data : Nat → V
  writePos : Nat := 0
  readPos : Nat := 0
  producer : PushPc V := .idle
  consumer : PopPc V := .idle
  pushed : List V := []
  popped : Nat := 0
  history : List (FiFoCall V × FiFoAnswer V) := []

inductive FiFoStep (V : Type u)
  | push (value : V)
  | loadWrite
  | loadRead
  | loadCurrent
  | writeBegin
  | writeEnd
  | publish
  | pop
  | popLoadRead
  | popLoadWrite
  | copyBegin
  /-- A torn copy yields an arbitrary value. -/
  | copyEnd (arbitrary : V)
  | advance

namespace FiFo

variable {V : Type u}

def writes (s : FiFo V) (slot : Nat) : Bool :=
  match s.producer with
  | .writing _ w => w % s.capacity = slot
  | _ => false

def tear (capacity slot : Nat) : PopPc V → PopPc V
  | .copying r torn => .copying r (torn || r % capacity = slot)
  | pc => pc

def step (s : FiFo V) : FiFoStep V → Option (FiFo V)
  | .push value =>
    match s.producer with
    | .idle => some { s with producer := .loadWrite value }
    | _ => none
  | .loadWrite =>
    match s.producer with
    | .loadWrite value => some { s with producer := .loadRead value s.writePos }
    | _ => none
  | .loadRead =>
    match s.producer with
    | .loadRead value writePos =>
      if writePos = (s.readPos + s.capacity) % 2 ^ 64 then
        some { s with
          producer := .idle
          history := s.history ++ [(.push value, .pushed false)] }
      else some { s with producer := .loadCurrent value }
    | _ => none
  | .loadCurrent =>
    match s.producer with
    | .loadCurrent value => some { s with producer := .writeBegin value s.writePos }
    | _ => none
  | .writeBegin =>
    match s.producer with
    | .writeBegin value w =>
      some { s with
        producer := .writing value w
        consumer := tear s.capacity (w % s.capacity) s.consumer }
    | _ => none
  | .writeEnd =>
    match s.producer with
    | .writing value w =>
      some { s with
        data := Function.update s.data (w % s.capacity) value
        producer := .publish value w }
    | _ => none
  | .publish =>
    match s.producer with
    | .publish value w =>
      some { s with
        writePos := (w + 1) % 2 ^ 64
        producer := .idle
        pushed := s.pushed ++ [value]
        history := s.history ++ [(.push value, .pushed true)] }
    | _ => none
  | .pop =>
    match s.consumer with
    | .idle => some { s with consumer := .loadRead }
    | _ => none
  | .popLoadRead =>
    match s.consumer with
    | .loadRead => some { s with consumer := .loadWrite s.readPos }
    | _ => none
  | .popLoadWrite =>
    match s.consumer with
    | .loadWrite r =>
      if r = s.writePos then
        some { s with
          consumer := .idle
          history := s.history ++ [(.pop, .popped none)] }
      else some { s with consumer := .copyBegin r }
    | _ => none
  | .copyBegin =>
    match s.consumer with
    | .copyBegin r => some { s with consumer := .copying r (s.writes (r % s.capacity)) }
    | _ => none
  | .copyEnd arbitrary =>
    match s.consumer with
    | .copying r torn =>
      let out := if torn then arbitrary else s.data (r % s.capacity)
      some { s with consumer := .advance r out }
    | _ => none
  | .advance =>
    match s.consumer with
    | .advance r out =>
      some { s with
        readPos := (r + 1) % 2 ^ 64
        consumer := .idle
        popped := s.popped + 1
        history := s.history ++ [(.pop, .popped (some out))] }
    | _ => none

def value : FiFoStep V → List V
  | .push value => [value]
  | _ => []

def pushCalls (ls : List (FiFoStep V)) : List V := ls.flatMap value

def pending (s : FiFo V) : List V :=
  match s.producer with
  | .idle => []
  | .loadWrite value | .loadRead value _ | .loadCurrent value | .writeBegin value _
  | .writing value _ | .publish value _ => [value]

def returned (s : FiFo V) : List V :=
  s.history.flatMap fun
    | (.push value, _) => [value]
    | (.pop, _) => []

def called (s : FiFo V) : List V := s.returned ++ s.pending

theorem called_step {s s' : FiFo V} {l : FiFoStep V} (hstep : s.step l = some s') :
    s'.called = s.called ++ value l := by
  cases l <;> simp only [step] at hstep <;> repeat' split at hstep
  all_goals
    cases hstep
    try simp_all [called, returned, pending, value]

theorem capacity_step {s s' : FiFo V} {l : FiFoStep V} (hstep : s.step l = some s') :
    s'.capacity = s.capacity := by
  cases l <;> simp only [step] at hstep <;> repeat' split at hstep
  all_goals
    cases hstep
    try rfl

theorem called_run {s s' : FiFo V} {ls : List (FiFoStep V)}
    (hrun : Lib.runSteps step s ls = some s') : s'.called = s.called ++ pushCalls ls := by
  induction ls generalizing s with
  | nil =>
    cases hrun
    simp [pushCalls]
  | cons l ls ih =>
    obtain ⟨m, hm, hrest⟩ := Lib.runSteps_cons hrun
    rw [ih hrest, called_step hm]
    simp [pushCalls]

def stored (s : FiFo V) : List V := s.pushed.drop s.popped

@[simp] theorem stored_length (s : FiFo V) :
    s.stored.length = s.pushed.length - s.popped := by
  rw [stored, List.length_drop]

def fifo (s : FiFo V) : Lib.Fifo V := { capacity := s.capacity, elements := s.stored }

def call (f : Lib.Fifo V) : FiFoCall V → Option (FiFoAnswer V × Lib.Fifo V)
  | .push value =>
    let (success, f') := f.tryPush value
    some (.pushed success, f')
  | .pop =>
    let (out, f') := f.pop
    some (.popped out, f')

def Explains (capacity : Nat) (history : List (FiFoCall V × FiFoAnswer V)) (f : Lib.Fifo V) :
    Prop :=
  Lib.runOps call { capacity := capacity, elements := [] } (history.map Prod.fst) =
    some (history.map Prod.snd, f)

theorem Explains.concat {capacity : Nat} {history : List (FiFoCall V × FiFoAnswer V)}
    {f f' : Lib.Fifo V} {c : FiFoCall V} {a : FiFoAnswer V}
    (h : Explains capacity history f) (hcall : call f c = some (a, f')) :
    Explains capacity (history ++ [(c, a)]) f' := by
  have hlast : Lib.runOps call f [c] = some ([a], f') := Lib.runOps_cons_eq hcall rfl
  have hboth := Lib.runOps_append_some h hlast
  simpa [Explains] using hboth

/-- What the producer has read of the write position stays true, and a slot that it has found
free stays free. -/
def ProducerOk (s : FiFo V) : PushPc V → Prop
  | .idle => True
  | .loadWrite _ => True
  | .loadRead _ w => w = s.writePos
  | .loadCurrent _ => s.pushed.length < s.popped + s.capacity
  | .writeBegin _ w => w = s.writePos ∧ s.pushed.length < s.popped + s.capacity
  | .writing _ w => w = s.writePos ∧ s.pushed.length < s.popped + s.capacity
  | .publish value w =>
    w = s.writePos ∧ s.pushed.length < s.popped + s.capacity ∧
      s.data (s.pushed.length % s.capacity) = value

def ConsumerOk (s : FiFo V) : PopPc V → Prop
  | .idle => True
  | .loadRead => True
  | .loadWrite r => r = s.readPos
  | .copyBegin r => r = s.readPos ∧ s.popped < s.pushed.length
  | .copying r torn => r = s.readPos ∧ s.popped < s.pushed.length ∧ torn = false
  | .advance r out => r = s.readPos ∧ s.pushed[s.popped]? = some out

structure Inv (s : FiFo V) : Prop where
  capacity_pos : 0 < s.capacity
  capacity_lt : s.capacity < 2 ^ 64
  write : s.writePos = s.pushed.length % 2 ^ 64
  read : s.readPos = s.popped % 2 ^ 64
  popped_le : s.popped ≤ s.pushed.length
  room : s.pushed.length ≤ s.popped + s.capacity
  pushes : s.pushed.length ≤ s.returned.length
  holds : Lib.Ring.Holds s.capacity s.data s.pushed s.popped
  producer : ProducerOk s s.producer
  consumer : ConsumerOk s s.consumer
  explained : Explains s.capacity s.history s.fifo

/-- The positions are counters of 64 bits.  Their slots are those of the numbers they stand for
if the capacity divides `2 ^ 64`, or else as long as no counter has wrapped around. -/
def InRange (s : FiFo V) : Prop := s.capacity ∣ 2 ^ 64 ∨ s.called.length ≤ 2 ^ 64

namespace Inv

variable {s s' : FiFo V}

theorem slot (h : s.Inv) (hrange : s.InRange) {p : Nat}
    (hp : p < s.pushed.length ∨ p = s.pushed.length ∧ s.pending ≠ []) :
    p % 2 ^ 64 % s.capacity = p % s.capacity := by
  refine SerialFiFo.slot_eq (hrange.imp_right fun hcalled => ?_)
  have hpushes := h.pushes
  rw [called, List.length_append] at hcalled
  rcases hp with hlt | ⟨rfl, hpending⟩
  · omega
  · have := List.length_pos_of_ne_nil hpending
    omega

theorem produce (h : s.Inv) {pc : PushPc V} (hpc : ProducerOk s pc) :
    Inv { s with producer := pc } where
  capacity_pos := h.capacity_pos
  capacity_lt := h.capacity_lt
  write := h.write
  read := h.read
  popped_le := h.popped_le
  room := h.room
  pushes := h.pushes
  holds := h.holds
  producer := hpc
  consumer := h.consumer
  explained := h.explained

theorem consume (h : s.Inv) {pc : PopPc V} (hpc : ConsumerOk s pc) :
    Inv { s with consumer := pc } where
  capacity_pos := h.capacity_pos
  capacity_lt := h.capacity_lt
  write := h.write
  read := h.read
  popped_le := h.popped_le
  room := h.room
  pushes := h.pushes
  holds := h.holds
  producer := h.producer
  consumer := hpc
  explained := h.explained

theorem answer (h : s.Inv) {c : FiFoCall V} {a : FiFoAnswer V}
    (hcall : call s.fifo c = some (a, s.fifo)) : Inv { s with history := s.history ++ [(c, a)] } where
  capacity_pos := h.capacity_pos
  capacity_lt := h.capacity_lt
  write := h.write
  read := h.read
  popped_le := h.popped_le
  room := h.room
  pushes := by
    simp only [returned, List.flatMap_append, List.length_append]
    exact h.pushes.trans (Nat.le_add_right _ _)
  holds := h.holds
  producer := h.producer
  consumer := h.consumer
  explained := h.explained.concat hcall

theorem full_iff (h : s.Inv) :
    s.writePos = (s.readPos + s.capacity) % 2 ^ 64 ↔ s.stored.length = s.capacity := by
  have hle := h.popped_le
  have hroom := h.room
  have hlt := h.capacity_lt
  have hpos := h.capacity_pos
  rw [stored_length, h.write, h.read]
  omega

theorem empty_iff (h : s.Inv) : s.readPos = s.writePos ↔ s.stored = [] := by
  have hle := h.popped_le
  have hroom := h.room
  have hlt := h.capacity_lt
  rw [← List.length_eq_zero_iff, stored_length, h.write, h.read]
  omega

theorem loadRead (h : s.Inv) (hstep : s.step .loadRead = some s') : s'.Inv := by
  simp only [FiFo.step] at hstep
  split at hstep
  · next value w hpc =>
    have hw : w = s.writePos := by
      have := h.producer
      rwa [hpc] at this
    subst hw
    split at hstep
    · next hfull =>
      cases hstep
      have hcall : call s.fifo (.push value) = some (.pushed false, s.fifo) := by
        have hlen := (h.full_iff).mp hfull
        simp only [call, Lib.Fifo.tryPush, fifo, hlen, lt_irrefl, if_false]
      exact (h.answer hcall).produce trivial
    · next hfree =>
      cases hstep
      have hlen := mt (h.full_iff).mpr hfree
      rw [stored_length] at hlen
      have hroom := h.room
      refine h.produce ?_
      simp only [ProducerOk]
      omega
  · cases hstep

theorem tear (h : s.Inv) (hrange : s.InRange) {value : V}
    (hpc : s.producer = .writeBegin value s.writePos)
    (hfree : s.pushed.length < s.popped + s.capacity) :
    ConsumerOk s (FiFo.tear s.capacity (s.writePos % s.capacity) s.consumer) := by
  have hconsumer := h.consumer
  cases hcopy : s.consumer with
  | copying r torn =>
    rw [hcopy] at hconsumer
    obtain ⟨rfl, hlt, rfl⟩ := hconsumer
    have hpending : s.pending ≠ [] := by simp [pending, hpc]
    have hslot : s.readPos % s.capacity ≠ s.writePos % s.capacity := by
      rw [h.read, h.write, h.slot hrange (Or.inl hlt), h.slot hrange (Or.inr ⟨rfl, hpending⟩)]
      exact (Lib.Ring.mod_ne hlt hfree).symm
    exact ⟨rfl, hlt, by simpa using hslot⟩
  | _ => simpa [FiFo.tear, hcopy] using hconsumer

theorem writeBegin (h : s.Inv) (hrange : s.InRange) {value : V} {w : Nat}
    (hpc : s.producer = .writeBegin value w) :
    Inv { s with
      producer := .writing value w
      consumer := FiFo.tear s.capacity (w % s.capacity) s.consumer } := by
  have hproducer := h.producer
  rw [hpc] at hproducer
  obtain ⟨rfl, hfree⟩ := hproducer
  exact (h.consume (h.tear hrange hpc hfree)).produce ⟨rfl, hfree⟩

theorem writeEnd (h : s.Inv) (hrange : s.InRange) {value : V} {w : Nat}
    (hpc : s.producer = .writing value w) :
    Inv { s with
      data := Function.update s.data (w % s.capacity) value
      producer := .publish value w } := by
  have hproducer := h.producer
  rw [hpc] at hproducer
  obtain ⟨rfl, hfree⟩ := hproducer
  have hslot : s.writePos % s.capacity = s.pushed.length % s.capacity := by
    rw [h.write, h.slot hrange (Or.inr ⟨rfl, by simp [pending, hpc]⟩)]
  rw [hslot]
  exact {
    capacity_pos := h.capacity_pos
    capacity_lt := h.capacity_lt
    write := h.write
    read := h.read
    popped_le := h.popped_le
    room := h.room
    pushes := h.pushes
    holds := h.holds.write hfree value
    producer := ⟨rfl, hfree, Function.update_self ..⟩
    consumer := h.consumer
    explained := h.explained }

theorem consumer_push (h : s.Inv) (value : V) {writePos : Nat} {pc : PushPc V}
    {history : List (FiFoCall V × FiFoAnswer V)} :
    ConsumerOk { s with
      writePos := writePos
      producer := pc
      pushed := s.pushed ++ [value]
      history := history } s.consumer := by
  have hconsumer := h.consumer
  cases hpc : s.consumer with
  | idle => trivial
  | loadRead => trivial
  | loadWrite r => rwa [hpc] at hconsumer
  | copyBegin r =>
    rw [hpc] at hconsumer
    exact ⟨hconsumer.1, by simp only [List.length_append]; have := hconsumer.2; omega⟩
  | copying r torn =>
    rw [hpc] at hconsumer
    exact ⟨hconsumer.1, by simp only [List.length_append]; have := hconsumer.2.1; omega,
      hconsumer.2.2⟩
  | advance r out =>
    rw [hpc] at hconsumer
    refine ⟨hconsumer.1, ?_⟩
    rw [List.getElem?_append_left (List.getElem?_eq_some_iff.mp hconsumer.2).1]
    exact hconsumer.2

theorem publish (h : s.Inv) {value : V} {w : Nat} (hpc : s.producer = .publish value w) :
    Inv { s with
      writePos := (w + 1) % 2 ^ 64
      producer := .idle
      pushed := s.pushed ++ [value]
      history := s.history ++ [(.push value, .pushed true)] } := by
  have hproducer := h.producer
  rw [hpc] at hproducer
  obtain ⟨rfl, hfree, hvalue⟩ := hproducer
  have hle := h.popped_le
  have hcall : call s.fifo (.push value) =
      some (.pushed true, { s.fifo with elements := s.stored ++ [value] }) := by
    have hlen : s.stored.length < s.capacity := by
      rw [stored_length]
      omega
    simp only [call, Lib.Fifo.tryPush, fifo, hlen, if_true]
  exact {
    capacity_pos := h.capacity_pos
    capacity_lt := h.capacity_lt
    write := by simp only [h.write, List.length_append, List.length_singleton, Nat.mod_add_mod]
    read := h.read
    popped_le := by
      simp only [List.length_append]
      omega
    room := by
      simp only [List.length_append, List.length_singleton]
      omega
    pushes := by
      have hpushes := h.pushes
      rw [returned] at hpushes
      simp only [returned, List.flatMap_append, List.length_append, List.flatMap_singleton]
      simpa using hpushes
    holds := h.holds.push hvalue
    producer := trivial
    consumer := h.consumer_push value
    explained := by
      have hnext := h.explained.concat hcall
      rwa [stored, ← List.drop_append_of_le_length hle] at hnext }

theorem popLoadWrite (h : s.Inv) (hstep : s.step .popLoadWrite = some s') : s'.Inv := by
  simp only [FiFo.step] at hstep
  split at hstep
  · next r hpc =>
    have hr : r = s.readPos := by
      have := h.consumer
      rwa [hpc] at this
    subst hr
    split at hstep
    · next hempty =>
      cases hstep
      have hnil := (h.empty_iff).mp hempty
      have hcall : call s.fifo .pop = some (.popped none, s.fifo) := by
        simp only [call, Lib.Fifo.pop, fifo, hnil, List.head?_nil, List.tail_nil]
      exact (h.answer hcall).consume trivial
    · next hne =>
      cases hstep
      have hlen := mt List.length_eq_zero_iff.mp (mt (h.empty_iff).mpr hne)
      rw [stored_length] at hlen
      refine h.consume ⟨rfl, ?_⟩
      omega
  · cases hstep

theorem writes_eq_false (h : s.Inv) (hrange : s.InRange) (hlt : s.popped < s.pushed.length) :
    s.writes (s.readPos % s.capacity) = false := by
  unfold writes
  split
  · next value w hpc =>
    have hproducer := h.producer
    rw [hpc] at hproducer
    obtain ⟨rfl, hfree⟩ := hproducer
    rw [h.read, h.write, h.slot hrange (Or.inl hlt),
      h.slot hrange (Or.inr ⟨rfl, by simp [pending, hpc]⟩)]
    simpa using Lib.Ring.mod_ne hlt hfree
  · rfl

theorem copyEnd (h : s.Inv) (hrange : s.InRange) {r : Nat} {torn : Bool}
    (hpc : s.consumer = .copying r torn) (arbitrary : V) :
    Inv { s with
      consumer := .advance r (if torn then arbitrary else s.data (r % s.capacity)) } := by
  have hconsumer := h.consumer
  rw [hpc] at hconsumer
  obtain ⟨rfl, hlt, rfl⟩ := hconsumer
  have hv := List.getElem?_eq_getElem hlt
  refine h.consume ⟨rfl, ?_⟩
  rw [h.read, h.slot hrange (Or.inl hlt), h.holds _ _ le_rfl hv]
  exact hv

theorem producer_pop (h : s.Inv) {readPos : Nat} {pc : PopPc V}
    {history : List (FiFoCall V × FiFoAnswer V)} :
    ProducerOk { s with
      readPos := readPos
      consumer := pc
      popped := s.popped + 1
      history := history } s.producer := by
  have hproducer := h.producer
  cases hpc : s.producer with
  | idle => trivial
  | loadWrite value => trivial
  | loadRead value w => rwa [hpc] at hproducer
  | loadCurrent value =>
    rw [hpc] at hproducer
    exact Nat.lt_of_lt_of_le hproducer (by simp only; omega)
  | writeBegin value w =>
    rw [hpc] at hproducer
    exact ⟨hproducer.1, Nat.lt_of_lt_of_le hproducer.2 (by simp only; omega)⟩
  | writing value w =>
    rw [hpc] at hproducer
    exact ⟨hproducer.1, Nat.lt_of_lt_of_le hproducer.2 (by simp only; omega)⟩
  | publish value w =>
    rw [hpc] at hproducer
    exact ⟨hproducer.1, Nat.lt_of_lt_of_le hproducer.2.1 (by simp only; omega), hproducer.2.2⟩

theorem advance (h : s.Inv) {r : Nat} {out : V} (hpc : s.consumer = .advance r out) :
    Inv { s with
      readPos := (r + 1) % 2 ^ 64
      consumer := .idle
      popped := s.popped + 1
      history := s.history ++ [(.pop, .popped (some out))] } := by
  have hconsumer := h.consumer
  rw [hpc] at hconsumer
  obtain ⟨rfl, hout⟩ := hconsumer
  have hlt := (List.getElem?_eq_some_iff.mp hout).1
  have hcall : call s.fifo .pop =
      some (.popped (some out), { s.fifo with elements := s.stored.tail }) := by
    simp only [call, Lib.Fifo.pop, fifo, stored, List.head?_drop, hout]
  have hroom := h.room
  exact {
    capacity_pos := h.capacity_pos
    capacity_lt := h.capacity_lt
    write := h.write
    read := by simp only [h.read, Nat.mod_add_mod]
    popped_le := hlt
    room := by
      simp only
      omega
    pushes := by
      simp only [returned, List.flatMap_append, List.length_append]
      exact h.pushes.trans (Nat.le_add_right _ _)
    holds := h.holds.advance (Nat.le_succ _)
    producer := h.producer_pop
    consumer := trivial
    explained := by
      have hnext := h.explained.concat hcall
      rwa [stored, List.tail_drop] at hnext }

theorem step {l : FiFoStep V} (h : s.Inv) (hrange : s.InRange) (hstep : s.step l = some s') :
    s'.Inv := by
  cases l with
  | push value =>
    simp only [FiFo.step] at hstep
    split at hstep
    · cases hstep
      exact h.produce trivial
    · cases hstep
  | loadWrite =>
    simp only [FiFo.step] at hstep
    split at hstep
    · cases hstep
      exact h.produce rfl
    · cases hstep
  | loadRead => exact h.loadRead hstep
  | loadCurrent =>
    simp only [FiFo.step] at hstep
    split at hstep
    · next value hpc =>
      cases hstep
      have hproducer := h.producer
      rw [hpc] at hproducer
      exact h.produce ⟨rfl, hproducer⟩
    · cases hstep
  | writeBegin =>
    simp only [FiFo.step] at hstep
    split at hstep
    · next hpc =>
      cases hstep
      exact h.writeBegin hrange hpc
    · cases hstep
  | writeEnd =>
    simp only [FiFo.step] at hstep
    split at hstep
    · next hpc =>
      cases hstep
      exact h.writeEnd hrange hpc
    · cases hstep
  | publish =>
    simp only [FiFo.step] at hstep
    split at hstep
    · next hpc =>
      cases hstep
      exact h.publish hpc
    · cases hstep
  | pop =>
    simp only [FiFo.step] at hstep
    split at hstep
    · cases hstep
      exact h.consume trivial
    · cases hstep
  | popLoadRead =>
    simp only [FiFo.step] at hstep
    split at hstep
    · cases hstep
      exact h.consume rfl
    · cases hstep
  | popLoadWrite => exact h.popLoadWrite hstep
  | copyBegin =>
    simp only [FiFo.step] at hstep
    split at hstep
    · next r hpc =>
      cases hstep
      have hconsumer := h.consumer
      rw [hpc] at hconsumer
      obtain ⟨rfl, hlt⟩ := hconsumer
      exact h.consume ⟨rfl, hlt, h.writes_eq_false hrange hlt⟩
    · cases hstep
  | copyEnd arbitrary =>
    simp only [FiFo.step] at hstep
    split at hstep
    · next hpc =>
      cases hstep
      exact h.copyEnd hrange hpc arbitrary
    · cases hstep
  | advance =>
    simp only [FiFo.step] at hstep
    split at hstep
    · next hpc =>
      cases hstep
      exact h.advance hpc
    · cases hstep

theorem start {capacity : Nat} (hpos : 0 < capacity) (hlt : capacity < 2 ^ 64) (data : Nat → V) :
    Inv { capacity := capacity, data := data } where
  capacity_pos := hpos
  capacity_lt := hlt
  write := rfl
  read := rfl
  popped_le := le_rfl
  room := Nat.zero_le _
  pushes := le_rfl
  holds := Lib.Ring.Holds.nil capacity data 0
  producer := trivial
  consumer := trivial
  explained := rfl

theorem run {ls : List (FiFoStep V)} (h : s.Inv) (hrun : Lib.runSteps FiFo.step s ls = some s')
    (hrange : s.capacity ∣ 2 ^ 64 ∨ s.called.length + (pushCalls ls).length ≤ 2 ^ 64) :
    s'.Inv := by
  induction ls generalizing s with
  | nil =>
    cases hrun
    exact h
  | cons l ls ih =>
    obtain ⟨m, hm, hrest⟩ := Lib.runSteps_cons hrun
    have hcalled := called_step hm
    have hinit : s.InRange := hrange.imp_right fun hle => (Nat.le_add_right _ _).trans hle
    refine ih (h.step hinit hm) hrest ?_
    rw [capacity_step hm, hcalled]
    refine hrange.imp_right fun hle => ?_
    simpa [pushCalls, Nat.add_assoc] using hle

end Inv

/-- Whatever the two threads do in whatever order, their calls are those of a bounded fifo that
is used by one call at a time: no value is lost, doubled, torn or overtaken, a push is refused
only when the fifo is full, and a pop comes back empty only when there is nothing in it. -/
theorem linearizable {capacity : Nat} (hpos : 0 < capacity) (hlt : capacity < 2 ^ 64)
    (data : Nat → V) (ls : List (FiFoStep V)) {s : FiFo V}
    (hrun : Lib.runSteps step { capacity := capacity, data := data } ls = some s)
    (hrange : capacity ∣ 2 ^ 64 ∨ (pushCalls ls).length ≤ 2 ^ 64) :
    Explains capacity s.history s.fifo ∧
    s.returned ++ s.pending = pushCalls ls ∧
    (∀ k v, s.stored[k]? = some v → s.data ((s.popped + k) % capacity) = v) ∧
    s.stored.length ≤ capacity := by
  have hcap : s.capacity = capacity := by
    refine Lib.runSteps_invariant (C := fun _ _ => True) (I := fun t => t.capacity = capacity) ?_
      ls _ _ rfl (Lib.meets_true ls _) hrun
    intro t l t' ht _ hstep
    rw [capacity_step hstep, ht]
  have h := (Inv.start hpos hlt data).run hrun (hrange.imp_right fun hle => by
    simpa [called, returned, pending] using hle)
  have hcalled := called_run hrun
  have hexplained := h.explained
  have hholds := h.holds
  have hroom := h.room
  rw [hcap] at hexplained hholds hroom
  refine ⟨hexplained, by simpa [called, returned, pending] using hcalled, ?_, ?_⟩
  · intro k v hv
    rw [stored, List.getElem?_drop] at hv
    exact hholds _ _ (Nat.le_add_right _ _) hv
  · rw [stored_length]
    omega

def overlap : List (FiFoStep Nat) :=
  [.push 7, .loadWrite, .loadRead, .loadCurrent, .writeBegin, .writeEnd, .publish, .push 8,
    .loadWrite, .loadRead, .loadCurrent, .pop, .popLoadRead, .popLoadWrite, .copyBegin,
    .writeBegin, .copyEnd 9, .writeEnd, .advance, .publish, .push 5, .loadWrite, .loadRead]

theorem linearizable_overlap : ∃ s,
    Lib.runSteps step { capacity := 2, data := fun _ => 0 } overlap = some s ∧
    Explains 2 s.history s.fifo := by
  obtain ⟨s, hs⟩ : ∃ s, Lib.runSteps step { capacity := 2, data := fun _ => 0 } overlap = some s :=
    ⟨_, rfl⟩
  exact ⟨s, hs, (linearizable (by decide) (by decide) _ overlap hs (Or.inr (by decide))).1⟩

end FiFo

end Iceoryx.Hoofs
