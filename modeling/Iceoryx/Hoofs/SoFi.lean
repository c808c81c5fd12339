import Iceoryx.Lib.Ring
import Iceoryx.Lib.Run

universe u

namespace Iceoryx.Hoofs

inductive ProducerPc (V : Type u)
  | idle
  | loadWrite (value : V)
  | writeBegin (value : V) (currentWritePosition : Nat)
  | writing (value : V) (currentWritePosition : Nat)
  | publish (value : V) (currentWritePosition : Nat)
  | loadRead (nextWritePosition : Nat)
  | exchange (currentReadPosition : Nat)
  | copyOverflow (currentReadPosition : Nat)

inductive ConsumerPc (V : Type u)
  | idle
  | loadRead (verificator : V → Bool)
  | checkEmpty (verificator : V → Bool) (currentReadPosition : Nat)
  | copyBegin (verificator : V → Bool) (currentReadPosition : Nat)
  | copying (verificator : V → Bool) (currentReadPosition : Nat) (torn : Bool)
  | validate (verificator : V → Bool) (currentReadPosition : Nat) (valueOut : V)
  | exchange (verificator : V → Bool) (currentReadPosition : Nat) (outcome : Option V)

inductive Exit
  | pop | overflow
  deriving DecidableEq, Repr

/-- The queue with its two threads.  The last four fields record what was pushed, what
left the queue in which way, and what the calls returned: no step reads them. -/
structure SoFi (V : Type u) where
  size : Nat
  data : Nat → V
  readPosition : Nat := 0
  writePosition : Nat := 0
  producer : ProducerPc V := .idle
  consumer : ConsumerPc V := .idle
  pushed : List V := []
  leaving : List (Exit × V) := []
  pops : List ((V → Bool) × V) := []
  overflows : List V := []

inductive SoFiStep (V : Type u)
  | push (value : V)
  | loadWrite
  | writeBegin
  | writeEnd
  | publish
  | loadRead
  | exchange
  | copyOverflow
  | popIf (verificator : V → Bool)
  | popLoadRead
  | checkEmpty
  | copyBegin
  /-- A torn copy yields an arbitrary value. -/
  | copyEnd (arbitrary : V)
  | validate
  | popExchange (spurious : Bool)

namespace SoFi

variable {V : Type u}

/-- The constructor; `INTERNAL_SOFI_SIZE` has 32 bits. -/
def create (capacityValue : Nat) (data : Nat → V) : SoFi V :=
  { size := (capacityValue + 1) % 2 ^ 32, data := data }

/-- `false` of the source is `none`. -/
def setCapacity (capacityValue newSize : Nat) (s : SoFi V) : Option (SoFi V) :=
  let newInternalSize := (newSize + 1) % 2 ^ 64
  if s.readPosition = s.writePosition ∧ newInternalSize ≤ (capacityValue + 1) % 2 ^ 32 then
    some { s with size := newInternalSize, readPosition := 0, writePosition := 0 }
  else none

def capacity (s : SoFi V) : Nat := s.size - 1

def writes (s : SoFi V) (slot : Nat) : Bool :=
  match s.producer with
  | .writing _ w => w % s.size = slot
  | _ => false

/-- What a write that begins does to a copy that is under way. -/
def tear (size slot : Nat) : ConsumerPc V → ConsumerPc V
  | .copying verificator r torn => .copying verificator r (torn || r % size = slot)
  | pc => pc

def step (s : SoFi V) : SoFiStep V → Option (SoFi V)
  | .push value =>
    match s.producer with
    | .idle => some { s with producer := .loadWrite value }
    | _ => none
  | .loadWrite =>
    match s.producer with
    | .loadWrite value => some { s with producer := .writeBegin value s.writePosition }
    | _ => none
  | .writeBegin =>
    match s.producer with
    | .writeBegin value w =>
      some { s with
        producer := .writing value w
        consumer := tear s.size (w % s.size) s.consumer }
    | _ => none
  | .writeEnd =>
    match s.producer with
    | .writing value w =>
      some { s with
        data := Function.update s.data (w % s.size) value
        producer := .publish value w }
    | _ => none
  | .publish =>
    match s.producer with
    | .publish value w =>
      some { s with
        writePosition := (w + 1) % 2 ^ 64
        pushed := s.pushed ++ [value]
        producer := .loadRead ((w + 1) % 2 ^ 64) }
    | _ => none
  | .loadRead =>
    match s.producer with
    | .loadRead nextWritePosition =>
      if nextWritePosition < (s.readPosition + s.size) % 2 ^ 64 then
        some { s with producer := .idle }
      else some { s with producer := .exchange s.readPosition }
    | _ => none
  | .exchange =>
    match s.producer with
    | .exchange r =>
      if s.readPosition = r then
        some { s with
          readPosition := (r + 1) % 2 ^ 64
          leaving := s.leaving ++ [(.overflow, s.data (r % s.size))]
          producer := .copyOverflow r }
      else some { s with producer := .idle }
    | _ => none
  | .copyOverflow =>
    match s.producer with
    | .copyOverflow r =>
      some { s with
        overflows := s.overflows ++ [s.data (r % s.size)]
        producer := .idle }
    | _ => none
  | .popIf verificator =>
    match s.consumer with
    | .idle => some { s with consumer := .loadRead verificator }
    | _ => none
  | .popLoadRead =>
    match s.consumer with
    | .loadRead verificator =>
      some { s with consumer := .checkEmpty verificator s.readPosition }
    | _ => none
  | .checkEmpty =>
    match s.consumer with
    | .checkEmpty verificator r =>
      if r = s.writePosition then some { s with consumer := .exchange verificator r none }
      else some { s with consumer := .copyBegin verificator r }
    | _ => none
  | .copyBegin =>
    match s.consumer with
    | .copyBegin verificator r =>
      some { s with consumer := .copying verificator r (s.writes (r % s.size)) }
    | _ => none
  | .copyEnd arbitrary =>
    match s.consumer with
    | .copying verificator r torn =>
      let valueOut := if torn then arbitrary else s.data (r % s.size)
      some { s with consumer := .validate verificator r valueOut }
    | _ => none
  | .validate =>
    match s.consumer with
    | .validate verificator r valueOut =>
      if s.readPosition = r ∧ verificator valueOut = false then
        some { s with consumer := .exchange verificator r none }
      else some { s with consumer := .exchange verificator r (some valueOut) }
    | _ => none
  | .popExchange spurious =>
    match s.consumer with
    | .exchange verificator r outcome =>
      if s.readPosition = r ∧ !spurious then
        match outcome with
        | some valueOut =>
          some { s with
            readPosition := (r + 1) % 2 ^ 64
            leaving := s.leaving ++ [(.pop, valueOut)]
            pops := s.pops ++ [(verificator, valueOut)]
            consumer := .idle }
        | none => some { s with consumer := .idle }
      else some { s with consumer := .checkEmpty verificator s.readPosition }
    | _ => none

def value : SoFiStep V → List V
  | .push value => [value]
  | _ => []

def pushCalls (ls : List (SoFiStep V)) : List V := ls.flatMap value

def pending (s : SoFi V) : List V :=
  match s.producer with
  | .loadWrite value | .writeBegin value _ | .writing value _ | .publish value _ => [value]
  | _ => []

def called (s : SoFi V) : List V := s.pushed ++ s.pending

theorem called_step {s s' : SoFi V} {l : SoFiStep V} (hstep : s.step l = some s') :
    s'.called = s.called ++ value l := by
  cases l <;> simp only [step] at hstep <;> repeat' split at hstep
  all_goals
    cases hstep
    try simp_all [called, pending, value]

theorem size_step {s s' : SoFi V} {l : SoFiStep V} (hstep : s.step l = some s') :
    s'.size = s.size := by
  cases l <;> simp only [step] at hstep <;> repeat' split at hstep
  all_goals
    cases hstep
    try rfl

/-- Only while a pushed value is not yet checked for an overflow the ring may be full. -/
def ProducerOk (size : Nat) (data : Nat → V) (r w : Nat) : ProducerPc V → Prop
  | .idle => w < r + size
  | .loadWrite _ => w < r + size
  | .writeBegin _ w' => w' = w ∧ w < r + size
  | .writing _ w' => w' = w ∧ w < r + size
  | .publish value w' => w' = w ∧ w < r + size ∧ data (w % size) = value
  | .loadRead w' => w' = w ∧ w ≤ r + size
  | .exchange r' => r' ≤ r ∧ w = r' + size
  | .copyOverflow _ => w < r + size

/-- What the consumer has read is only relied on while nobody else has moved the read
position. -/
def ConsumerOk (r w : Nat) (pushed : List V) : ConsumerPc V → Prop
  | .idle => True
  | .loadRead _ => True
  | .checkEmpty _ r' => r' ≤ r
  | .copyBegin _ r' => r' ≤ r ∧ r' < w
  | .copying _ r' torn => r' ≤ r ∧ r' < w ∧ (r = r' → torn = false)
  | .validate _ r' valueOut => r' ≤ r ∧ r' < w ∧ (r = r' → pushed[r']? = some valueOut)
  | .exchange _ r' none => r' ≤ r
  | .exchange verificator r' (some valueOut) =>
    r' ≤ r ∧ r' < w ∧ (r = r' → pushed[r']? = some valueOut ∧ verificator valueOut = true)

def inFlight (s : SoFi V) : List V :=
  match s.producer with
  | .copyOverflow r => [s.data (r % s.size)]
  | _ => []

def left (e : Exit) (leaving : List (Exit × V)) : List V :=
  (leaving.filter (·.1 = e)).map Prod.snd

structure Inv (s : SoFi V) : Prop where
  size_pos : 0 < s.size
  written : s.pushed.length = s.writePosition
  read_le : s.readPosition ≤ s.writePosition
  left : s.leaving.map Prod.snd = s.pushed.take s.readPosition
  holds : Lib.Ring.Holds s.size s.data s.pushed s.readPosition
  producer : ProducerOk s.size s.data s.readPosition s.writePosition s.producer
  consumer : ConsumerOk s.readPosition s.writePosition s.pushed s.consumer
  pops : s.pops.map Prod.snd = SoFi.left .pop s.leaving
  verified : ∀ x ∈ s.pops, x.1 x.2 = true
  overflows : s.overflows ++ s.inFlight = SoFi.left .overflow s.leaving

theorem left_concat (e e' : Exit) (leaving : List (Exit × V)) (v : V) :
    left e (leaving ++ [(e', v)]) = left e leaving ++ if e' = e then [v] else [] := by
  by_cases h : e' = e <;> simp [left, h]

theorem ProducerOk.mono {size : Nat} {data : Nat → V} {r r' w : Nat} {pc : ProducerPc V}
    (h : ProducerOk size data r w pc) (hr : r ≤ r') : ProducerOk size data r' w pc := by
  cases pc with
  | idle => exact Nat.lt_of_lt_of_le h (by omega)
  | loadWrite _ => exact Nat.lt_of_lt_of_le h (by omega)
  | writeBegin _ _ => exact ⟨h.1, by have := h.2; omega⟩
  | writing _ _ => exact ⟨h.1, by have := h.2; omega⟩
  | publish _ _ => exact ⟨h.1, by have := h.2.1; omega, h.2.2⟩
  | loadRead _ => exact ⟨h.1, by have := h.2; omega⟩
  | exchange _ => exact ⟨h.1.trans hr, h.2⟩
  | copyOverflow _ => exact Nat.lt_of_lt_of_le h (by omega)

theorem ConsumerOk.mono {r r' w w' : Nat} {pushed : List V} {pc : ConsumerPc V}
    (h : ConsumerOk r w pushed pc) (more : List V) (hr : r ≤ r') (hw : w ≤ w') :
    ConsumerOk r' w' (pushed ++ more) pc := by
  have hsame : ∀ {c : Nat}, c ≤ r → r' = c → r = c := by
    intro c hc hc'
    omega
  have happend : ∀ {c : Nat} {v : V}, pushed[c]? = some v → (pushed ++ more)[c]? = some v := by
    intro c v hv
    rw [List.getElem?_append_left (List.getElem?_eq_some_iff.mp hv).1, hv]
  match pc, h with
  | .idle, _ => trivial
  | .loadRead _, _ => trivial
  | .checkEmpty _ _, h => exact h.trans hr
  | .copyBegin _ _, h => exact ⟨h.1.trans hr, h.2.trans_le hw⟩
  | .copying _ _ _, h => exact ⟨h.1.trans hr, h.2.1.trans_le hw, fun hc => h.2.2 (hsame h.1 hc)⟩
  | .validate _ _ _, h =>
    exact ⟨h.1.trans hr, h.2.1.trans_le hw, fun hc => happend (h.2.2 (hsame h.1 hc))⟩
  | .exchange _ _ none, h => exact Nat.le_trans h hr
  | .exchange _ _ (some _), h =>
    refine ⟨h.1.trans hr, h.2.1.trans_le hw, fun hc => ?_⟩
    obtain ⟨hv, hok⟩ := h.2.2 (hsame h.1 hc)
    exact ⟨happend hv, hok⟩

theorem ConsumerOk.tear {size r w : Nat} {pushed : List V} {pc : ConsumerPc V}
    (h : ConsumerOk r w pushed pc) (hfree : w < r + size) :
    ConsumerOk r w pushed (SoFi.tear size (w % size) pc) := by
  match pc, h with
  | .idle, h => exact h
  | .loadRead _, h => exact h
  | .checkEmpty _ _, h => exact h
  | .copyBegin _ _, h => exact h
  | .copying _ r' torn, h =>
    refine ⟨h.1, h.2.1, fun hr => ?_⟩
    have hslot : r' % size ≠ w % size := (Lib.Ring.mod_ne h.2.1 (by omega)).symm
    rw [h.2.2 hr]
    simpa using hslot
  | .validate _ _ _, h => exact h
  | .exchange _ _ none, h => exact h
  | .exchange _ _ (some _), h => exact h

namespace Inv

theorem produce {s : SoFi V} (h : s.Inv) {pc : ProducerPc V}
    (hpc : ProducerOk s.size s.data s.readPosition s.writePosition pc)
    (hflight : SoFi.inFlight { s with producer := pc } = s.inFlight) :
    Inv { s with producer := pc } where
  size_pos := h.size_pos
  written := h.written
  read_le := h.read_le
  left := h.left
  holds := h.holds
  producer := hpc
  consumer := h.consumer
  pops := h.pops
  verified := h.verified
  overflows := by
    rw [hflight]
    exact h.overflows

theorem consume {s : SoFi V} (h : s.Inv) {pc : ConsumerPc V}
    (hpc : ConsumerOk s.readPosition s.writePosition s.pushed pc) :
    Inv { s with consumer := pc } where
  size_pos := h.size_pos
  written := h.written
  read_le := h.read_le
  left := h.left
  holds := h.holds
  producer := h.producer
  consumer := hpc
  pops := h.pops
  verified := h.verified
  overflows := h.overflows

theorem getElem?_read {s : SoFi V} (h : s.Inv) (hlt : s.readPosition < s.writePosition) :
    s.pushed[s.readPosition]? = some (s.data (s.readPosition % s.size)) := by
  have hlen : s.readPosition < s.pushed.length := by
    rw [h.written]
    exact hlt
  have hv := List.getElem?_eq_getElem hlen
  rw [hv, h.holds _ _ le_rfl hv]

theorem left_succ {s : SoFi V} (h : s.Inv) {e : Exit} {v : V}
    (hv : s.pushed[s.readPosition]? = some v) :
    (s.leaving ++ [(e, v)]).map Prod.snd = s.pushed.take (s.readPosition + 1) := by
  rw [List.map_append, h.left, List.take_add_one, hv]
  rfl

theorem writeBegin {s s' : SoFi V} (h : s.Inv) (hstep : s.step .writeBegin = some s') :
    s'.Inv := by
  simp only [step] at hstep
  split at hstep
  · next value w hpc =>
    cases hstep
    have hproducer := h.producer
    rw [hpc] at hproducer
    obtain ⟨rfl, hfree⟩ := hproducer
    have hmove := h.consume (h.consumer.tear hfree)
    exact hmove.produce ⟨rfl, hfree⟩ (by simp [inFlight, hpc])
  · cases hstep

theorem writeEnd {s s' : SoFi V} (h : s.Inv) (hstep : s.step .writeEnd = some s') : s'.Inv := by
  simp only [step] at hstep
  split at hstep
  · next value w hpc =>
    cases hstep
    have hproducer := h.producer
    rw [hpc] at hproducer
    obtain ⟨rfl, hfree⟩ := hproducer
    have hholds : Lib.Ring.Holds s.size (Function.update s.data (s.writePosition % s.size) value)
        s.pushed s.readPosition := by
      rw [← h.written]
      exact h.holds.write (by rw [h.written]; exact hfree) value
    exact {
      size_pos := h.size_pos
      written := h.written
      read_le := h.read_le
      left := h.left
      holds := hholds
      producer := ⟨rfl, hfree, Function.update_self ..⟩
      consumer := h.consumer
      pops := h.pops
      verified := h.verified
      overflows := by simpa [inFlight, hpc] using h.overflows }
  · cases hstep

theorem publish {s s' : SoFi V} (h : s.Inv) (hstep : s.step .publish = some s')
    (hbound : s.writePosition + 1 < 2 ^ 64) : s'.Inv := by
  simp only [step] at hstep
  split at hstep
  · next value w hpc =>
    cases hstep
    have hproducer := h.producer
    rw [hpc] at hproducer
    obtain ⟨rfl, hfree, hvalue⟩ := hproducer
    rw [Nat.mod_eq_of_lt hbound]
    have hread := h.read_le
    exact {
      size_pos := h.size_pos
      written := by simp [h.written]
      read_le := by
        simp only
        omega
      left := by
        rw [List.take_append_of_le_length (by rw [h.written]; exact hread)]
        exact h.left
      holds := h.holds.push (by rw [h.written]; exact hvalue)
      producer := ⟨rfl, Nat.succ_le_of_lt hfree⟩
      consumer := h.consumer.mono _ le_rfl (Nat.le_succ _)
      pops := h.pops
      verified := h.verified
      overflows := by simpa [inFlight, hpc] using h.overflows }
  · cases hstep

theorem loadRead {s s' : SoFi V} (h : s.Inv) (hstep : s.step .loadRead = some s')
    (hbound : s.writePosition + s.size < 2 ^ 64) : s'.Inv := by
  simp only [step] at hstep
  split at hstep
  · next w' hpc =>
    have hproducer := h.producer
    rw [hpc] at hproducer
    obtain ⟨rfl, hle⟩ := hproducer
    have hread := h.read_le
    rw [Nat.mod_eq_of_lt (by omega)] at hstep
    split at hstep
    · next hfree =>
      cases hstep
      exact h.produce hfree (by simp [inFlight, hpc])
    · cases hstep
      exact h.produce ⟨le_rfl, by omega⟩ (by simp [inFlight, hpc])
  · cases hstep

theorem exchange {s s' : SoFi V} (h : s.Inv) (hstep : s.step .exchange = some s')
    (hbound : s.writePosition < 2 ^ 64) : s'.Inv := by
  simp only [step] at hstep
  split at hstep
  · next r hpc =>
    have hproducer := h.producer
    rw [hpc] at hproducer
    obtain ⟨hle, hfull⟩ := hproducer
    have hsize := h.size_pos
    split at hstep
    · next hr =>
      cases hstep
      subst hr
      have hlt : s.readPosition < s.writePosition := by omega
      have hv := h.getElem?_read hlt
      rw [Nat.mod_eq_of_lt (by omega)]
      exact {
        size_pos := h.size_pos
        written := h.written
        read_le := hlt
        left := h.left_succ hv
        holds := h.holds.advance (Nat.le_succ _)
        producer := by
          simp only [ProducerOk]
          omega
        consumer := by
          have := h.consumer.mono [] (Nat.le_succ s.readPosition)
            (le_refl s.writePosition)
          rwa [List.append_nil] at this
        pops := by simpa [left_concat] using h.pops
        verified := h.verified
        overflows := by
          have hold := h.overflows
          simp only [inFlight, hpc, List.append_nil] at hold
          simp [inFlight, left_concat, hold] }
    · next hr =>
      cases hstep
      refine h.produce ?_ (by simp [inFlight, hpc])
      simp only [ProducerOk]
      omega
  · cases hstep

theorem copyOverflow {s s' : SoFi V} (h : s.Inv) (hstep : s.step .copyOverflow = some s') :
    s'.Inv := by
  simp only [step] at hstep
  split at hstep
  · next r hpc =>
    cases hstep
    exact {
      size_pos := h.size_pos
      written := h.written
      read_le := h.read_le
      left := h.left
      holds := h.holds
      producer := by
        have hproducer := h.producer
        rwa [hpc] at hproducer
      consumer := h.consumer
      pops := h.pops
      verified := h.verified
      overflows := by simpa [inFlight, hpc] using h.overflows }
  · cases hstep

theorem pop {s : SoFi V} (h : s.Inv) {verificator : V → Bool} {valueOut : V}
    (hpc : s.consumer = .exchange verificator s.readPosition (some valueOut))
    (hbound : s.writePosition < 2 ^ 64) :
    Inv { s with
      readPosition := (s.readPosition + 1) % 2 ^ 64
      leaving := s.leaving ++ [(.pop, valueOut)]
      pops := s.pops ++ [(verificator, valueOut)]
      consumer := .idle } := by
  have hconsumer := h.consumer
  rw [hpc] at hconsumer
  obtain ⟨-, hlt, hvalid⟩ := hconsumer
  obtain ⟨hv, hok⟩ := hvalid rfl
  rw [Nat.mod_eq_of_lt (by omega)]
  exact {
    size_pos := h.size_pos
    written := h.written
    read_le := hlt
    left := h.left_succ hv
    holds := h.holds.advance (Nat.le_succ _)
    producer := h.producer.mono (Nat.le_succ _)
    consumer := trivial
    pops := by simp [left_concat, h.pops]
    verified := by
      intro x hx
      simp only [List.mem_append, List.mem_singleton] at hx
      rcases hx with hx | rfl
      · exact h.verified x hx
      · exact hok
    overflows := by simpa [left_concat, inFlight] using h.overflows }

theorem writes_eq_false {s : SoFi V} (h : s.Inv) {r : Nat} (hr : s.readPosition = r)
    (hlt : r < s.writePosition) : s.writes (r % s.size) = false := by
  unfold writes
  split
  · next hpc =>
    have hproducer := h.producer
    rw [hpc] at hproducer
    obtain ⟨rfl, hfree⟩ := hproducer
    simpa using Lib.Ring.mod_ne hlt (by omega)
  · rfl

theorem push {s s' : SoFi V} {value : V} (h : s.Inv) (hstep : s.step (.push value) = some s') :
    s'.Inv := by
  simp only [step] at hstep
  split at hstep
  · next hpc =>
    cases hstep
    have hproducer := h.producer
    rw [hpc] at hproducer
    exact h.produce hproducer (by simp [inFlight, hpc])
  · cases hstep

theorem loadWrite {s s' : SoFi V} (h : s.Inv) (hstep : s.step .loadWrite = some s') : s'.Inv := by
  simp only [step] at hstep
  split at hstep
  · next hpc =>
    cases hstep
    have hproducer := h.producer
    rw [hpc] at hproducer
    exact h.produce ⟨rfl, hproducer⟩ (by simp [inFlight, hpc])
  · cases hstep

theorem checkEmpty {s s' : SoFi V} (h : s.Inv) (hstep : s.step .checkEmpty = some s') :
    s'.Inv := by
  simp only [step] at hstep
  split at hstep
  · next r hpc =>
    have hconsumer := h.consumer
    rw [hpc] at hconsumer
    have hle : r ≤ s.readPosition := hconsumer
    split at hstep
    · cases hstep
      exact h.consume hle
    · next hne =>
      cases hstep
      have hread := h.read_le
      exact h.consume ⟨hle, by omega⟩
  · cases hstep

theorem copyBegin {s s' : SoFi V} (h : s.Inv) (hstep : s.step .copyBegin = some s') : s'.Inv := by
  simp only [step] at hstep
  split at hstep
  · next hpc =>
    have hconsumer := h.consumer
    rw [hpc] at hconsumer
    cases hstep
    exact h.consume ⟨hconsumer.1, hconsumer.2, fun hr => h.writes_eq_false hr hconsumer.2⟩
  · cases hstep

theorem copyEnd {s s' : SoFi V} {arbitrary : V} (h : s.Inv)
    (hstep : s.step (.copyEnd arbitrary) = some s') : s'.Inv := by
  simp only [step] at hstep
  split at hstep
  · next hpc =>
    have hconsumer := h.consumer
    rw [hpc] at hconsumer
    obtain ⟨hle, hlt, htorn⟩ := hconsumer
    cases hstep
    refine h.consume ⟨hle, hlt, fun hr => ?_⟩
    subst hr
    rw [htorn rfl]
    exact h.getElem?_read hlt
  · cases hstep

theorem validate {s s' : SoFi V} (h : s.Inv) (hstep : s.step .validate = some s') : s'.Inv := by
  simp only [step] at hstep
  split at hstep
  · next r valueOut hpc =>
    have hconsumer := h.consumer
    rw [hpc] at hconsumer
    obtain ⟨hle, hlt, hvalue⟩ := hconsumer
    split at hstep
    · cases hstep
      exact h.consume hle
    · next hnot =>
      cases hstep
      refine h.consume ⟨hle, hlt, fun hr => ⟨hvalue hr, ?_⟩⟩
      by_contra hfalse
      exact hnot ⟨hr, Bool.eq_false_iff.mpr hfalse⟩
  · cases hstep

theorem popExchange {s s' : SoFi V} {spurious : Bool} (h : s.Inv)
    (hstep : s.step (.popExchange spurious) = some s') (hbound : s.writePosition < 2 ^ 64) :
    s'.Inv := by
  simp only [step] at hstep
  split at hstep
  · next verificator r outcome hpc =>
    split at hstep
    · next hr =>
      obtain ⟨rfl, -⟩ := hr
      split at hstep
      · cases hstep
        exact h.pop hpc hbound
      · cases hstep
        exact h.consume trivial
    · cases hstep
      exact h.consume (le_refl s.readPosition)
  · cases hstep

theorem step {s s' : SoFi V} {l : SoFiStep V} (h : s.Inv) (hstep : s.step l = some s')
    (hbound : s'.called.length + s'.size < 2 ^ 64) : s'.Inv := by
  have hsize := h.size_pos
  -- No position is further than the number of the pushes that have been called.
  have hroom : s.writePosition + s.size < 2 ^ 64 := by
    rw [called_step hstep, size_step hstep, called] at hbound
    simp only [List.length_append, h.written] at hbound
    omega
  cases l with
  | push value => exact h.push hstep
  | loadWrite => exact h.loadWrite hstep
  | writeBegin => exact h.writeBegin hstep
  | writeEnd => exact h.writeEnd hstep
  | publish => exact h.publish hstep (by omega)
  | loadRead => exact h.loadRead hstep hroom
  | exchange => exact h.exchange hstep (by omega)
  | copyOverflow => exact h.copyOverflow hstep
  | popIf verificator =>
    simp only [SoFi.step] at hstep
    split at hstep
    · cases hstep
      exact h.consume trivial
    · cases hstep
  | popLoadRead =>
    simp only [SoFi.step] at hstep
    split at hstep
    · cases hstep
      exact h.consume (le_refl s.readPosition)
    · cases hstep
  | checkEmpty => exact h.checkEmpty hstep
  | copyBegin => exact h.copyBegin hstep
  | copyEnd arbitrary => exact h.copyEnd hstep
  | validate => exact h.validate hstep
  | popExchange spurious => exact h.popExchange hstep (by omega)

end Inv

theorem called_run {s s' : SoFi V} {ls : List (SoFiStep V)}
    (hrun : Lib.runSteps step s ls = some s') : s'.called = s.called ++ pushCalls ls := by
  induction ls generalizing s with
  | nil =>
    cases hrun
    simp [pushCalls]
  | cons l ls ih =>
    obtain ⟨m, hm, hrest⟩ := Lib.runSteps_cons hrun
    rw [ih hrest, called_step hm]
    simp [pushCalls]

theorem Inv.start {size : Nat} (hsize : 0 < size) (data : Nat → V) :
    Inv { size := size, data := data } where
  size_pos := hsize
  written := rfl
  read_le := le_rfl
  left := rfl
  holds := Lib.Ring.Holds.nil size data 0
  producer := by simpa [ProducerOk] using hsize
  consumer := trivial
  pops := rfl
  verified := by simp
  overflows := rfl

theorem Inv.run {size : Nat} {s s' : SoFi V} {ls : List (SoFiStep V)} (h : s.Inv)
    (hsize : s.size = size) (hrun : Lib.runSteps SoFi.step s ls = some s')
    (hbound : s.called.length + (pushCalls ls).length + size < 2 ^ 64) :
    s'.Inv ∧ s'.size = size := by
  refine Lib.runSteps_budget (C := fun _ _ => True) (I := fun t => t.Inv ∧ t.size = size)
    (fun t => t.called.length) (fun l => (value l).length) (2 ^ 64 - size) ?_ ?_ ls s s' ⟨h, hsize⟩
    ?_ (Lib.meets_true ls s) hrun
  · intro t l t' ht
    rw [called_step ht, List.length_append]
  · intro t l t' ht _ hb ht'
    have hsize' : t'.size = size := (size_step ht').trans ht.2
    refine ⟨ht.1.step ht' ?_, hsize'⟩
    omega
  · rw [pushCalls, List.length_flatMap] at hbound
    omega

theorem setCapacity_create {capacityValue capacity : Nat} {data : Nat → V} {s : SoFi V}
    (hset : (create capacityValue data).setCapacity capacityValue capacity = some s)
    (hcapacity : capacity + 1 < 2 ^ 64) : s = { size := capacity + 1, data := data } := by
  simp only [setCapacity, create, Option.ite_none_right_eq_some, Option.some.injEq] at hset
  obtain ⟨-, rfl⟩ := hset
  rw [Nat.mod_eq_of_lt hcapacity]

/-- Every pushed value leaves the queue once, in order, by a pop or as the overflow of a
push, or is still stored; no value is torn. -/
theorem exactly_once {capacityValue capacity : Nat} {data : Nat → V} {s₀ s : SoFi V}
    (hset : (create capacityValue data).setCapacity capacityValue capacity = some s₀)
    (ls : List (SoFiStep V)) (hrun : Lib.runSteps step s₀ ls = some s)
    (hpushes : (pushCalls ls).length < 2 ^ 64 - 1 - capacity) :
    s.pushed ++ s.pending = pushCalls ls ∧
    s.leaving.map Prod.snd = s.pushed.take s.readPosition ∧
    s.pops.map Prod.snd = left .pop s.leaving ∧
    s.overflows ++ s.inFlight = left .overflow s.leaving ∧
    (∀ p v, s.readPosition ≤ p → s.pushed[p]? = some v → s.data (p % s.size) = v) ∧
    (∀ x ∈ s.pops, x.1 x.2 = true) ∧
    (s.producer = .idle → s.pushed.length - s.readPosition ≤ capacity) := by
  obtain rfl := setCapacity_create hset (by omega)
  have hcalled := called_run hrun
  obtain ⟨h, hsize⟩ := (Inv.start (Nat.succ_pos capacity) data).run rfl hrun (by
    simp only [called, pending, List.append_nil, List.length_nil]
    omega)
  refine ⟨by simpa [called, pending] using hcalled, h.left, h.pops, h.overflows, h.holds,
    h.verified, ?_⟩
  intro hidle
  have hproducer := h.producer
  rw [hidle, hsize, ← h.written] at hproducer
  have hfree : s.pushed.length < s.readPosition + (capacity + 1) := hproducer
  omega

def race : List (SoFiStep Nat) :=
  [.push 7, .loadWrite, .writeBegin, .writeEnd, .publish, .loadRead, .push 8, .loadWrite,
    .popIf fun _ => true, .popLoadRead, .checkEmpty, .copyBegin, .writeBegin, .copyEnd 9,
    .writeEnd, .publish, .loadRead, .validate, .exchange, .popExchange false, .copyOverflow]

theorem exactly_once_race :
    (Lib.runSteps step { size := 2, data := fun _ => 0 } race).map leaving =
      some [(.overflow, 7)] ∧
    ∃ s, Lib.runSteps step { size := 2, data := fun _ => 0 } race = some s ∧
      s.leaving.map Prod.snd = s.pushed.take s.readPosition := by
  refine ⟨rfl, ?_⟩
  obtain ⟨s, hs⟩ : ∃ s, Lib.runSteps step { size := 2, data := fun _ => 0 } race = some s :=
    ⟨_, rfl⟩
  have hset : (create 1 fun _ => 0).setCapacity 1 1 =
      some { size := 2, data := fun _ => 0 } := rfl
  exact ⟨s, hs, (exactly_once hset race hs (by decide)).2.1⟩

/-! ## The comparison of a push wraps around -/

def cycle : List (SoFiStep Nat) :=
  [.push 0, .loadWrite, .writeBegin, .writeEnd, .publish, .loadRead, .popIf fun _ => true,
    .popLoadRead, .checkEmpty, .copyBegin, .copyEnd 0, .validate, .popExchange false]

def lastCycle : List (SoFiStep Nat) :=
  [.push 0, .loadWrite, .writeBegin, .writeEnd, .publish, .popIf fun _ => true, .popLoadRead,
    .checkEmpty, .copyBegin, .copyEnd 0, .validate, .popExchange false, .loadRead, .exchange,
    .copyOverflow]

structure Level (k : Nat) (s : SoFi Nat) : Prop where
  size : s.size = 2
  producer : s.producer = .idle
  consumer : s.consumer = .idle
  read : s.readPosition = k
  write : s.writePosition = k
  pushed : s.pushed.length = k
  leaving : s.leaving.length = k

theorem Level.cycle {k : Nat} {s : SoFi Nat} (h : Level k s) (hk : k + 2 < 2 ^ 64) :
    ∃ s', Lib.runSteps step s SoFi.cycle = some s' ∧ Level (k + 1) s' := by
  obtain ⟨hsize, hproducer, hconsumer, hread, hwrite, hpushed, hleaving⟩ := h
  have hnext : (k + 1) % 2 ^ 64 = k + 1 := Nat.mod_eq_of_lt (by omega)
  have hroom : (k + 2) % 2 ^ 64 = k + 2 := Nat.mod_eq_of_lt hk
  have hfree : k + 1 < k + 2 := Nat.lt_succ_self _
  have hfilled : ¬ k = k + 1 := Nat.ne_of_lt (Nat.lt_succ_self k)
  simp only [Lib.runSteps, SoFi.cycle, step, tear, writes, hsize, hproducer, hconsumer, hread,
    hwrite, hnext, hroom, Option.bind_some, if_pos hfree, if_neg hfilled, Bool.true_eq_false,
    and_false, Bool.false_eq_true, Bool.not_false, and_self, if_true, if_false]
  refine ⟨_, rfl, rfl, rfl, rfl, rfl, rfl, ?_, ?_⟩
  · simp [hpushed]
  · simp [hleaving]

theorem Level.lastCycle {s : SoFi Nat} (h : Level (2 ^ 64 - 3) s) :
    ∃ s', Lib.runSteps step s SoFi.lastCycle = some s' ∧
      s'.pushed.length = 2 ^ 64 - 2 ∧ s'.leaving.length = 2 ^ 64 - 1 := by
  obtain ⟨hsize, hproducer, hconsumer, hread, hwrite, hpushed, hleaving⟩ := h
  have hnext : (2 ^ 64 - 3 + 1) % 2 ^ 64 = 2 ^ 64 - 2 := by decide
  have hwrap : ¬ 2 ^ 64 - 2 < (2 ^ 64 - 2 + 2) % 2 ^ 64 := by decide
  have hfilled : ¬ 2 ^ 64 - 3 = 2 ^ 64 - 2 := by decide
  simp only [Lib.runSteps, SoFi.lastCycle, step, tear, writes, hsize, hproducer, hconsumer, hread,
    hwrite, hnext, Option.bind_some, if_neg hwrap, if_neg hfilled, Bool.true_eq_false,
    and_false, Bool.false_eq_true, Bool.not_false, and_self, if_true, if_false]
  refine ⟨_, rfl, ?_, ?_⟩
  · simp [hpushed]
  · simp [hleaving]

theorem Level.start : Level 0 { size := 2, data := fun _ => 0 } where
  size := rfl
  producer := rfl
  consumer := rfl
  read := rfl
  write := rfl
  pushed := rfl
  leaving := rfl

theorem length_pushCalls_cycles (n : Nat) :
    (pushCalls (List.replicate n cycle).flatten).length = n := by
  rw [pushCalls, Lib.length_flatMap_flatten_replicate]
  exact Nat.mul_one n

theorem more_values_left_than_pushed :
    ∃ s₀ s : SoFi Nat, (create 1 fun _ => 0).setCapacity 1 1 = some s₀ ∧
      Lib.runSteps step s₀ ((List.replicate (2 ^ 64 - 3) cycle).flatten ++ lastCycle) = some s ∧
      (pushCalls ((List.replicate (2 ^ 64 - 3) cycle).flatten ++ lastCycle)).length < 2 ^ 64 ∧
      s.pushed.length < s.leaving.length := by
  have hcycle : ∀ k s, k < 2 ^ 64 - 3 → Level k s →
      ∃ s', Lib.runSteps step s cycle = some s' ∧ Level (k + 1) s' :=
    fun k s hk h => h.cycle (by omega)
  obtain ⟨m, hm, hlevel⟩ := Lib.runSteps_replicate hcycle Level.start
  obtain ⟨s, hs, hpushed, hleaving⟩ := hlevel.lastCycle
  have hset : (create 1 fun _ => 0).setCapacity 1 1 =
      some { size := 2, data := fun _ => 0 } := rfl
  refine ⟨_, s, hset, ?_, ?_, ?_⟩
  · rw [Lib.runSteps_append, hm, Option.bind_some, hs]
  · have hlen := length_pushCalls_cycles (2 ^ 64 - 3)
    rw [pushCalls] at hlen ⊢
    rw [List.flatMap_append, List.length_append, hlen]
    decide
  · omega

end SoFi

end Iceoryx.Hoofs
