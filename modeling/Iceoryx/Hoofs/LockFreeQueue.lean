import Iceoryx.Hoofs.IndexQueue
import Iceoryx.Lib.Circulation

/-! `concurrent::LockFreeQueue` run by any number of threads: raw memory for the elements, and
two index queues.  One step is one access of an index queue, of an element or of the size. -/

universe u

namespace Iceoryx.Hoofs

open Lib

namespace IndexQueue

open CyclicIndex

inductive Phase
  | idle
  | pushing (index : Nat)
  | finishing
  | popping (call : PopCall)
  deriving DecidableEq, Repr

def Pc.phase : Pc → Phase
  | .idle => .idle
  | .pushLoad i | .pushCell i _ | .pushPublish i _ _ | .pushHelp i _ => .pushing i
  | .pushFinish _ => .finishing
  | .popLoad | .popCell _ => .popping .pop
  | .fullLoadWrite | .fullLoadRead _ | .fullCell _ _ => .popping .popIfFull
  | .sizeLoadWrite n | .sizeLoadRead n _ | .sizeCell n _ => .popping (.popIfSizeIsAtLeast n)
  | .exchange call _ _ => .popping call

theorem Pc.phase_eq_idle {p : Pc} (h : p.phase = .idle) : p = .idle := by
  cases p <;> first | rfl | cases h

variable {Tid : Type} [DecidableEq Tid] {capacity : Nat} {s s' : IndexQueue Tid} {t : Tid}
  {first initial : List Nat}

omit [DecidableEq Tid] in
def taken (s s' : IndexQueue Tid) : Option Nat := s'.popped[s.popped.length]?

omit [DecidableEq Tid] in
def put (s s' : IndexQueue Tid) : Option Nat := s'.published[s.published.length]?

omit [DecidableEq Tid] in
theorem taken_none (h : s'.popped = s.popped) : taken s s' = none := by
  rw [taken, h]
  exact List.getElem?_eq_none (Nat.le_refl _)

omit [DecidableEq Tid] in
theorem taken_some {i : Nat} (h : s'.popped = s.popped ++ [i]) : taken s s' = some i := by
  rw [taken, h]
  exact List.getElem?_concat_length

omit [DecidableEq Tid] in
theorem put_none (h : s'.published = s.published) : put s s' = none := by
  rw [put, h]
  exact List.getElem?_eq_none (Nat.le_refl _)

omit [DecidableEq Tid] in
theorem put_some {i : Nat} (h : s'.published = s.published ++ [i]) : put s s' = some i := by
  rw [put, h]
  exact List.getElem?_concat_length

inductive Accessed (capacity : Nat) (s : IndexQueue Tid) (t : Tid) (s' : IndexQueue Tid) : Prop
  | quiet (hpublished : s'.published = s.published) (hpopped : s'.popped = s.popped)
    (howner : s'.owner = s.owner)
    (hphase : (s'.pc t).phase = (s.pc t).phase ∨
      (s'.pc t).phase = .idle ∧ ∀ i, (s.pc t).phase ≠ .pushing i)
    (hfinished : (s.pc t).phase = .finishing → (s'.pc t).phase = .idle)
  | published (i : Nat) (hphase : (s.pc t).phase = .pushing i)
    (hphase' : (s'.pc t).phase = .finishing) (hcontents : s'.contents = s.contents ++ [i])
    (hpublished : s'.published = s.published ++ [i]) (hpopped : s'.popped = s.popped)
    (howner : s'.owner = Function.update s.owner i none)
  | took (i : Nat) (call : PopCall) (hphase : (s.pc t).phase = .popping call)
    (hphase' : (s'.pc t).phase = .idle) (hcontents : s.contents = i :: s'.contents)
    (hpublished : s'.published = s.published) (hpopped : s'.popped = s.popped ++ [i])
    (howner : s'.owner = Function.update s.owner i (some t))
    (hrequired : call.required capacity ≤ s.contents.length)

theorem Accessed.goto {p : Pc} (hpublished : s'.published = s.published)
    (hpopped : s'.popped = s.popped) (howner : s'.owner = s.owner)
    (hphase : p.phase = (s.pc t).phase ∨ p.phase = .idle ∧ ∀ i, (s.pc t).phase ≠ .pushing i)
    (hfinished : (s.pc t).phase = .finishing → p.phase = .idle) :
    Accessed capacity s t (s'.goto t p) := by
  refine .quiet hpublished hpopped howner ?_ ?_
  · simpa [IndexQueue.goto] using hphase
  · simpa [IndexQueue.goto] using hfinished

theorem phase_retry (i w oldValue : Nat) : (retry capacity i w oldValue).phase = .pushing i := by
  unfold retry
  split <;> rfl

theorem Inv.accessed (h : s.Inv capacity first initial) {spurious : Bool}
    (hstep : s.access capacity t spurious = some s') : s.Accessed capacity t s' := by
  simp only [IndexQueue.access] at hstep
  cases hpc : s.pc t with
  | idle => simp [hpc] at hstep
  | pushLoad i | pushHelp i w | popLoad | fullLoadWrite | fullLoadRead w | sizeLoadWrite n
  | sizeCell n r =>
    simp only [hpc] at hstep
    try split at hstep
    all_goals
      cases hstep
      exact .goto rfl rfl rfl (by simp [hpc, Pc.phase]) (by simp [hpc, Pc.phase])
  | pushCell i w =>
    simp only [hpc] at hstep
    split at hstep
    · cases hstep
      exact .goto rfl rfl rfl (by simp [hpc, Pc.phase]) (by simp [hpc, Pc.phase])
    · cases hstep
      refine .goto rfl rfl rfl (Or.inl ?_) (by simp [hpc, Pc.phase])
      rw [phase_retry, hpc]
      rfl
  | pushPublish i w oldValue =>
    simp only [hpc] at hstep
    split at hstep
    · cases hstep
      refine .published i (by rw [hpc]; rfl) (by simp [IndexQueue.goto, Pc.phase]) ?_ rfl rfl rfl
      exact List.drop_append_of_le_length h.popped_le
    · cases hstep
      refine .goto rfl rfl rfl (Or.inl ?_) (by simp [hpc, Pc.phase])
      rw [phase_retry, hpc]
      rfl
  | pushFinish w | popCell r | fullCell w r | sizeLoadRead n w =>
    simp only [hpc] at hstep
    repeat' split at hstep
    all_goals
      cases hstep
      exact .goto rfl rfl rfl (by simp [hpc, Pc.phase]) (by simp [hpc, Pc.phase])
  | exchange call r value =>
    simp only [hpc] at hstep
    split at hstep
    · next hr =>
      obtain ⟨rfl, -⟩ := hr
      cases hstep
      obtain ⟨hhead, hrequired⟩ := h.exchange hpc
      refine .took (getIndex capacity value) call (by rw [hpc]; rfl)
        (by simp [IndexQueue.goto, Pc.phase]) ?_ rfl rfl rfl hrequired
      obtain ⟨rest, hrest⟩ := List.head?_eq_some_iff.mp hhead
      have hdrop : s.published.drop (s.popped.length + 1) = rest := by
        rw [← List.drop_drop, ← contents, hrest]
        rfl
      rw [hrest, contents]
      simp only [IndexQueue.goto, IndexQueue.take, List.length_append, List.length_singleton]
      rw [hdrop]
    · cases hstep
      cases call <;>
        exact .goto rfl rfl rfl (by simp [hpc, Pc.phase, failed]) (by simp [hpc, Pc.phase])

omit [DecidableEq Tid] in
theorem Inv.noWrap (h : s.Inv capacity first initial)
    (hcalls : s.calls.length + 2 * capacity < 2 ^ 64)
    (hphase : ∀ n, (s.pc t).phase ≠ .popping (.popIfSizeIsAtLeast n)) (spurious : Bool) :
    NoWrap capacity s (t, .access spurious) := by
  unfold NoWrap
  simp only
  split
  · next i w oldValue hpc =>
    have hi := h.owned i t (h.pending t i (by rw [hpc]; rfl))
    have hok := h.pcOk t
    rw [hpc] at hok
    have hsub : s.published.Subperm (initial ++ s.calls) := by
      rw [List.subperm_ext_iff]
      intro j _
      rw [h.accounted j]
      exact Nat.le_add_right _ _
    have hlen := hsub.length_le
    rw [List.length_append] at hlen
    have hstart := h.start
    have hwrite := h.write_le
    have hcycle := Nat.div_mul_le_self w capacity
    have hle := hok.2.1
    rw [getCycle]
    omega
  · next n w hpc =>
    rw [hpc] at hphase
    exact absurd rfl (hphase n)
  · trivial

theorem phase_goto (s : IndexQueue Tid) (t : Tid) (p : Pc) : ((s.goto t p).pc t).phase = p.phase :=
  congrArg Pc.phase (Function.update_self ..)

theorem access_pc {spurious : Bool} (hstep : s.access capacity t spurious = some s') {u : Tid}
    (hu : u ≠ t) : s'.pc u = s.pc u := by
  simp only [access] at hstep
  repeat' split at hstep
  all_goals
    cases hstep
    try exact Function.update_of_ne hu ..

theorem access_isSome (hpc : s.pc t ≠ .idle) (spurious : Bool) :
    (s.access capacity t spurious).isSome := by
  simp only [access]
  split
  · next hidle => exact absurd hidle hpc
  all_goals
    repeat' split
    all_goals rfl

end IndexQueue

inductive LockFreeCall (V : Type u)
  | tryPush (value : V)
  | push (value : V)
  | pop

inductive LockFreeResult (V : Type u)
  | tryPush (pushed : Bool)
  | push (evictedValue : Option V)
  | pop (value : Option V)
  deriving DecidableEq, Repr

/-- Where a thread is.  `popUsed` has the value that `push` evicts another for; the pushes have
the number `n` of their value and what they will return, the reads the number `k` of their pop. -/
inductive LockFreePc (V : Type u)
  | idle
  | popFree (value : V) (evicts : Bool)
  | popUsed (value : Option V)
  | readSize (index k : Nat) (value : Option V)
  | readElement (index k : Nat) (value : Option V)
  | writeElement (index n : Nat) (value : V) (result : LockFreeResult V)
  | writeSize (index n : Nat) (result : LockFreeResult V)
  | pushUsed (index n : Nat) (result : LockFreeResult V)
  | pushFree (index : Nat) (result : LockFreeResult V)
  | finishUsed (result : LockFreeResult V)
  | finishFree (result : LockFreeResult V)
  deriving DecidableEq, Repr

inductive LockFreeStep (V : Type u)
  | call (c : LockFreeCall V)
  | access (spurious : Bool)

/-- `none` in the buffer is raw memory, and `none` among the threads of an index queue owns what
is in the other one.  The last three fields have the values that found a place, their numbers as
they were queued, and the values that were read with the numbers of the pops. -/
structure LockFreeQueue (T : Type) (V : Type u) where
  freeIndices : IndexQueue (Option T)
  usedIndices : IndexQueue (Option T)
  buffer : Nat → Option V
  size : Nat
  pc : T → LockFreePc V
  result : T → Option (LockFreeResult V)
  inputs : List V
  order : List Nat
  outputs : List (Nat × V)

namespace LockFreeQueue

open IndexQueue

variable {T : Type} [DecidableEq T] {V : Type u}

section Steps

variable (capacity : Nat)

def construct : LockFreeQueue T V where
  freeIndices := constructFull capacity
  usedIndices := constructEmpty capacity fun i => if i < capacity then some none else none
  buffer := fun _ => none
  size := 0
  pc := fun _ => .idle
  result := fun _ => none
  inputs := []
  order := []
  outputs := []

def goto (s : LockFreeQueue T V) (t : T) (p : LockFreePc V) : LockFreeQueue T V :=
  { s with pc := Function.update s.pc t p }

def finish (s : LockFreeQueue T V) (t : T) (result : LockFreeResult V) : LockFreeQueue T V :=
  { s with
    pc := Function.update s.pc t .idle
    result := Function.update s.result t (some result) }

def writeBufferAt (s : LockFreeQueue T V) (t : T) (index : Nat) (value : V)
    (result : LockFreeResult V) : LockFreeQueue T V :=
  { s with
    pc := Function.update s.pc t (.writeElement index s.inputs.length value result)
    inputs := s.inputs ++ [value] }

def call (s : LockFreeQueue T V) (t : T) : LockFreeCall V → LockFreeQueue T V
  | .tryPush value =>
    { s with freeIndices := s.freeIndices.goto (some t) .popLoad }.goto t (.popFree value false)
  | .push value =>
    { s with freeIndices := s.freeIndices.goto (some t) .popLoad }.goto t (.popFree value true)
  | .pop => { s with usedIndices := s.usedIndices.goto (some t) .popLoad }.goto t (.popUsed none)

def poppedFree (s : LockFreeQueue T V) (t : T) (value : V) (evicts : Bool) :
    Option Nat → LockFreeQueue T V
  | some index =>
    { s with usedIndices := s.usedIndices.give (some t) index }.writeBufferAt t index value
      (if evicts then .push none else .tryPush true)
  | none =>
    if evicts then
      { s with usedIndices := s.usedIndices.goto (some t) .fullLoadWrite }.goto t
        (.popUsed (some value))
    else s.finish t (.tryPush false)

def poppedUsed (s : LockFreeQueue T V) (t : T) (value : Option V) (k : Nat) :
    Option Nat → LockFreeQueue T V
  | some index =>
    { s with freeIndices := s.freeIndices.give (some t) index }.goto t (.readSize index k value)
  | none =>
    match value with
    | some value =>
      { s with freeIndices := s.freeIndices.goto (some t) .popLoad }.goto t (.popFree value true)
    | none => s.finish t (.pop none)

def readBuffer (s : LockFreeQueue T V) (t : T) (index : Nat) (element : V) :
    Option V → LockFreeQueue T V
  | some value => s.writeBufferAt t index value (.push (some element))
  | none =>
    { s with
      freeIndices := { s.freeIndices with calls := s.freeIndices.calls ++ [index] }.goto (some t)
        (.pushLoad index) }.goto t (.pushFree index (.pop (some element)))

def access (s : LockFreeQueue T V) (t : T) (spurious : Bool) : Option (LockFreeQueue T V) :=
  match s.pc t with
  | .idle => none
  | .popFree value evicts =>
    (s.freeIndices.access capacity (some t) spurious).map fun queue =>
      if queue.pc (some t) = .idle then
        { s with freeIndices := queue }.poppedFree t value evicts (s.freeIndices.taken queue)
      else { s with freeIndices := queue }
  | .popUsed value =>
    (s.usedIndices.access capacity (some t) spurious).map fun queue =>
      if queue.pc (some t) = .idle then
        { s with usedIndices := queue }.poppedUsed t value s.usedIndices.popped.length
          (s.usedIndices.taken queue)
      else { s with usedIndices := queue }
  | .readSize index k value =>
    some ({ s with size := (s.size + (2 ^ 64 - 1)) % 2 ^ 64 }.goto t (.readElement index k value))
  | .readElement index k value =>
    (s.buffer index).map fun element =>
      { s with
        buffer := Function.update s.buffer index none
        outputs := s.outputs ++ [(k, element)] }.readBuffer t index element value
  | .writeElement index n value result =>
    match s.buffer index with
    | some _ => none
    | none =>
      some ({ s with buffer := Function.update s.buffer index (some value) }.goto t
        (.writeSize index n result))
  | .writeSize index n result =>
    some ({ s with
      size := (s.size + 1) % 2 ^ 64
      usedIndices := { s.usedIndices with calls := s.usedIndices.calls ++ [index] }.goto (some t)
        (.pushLoad index) }.goto t (.pushUsed index n result))
  | .pushUsed index n result =>
    (s.usedIndices.access capacity (some t) spurious).map fun queue =>
      match s.usedIndices.put queue with
      | some _ =>
        { s with
          usedIndices := queue
          freeIndices := s.freeIndices.give none index
          order := s.order ++ [n] }.goto t (.finishUsed result)
      | none => { s with usedIndices := queue }
  | .pushFree index result =>
    (s.freeIndices.access capacity (some t) spurious).map fun queue =>
      match s.freeIndices.put queue with
      | some _ =>
        { s with
          freeIndices := queue
          usedIndices := s.usedIndices.give none index }.goto t (.finishFree result)
      | none => { s with freeIndices := queue }
  | .finishUsed result =>
    (s.usedIndices.access capacity (some t) spurious).map fun queue =>
      { s with usedIndices := queue }.finish t result
  | .finishFree result =>
    (s.freeIndices.access capacity (some t) spurious).map fun queue =>
      { s with freeIndices := queue }.finish t result

def step (s : LockFreeQueue T V) : T × LockFreeStep V → Option (LockFreeQueue T V)
  | (t, .access spurious) => s.access capacity t spurious
  | (t, .call c) =>
    match s.pc t with
    | .idle => some (s.call t c)
    | _ => none

def NoWrap (s : LockFreeQueue T V) (_ : T × LockFreeStep V) : Prop :=
  s.freeIndices.calls.length + 2 * capacity < 2 ^ 64 ∧
    s.usedIndices.calls.length + 2 * capacity < 2 ^ 64

end Steps

end LockFreeQueue

namespace LockFreePc

open IndexQueue

variable {V : Type u}

def place : LockFreePc V → Option (Nat × Stage)
  | .readSize i k _ => some (i, .drawn k)
  | .readElement i k _ => some (i, .uncounted k)
  | .writeElement i n _ _ => some (i, .claimed n)
  | .writeSize i n _ => some (i, .filled n)
  | .pushUsed i n _ => some (i, .counted n)
  | .pushFree i _ => some (i, .drained)
  | _ => none

def freePhase : LockFreePc V → Phase
  | .popFree _ _ => .popping .pop
  | .pushFree i _ => .pushing i
  | .finishFree _ => .finishing
  | _ => .idle

def usedPhase : LockFreePc V → Phase
  | .popUsed none => .popping .pop
  | .popUsed (some _) => .popping .popIfFull
  | .pushUsed i _ _ => .pushing i
  | .finishUsed _ => .finishing
  | _ => .idle

def input : LockFreePc V → Option (Nat × V)
  | .writeElement _ n v _ => some (n, v)
  | _ => none

end LockFreePc

namespace LockFreeQueue

open IndexQueue

variable {T : Type} [DecidableEq T] {V : Type u} {capacity : Nat} {s s' : LockFreeQueue T V} {t : T}
  {stage : Nat → Stage}

omit [DecidableEq T] in
def circulation (s : LockFreeQueue T V) (stage : Nat → Stage) : Circulation V where
  stage := stage
  free := s.freeIndices.contents
  queue := s.usedIndices.contents
  cell := s.buffer
  size := s.size
  inputs := s.inputs
  order := s.order
  draws := s.usedIndices.popped.length
  outputs := s.outputs

structure Phased (s : LockFreeQueue T V) : Prop where
  pool : s.freeIndices.pc none = .idle ∧ s.usedIndices.pc none = .idle
  free : ∀ t, (s.freeIndices.pc (some t)).phase = (s.pc t).freePhase
  used : ∀ t, (s.usedIndices.pc (some t)).phase = (s.pc t).usedPhase
  input : ∀ t n v, (s.pc t).input = some (n, v) → s.inputs[n]? = some v

structure Placed (capacity : Nat) (s : LockFreeQueue T V) (stage : Nat → Stage) : Prop where
  free : ∀ i, i < capacity → stage i = .free → s.usedIndices.owner i = some none
  queued : ∀ i, stage i = .queued → s.freeIndices.owner i = some none
  held : ∀ t i st, (s.pc t).place = some (i, st) →
    stage i = st ∧ s.freeIndices.owner i = some (some t) ∧ s.usedIndices.owner i = some (some t)
  holder : ∀ i, stage i ≠ .free → stage i ≠ .queued → ∃ t, (s.pc t).place = some (i, stage i)

structure Inv (capacity : Nat) (s : LockFreeQueue T V) : Prop where
  free : s.freeIndices.Inv capacity [] (List.range capacity)
  used : s.usedIndices.Inv capacity (List.replicate capacity 0) []
  phased : s.Phased
  places : ∃ stage, s.Placed capacity stage ∧ (s.circulation stage).Sound capacity

theorem Phased.update (h : s.Phased) {p : LockFreePc V} (hpc : s'.pc = Function.update s.pc t p)
    (hfree : ∀ u, u ≠ some t → s'.freeIndices.pc u = s.freeIndices.pc u)
    (hused : ∀ u, u ≠ some t → s'.usedIndices.pc u = s.usedIndices.pc u)
    (hp : (s'.freeIndices.pc (some t)).phase = p.freePhase)
    (hp' : (s'.usedIndices.pc (some t)).phase = p.usedPhase) (hinputs : s.inputs <+: s'.inputs)
    (hinput : ∀ n v, p.input = some (n, v) → s'.inputs[n]? = some v) : s'.Phased where
  pool := by
    rw [hfree none (by simp), hused none (by simp)]
    exact h.pool
  free u := by
    by_cases hu : u = t
    · rw [hu, hp, hpc, Function.update_self]
    · rw [hfree _ (by simpa using hu), hpc, Function.update_of_ne hu, h.free]
  used u := by
    by_cases hu : u = t
    · rw [hu, hp', hpc, Function.update_self]
    · rw [hused _ (by simpa using hu), hpc, Function.update_of_ne hu, h.used]
  input u n v huv := by
    by_cases hu : u = t
    · rw [hpc, hu, Function.update_self] at huv
      exact hinput n v huv
    · rw [hpc, Function.update_of_ne hu] at huv
      exact Circulation.getElem?_of_prefix hinputs (h.input u n v huv)

namespace Placed

omit [DecidableEq T] in
theorem others (h : s.Placed capacity stage) {i : Nat}
    (hbefore : (∃ st, (s.pc t).place = some (i, st)) ∨
      (s.pc t).place = none ∧ (i < capacity ∧ stage i = .free ∨ stage i = .queued))
    {u : T} {st : Stage} (hu : (s.pc u).place = some (i, st)) : u = t := by
  obtain ⟨-, hfree, hused⟩ := h.held u i st hu
  rcases hbefore with ⟨st', ht⟩ | ⟨-, ⟨hi, hstage⟩ | hstage⟩
  · have heq := hfree.symm.trans (h.held t i st' ht).2.1
    exact Option.some.inj (Option.some.inj heq)
  · cases hused.symm.trans (h.free i hi hstage)
  · cases hfree.symm.trans (h.queued i hstage)

theorem update (h : s.Placed capacity stage) {p : LockFreePc V} {i : Nat} {st : Stage}
    (hpc : s'.pc = Function.update s.pc t p)
    (hfree : ∀ j, j ≠ i → s'.freeIndices.owner j = s.freeIndices.owner j)
    (hused : ∀ j, j ≠ i → s'.usedIndices.owner j = s.usedIndices.owner j)
    (hbefore : (∃ st, (s.pc t).place = some (i, st)) ∨
      (s.pc t).place = none ∧ (i < capacity ∧ stage i = .free ∨ stage i = .queued))
    (hafter : p.place = some (i, st) ∧ s'.freeIndices.owner i = some (some t) ∧
        s'.usedIndices.owner i = some (some t) ∨
      p.place = none ∧ (st = .free ∧ s'.usedIndices.owner i = some none ∨
        st = .queued ∧ s'.freeIndices.owner i = some none)) :
    s'.Placed capacity (Function.update stage i st) := by
  have hothers : ∀ u st', u ≠ t → (s.pc u).place ≠ some (i, st') :=
    fun u st' hu hplace => hu (h.others hbefore hplace)
  refine ⟨fun j hj hstage => ?_, fun j hstage => ?_, fun u j st' hplace => ?_, fun j hj hj' => ?_⟩
  · by_cases hji : j = i
    · subst hji
      rw [Function.update_self] at hstage
      subst hstage
      rcases hafter with ⟨hplace, -, -⟩ | ⟨-, ⟨-, howner⟩ | ⟨hst, -⟩⟩
      · cases p <;> cases hplace
      · exact howner
      · cases hst
    · rw [Function.update_of_ne hji] at hstage
      rw [hused j hji]
      exact h.free j hj hstage
  · by_cases hji : j = i
    · subst hji
      rw [Function.update_self] at hstage
      subst hstage
      rcases hafter with ⟨hplace, -, -⟩ | ⟨-, ⟨hst, -⟩ | ⟨-, howner⟩⟩
      · cases p <;> cases hplace
      · cases hst
      · exact howner
    · rw [Function.update_of_ne hji] at hstage
      rw [hfree j hji]
      exact h.queued j hstage
  · rw [hpc] at hplace
    by_cases hu : u = t
    · subst hu
      rw [Function.update_self] at hplace
      rcases hafter with ⟨hplace', howners⟩ | ⟨hnone, -⟩
      · cases hplace'.symm.trans hplace
        exact ⟨Function.update_self .., howners⟩
      · cases hnone.symm.trans hplace
    · rw [Function.update_of_ne hu] at hplace
      have hji : j ≠ i := by
        rintro rfl
        exact hothers u st' hu hplace
      rw [Function.update_of_ne hji, hfree j hji, hused j hji]
      exact h.held u j st' hplace
  · by_cases hji : j = i
    · subst hji
      rw [Function.update_self] at hj hj' ⊢
      rcases hafter with ⟨hplace, -⟩ | ⟨-, ⟨hst, -⟩ | ⟨hst, -⟩⟩
      · exact ⟨t, by rw [hpc, Function.update_self, hplace]⟩
      · exact absurd hst hj
      · exact absurd hst hj'
    · rw [Function.update_of_ne hji] at hj hj' ⊢
      obtain ⟨u, hu⟩ := h.holder j hj hj'
      have hut : u ≠ t := by
        rintro rfl
        rcases hbefore with ⟨st', ht⟩ | ⟨hnone, -⟩
        · cases ht.symm.trans hu
          exact hji rfl
        · cases hnone.symm.trans hu
      exact ⟨u, by rw [hpc, Function.update_of_ne hut, hu]⟩

theorem same (h : s.Placed capacity stage) {p : LockFreePc V}
    (hpc : s'.pc = Function.update s.pc t p) (hplace : p.place = (s.pc t).place)
    (hfree : s'.freeIndices.owner = s.freeIndices.owner)
    (hused : s'.usedIndices.owner = s.usedIndices.owner) : s'.Placed capacity stage := by
  have hplaces : ∀ u, (s'.pc u).place = (s.pc u).place := by
    intro u
    rw [hpc]
    by_cases hu : u = t
    · rw [hu, Function.update_self, hplace]
    · rw [Function.update_of_ne hu]
  refine ⟨?_, ?_, ?_, ?_⟩
  · rw [hused]
    exact h.free
  · rw [hfree]
    exact h.queued
  · intro u i st hu
    rw [hfree, hused]
    exact h.held u i st ((hplaces u).symm.trans hu)
  · intro i hi hi'
    obtain ⟨u, hu⟩ := h.holder i hi hi'
    exact ⟨u, (hplaces u).trans hu⟩

end Placed

structure Quiet {Tid : Type} (t : Tid) (q q' : IndexQueue Tid) : Prop where
  published : q'.published = q.published
  popped : q'.popped = q.popped
  owner : q'.owner = q.owner
  pc : ∀ u, u ≠ t → q'.pc u = q.pc u

theorem Quiet.refl {Tid : Type} (t : Tid) (q : IndexQueue Tid) : Quiet t q q :=
  ⟨rfl, rfl, rfl, fun _ _ => rfl⟩

theorem Quiet.contents {Tid : Type} {t : Tid} {q q' : IndexQueue Tid} (h : Quiet t q q') :
    q'.contents = q.contents := by
  rw [IndexQueue.contents, IndexQueue.contents, h.published, h.popped]

namespace Inv

omit [DecidableEq T] in
theorem free_idle (h : s.Inv capacity) (hp : (s.pc t).freePhase = .idle) :
    s.freeIndices.pc (some t) = .idle :=
  Pc.phase_eq_idle ((h.phased.free t).trans hp)

omit [DecidableEq T] in
theorem used_idle (h : s.Inv capacity) (hp : (s.pc t).usedPhase = .idle) :
    s.usedIndices.pc (some t) = .idle :=
  Pc.phase_eq_idle ((h.phased.used t).trans hp)

theorem still (h : s.Inv capacity) {p : LockFreePc V} (hpc : s'.pc = Function.update s.pc t p)
    (hplace : p.place = (s.pc t).place)
    (hfreeInv : s'.freeIndices.Inv capacity [] (List.range capacity))
    (husedInv : s'.usedIndices.Inv capacity (List.replicate capacity 0) [])
    (hfree : Quiet (some t) s.freeIndices s'.freeIndices)
    (hused : Quiet (some t) s.usedIndices s'.usedIndices)
    (hp : (s'.freeIndices.pc (some t)).phase = p.freePhase)
    (hp' : (s'.usedIndices.pc (some t)).phase = p.usedPhase) (hinput : p.input = none)
    (hinputs : s'.inputs = s.inputs) (hbuffer : s'.buffer = s.buffer) (hsize : s'.size = s.size)
    (horder : s'.order = s.order) (houtputs : s'.outputs = s.outputs) : s'.Inv capacity where
  free := hfreeInv
  used := husedInv
  phased := by
    refine h.phased.update hpc hfree.pc hused.pc hp hp' (hinputs ▸ List.prefix_refl _) ?_
    intro n v hnv
    cases hinput.symm.trans hnv
  places := by
    obtain ⟨stage, hplaced, hsound⟩ := h.places
    refine ⟨stage, hplaced.same hpc hplace hfree.owner hused.owner, ?_⟩
    have hsame : s'.circulation stage = s.circulation stage :=
      Circulation.ext rfl hfree.contents hused.contents hbuffer hsize hinputs horder
        (congrArg List.length hused.popped) houtputs
    rw [hsame]
    exact hsound

theorem advance (h : s.Inv capacity) {p : LockFreePc V} {i : Nat} {st st' : Stage}
    (hpc : s'.pc = Function.update s.pc t p) (hbefore : (s.pc t).place = some (i, st))
    (hafter : p.place = some (i, st'))
    (hfreeInv : s'.freeIndices.Inv capacity [] (List.range capacity))
    (husedInv : s'.usedIndices.Inv capacity (List.replicate capacity 0) [])
    (hfree : Quiet (some t) s.freeIndices s'.freeIndices)
    (hused : Quiet (some t) s.usedIndices s'.usedIndices)
    (hp : (s'.freeIndices.pc (some t)).phase = p.freePhase)
    (hp' : (s'.usedIndices.pc (some t)).phase = p.usedPhase) (hinputs : s.inputs <+: s'.inputs)
    (hinput : ∀ n v, p.input = some (n, v) → s'.inputs[n]? = some v)
    (hsound : ∀ stage : Nat → Stage, stage i = st → (s.circulation stage).Sound capacity →
      (s'.circulation (Function.update stage i st')).Sound capacity) : s'.Inv capacity where
  free := hfreeInv
  used := husedInv
  phased := h.phased.update hpc hfree.pc hused.pc hp hp' hinputs hinput
  places := by
    obtain ⟨stage, hplaced, hbooks⟩ := h.places
    obtain ⟨hstage, howner, howner'⟩ := hplaced.held t i st hbefore
    refine ⟨_, hplaced.update hpc (fun j _ => ?_) (fun j _ => ?_) (Or.inl ⟨st, hbefore⟩)
      (Or.inl ⟨hafter, ?_, ?_⟩), hsound stage hstage hbooks⟩
    · rw [hfree.owner]
    · rw [hused.owner]
    · rw [hfree.owner, howner]
    · rw [hused.owner, howner']

theorem call (h : s.Inv capacity) (hpc : s.pc t = .idle) (c : LockFreeCall V) :
    (s.call t c).Inv capacity := by
  have hfree := h.free_idle (t := t) (by rw [hpc]; rfl)
  have hused := h.used_idle (t := t) (by rw [hpc]; rfl)
  have hquiet {q : IndexQueue (Option T)} : Quiet (some t) q (q.goto (some t) .popLoad) :=
    ⟨rfl, rfl, rfl, fun u hu => Function.update_of_ne hu ..⟩
  have hload {q : IndexQueue (Option T)} {first initial : List Nat}
      (hq : q.Inv capacity first initial) (hidle : q.pc (some t) = .idle) :
      (q.goto (some t) .popLoad).Inv capacity first initial :=
    hq.goto (by rw [hidle]; rfl) trivial
  cases c with
  | tryPush value | push value =>
    exact h.still rfl (by rw [hpc]; rfl) (hload h.free hfree) h.used hquiet (.refl ..)
      (phase_goto ..)
      ((h.phased.used t).trans (by rw [hpc]; rfl)) rfl rfl rfl rfl rfl rfl
  | pop =>
    exact h.still rfl (by rw [hpc]; rfl) h.free (hload h.used hused) (.refl ..) hquiet
      ((h.phased.free t).trans (by rw [hpc]; rfl))
      (phase_goto ..) rfl rfl rfl rfl rfl rfl

variable {spurious : Bool} {queue : IndexQueue (Option T)}

theorem accessFree (h : s.Inv capacity) (hcapacity : 0 < capacity)
    (hlarge : capacity < CyclicIndex.maxValue / 2)
    (hcalls : s.freeIndices.calls.length + 2 * capacity < 2 ^ 64)
    (hqueue : s.freeIndices.access capacity (some t) spurious = some queue) :
    queue.Inv capacity [] (List.range capacity) := by
  refine h.free.access hcapacity hlarge (h.free.noWrap hcalls (fun n => ?_) spurious) (by omega)
    hqueue
  rw [h.phased.free]
  cases s.pc t <;> simp [LockFreePc.freePhase]

theorem accessUsed (h : s.Inv capacity) (hcapacity : 0 < capacity)
    (hlarge : capacity < CyclicIndex.maxValue / 2)
    (hcalls : s.usedIndices.calls.length + 2 * capacity < 2 ^ 64)
    (hqueue : s.usedIndices.access capacity (some t) spurious = some queue) :
    queue.Inv capacity (List.replicate capacity 0) [] := by
  refine h.used.access hcapacity hlarge (h.used.noWrap hcalls (fun n => ?_) spurious) (by omega)
    hqueue
  rw [h.phased.used]
  cases s.pc t with
  | popUsed value => cases value <;> simp [LockFreePc.usedPhase]
  | _ => simp [LockFreePc.usedPhase]

theorem claimed (h : s.Inv capacity) (hfreeInv : queue.Inv capacity [] (List.range capacity))
    (hqueue : s.freeIndices.access capacity (some t) spurious = some queue) {value : V}
    {evicts : Bool} (hpc : s.pc t = .popFree value evicts) {i : Nat}
    (hphase : (queue.pc (some t)).phase = .idle)
    (hcontents : s.freeIndices.contents = i :: queue.contents)
    (howner : queue.owner = Function.update s.freeIndices.owner i (some (some t)))
    (result : LockFreeResult V) :
    ({ s with
      freeIndices := queue
      usedIndices := s.usedIndices.give (some t) i }.writeBufferAt t i value result).Inv
        capacity := by
  obtain ⟨stage, hplaced, hsound⟩ := h.places
  have hmem : i ∈ s.freeIndices.contents := hcontents ▸ List.mem_cons_self
  obtain ⟨hi, hstage⟩ := (hsound.places.mem_free i).mp hmem
  refine ⟨hfreeInv, h.used.give h.phased.pool.2 (hplaced.free i hi hstage) _, ?_, ?_⟩
  · refine h.phased.update rfl (fun u hu => access_pc hqueue hu) (fun _ _ => rfl) hphase
      ((h.phased.used t).trans (by rw [hpc]; rfl)) (List.prefix_append _ _) ?_
    intro n v hnv
    cases hnv
    exact List.getElem?_concat_length
  · refine ⟨_, hplaced.update rfl (fun j hj => ?_) (fun j hj => Function.update_of_ne hj ..)
      (Or.inr ⟨by rw [hpc]; rfl, Or.inl ⟨hi, hstage⟩⟩)
      (Or.inl ⟨rfl, ?_, Function.update_self ..⟩), hsound.move (.claim i _ value hcontents)⟩
    · change queue.owner j = _
      rw [howner, Function.update_of_ne hj]
    · change queue.owner i = _
      rw [howner, Function.update_self]

theorem popFree (h : s.Inv capacity) (hfreeInv : queue.Inv capacity [] (List.range capacity))
    (hqueue : s.freeIndices.access capacity (some t) spurious = some queue) {value : V}
    {evicts : Bool} (hpc : s.pc t = .popFree value evicts) :
    (if queue.pc (some t) = Pc.idle then
      { s with freeIndices := queue }.poppedFree t value evicts (s.freeIndices.taken queue)
    else { s with freeIndices := queue }).Inv capacity := by
  have hused := h.used_idle (t := t) (by rw [hpc]; rfl)
  have hphase₀ := h.phased.free t
  rw [hpc] at hphase₀
  cases h.free.accessed hqueue with
  | quiet hpublished hpopped howner hphase hfinished =>
    have hquiet : Quiet (some t) s.freeIndices queue :=
      ⟨hpublished, hpopped, howner, fun u hu => access_pc hqueue hu⟩
    split
    · next hidle =>
      rw [taken_none hpopped]
      cases evicts with
      | true =>
        exact h.still rfl (by rw [hpc]; rfl) hfreeInv (h.used.goto (by rw [hused]; rfl) trivial)
          hquiet ⟨rfl, rfl, rfl, fun u hu => Function.update_of_ne hu ..⟩
          (congrArg Pc.phase hidle) (phase_goto ..) rfl rfl rfl rfl rfl rfl
      | false =>
        exact h.still rfl (by rw [hpc]; rfl) hfreeInv h.used hquiet (.refl ..)
          (congrArg Pc.phase hidle) (congrArg Pc.phase hused) rfl rfl rfl rfl rfl rfl
    · next hrunning =>
      have hphase' : (queue.pc (some t)).phase = (s.freeIndices.pc (some t)).phase :=
        hphase.resolve_right fun hidle => hrunning (Pc.phase_eq_idle hidle.1)
      exact h.still (Function.update_eq_self t s.pc).symm rfl hfreeInv h.used hquiet (.refl ..)
        (hphase'.trans (h.phased.free t)) (h.phased.used t) (by rw [hpc]; rfl) rfl rfl rfl rfl rfl
  | published i hphase => cases hphase₀.symm.trans hphase
  | took i call hphase hphase' hcontents hpublished hpopped howner =>
    rw [if_pos (Pc.phase_eq_idle hphase'), taken_some hpopped]
    exact h.claimed hfreeInv hqueue hpc hphase' hcontents howner _

theorem drawn (h : s.Inv capacity) (husedInv : queue.Inv capacity (List.replicate capacity 0) [])
    (hqueue : s.usedIndices.access capacity (some t) spurious = some queue) {value : Option V}
    (hpc : s.pc t = .popUsed value) {i : Nat} (hphase : (queue.pc (some t)).phase = .idle)
    (hcontents : s.usedIndices.contents = i :: queue.contents)
    (hpopped : queue.popped = s.usedIndices.popped ++ [i])
    (howner : queue.owner = Function.update s.usedIndices.owner i (some (some t))) :
    ({ s with
      usedIndices := queue
      freeIndices := s.freeIndices.give (some t) i }.goto t
        (.readSize i s.usedIndices.popped.length value)).Inv capacity := by
  obtain ⟨stage, hplaced, hsound⟩ := h.places
  have hmem : i ∈ s.usedIndices.contents := hcontents ▸ List.mem_cons_self
  have hstage := (hsound.places.mem_queue i).mp hmem
  refine ⟨h.free.give h.phased.pool.1 (hplaced.queued i hstage) _, husedInv, ?_, ?_⟩
  · exact h.phased.update rfl (fun _ _ => rfl) (fun u hu => access_pc hqueue hu)
      ((h.phased.free t).trans (by rw [hpc]; rfl)) hphase (List.prefix_refl _)
      fun n v hnv => by cases hnv
  · have hlength : queue.popped.length = s.usedIndices.popped.length + 1 := by
      rw [hpopped, List.length_append, List.length_singleton]
    refine ⟨Function.update stage i (.drawn s.usedIndices.popped.length),
      hplaced.update rfl (fun j hj => Function.update_of_ne hj ..) (fun j hj => ?_)
        (Or.inr ⟨by rw [hpc]; rfl, Or.inr hstage⟩)
        (Or.inl ⟨rfl, Function.update_self .., ?_⟩), ?_⟩
    · change queue.owner j = _
      rw [howner, Function.update_of_ne hj]
    · change queue.owner i = _
      rw [howner, Function.update_self]
    · have hdraw := hsound.move (.draw i _ hcontents)
      have hsame : LockFreeQueue.circulation ({ s with
          usedIndices := queue
          freeIndices := s.freeIndices.give (some t) i }.goto t
            (.readSize i s.usedIndices.popped.length value))
          (Function.update stage i (.drawn s.usedIndices.popped.length)) =
          { s.circulation stage with
            stage := Function.update stage i (.drawn s.usedIndices.popped.length)
            queue := queue.contents
            draws := s.usedIndices.popped.length + 1 } :=
        Circulation.ext rfl rfl rfl rfl rfl rfl rfl hlength rfl
      rw [hsame]
      exact hdraw

theorem popUsed (h : s.Inv capacity) (husedInv : queue.Inv capacity (List.replicate capacity 0) [])
    (hqueue : s.usedIndices.access capacity (some t) spurious = some queue) {value : Option V}
    (hpc : s.pc t = .popUsed value) :
    (if queue.pc (some t) = Pc.idle then
      { s with usedIndices := queue }.poppedUsed t value s.usedIndices.popped.length
        (s.usedIndices.taken queue)
    else { s with usedIndices := queue }).Inv capacity := by
  have hfree := h.free_idle (t := t) (by rw [hpc]; rfl)
  have hphase₀ := h.phased.used t
  rw [hpc] at hphase₀
  cases h.used.accessed hqueue with
  | quiet hpublished hpopped howner hphase hfinished =>
    have hquiet : Quiet (some t) s.usedIndices queue :=
      ⟨hpublished, hpopped, howner, fun u hu => access_pc hqueue hu⟩
    split
    · next hidle =>
      rw [taken_none hpopped]
      cases value with
      | some value =>
        exact h.still rfl (by rw [hpc]; rfl) (h.free.goto (by rw [hfree]; rfl) trivial) husedInv
          ⟨rfl, rfl, rfl, fun u hu => Function.update_of_ne hu ..⟩ hquiet (phase_goto ..)
          (congrArg Pc.phase hidle) rfl rfl rfl rfl rfl rfl
      | none =>
        exact h.still rfl (by rw [hpc]; rfl) h.free husedInv (.refl ..) hquiet
          (congrArg Pc.phase hfree) (congrArg Pc.phase hidle) rfl rfl rfl rfl rfl rfl
    · next hrunning =>
      have hphase' : (queue.pc (some t)).phase = (s.usedIndices.pc (some t)).phase :=
        hphase.resolve_right fun hidle => hrunning (Pc.phase_eq_idle hidle.1)
      exact h.still (Function.update_eq_self t s.pc).symm rfl h.free husedInv (.refl ..) hquiet
        (h.phased.free t) (hphase'.trans (h.phased.used t)) (by rw [hpc]; rfl) rfl rfl rfl rfl rfl
  | published i hphase => cases value <;> cases hphase₀.symm.trans hphase
  | took i call hphase hphase' hcontents hpublished hpopped howner =>
    rw [if_pos (Pc.phase_eq_idle hphase'), taken_some hpopped]
    exact h.drawn husedInv hqueue hpc hphase' hcontents hpopped howner

theorem readSize (h : s.Inv capacity) (hlarge : capacity < CyclicIndex.maxValue / 2) {i k : Nat}
    {value : Option V} (hpc : s.pc t = .readSize i k value) :
    ({ s with size := (s.size + (2 ^ 64 - 1)) % 2 ^ 64 }.goto t (.readElement i k value)).Inv
      capacity := by
  have hbefore : (s.pc t).place = some (i, .drawn k) := by rw [hpc]; rfl
  obtain ⟨stage, hplaced, hsound⟩ := h.places
  obtain ⟨hstage, -⟩ := hplaced.held t i _ hbefore
  have hpos : 0 < s.size := hsound.size_pos (hsound.places.lt i (by
    change stage i ≠ _
    rw [hstage]
    exact Stage.noConfusion)) (by
      change 0 < (stage i).weight
      rw [hstage]
      exact Nat.one_pos)
  have hle : s.size ≤ capacity := hsound.size_le
  have hsize : (s.size + (2 ^ 64 - 1)) % 2 ^ 64 = s.size - 1 := by
    simp only [CyclicIndex.maxValue] at hlarge
    omega
  rw [hsize]
  exact h.advance rfl hbefore rfl h.free h.used (.refl ..) (.refl ..)
    ((h.phased.free t).trans (by rw [hpc]; rfl)) ((h.phased.used t).trans (by rw [hpc]; rfl))
    (List.prefix_refl _) (fun n v hnv => by cases hnv) fun stage hstage hsound =>
      hsound.move (.uncount i k hstage)

theorem readElement (h : s.Inv capacity) {i k : Nat} {value : Option V}
    (hpc : s.pc t = .readElement i k value) {element : V} (hcell : s.buffer i = some element) :
    ({ s with
      buffer := Function.update s.buffer i none
      outputs := s.outputs ++ [(k, element)] }.readBuffer t i element value).Inv capacity := by
  have hbefore : (s.pc t).place = some (i, .uncounted k) := by rw [hpc]; rfl
  cases value with
  | some value =>
    refine h.advance rfl hbefore rfl h.free h.used (.refl ..) (.refl ..)
      ((h.phased.free t).trans (by rw [hpc]; rfl)) ((h.phased.used t).trans (by rw [hpc]; rfl))
      (List.prefix_append _ _) (fun n v hnv => ?_) fun stage hstage hsound => ?_
    · cases hnv
      exact List.getElem?_concat_length
    · have hdrain := hsound.move (.drain i k element hstage hcell)
      have hreclaim := hdrain.move (.reclaim i value (Function.update_self ..))
      have hsame : Function.update (Function.update stage i .drained) i
          (.claimed s.inputs.length) = Function.update stage i (.claimed s.inputs.length) :=
        Function.update_idem ..
      rw [← hsame]
      exact hreclaim
  | none =>
    obtain ⟨stage, hplaced, -⟩ := h.places
    obtain ⟨-, hfree, -⟩ := hplaced.held t i _ hbefore
    have hidle := h.free_idle (t := t) (by rw [hpc]; rfl)
    exact h.advance rfl hbefore rfl (h.free.callPush hidle hfree) h.used
      ⟨rfl, rfl, rfl, fun u hu => Function.update_of_ne hu ..⟩ (.refl ..) (phase_goto ..)
      ((h.phased.used t).trans (by rw [hpc]; rfl)) (List.prefix_refl _)
      (fun n v hnv => by cases hnv) fun stage hstage hsound =>
        hsound.move (.drain i k element hstage hcell)

theorem writeElement (h : s.Inv capacity) {i n : Nat} {value : V} {result : LockFreeResult V}
    (hpc : s.pc t = .writeElement i n value result) :
    ({ s with buffer := Function.update s.buffer i (some value) }.goto t
      (.writeSize i n result)).Inv capacity := by
  have hbefore : (s.pc t).place = some (i, .claimed n) := by rw [hpc]; rfl
  have hvalue := h.phased.input t n value (by rw [hpc]; rfl)
  exact h.advance rfl hbefore rfl h.free h.used (.refl ..) (.refl ..)
    ((h.phased.free t).trans (by rw [hpc]; rfl)) ((h.phased.used t).trans (by rw [hpc]; rfl))
    (List.prefix_refl _) (fun n v hnv => by cases hnv) fun stage hstage hsound =>
      hsound.move (.fill i n value hstage hvalue)

theorem writeSize (h : s.Inv capacity) (hlarge : capacity < CyclicIndex.maxValue / 2) {i n : Nat}
    {result : LockFreeResult V} (hpc : s.pc t = .writeSize i n result) :
    ({ s with
      size := (s.size + 1) % 2 ^ 64
      usedIndices := { s.usedIndices with calls := s.usedIndices.calls ++ [i] }.goto (some t)
        (.pushLoad i) }.goto t (.pushUsed i n result)).Inv capacity := by
  have hbefore : (s.pc t).place = some (i, .filled n) := by rw [hpc]; rfl
  obtain ⟨stage, hplaced, hsound⟩ := h.places
  obtain ⟨hstage, -, hused⟩ := hplaced.held t i _ hbefore
  have hle : s.size + 1 ≤ capacity := (hsound.count hstage).size_le
  have hsize : (s.size + 1) % 2 ^ 64 = s.size + 1 := by
    simp only [CyclicIndex.maxValue] at hlarge
    omega
  have hidle := h.used_idle (t := t) (by rw [hpc]; rfl)
  rw [hsize]
  exact h.advance rfl hbefore rfl h.free (h.used.callPush hidle hused) (.refl ..)
    ⟨rfl, rfl, rfl, fun u hu => Function.update_of_ne hu ..⟩
    ((h.phased.free t).trans (by rw [hpc]; rfl)) (phase_goto ..) (List.prefix_refl _)
    (fun n v hnv => by cases hnv) fun stage hstage hsound =>
      hsound.move (.count i n hstage)

theorem pushUsed (h : s.Inv capacity)
    (husedInv : queue.Inv capacity (List.replicate capacity 0) [])
    (hqueue : s.usedIndices.access capacity (some t) spurious = some queue) {i n : Nat}
    {result : LockFreeResult V} (hpc : s.pc t = .pushUsed i n result) :
    (match s.usedIndices.put queue with
    | some _ =>
      { s with
        usedIndices := queue
        freeIndices := s.freeIndices.give none i
        order := s.order ++ [n] }.goto t (.finishUsed result)
    | none => { s with usedIndices := queue }).Inv capacity := by
  have hphase₀ := h.phased.used t
  rw [hpc] at hphase₀
  cases h.used.accessed hqueue with
  | quiet hpublished hpopped howner hphase hfinished =>
    rw [put_none hpublished]
    have hphase' : (queue.pc (some t)).phase = (s.usedIndices.pc (some t)).phase :=
      hphase.resolve_right fun hidle => hidle.2 i hphase₀
    exact h.still (Function.update_eq_self t s.pc).symm rfl h.free husedInv (.refl ..)
      ⟨hpublished, hpopped, howner, fun u hu => access_pc hqueue hu⟩ (h.phased.free t)
      (hphase'.trans (h.phased.used t)) (by rw [hpc]; rfl) rfl rfl rfl rfl rfl
  | published j hphase hphase' hcontents hpublished hpopped howner =>
    cases hphase₀.symm.trans hphase
    rw [put_some hpublished]
    obtain ⟨stage, hplaced, hsound⟩ := h.places
    obtain ⟨hstage, hfree, hused⟩ := hplaced.held t i (.counted n) (by rw [hpc]; rfl)
    refine ⟨h.free.give (h.free_idle (by rw [hpc]; rfl)) hfree _, husedInv, ?_, ?_⟩
    · exact h.phased.update rfl (fun _ _ => rfl) (fun u hu => access_pc hqueue hu)
        ((h.phased.free t).trans (by rw [hpc]; rfl)) hphase' (List.prefix_refl _)
        fun n v hnv => by cases hnv
    · refine ⟨Function.update stage i .queued, hplaced.update rfl
        (fun j hj => Function.update_of_ne hj ..) (fun j hj => ?_)
        (Or.inl ⟨.counted n, by rw [hpc]; rfl⟩)
        (Or.inr ⟨rfl, Or.inr ⟨rfl, Function.update_self ..⟩⟩), ?_⟩
      · change queue.owner j = _
        rw [howner, Function.update_of_ne hj]
      · have hsame : LockFreeQueue.circulation ({ s with
            usedIndices := queue
            freeIndices := s.freeIndices.give none i
            order := s.order ++ [n] }.goto t (.finishUsed result))
            (Function.update stage i .queued) =
            { s.circulation stage with
              stage := Function.update stage i .queued
              queue := s.usedIndices.contents ++ [i]
              order := s.order ++ [n] } :=
          Circulation.ext rfl rfl hcontents rfl rfl rfl rfl (congrArg List.length hpopped) rfl
        rw [hsame]
        exact hsound.move (.enqueue i n hstage)
  | took j call hphase => cases hphase₀.symm.trans hphase

theorem pushFree (h : s.Inv capacity) (hfreeInv : queue.Inv capacity [] (List.range capacity))
    (hqueue : s.freeIndices.access capacity (some t) spurious = some queue) {i : Nat}
    {result : LockFreeResult V} (hpc : s.pc t = .pushFree i result) :
    (match s.freeIndices.put queue with
    | some _ =>
      { s with
        freeIndices := queue
        usedIndices := s.usedIndices.give none i }.goto t (.finishFree result)
    | none => { s with freeIndices := queue }).Inv capacity := by
  have hphase₀ := h.phased.free t
  rw [hpc] at hphase₀
  cases h.free.accessed hqueue with
  | quiet hpublished hpopped howner hphase hfinished =>
    rw [put_none hpublished]
    have hphase' : (queue.pc (some t)).phase = (s.freeIndices.pc (some t)).phase :=
      hphase.resolve_right fun hidle => hidle.2 i hphase₀
    exact h.still (Function.update_eq_self t s.pc).symm rfl hfreeInv h.used
      ⟨hpublished, hpopped, howner, fun u hu => access_pc hqueue hu⟩ (.refl ..)
      (hphase'.trans (h.phased.free t)) (h.phased.used t) (by rw [hpc]; rfl) rfl rfl rfl rfl rfl
  | published j hphase hphase' hcontents hpublished hpopped howner =>
    cases hphase₀.symm.trans hphase
    rw [put_some hpublished]
    obtain ⟨stage, hplaced, hsound⟩ := h.places
    obtain ⟨hstage, hfree, hused⟩ := hplaced.held t i .drained (by rw [hpc]; rfl)
    refine ⟨hfreeInv, h.used.give (h.used_idle (by rw [hpc]; rfl)) hused _, ?_, ?_⟩
    · exact h.phased.update rfl (fun u hu => access_pc hqueue hu) (fun _ _ => rfl) hphase'
        ((h.phased.used t).trans (by rw [hpc]; rfl)) (List.prefix_refl _)
        fun n v hnv => by cases hnv
    · refine ⟨Function.update stage i .free, hplaced.update rfl (fun j hj => ?_)
        (fun j hj => Function.update_of_ne hj ..) (Or.inl ⟨.drained, by rw [hpc]; rfl⟩)
        (Or.inr ⟨rfl, Or.inl ⟨rfl, Function.update_self ..⟩⟩), ?_⟩
      · change queue.owner j = _
        rw [howner, Function.update_of_ne hj]
      · have hsame : LockFreeQueue.circulation ({ s with
            freeIndices := queue
            usedIndices := s.usedIndices.give none i }.goto t (.finishFree result))
            (Function.update stage i .free) =
            { s.circulation stage with
              stage := Function.update stage i .free
              free := s.freeIndices.contents ++ [i] } :=
          Circulation.ext rfl hcontents rfl rfl rfl rfl rfl rfl rfl
        rw [hsame]
        exact hsound.move (.release i hstage)
  | took j call hphase => cases hphase₀.symm.trans hphase

theorem finishUsed (h : s.Inv capacity)
    (husedInv : queue.Inv capacity (List.replicate capacity 0) [])
    (hqueue : s.usedIndices.access capacity (some t) spurious = some queue)
    {result : LockFreeResult V} (hpc : s.pc t = .finishUsed result) :
    ({ s with usedIndices := queue }.finish t result).Inv capacity := by
  have hphase₀ := h.phased.used t
  rw [hpc] at hphase₀
  cases h.used.accessed hqueue with
  | quiet hpublished hpopped howner hphase hfinished =>
    exact h.still rfl (by rw [hpc]; rfl) h.free husedInv (.refl ..)
      ⟨hpublished, hpopped, howner, fun u hu => access_pc hqueue hu⟩
      ((h.phased.free t).trans (by rw [hpc]; rfl)) (hfinished hphase₀) rfl rfl rfl rfl rfl rfl
  | published j hphase => cases hphase₀.symm.trans hphase
  | took j call hphase => cases hphase₀.symm.trans hphase

theorem finishFree (h : s.Inv capacity) (hfreeInv : queue.Inv capacity [] (List.range capacity))
    (hqueue : s.freeIndices.access capacity (some t) spurious = some queue)
    {result : LockFreeResult V} (hpc : s.pc t = .finishFree result) :
    ({ s with freeIndices := queue }.finish t result).Inv capacity := by
  have hphase₀ := h.phased.free t
  rw [hpc] at hphase₀
  cases h.free.accessed hqueue with
  | quiet hpublished hpopped howner hphase hfinished =>
    exact h.still rfl (by rw [hpc]; rfl) hfreeInv h.used
      ⟨hpublished, hpopped, howner, fun u hu => access_pc hqueue hu⟩ (.refl ..)
      (hfinished hphase₀) ((h.phased.used t).trans (by rw [hpc]; rfl)) rfl rfl rfl rfl rfl rfl
  | published j hphase => cases hphase₀.symm.trans hphase
  | took j call hphase => cases hphase₀.symm.trans hphase

theorem step (h : s.Inv capacity) (hcapacity : 0 < capacity)
    (hlarge : capacity < CyclicIndex.maxValue / 2) {l : T × LockFreeStep V}
    (hwrap : s.NoWrap capacity l) (hstep : s.step capacity l = some s') : s'.Inv capacity := by
  obtain ⟨t, c | spurious⟩ := l
  · simp only [LockFreeQueue.step] at hstep
    split at hstep
    · next hpc =>
      cases hstep
      exact h.call hpc c
    · cases hstep
  · have hfree {queue : IndexQueue (Option T)}
        (hqueue : s.freeIndices.access capacity (some t) spurious = some queue) :=
      h.accessFree hcapacity hlarge hwrap.1 hqueue
    have hused {queue : IndexQueue (Option T)}
        (hqueue : s.usedIndices.access capacity (some t) spurious = some queue) :=
      h.accessUsed hcapacity hlarge hwrap.2 hqueue
    simp only [LockFreeQueue.step, access] at hstep
    cases hpc : s.pc t with
    | idle => simp [hpc] at hstep
    | popFree value evicts =>
      simp only [hpc] at hstep
      obtain ⟨queue, hqueue, rfl⟩ := Option.map_eq_some_iff.mp hstep
      exact h.popFree (hfree hqueue) hqueue hpc
    | popUsed value =>
      simp only [hpc] at hstep
      obtain ⟨queue, hqueue, rfl⟩ := Option.map_eq_some_iff.mp hstep
      exact h.popUsed (hused hqueue) hqueue hpc
    | readSize i k value =>
      simp only [hpc] at hstep
      cases hstep
      exact h.readSize hlarge hpc
    | readElement i k value =>
      simp only [hpc] at hstep
      obtain ⟨element, hcell, rfl⟩ := Option.map_eq_some_iff.mp hstep
      exact h.readElement hpc hcell
    | writeElement i n value result =>
      simp only [hpc] at hstep
      split at hstep
      · cases hstep
      · cases hstep
        exact h.writeElement hpc
    | writeSize i n result =>
      simp only [hpc] at hstep
      cases hstep
      exact h.writeSize hlarge hpc
    | pushUsed i n result =>
      simp only [hpc] at hstep
      obtain ⟨queue, hqueue, rfl⟩ := Option.map_eq_some_iff.mp hstep
      exact h.pushUsed (hused hqueue) hqueue hpc
    | pushFree i result =>
      simp only [hpc] at hstep
      obtain ⟨queue, hqueue, rfl⟩ := Option.map_eq_some_iff.mp hstep
      exact h.pushFree (hfree hqueue) hqueue hpc
    | finishUsed result =>
      simp only [hpc] at hstep
      obtain ⟨queue, hqueue, rfl⟩ := Option.map_eq_some_iff.mp hstep
      exact h.finishUsed (hused hqueue) hqueue hpc
    | finishFree result =>
      simp only [hpc] at hstep
      obtain ⟨queue, hqueue, rfl⟩ := Option.map_eq_some_iff.mp hstep
      exact h.finishFree (hfree hqueue) hqueue hpc

omit [DecidableEq T] in
theorem start (hcapacity : 0 < capacity) :
    (construct capacity : LockFreeQueue T V).Inv capacity := by
  refine ⟨.start_full capacity, .start_empty hcapacity (fun i t howner => ?_), ?_, ?_⟩
  · split at howner
    · assumption
    · cases howner
  · exact ⟨⟨rfl, rfl⟩, fun _ => rfl, fun _ => rfl, fun _ _ _ hinput => by cases hinput⟩
  · refine ⟨fun _ => .free, ⟨fun i hi _ => if_pos hi, fun i hi => ?_, fun t i st hplace => ?_,
      fun i hi => absurd rfl hi⟩, .start capacity⟩
    · cases hi
    · cases hplace

theorem access_isSome (h : s.Inv capacity) (hpc : s.pc t ≠ .idle) (spurious : Bool) :
    (s.access capacity t spurious).isSome := by
  obtain ⟨stage, hplaced, hsound⟩ := h.places
  have hfree : (s.pc t).freePhase ≠ .idle →
      (s.freeIndices.access capacity (some t) spurious).isSome := fun hphase =>
    IndexQueue.access_isSome (fun hidle => hphase (by rw [← h.phased.free t, hidle]; rfl)) spurious
  have hused : (s.pc t).usedPhase ≠ .idle →
      (s.usedIndices.access capacity (some t) spurious).isSome := fun hphase =>
    IndexQueue.access_isSome (fun hidle => hphase (by rw [← h.phased.used t, hidle]; rfl)) spurious
  simp only [access]
  cases hp : s.pc t with
  | idle => exact absurd hp hpc
  | popFree value evicts | pushFree i result | finishFree result =>
    rw [hp] at hfree
    simpa using hfree (by simp [LockFreePc.freePhase])
  | popUsed value =>
    rw [hp] at hused
    have hphase : (LockFreePc.popUsed value).usedPhase ≠ .idle := by
      cases value <;> simp [LockFreePc.usedPhase]
    simpa using hused hphase
  | pushUsed i n result | finishUsed result =>
    rw [hp] at hused
    simpa using hused (by simp [LockFreePc.usedPhase])
  | readSize i k value | writeSize i n result => rfl
  | readElement i k value =>
    have hholds := hsound.contents.holds i
    obtain ⟨hstage, -⟩ := hplaced.held t i (.uncounted k) (by rw [hp]; rfl)
    change (s.circulation stage).Holds i (stage i) at hholds
    rw [hstage] at hholds
    obtain ⟨v, -, hcell⟩ := hholds
    change s.buffer i = some v at hcell
    simp [hcell]
  | writeElement i n value result =>
    have hholds := hsound.contents.holds i
    obtain ⟨hstage, -⟩ := hplaced.held t i (.claimed n) (by rw [hp]; rfl)
    change (s.circulation stage).Holds i (stage i) at hholds
    rw [hstage] at hholds
    change s.buffer i = none at hholds
    simp [hholds]

theorem evicts_full (h : s.Inv capacity) {value : V} {spurious : Bool}
    (hpc : s.pc t = .popUsed (some value)) (hstep : s.access capacity t spurious = some s')
    (hpopped : s'.usedIndices.popped ≠ s.usedIndices.popped) :
    s.usedIndices.contents.length = capacity := by
  simp only [access, hpc] at hstep
  obtain ⟨queue, hqueue, rfl⟩ := Option.map_eq_some_iff.mp hstep
  have hphase₀ := h.phased.used t
  rw [hpc] at hphase₀
  have hkeeps : queue.popped ≠ s.usedIndices.popped := by
    intro hsame
    rw [taken_none hsame] at hpopped
    split at hpopped
    · exact hpopped hsame
    · exact hpopped hsame
  cases h.used.accessed hqueue with
  | quiet hpublished hsame => exact absurd hsame hkeeps
  | published i hphase hphase' hcontents hpublished hsame => exact absurd hsame hkeeps
  | took i call hphase hphase' hcontents hpublished hpopped howner hrequired =>
    cases hphase₀.symm.trans hphase
    exact Nat.le_antisymm h.used.room hrequired

end Inv

omit [DecidableEq T] in
def queued (s : LockFreeQueue T V) (k : Nat) : Option V :=
  s.order[k]?.bind fun n => s.inputs[n]?

structure ExactlyOnce (capacity : Nat) (s : LockFreeQueue T V) : Prop where
  queued : s.order.Nodup ∧ ∀ n ∈ s.order, n < s.inputs.length
  read : (s.outputs.map Prod.fst).Nodup ∧
    ∀ k v, (k, v) ∈ s.outputs → k < s.usedIndices.popped.length ∧ s.queued k = some v
  next : s.order.length = s.usedIndices.popped.length + s.usedIndices.contents.length ∧
    ∀ k i, s.usedIndices.contents[k]? = some i →
      ∃ v, s.queued (s.usedIndices.popped.length + k) = some v ∧ s.buffer i = some v
  size : s.size ≤ capacity
  memory : (∀ t spurious, s.pc t ≠ .idle → (s.access capacity t spurious).isSome) ∧
    ∀ t u i st st', (s.pc t).place = some (i, st) → (s.pc u).place = some (i, st') → t = u
  evicts : ∀ t value spurious s', s.pc t = .popUsed (some value) →
    s.access capacity t spurious = some s' →
    s'.usedIndices.popped ≠ s.usedIndices.popped → s.usedIndices.contents.length = capacity
  atRest : (∀ t, s.pc t = .idle) →
    s.order.Perm (List.range s.inputs.length) ∧
      (s.outputs.map Prod.fst).Perm (List.range s.usedIndices.popped.length) ∧
      s.size = s.usedIndices.contents.length

/-- However the calls of any number of threads interleave, every value that found a place is
queued once, and the `k`-th that is popped or evicted is the `k`-th that was queued. -/
theorem queued_and_read_once (hcapacity : 0 < capacity)
    (hlarge : capacity < CyclicIndex.maxValue / 2) (ls : List (T × LockFreeStep V))
    (hrun : runSteps (step capacity) (construct capacity) ls = some s)
    (hwrap : Meets (step capacity) (NoWrap capacity) (construct capacity) ls) :
    s.ExactlyOnce capacity := by
  have h : s.Inv capacity :=
    runSteps_invariant (I := Inv capacity)
      (fun s l s' hs hl hstep => hs.step hcapacity hlarge hl hstep) ls _ _ (.start hcapacity) hwrap
      hrun
  obtain ⟨stage, hplaced, hsound⟩ := h.places
  have haccounts := hsound.accounts
  refine ⟨⟨haccounts.inputs.nodup, fun n hn => ?_⟩, ⟨haccounts.outputs.nodup, fun k v hkv => ?_⟩,
    ⟨haccounts.balance, hsound.contents.queue⟩, hsound.size_le,
    ⟨fun t spurious hpc => h.access_isSome hpc spurious, fun t u i st st' ht hu => ?_⟩,
    fun t value spurious s' => h.evicts_full, fun hidle => ?_⟩
  · exact (haccounts.inputs.known n).mpr (Or.inl hn)
  · refine ⟨(haccounts.outputs.known k).mpr (Or.inl ?_), hsound.contents.outputs k v hkv⟩
    exact List.mem_map_of_mem hkv
  · exact hplaced.others (Or.inl ⟨st', hu⟩) ht
  · refine hsound.at_rest fun i => ?_
    by_contra hnot
    obtain ⟨hne, hne'⟩ := not_or.mp hnot
    obtain ⟨t, ht⟩ := hplaced.holder i hne hne'
    rw [hidle t] at ht
    cases ht

instance (s : LockFreeQueue T V) (l : T × LockFreeStep V) : Decidable (s.NoWrap capacity l) :=
  inferInstanceAs (Decidable (_ ∧ _))

/-- Two threads push into a queue of capacity 1.  The second one finds no free index while the
queue is not full yet, and evicts the value of the first. -/
def evictingPush : List (Bool × LockFreeStep Nat) :=
  [(true, LockFreeStep.call (.push 5)), (false, LockFreeStep.call (.push 7))] ++
    List.replicate 3 (true, LockFreeStep.access false) ++
    List.replicate 4 (false, LockFreeStep.access false) ++
    List.replicate 6 (true, LockFreeStep.access false) ++
    List.replicate 15 (false, LockFreeStep.access false) ++
    [(true, LockFreeStep.call .pop)] ++ List.replicate 9 (true, LockFreeStep.access false)

theorem queued_and_read_once_evictingPush :
    (runSteps (step 1) (construct 1) evictingPush).map
      (fun s => (s.inputs, s.order, s.outputs, s.result true)) =
        some ([5, 7], [0, 1], [(0, 5), (1, 7)], some (.pop (some 7))) ∧
    ∃ s, runSteps (step 1) (construct 1) evictingPush = some s ∧ s.ExactlyOnce 1 := by
  refine ⟨by decide, ?_⟩
  obtain ⟨s, hs⟩ : ∃ s, runSteps (step 1) (construct 1) evictingPush = some s := ⟨_, rfl⟩
  exact ⟨s, hs, queued_and_read_once (by decide) (by decide) evictingPush hs (by decide)⟩

end LockFreeQueue

end Iceoryx.Hoofs
