import Iceoryx.Popo.DistributorSections

/-! One call of `deliverToAllStoredQueues` for a producer that waits for its consumers.  One
step is one push to one queue: the lock keeps RouDi out of a section, but not the receivers,
which pop at any time. -/

namespace Iceoryx.Popo

open Mepoo Lib

variable {R : Type}

structure QueueLog (R : Type) where
  receivers : R → ChunkQueueData
  appended : R → List Nat
  popped : R → List Nat

namespace QueueLog

section Operations

variable [DecidableEq R]

def setQueue (q : QueueLog R) (r : R) (queue : VariantQueue Nat) : QueueLog R :=
  { q with receivers := Function.update q.receivers r { q.receivers r with queue := queue } }

def setLostChunks (q : QueueLog R) (r : R) (lost : Bool) : QueueLog R :=
  { q with receivers :=
    Function.update q.receivers r { q.receivers r with queueHasLostChunks := lost } }

/-- `pushToQueue`: what it returns, and whether the chunk was put into the queue.  A full
FiFo hands the new chunk back, a full SoFi its oldest one. -/
def push (q : QueueLog R) (r : R) (chunk : Nat) : Option (Bool × Bool × QueueLog R) :=
  let queue := (q.receivers r).queue
  match queue.push chunk with
  | none => none
  | some (pushRet, queue') =>
    if pushRet.isSome ∧ queue.type.isFiFo then some (false, false, q.setQueue r queue')
    else some (pushRet.isNone, true, { q.setQueue r queue' with
      appended := Function.update q.appended r (q.appended r ++ [chunk]) })

def lostAChunk (q : QueueLog R) (r : R) : QueueLog R := q.setLostChunks r true

def tryPop (q : QueueLog R) (r : R) : QueueLog R :=
  match (q.receivers r).queue.pop with
  | none => q
  | some (chunk, queue) => { q.setQueue r queue with
      popped := Function.update q.popped r (q.popped r ++ [chunk]) }

def hasLostChunks (q : QueueLog R) (r : R) : QueueLog R := q.setLostChunks r false

end Operations

/-- A FiFo has lost nothing, and a queue that blocks the producer never has to say so. -/
structure Kept (start d : ChunkQueueData) (appended popped : List Nat) : Prop where
  type : d.queue.type = start.queue.type
  policy : d.queueFullPolicy = start.queueFullPolicy
  fiFo : start.queue.type.isFiFo = true →
    start.queue.elements ++ appended = popped ++ d.queue.elements
  last : d.queue.elements <:+ start.queue.elements ++ appended
  lost : start.queueFullPolicy = .blockProducer → d.queueHasLostChunks = true →
    start.queueHasLostChunks = true

def Sound (start : R → ChunkQueueData) (q : QueueLog R) : Prop :=
  ∀ r, Kept (start r) (q.receivers r) (q.appended r) (q.popped r)

end QueueLog

theorem VariantQueue.push_elements {A : Type} {q q' : VariantQueue A} {value : A}
    {overflow : Option A} (h : q.push value = some (overflow, q')) :
    (overflow.isSome = true ∧ q.type.isFiFo = true ∧ q'.elements = q.elements) ∨
      (overflow = none ∧ q'.elements = q.elements ++ [value]) ∨
      q.type.isFiFo = false ∧ q'.elements <:+ q.elements ++ [value] := by
  unfold push at h
  split at h
  · next htype =>
    split at h
    · cases h
      exact .inr (.inl ⟨rfl, rfl⟩)
    · cases h
      exact .inl ⟨rfl, by rw [htype]; rfl, rfl⟩
  · next htype =>
    split at h
    · cases h
      exact .inr (.inl ⟨rfl, rfl⟩)
    · cases h
      exact .inl ⟨rfl, by rw [htype]; rfl, rfl⟩
  · next htype =>
    split at h
    · cases h
      exact .inr (.inl ⟨rfl, rfl⟩)
    · split at h
      · next oldest rest hsplit =>
        cases h
        refine .inr (.inr ⟨by rw [htype]; rfl, ?_⟩)
        rw [hsplit]
        exact List.suffix_cons oldest rest
      · cases h
  · next htype =>
    split at h
    · cases h
      exact .inr (.inl ⟨rfl, rfl⟩)
    · split at h
      · next oldest rest hsplit =>
        cases h
        refine .inr (.inr ⟨by rw [htype]; rfl, ?_⟩)
        rw [hsplit]
        exact List.suffix_cons oldest (rest ++ [value])
      · cases h

namespace QueueLog

theorem Kept.refl (start : ChunkQueueData) : Kept start start [] [] where
  type := rfl
  policy := rfl
  fiFo := fun _ => List.append_nil _
  last := by rw [List.append_nil]
  lost := fun _ h => h

theorem Kept.push {start d : ChunkQueueData} {appended popped : List Nat}
    (h : Kept start d appended popped) {chunk : Nat} {pushRet : Option Nat}
    {queue : VariantQueue Nat} (hpush : d.queue.push chunk = some (pushRet, queue))
    (hput : ¬ (pushRet.isSome = true ∧ d.queue.type.isFiFo = true)) :
    Kept start { d with queue := queue } (appended ++ [chunk]) popped := by
  have hlast : (d.queue.elements ++ [chunk]) <:+ start.queue.elements ++ (appended ++ [chunk]) := by
    rw [← List.append_assoc]
    exact List.suffix_append_self_iff.mpr h.last
  refine ⟨(VariantQueue.push_type hpush).trans h.type, h.policy, ?_, ?_, h.lost⟩
  · intro hfiFo
    rcases VariantQueue.push_elements hpush with ⟨hsome, htype, -⟩ | ⟨-, heq⟩ | ⟨htype, -⟩
    · exact absurd ⟨hsome, htype⟩ hput
    · simp only
      rw [heq, ← List.append_assoc, h.fiFo hfiFo, List.append_assoc]
    · rw [h.type, hfiFo] at htype
      cases htype
  · rcases VariantQueue.push_elements hpush with ⟨hsome, htype, -⟩ | ⟨-, heq⟩ | ⟨-, hsuffix⟩
    · exact absurd ⟨hsome, htype⟩ hput
    · simp only
      rw [heq]
      exact hlast
    · exact hsuffix.trans hlast

theorem Kept.rejected {start d : ChunkQueueData} {appended popped : List Nat}
    (h : Kept start d appended popped) {chunk : Nat} {pushRet : Option Nat}
    {queue : VariantQueue Nat} (hpush : d.queue.push chunk = some (pushRet, queue))
    (hput : pushRet.isSome = true ∧ d.queue.type.isFiFo = true) :
    Kept start { d with queue := queue } appended popped := by
  have heq : queue.elements = d.queue.elements := by
    rcases VariantQueue.push_elements hpush with ⟨-, -, heq⟩ | ⟨hnone, -⟩ | ⟨htype, -⟩
    · exact heq
    · rw [hnone] at hput
      cases hput.1
    · rw [hput.2] at htype
      cases htype
  refine ⟨(VariantQueue.push_type hpush).trans h.type, h.policy, ?_, ?_, h.lost⟩
  · simp only [heq]
    exact h.fiFo
  · simp only [heq]
    exact h.last

theorem Kept.pop {start d : ChunkQueueData} {appended popped : List Nat}
    (h : Kept start d appended popped) {chunk : Nat} {queue : VariantQueue Nat}
    (hpop : d.queue.pop = some (chunk, queue)) :
    Kept start { d with queue := queue } appended (popped ++ [chunk]) := by
  have heq := VariantQueue.pop_elements hpop
  refine ⟨(VariantQueue.pop_type hpop).trans h.type, h.policy, ?_, ?_, h.lost⟩
  · intro hfiFo
    simp only
    rw [h.fiFo hfiFo, heq, List.append_assoc, List.singleton_append]
  · have hlast := h.last
    rw [heq] at hlast
    exact (List.suffix_cons chunk queue.elements).trans hlast

variable {start : R → ChunkQueueData} {q q' : QueueLog R} [DecidableEq R]

theorem Sound.update (h : Sound start q) {r : R} {d : ChunkQueueData}
    {appended popped : List Nat} (hr : Kept (start r) d appended popped) :
    Sound start ⟨Function.update q.receivers r d, Function.update q.appended r appended,
      Function.update q.popped r popped⟩ := by
  intro r'
  by_cases hr' : r' = r
  · subst hr'
    simpa using hr
  · simpa [Function.update_of_ne hr'] using h r'

theorem Sound.setLostChunks (h : Sound start q) {r : R} {lost : Bool}
    (hlost : (start r).queueFullPolicy = .blockProducer → lost = false) :
    Sound start (q.setLostChunks r lost) := by
  have hr : Kept (start r) { q.receivers r with queueHasLostChunks := lost } (q.appended r)
      (q.popped r) := by
    refine ⟨(h r).type, (h r).policy, (h r).fiFo, (h r).last, ?_⟩
    intro hpolicy htrue
    rw [hlost hpolicy] at htrue
    cases htrue
  have hsound := h.update hr
  simp only [Function.update_eq_self] at hsound
  exact hsound

theorem Sound.tryPop (h : Sound start q) (r : R) : Sound start (q.tryPop r) := by
  unfold QueueLog.tryPop
  split
  · exact h
  · next chunk queue hpop =>
    have hsound := h.update ((h r).pop hpop)
    simp only [Function.update_eq_self] at hsound
    exact hsound

theorem tryPop_appended (q : QueueLog R) (r : R) : (q.tryPop r).appended = q.appended := by
  unfold QueueLog.tryPop
  split <;> rfl

theorem push_spec (h : Sound start q) {r : R} {chunk : Nat} {pushed put : Bool}
    (hpush : q.push r chunk = some (pushed, put, q')) :
    Sound start q' ∧ (∀ r', r' ≠ r → q'.receivers r' = q.receivers r') ∧
      ((start r).queue.type.isFiFo = true → put = pushed) ∧
      ((start r).queue.type.isFiFo = false → put = true) ∧
      (∀ r', q.appended r' <+: q'.appended r') ∧ (put = true → chunk ∈ q'.appended r) := by
  simp only [push] at hpush
  have htype := (h r).type
  split at hpush
  · cases hpush
  · next pushRet queue hqueue =>
    split at hpush
    · next hput =>
      cases hpush
      have hsound := h.update ((h r).rejected hqueue hput)
      simp only [Function.update_eq_self] at hsound
      refine ⟨hsound, fun r' hr' => Function.update_of_ne hr' _ _, fun _ => rfl, fun hfalse => ?_,
        fun r' => List.prefix_rfl, nofun⟩
      rw [htype, hfalse] at hput
      cases hput.2
    · next hput =>
      cases hpush
      have hsound := h.update ((h r).push hqueue hput)
      simp only [Function.update_eq_self] at hsound
      refine ⟨hsound, fun r' hr' => Function.update_of_ne hr' _ _, fun hfiFo => ?_, fun _ => rfl,
        fun r' => ?_, fun _ => ?_⟩
      · rw [htype, hfiFo] at hput
        cases pushRet with
        | none => rfl
        | some m => exact absurd ⟨rfl, rfl⟩ hput
      · by_cases hr' : r' = r
        · subst hr'
          simp only [Function.update_self]
          exact List.prefix_append _ _
        · simp only [Function.update_of_ne hr']
          exact List.prefix_rfl
      · simp only [Function.update_self]
        exact List.mem_append_right _ (List.mem_singleton_self _)

end QueueLog

namespace DeliveryCall

/-- Where the call is.  It holds the lock in `delivering`, `lostAChunk` and `retrying`. -/
inductive Pc (R : Type)
  | called
  | delivering (todo remainingQueues : List R)
  | lostAChunk (queue : R) (todo remainingQueues : List R)
  | waiting (remainingQueues : List R)
  | retrying (i : Nat) (remainingQueues : List R)
  | addToHistory
  | returned (numberOfQueuesTheChunkWasDeliveredTo : Nat)
  deriving DecidableEq

namespace Pc

def locked : Pc R → Bool
  | .delivering _ _ | .lostAChunk _ _ _ | .retrying _ _ => true
  | _ => false

def remainingQueues : Pc R → List R
  | .delivering _ remainingQueues | .lostAChunk _ _ remainingQueues | .waiting remainingQueues
  | .retrying _ remainingQueues => remainingQueues
  | _ => []

def todo : Pc R → List R
  | .delivering todo _ | .lostAChunk _ todo _ => todo
  | _ => []

def outstanding (pc : Pc R) : List R := pc.todo ++ pc.remainingQueues

/-- The queues that the call may write to before it gives the lock back. -/
def reach : Pc R → List R
  | .delivering todo _ => todo
  | .lostAChunk queue todo _ => queue :: todo
  | .retrying _ remainingQueues => remainingQueues
  | _ => []

theorem reach_of_locked {pc : Pc R} (h : pc.locked = false) : pc.reach = [] := by
  cases pc with
  | delivering => cases h
  | lostAChunk => cases h
  | retrying => cases h
  | _ => rfl

def finished : Pc R → Bool
  | .addToHistory | .returned _ => true
  | _ => false

end Pc

inductive Act (R : Type)
  | advance
  | tryAddQueue (queueToAdd : R) (requestedHistory : Nat)
  | replay
  | tryRemoveQueue (queueToRemove : R)
  | removeAllQueues
  | tryPop (queue : R)
  | hasLostChunks (queue : R)

end DeliveryCall

/-- `replaying` is the queue that RouDi is adding and the chunks it still gets.  `served`
records the queues that the call has put its chunk into, and `removed` the queues removed
since it started. -/
structure DeliveryCall (R : Type) where
  data : ChunkDistributorData R
  log : QueueLog R
  pc : DeliveryCall.Pc R
  numberOfQueuesTheChunkWasDeliveredTo : Nat
  replaying : Option (R × List Nat)
  served : List R
  removed : List R

namespace DeliveryCall

def start (data : ChunkDistributorData R) (receivers : R → ChunkQueueData) : DeliveryCall R where
  data := data
  log := ⟨receivers, fun _ => [], fun _ => []⟩
  pc := .called
  numberOfQueuesTheChunkWasDeliveredTo := 0
  replaying := none
  served := []
  removed := []

def isBlockingQueue (s : DeliveryCall R) (r : R) : Bool :=
  s.data.consumerTooSlowPolicy = .waitForConsumer ∧
    (s.log.receivers r).queueFullPolicy = .blockProducer

section Steps

variable [LinearOrder R]

def pushToQueue (s : DeliveryCall R) (r : R) (chunk : Nat) : Option (Bool × DeliveryCall R) :=
  (s.log.push r chunk).map fun (pushed, put, log) =>
    (pushed, { s with
      log := log
      served := if put then s.served ++ [r] else s.served })

def count (s : DeliveryCall R) : DeliveryCall R :=
  { s with numberOfQueuesTheChunkWasDeliveredTo := s.numberOfQueuesTheChunkWasDeliveredTo + 1 }

def goto (s : DeliveryCall R) (pc : Pc R) : DeliveryCall R := { s with pc := pc }

def setQueues (s : DeliveryCall R) (queues : List R) : DeliveryCall R :=
  { s with data := { s.data with queues := queues } }

/-- `size() - 1U`, which wraps around if no queue is left. -/
def lastIndex (size : Nat) : Nat := (size + (2 ^ 64 - 1)) % 2 ^ 64

def advance (chunk : Nat) (s : DeliveryCall R) : Option (DeliveryCall R) :=
  match s.pc with
  | .called => if s.replaying.isSome then none else some (s.goto (.delivering s.data.queues []))
  | .delivering [] remainingQueues => some (s.goto (.waiting remainingQueues))
  | .delivering (queue :: todo) remainingQueues =>
    match s.pushToQueue queue chunk with
    | none => none
    | some (pushed, s') =>
      if pushed then some (s'.count.goto (.delivering todo remainingQueues))
      else if s.isBlockingQueue queue then
        some (s'.goto (.delivering todo (remainingQueues ++ [queue])))
      else some (s'.count.goto (.lostAChunk queue todo remainingQueues))
  | .lostAChunk queue todo remainingQueues =>
    some ({ s with log := s.log.lostAChunk queue }.goto (.delivering todo remainingQueues))
  | .waiting [] => some (s.goto .addToHistory)
  | .waiting (queue :: queues) =>
    if s.replaying.isSome then none
    else
      let remainingQueues := ChunkDistributor.intersection s.data.queues (queue :: queues)
      some ((s.setQueues (s.data.queues.insertionSort (· ≤ ·))).goto
        (.retrying (lastIndex remainingQueues.length) remainingQueues))
  | .retrying _ [] => some (s.goto (.waiting []))
  | .retrying i remainingQueues =>
    match remainingQueues[i]? with
    | none => none
    | some queue =>
      match s.pushToQueue queue chunk with
      | none => none
      | some (pushed, s') =>
        let remainingQueues := if pushed then remainingQueues.eraseIdx i else remainingQueues
        let s' := if pushed then s'.count else s'
        some (s'.goto (if i = 0 then .waiting remainingQueues
          else .retrying (i - 1) remainingQueues))
  | .addToHistory =>
    if s.replaying.isSome then none
    else some ({ s with data := Distributor.addToHistoryWithoutDelivery chunk s.data }.goto
      (.returned s.numberOfQueuesTheChunkWasDeliveredTo))
  | .returned _ => none

/-- RouDi waits for the lock; there is no next state where a push never returns. -/
def step (chunk : Nat) (s : DeliveryCall R) : Act R → Option (DeliveryCall R)
  | .advance => s.advance chunk
  | .tryAddQueue queueToAdd requestedHistory =>
    if s.pc.locked ∨ s.replaying.isSome then none
    else if queueToAdd ∈ s.data.queues ∨ s.data.maxQueues ≤ s.data.queues.length then some s
    else some { s.setQueues (s.data.queues ++ [queueToAdd]) with
      replaying :=
        some (queueToAdd, ChunkDistributor.requestedChunks s.data.history requestedHistory) }
  | .replay =>
    match s.replaying with
    | none => none
    | some (_, []) => some { s with replaying := none }
    | some (queueToAdd, chunk :: chunks) =>
      (s.log.push queueToAdd chunk).map fun (_, _, log) =>
        { s with
          log := log
          replaying := some (queueToAdd, chunks) }
  | .tryRemoveQueue queueToRemove =>
    if s.pc.locked ∨ s.replaying.isSome then none
    else some { s.setQueues (s.data.queues.erase queueToRemove) with
      removed := queueToRemove :: s.removed }
  | .removeAllQueues =>
    if s.pc.locked ∨ s.replaying.isSome then none
    else some { s.setQueues [] with removed := s.data.queues ++ s.removed }
  | .tryPop queue => some { s with log := s.log.tryPop queue }
  | .hasLostChunks queue => some { s with log := s.log.hasLostChunks queue }

end Steps

/-- How far the call is, when `stored` are the queues of the container and `Owed` the ones
that were there when it started and were not removed since. -/
structure Progress (stored : List R) (Blocking Owed : R → Prop) (pc : Pc R) (served : List R)
    (n : Nat) : Prop where
  count : n = served.length
  once : (served ++ pc.outstanding).Nodup
  owed : pc ≠ .called → ∀ r, Owed r → r ∈ served ++ pc.outstanding
  called : pc = .called → served = []
  reach : ∀ r ∈ pc.reach, r ∈ stored
  blocking : ∀ r ∈ pc.remainingQueues, Blocking r
  lossy : ∀ queue todo remainingQueues, pc = .lostAChunk queue todo remainingQueues →
    ¬ Blocking queue
  index : ∀ i remainingQueues, pc = .retrying i remainingQueues → remainingQueues ≠ [] →
    i < remainingQueues.length
  value : ∀ v, pc = .returned v → v = n

theorem lastIndex_lt {size : Nat} (hpos : 0 < size) (hsize : size < 2 ^ 64) :
    lastIndex size < size := by
  unfold lastIndex
  omega

namespace Progress

variable {stored stored' : List R} {Blocking Owed Owed' : R → Prop} {pc pc' : Pc R}
  {served served' : List R} {n n' i : Nat} {queue : R} {todo remainingQueues : List R}

theorem start : Progress stored Blocking Owed .called [] 0 where
  count := rfl
  once := List.nodup_nil
  owed := fun h => absurd rfl h
  called := fun _ => rfl
  reach := by simp [Pc.reach]
  blocking := by simp [Pc.remainingQueues]
  lossy := by simp
  index := by simp
  value := by simp

theorem mono (h : Progress stored Blocking Owed pc served n) (howed : ∀ r, Owed' r → Owed r)
    (hreach : ∀ r ∈ pc.reach, r ∈ stored') : Progress stored' Blocking Owed' pc served n :=
  { h with
    owed := fun hpc r hr => h.owed hpc r (howed r hr)
    reach := hreach }

theorem permute (h : Progress stored Blocking Owed pc served n) (hpc : pc ≠ .called)
    (hpc' : pc' ≠ .called)
    (hperm : (served' ++ pc'.outstanding).Perm (served ++ pc.outstanding))
    (hcount : n' + served.length = n + served'.length)
    (hreach : ∀ r ∈ pc'.reach, r ∈ pc.reach)
    (hblocking : ∀ r ∈ pc'.remainingQueues, Blocking r)
    (hlossy : ∀ queue todo remainingQueues, pc' = .lostAChunk queue todo remainingQueues →
      ¬ Blocking queue)
    (hindex : ∀ i remainingQueues, pc' = .retrying i remainingQueues → remainingQueues ≠ [] →
      i < remainingQueues.length)
    (hvalue : ∀ v, pc' = .returned v → v = n') :
    Progress stored Blocking Owed pc' served' n' where
  count := by
    have := h.count
    omega
  once := hperm.nodup_iff.mpr h.once
  owed := fun _ r hr => hperm.mem_iff.mpr (h.owed hpc r hr)
  called := fun hcalled => absurd hcalled hpc'
  reach := fun r hr => h.reach r (hreach r hr)
  blocking := hblocking
  lossy := hlossy
  index := hindex
  value := hvalue

theorem deliver (h : Progress stored Blocking Owed .called served n) (hnodup : stored.Nodup)
    (howed : ∀ r, Owed r → r ∈ stored) :
    Progress stored Blocking Owed (.delivering stored []) served n := by
  obtain rfl := h.called rfl
  refine ⟨h.count, ?_, ?_, by simp, fun r hr => hr, by simp [Pc.remainingQueues], by simp,
    by simp, by simp⟩
  · simpa [Pc.outstanding, Pc.todo, Pc.remainingQueues] using hnodup
  · intro _ r hr
    simpa [Pc.outstanding, Pc.todo, Pc.remainingQueues] using howed r hr

theorem deliver_served
    (h : Progress stored Blocking Owed (.delivering (queue :: todo) remainingQueues) served n) :
    Progress stored Blocking Owed (.delivering todo remainingQueues) (served ++ [queue])
      (n + 1) := by
  refine h.permute (by simp) (by simp) ?_ ?_ ?_ h.blocking (by simp) (by simp) (by simp)
  · simp [Pc.outstanding, Pc.todo, Pc.remainingQueues]
  · rw [List.length_append, List.length_singleton]
    omega
  · exact fun r hr => List.mem_cons_of_mem queue hr

theorem deliver_waits
    (h : Progress stored Blocking Owed (.delivering (queue :: todo) remainingQueues) served n)
    (hqueue : Blocking queue) :
    Progress stored Blocking Owed (.delivering todo (remainingQueues ++ [queue])) served n := by
  refine h.permute (by simp) (by simp) ?_ rfl ?_ ?_ (by simp) (by simp) (by simp)
  · simp only [Pc.outstanding, Pc.todo, Pc.remainingQueues]
    rw [List.perm_append_left_iff, ← List.append_assoc]
    exact List.perm_append_singleton queue (todo ++ remainingQueues)
  · exact fun r hr => List.mem_cons_of_mem queue hr
  · intro r hr
    rcases List.mem_append.mp hr with hr | hr
    · exact h.blocking r hr
    · rw [List.mem_singleton.mp hr]
      exact hqueue

theorem deliver_loses
    (h : Progress stored Blocking Owed (.delivering (queue :: todo) remainingQueues) served n)
    (hqueue : ¬ Blocking queue) :
    Progress stored Blocking Owed (.lostAChunk queue todo remainingQueues) (served ++ [queue])
      (n + 1) := by
  refine h.permute (by simp) (by simp) ?_ ?_ (fun r hr => hr) h.blocking ?_ (by simp) (by simp)
  · simp [Pc.outstanding, Pc.todo, Pc.remainingQueues]
  · rw [List.length_append, List.length_singleton]
    omega
  · intro q t rs heq
    cases heq
    exact hqueue

theorem lost (h : Progress stored Blocking Owed (.lostAChunk queue todo remainingQueues) served n) :
    Progress stored Blocking Owed (.delivering todo remainingQueues) served n := by
  refine h.permute (by simp) (by simp) (List.Perm.refl _) rfl ?_ h.blocking (by simp) (by simp)
    (by simp)
  exact fun r hr => List.mem_cons_of_mem queue hr

theorem unlock (h : Progress stored Blocking Owed (.delivering [] remainingQueues) served n) :
    Progress stored Blocking Owed (.waiting remainingQueues) served n := by
  refine h.permute (by simp) (by simp) (List.Perm.refl _) rfl ?_ h.blocking (by simp) (by simp)
    (by simp)
  simp [Pc.reach]

theorem leave (h : Progress stored Blocking Owed (.waiting []) served n) :
    Progress stored Blocking Owed .addToHistory served n := by
  refine h.permute (by simp) (by simp) (List.Perm.refl _) rfl ?_ h.blocking (by simp) (by simp)
    (by simp)
  simp [Pc.reach]

theorem ret (h : Progress stored Blocking Owed .addToHistory served n) :
    Progress stored Blocking Owed (.returned n) served n := by
  refine h.permute (by simp) (by simp) (List.Perm.refl _) rfl ?_ h.blocking (by simp) (by simp) ?_
  · simp [Pc.reach]
  · intro v hv
    cases hv
    rfl

theorem exhausted (h : Progress stored Blocking Owed (.retrying i []) served n) :
    Progress stored Blocking Owed (.waiting []) served n := by
  refine h.permute (by simp) (by simp) (List.Perm.refl _) rfl ?_ h.blocking (by simp) (by simp)
    (by simp)
  simp [Pc.reach]

theorem retry [LinearOrder R]
    (h : Progress stored Blocking Owed (.waiting remainingQueues) served n)
    (hnodup : stored.Nodup) (howed : ∀ r, Owed r → r ∈ stored) (hlength : stored.length < 2 ^ 64) :
    Progress (stored.insertionSort (· ≤ ·)) Blocking Owed
      (.retrying (lastIndex (ChunkDistributor.intersection stored remainingQueues).length)
        (ChunkDistributor.intersection stored remainingQueues)) served n := by
  have hmem : ∀ r ∈ ChunkDistributor.intersection stored remainingQueues,
      r ∈ stored ∧ r ∈ remainingQueues := fun r hr => ChunkDistributor.mem_intersection.mp hr
  have honce : (served ++ remainingQueues).Nodup := h.once
  refine ⟨h.count, ?_, ?_, by simp, ?_, ?_, by simp, ?_, by simp⟩
  · change (served ++ ([] ++ _)).Nodup
    rw [List.nil_append, List.nodup_append]
    rw [List.nodup_append] at honce
    refine ⟨honce.1, ChunkDistributor.nodup_intersection hnodup, fun a ha b hb => ?_⟩
    exact honce.2.2 a ha b (hmem b hb).2
  · intro _ r hr
    rcases List.mem_append.mp (h.owed (by simp) r hr) with hserved | hout
    · exact List.mem_append_left _ hserved
    · exact List.mem_append_right _ (ChunkDistributor.mem_intersection.mpr ⟨howed r hr, hout⟩)
  · intro r hr
    exact (List.mem_insertionSort (· ≤ ·)).mpr (hmem r hr).1
  · exact fun r hr => h.blocking r (hmem r hr).2
  · intro i rs heq hne
    obtain ⟨rfl, rfl⟩ := Pc.retrying.inj heq
    refine lastIndex_lt (List.length_pos_iff.mpr hne) (lt_of_le_of_lt ?_ hlength)
    exact (ChunkDistributor.nodup_intersection hnodup).length_le_of_subset
      fun r hr => (hmem r hr).1

theorem retry_fails (h : Progress stored Blocking Owed (.retrying i remainingQueues) served n)
    (hi : i < remainingQueues.length) :
    Progress stored Blocking Owed
      (if i = 0 then .waiting remainingQueues else .retrying (i - 1) remainingQueues) served n := by
  split
  · refine h.permute (by simp) (by simp) (List.Perm.refl _) rfl ?_ h.blocking (by simp) (by simp)
      (by simp)
    simp [Pc.reach]
  · refine h.permute (by simp) (by simp) (List.Perm.refl _) rfl (fun r hr => hr) h.blocking
      (by simp) ?_ (by simp)
    intro j rs heq _
    cases heq
    omega

theorem retry_served (h : Progress stored Blocking Owed (.retrying i remainingQueues) served n)
    (hi : remainingQueues[i]? = some queue) :
    Progress stored Blocking Owed
      (if i = 0 then .waiting (remainingQueues.eraseIdx i)
        else .retrying (i - 1) (remainingQueues.eraseIdx i)) (served ++ [queue]) (n + 1) := by
  obtain ⟨hlt, hget⟩ := List.getElem?_eq_some_iff.mp hi
  have hperm :
      (served ++ [queue] ++ remainingQueues.eraseIdx i).Perm (served ++ remainingQueues) := by
    rw [List.append_assoc, List.perm_append_left_iff, List.singleton_append, ← hget]
    exact List.getElem_cons_eraseIdx_perm hlt
  have hsub : ∀ r ∈ remainingQueues.eraseIdx i, r ∈ remainingQueues :=
    fun r hr => List.mem_of_mem_eraseIdx hr
  have hcount : n + 1 + served.length = n + (served ++ [queue]).length := by
    rw [List.length_append, List.length_singleton]
    omega
  split
  · refine h.permute (by simp) (by simp) hperm hcount ?_ (fun r hr => h.blocking r (hsub r hr))
      (by simp) (by simp) (by simp)
    simp [Pc.reach]
  · refine h.permute (by simp) (by simp) hperm hcount hsub
      (fun r hr => h.blocking r (hsub r hr)) (by simp) ?_ (by simp)
    intro j rs heq _
    cases heq
    rw [List.length_eraseIdx_of_lt hlt]
    omega

end Progress

def Blocking (receivers : R → ChunkQueueData) (r : R) : Prop :=
  (receivers r).queueFullPolicy = .blockProducer

def Owed (queues removed : List R) (r : R) : Prop := r ∈ queues ∧ r ∉ removed

structure Inv (chunk : Nat) (queues : List R) (receivers : R → ChunkQueueData)
    (s : DeliveryCall R) : Prop where
  nodup : s.data.queues.Nodup
  room : s.data.queues.length ≤ s.data.maxQueues
  maxQueues : s.data.maxQueues < 2 ^ 64
  policy : s.data.consumerTooSlowPolicy = .waitForConsumer
  log : s.log.Sound receivers
  progress : Progress s.data.queues (Blocking receivers) (Owed queues s.removed) s.pc s.served
    s.numberOfQueuesTheChunkWasDeliveredTo
  owed : ∀ r, Owed queues s.removed r → r ∈ s.data.queues
  put : ∀ r ∈ s.served, chunk ∈ s.log.appended r
  lock : s.pc.locked = true → s.replaying = none
  adding : ∀ queue chunks, s.replaying = some (queue, chunks) → queue ∈ s.data.queues

def Frame (s s' : DeliveryCall R) : Prop :=
  ∀ r, r ∉ s.data.queues → r ∉ s'.data.queues ∧ s'.log.receivers r = s.log.receivers r

variable {queues : List R} {receivers : R → ChunkQueueData} {s s' : DeliveryCall R} {chunk : Nat}

theorem pushToQueue_cases [LinearOrder R]
    (hpaired : ∀ r, Blocking receivers r ↔ (receivers r).queue.type.isFiFo = true)
    (h : s.log.Sound receivers) {r : R} {pushed : Bool}
    (hpush : s.pushToQueue r chunk = some (pushed, s')) :
    ∃ log : QueueLog R, log.Sound receivers ∧
      (∀ r', r' ≠ r → log.receivers r' = s.log.receivers r') ∧
      (∀ r', s.log.appended r' <+: log.appended r') ∧
      ((pushed = true ∨ ¬ Blocking receivers r) ∧
          chunk ∈ log.appended r ∧ s' = { s with log := log, served := s.served ++ [r] } ∨
        (pushed = false ∧ Blocking receivers r) ∧ s' = { s with log := log }) := by
  obtain ⟨⟨pushed', put, log⟩, hlog, heq⟩ := Option.map_eq_some_iff.mp hpush
  cases heq
  obtain ⟨hsound, hframe, hfiFo, hsoFi, hprefix, hmem⟩ := QueueLog.push_spec h hlog
  refine ⟨log, hsound, hframe, hprefix, ?_⟩
  by_cases hr : Blocking receivers r
  · rw [hfiFo ((hpaired r).mp hr)] at hmem ⊢
    cases pushed with
    | true => exact .inl ⟨.inl rfl, hmem rfl, rfl⟩
    | false => exact .inr ⟨⟨rfl, hr⟩, rfl⟩
  · have hput : put = true := by
      refine hsoFi ?_
      rw [← Bool.not_eq_true]
      exact fun hfifo => hr ((hpaired r).mpr hfifo)
    rw [hput]
    exact .inl ⟨.inr hr, hmem hput, rfl⟩

namespace Inv

theorem start {data : ChunkDistributorData R} (hnodup : data.queues.Nodup)
    (hroom : data.queues.length ≤ data.maxQueues) (hmax : data.maxQueues < 2 ^ 64)
    (hpolicy : data.consumerTooSlowPolicy = .waitForConsumer) :
    (start data receivers).Inv chunk data.queues receivers where
  nodup := hnodup
  room := hroom
  maxQueues := hmax
  policy := hpolicy
  log := fun r => QueueLog.Kept.refl (receivers r)
  progress := .start
  owed := fun _ hr => hr.1
  put := fun _ hr => by cases hr
  lock := fun h => by cases h
  adding := fun _ _ h => by cases h

theorem call (h : s.Inv chunk queues receivers) {log : QueueLog R} {pc : Pc R} {served : List R}
    {n : Nat}
    (hlog : log.Sound receivers)
    (hprogress : Progress s.data.queues (Blocking receivers) (Owed queues s.removed) pc served n)
    (hput : ∀ r ∈ served, chunk ∈ log.appended r)
    (hlock : pc.locked = true → s.replaying = none) :
    Inv chunk queues receivers { s with
      log := log
      pc := pc
      served := served
      numberOfQueuesTheChunkWasDeliveredTo := n } :=
  { h with
    log := hlog
    progress := hprogress
    put := hput
    lock := hlock }

theorem put_log (h : s.Inv chunk queues receivers) {log : QueueLog R}
    (hlog : ∀ r, s.log.appended r <+: log.appended r) :
    ∀ r ∈ s.served, chunk ∈ log.appended r :=
  fun r hr => (hlog r).subset (h.put r hr)

theorem put_served (h : s.Inv chunk queues receivers) {log : QueueLog R} {queue : R}
    (hlog : ∀ r, s.log.appended r <+: log.appended r) (hqueue : chunk ∈ log.appended queue) :
    ∀ r ∈ s.served ++ [queue], chunk ∈ log.appended r := by
  intro r hr
  rcases List.mem_append.mp hr with hr | hr
  · exact h.put_log hlog r hr
  · rw [List.mem_singleton.mp hr]
    exact hqueue

theorem frame_of_log (h : s.Inv chunk queues receivers) {r : R} {log : QueueLog R}
    (hr : r ∈ s.pc.reach) (hlog : ∀ r', r' ≠ r → log.receivers r' = s.log.receivers r')
    (hdata : s'.data = s.data) (hs' : s'.log = log) : Frame s s' := by
  intro r' hr'
  rw [hdata, hs']
  refine ⟨hr', hlog r' ?_⟩
  rintro rfl
  exact hr' (h.progress.reach r' hr)

variable [LinearOrder R]

theorem advance_delivering (h : s.Inv chunk queues receivers)
    (hpaired : ∀ r, Blocking receivers r ↔ (receivers r).queue.type.isFiFo = true)
    {queue : R} {todo remainingQueues : List R}
    (hpc : s.pc = .delivering (queue :: todo) remainingQueues)
    (hstep : s.advance chunk = some s') : s'.Inv chunk queues receivers ∧ Frame s s' := by
  have hprogress := h.progress
  rw [hpc] at hprogress
  have hreach : queue ∈ s.pc.reach := by
    rw [hpc]
    exact List.mem_cons_self
  have hlock : s.replaying = none := h.lock (by rw [hpc]; rfl)
  simp only [advance, hpc] at hstep
  split at hstep
  · cases hstep
  · next pushed s₁ hpush =>
    obtain ⟨log, hsound, hframe, hprefix, hcases⟩ := pushToQueue_cases hpaired h.log hpush
    have hblocking : s.isBlockingQueue queue = true ↔ Blocking receivers queue := by
      simp only [isBlockingQueue, h.policy, (h.log queue).policy, Blocking, true_and,
        decide_eq_true_eq]
    split at hstep
    · next htrue =>
      cases hstep
      obtain ⟨-, hmem, rfl⟩ | ⟨⟨hfalse, -⟩, -⟩ := hcases
      · exact ⟨h.call hsound hprogress.deliver_served (h.put_served hprefix hmem) fun _ => hlock,
          h.frame_of_log hreach hframe rfl rfl⟩
      · rw [htrue] at hfalse
        cases hfalse
    · next hfalse =>
      split at hstep
      · next hwait =>
        cases hstep
        obtain ⟨htrue | hnot, -⟩ | ⟨-, rfl⟩ := hcases
        · exact absurd htrue hfalse
        · exact absurd (hblocking.mp hwait) hnot
        · exact ⟨h.call hsound (hprogress.deliver_waits (hblocking.mp hwait)) (h.put_log hprefix)
            fun _ => hlock,
            h.frame_of_log hreach hframe rfl rfl⟩
      · next hwait =>
        cases hstep
        have hnot : ¬ Blocking receivers queue := fun hb => hwait (hblocking.mpr hb)
        obtain ⟨-, hmem, rfl⟩ | ⟨⟨-, hb⟩, -⟩ := hcases
        · exact ⟨h.call hsound (hprogress.deliver_loses hnot) (h.put_served hprefix hmem)
              fun _ => hlock,
            h.frame_of_log hreach hframe rfl rfl⟩
        · exact absurd hb hnot

theorem advance_retrying (h : s.Inv chunk queues receivers)
    (hpaired : ∀ r, Blocking receivers r ↔ (receivers r).queue.type.isFiFo = true)
    {i : Nat} {queue : R} {remainingQueues : List R}
    (hpc : s.pc = .retrying i (queue :: remainingQueues))
    (hstep : s.advance chunk = some s') : s'.Inv chunk queues receivers ∧ Frame s s' := by
  have hprogress := h.progress
  rw [hpc] at hprogress
  have hlock : s.replaying = none := h.lock (by rw [hpc]; rfl)
  simp only [advance, hpc] at hstep
  split at hstep
  · cases hstep
  · next r hr =>
    have hmem : r ∈ queue :: remainingQueues := List.mem_of_getElem? hr
    have hreach : r ∈ s.pc.reach := by
      rw [hpc]
      exact hmem
    split at hstep
    · cases hstep
    · next pushed s₁ hpush =>
      obtain ⟨log, hsound, hframe, hprefix, hcases⟩ := pushToQueue_cases hpaired h.log hpush
      have hblocking : Blocking receivers r := hprogress.blocking r hmem
      cases hstep
      cases pushed with
      | true =>
        obtain ⟨-, hput, rfl⟩ | ⟨⟨hfalse, -⟩, -⟩ := hcases
        · exact ⟨h.call hsound (hprogress.retry_served hr) (h.put_served hprefix hput)
              fun _ => hlock,
            h.frame_of_log hreach hframe rfl rfl⟩
        · cases hfalse
      | false =>
        obtain ⟨hfalse | hnot, -⟩ | ⟨-, rfl⟩ := hcases
        · cases hfalse
        · exact absurd hblocking hnot
        · exact ⟨h.call hsound (hprogress.retry_fails (List.getElem?_eq_some_iff.mp hr).1)
            (h.put_log hprefix) fun _ => hlock, h.frame_of_log hreach hframe rfl rfl⟩

theorem advance_called (h : s.Inv chunk queues receivers) (hpc : s.pc = .called)
    (hstep : s.advance chunk = some s') : s'.Inv chunk queues receivers ∧ Frame s s' := by
  have hprogress := h.progress
  rw [hpc] at hprogress
  simp only [advance, hpc] at hstep
  split at hstep
  · cases hstep
  · next hfree =>
    cases hstep
    have hnone : s.replaying = none := by simpa using hfree
    exact ⟨h.call h.log (hprogress.deliver h.nodup h.owed) h.put fun _ => hnone,
      fun r hr => ⟨hr, rfl⟩⟩

theorem advance_lostAChunk (h : s.Inv chunk queues receivers) {queue : R}
    {todo remainingQueues : List R} (hpc : s.pc = .lostAChunk queue todo remainingQueues)
    (hstep : s.advance chunk = some s') : s'.Inv chunk queues receivers ∧ Frame s s' := by
  have hprogress := h.progress
  rw [hpc] at hprogress
  simp only [advance, hpc, Option.some.injEq] at hstep
  subst hstep
  have hreach : queue ∈ s.pc.reach := by
    rw [hpc]
    exact List.mem_cons_self
  have hlock : s.replaying = none := h.lock (by rw [hpc]; rfl)
  refine ⟨h.call (h.log.setLostChunks fun hb => ?_) hprogress.lost h.put fun _ => hlock, ?_⟩
  · exact absurd hb (hprogress.lossy _ _ _ rfl)
  · exact h.frame_of_log hreach (fun r' hr' => Function.update_of_ne hr' _ _) rfl rfl

theorem advance_waiting (h : s.Inv chunk queues receivers) {queue : R} {remainingQueues : List R}
    (hpc : s.pc = .waiting (queue :: remainingQueues)) (hstep : s.advance chunk = some s') :
    s'.Inv chunk queues receivers ∧ Frame s s' := by
  have hprogress := h.progress
  rw [hpc] at hprogress
  simp only [advance, hpc] at hstep
  split at hstep
  · cases hstep
  · next hfree =>
    rw [Option.some.injEq] at hstep
    subst hstep
    have hnone : s.replaying = none := by simpa using hfree
    have hperm := List.perm_insertionSort (· ≤ ·) s.data.queues
    refine ⟨?_, fun r hr => ⟨fun hmem => hr (hperm.mem_iff.mp hmem), rfl⟩⟩
    exact
      { nodup := hperm.nodup_iff.mpr h.nodup
        room := hperm.length_eq.trans_le h.room
        maxQueues := h.maxQueues
        policy := h.policy
        log := h.log
        progress := hprogress.retry h.nodup h.owed (lt_of_le_of_lt h.room h.maxQueues)
        owed := fun r hr => hperm.mem_iff.mpr (h.owed r hr)
        put := h.put
        lock := fun _ => hnone
        adding := fun q cs hq => hperm.mem_iff.mpr (h.adding q cs hq) }

theorem advance_addToHistory (h : s.Inv chunk queues receivers) (hpc : s.pc = .addToHistory)
    (hstep : s.advance chunk = some s') : s'.Inv chunk queues receivers ∧ Frame s s' := by
  have hprogress := h.progress
  rw [hpc] at hprogress
  simp only [advance, hpc] at hstep
  split at hstep
  · cases hstep
  · cases hstep
    have hdata : ∀ d : ChunkDistributorData R,
        (Distributor.addToHistoryWithoutDelivery chunk d).queues = d.queues ∧
        (Distributor.addToHistoryWithoutDelivery chunk d).maxQueues = d.maxQueues ∧
        (Distributor.addToHistoryWithoutDelivery chunk d).consumerTooSlowPolicy =
          d.consumerTooSlowPolicy := by
      intro d
      unfold Distributor.addToHistoryWithoutDelivery
      split <;> exact ⟨rfl, rfl, rfl⟩
    obtain ⟨hqueues, hmax, hpolicy⟩ := hdata s.data
    refine ⟨?_, fun r hr => ⟨by simpa only [goto, hqueues] using hr, rfl⟩⟩
    constructor <;> simp only [goto, hqueues, hmax, hpolicy]
    · exact h.nodup
    · exact h.room
    · exact h.maxQueues
    · exact h.policy
    · exact h.log
    · exact hprogress.ret
    · exact h.owed
    · exact h.put
    · exact nofun
    · exact h.adding

theorem advance (h : s.Inv chunk queues receivers)
    (hpaired : ∀ r, Blocking receivers r ↔ (receivers r).queue.type.isFiFo = true)
    (hstep : s.advance chunk = some s') : s'.Inv chunk queues receivers ∧ Frame s s' := by
  have hprogress := h.progress
  cases hpc : s.pc with
  | called => exact h.advance_called hpc hstep
  | delivering todo remainingQueues =>
    cases todo with
    | nil =>
      simp only [DeliveryCall.advance, hpc, Option.some.injEq] at hstep
      subst hstep
      rw [hpc] at hprogress
      exact ⟨h.call h.log hprogress.unlock h.put nofun, fun r hr => ⟨hr, rfl⟩⟩
    | cons queue todo => exact h.advance_delivering hpaired hpc hstep
  | lostAChunk queue todo remainingQueues => exact h.advance_lostAChunk hpc hstep
  | waiting remainingQueues =>
    cases remainingQueues with
    | nil =>
      simp only [DeliveryCall.advance, hpc, Option.some.injEq] at hstep
      subst hstep
      rw [hpc] at hprogress
      exact ⟨h.call h.log hprogress.leave h.put nofun, fun r hr => ⟨hr, rfl⟩⟩
    | cons queue remainingQueues => exact h.advance_waiting hpc hstep
  | retrying i remainingQueues =>
    cases remainingQueues with
    | nil =>
      simp only [DeliveryCall.advance, hpc, Option.some.injEq] at hstep
      subst hstep
      rw [hpc] at hprogress
      exact ⟨h.call h.log hprogress.exhausted h.put nofun, fun r hr => ⟨hr, rfl⟩⟩
    | cons queue remainingQueues => exact h.advance_retrying hpaired hpc hstep
  | addToHistory => exact h.advance_addToHistory hpc hstep
  | returned n =>
    simp only [DeliveryCall.advance, hpc] at hstep
    cases hstep

omit [LinearOrder R] in
theorem setQueues (h : s.Inv chunk queues receivers) {stored removed : List R}
    {replaying : Option (R × List Nat)} (hlocked : s.pc.locked = false) (hnodup : stored.Nodup)
    (hroom : stored.length ≤ s.data.maxQueues) (hremoved : ∀ r ∈ s.removed, r ∈ removed)
    (howed : ∀ r ∈ s.data.queues, r ∉ removed → r ∈ stored)
    (hadding : ∀ queue chunks, replaying = some (queue, chunks) → queue ∈ stored) :
    Inv chunk queues receivers { s.setQueues stored with
      replaying := replaying
      removed := removed } where
  nodup := hnodup
  room := hroom
  maxQueues := h.maxQueues
  policy := h.policy
  log := h.log
  progress := by
    refine h.progress.mono (fun r hr => ⟨hr.1, fun hmem => hr.2 (hremoved r hmem)⟩) fun r hr => ?_
    rw [Pc.reach_of_locked hlocked] at hr
    cases hr
  owed := fun r hr => howed r (h.owed r ⟨hr.1, fun hmem => hr.2 (hremoved r hmem)⟩) hr.2
  put := h.put
  lock := fun hpc => absurd (hlocked.symm.trans hpc) Bool.false_ne_true
  adding := hadding

theorem tryAddQueue (h : s.Inv chunk queues receivers) {queueToAdd : R} {requestedHistory : Nat}
    (hstep : s.step chunk (.tryAddQueue queueToAdd requestedHistory) = some s') : s'.Inv chunk queues receivers := by
  simp only [DeliveryCall.step] at hstep
  split at hstep
  · cases hstep
  · next hfree =>
    simp only [not_or, Bool.not_eq_true] at hfree
    split at hstep
    · cases hstep
      exact h
    · next hnew =>
      simp only [not_or, not_le] at hnew
      cases hstep
      refine h.setQueues hfree.1 ?_ ?_ (fun r hr => hr) ?_ ?_
      · rw [← List.concat_eq_append]
        exact h.nodup.concat hnew.1
      · rw [List.length_append, List.length_singleton]
        exact hnew.2
      · exact fun r hr _ => List.mem_append_left _ hr
      · intro queue chunks heq
        cases heq
        exact List.mem_append_right _ (List.mem_singleton_self _)

theorem replay (h : s.Inv chunk queues receivers)
    (hstep : s.step chunk .replay = some s') : s'.Inv chunk queues receivers := by
  simp only [DeliveryCall.step] at hstep
  split at hstep
  · cases hstep
  · next hreplaying =>
    cases hstep
    exact
      { h with
        lock := fun _ => rfl
        adding := nofun }
  · next queueToAdd c chunks hreplaying =>
    obtain ⟨⟨pushed, put, log⟩, hpush, rfl⟩ := Option.map_eq_some_iff.mp hstep
    exact
      { h with
        log := (QueueLog.push_spec h.log hpush).1
        put := h.put_log (QueueLog.push_spec h.log hpush).2.2.2.2.1
        lock := fun hpc => by
          have := h.lock hpc
          rw [hreplaying] at this
          cases this
        adding := fun queue cs heq => by
          cases heq
          exact h.adding queueToAdd _ hreplaying }

theorem tryRemoveQueue (h : s.Inv chunk queues receivers) {queueToRemove : R}
    (hstep : s.step chunk (.tryRemoveQueue queueToRemove) = some s') : s'.Inv chunk queues receivers := by
  simp only [DeliveryCall.step] at hstep
  split at hstep
  · cases hstep
  · next hfree =>
    simp only [not_or, Bool.not_eq_true] at hfree
    cases hstep
    refine h.setQueues hfree.1 (h.nodup.erase queueToRemove) ?_ ?_ ?_ ?_
    · exact (List.length_erase_le).trans h.room
    · exact fun r hr => List.mem_cons_of_mem queueToRemove hr
    · intro r hr hremoved
      refine (List.mem_erase_of_ne ?_).mpr hr
      rintro rfl
      exact hremoved List.mem_cons_self
    · intro queue chunks heq
      have : s.replaying = some (queue, chunks) := heq
      rw [this] at hfree
      cases hfree.2

theorem removeAllQueues (h : s.Inv chunk queues receivers)
    (hstep : s.step chunk .removeAllQueues = some s') : s'.Inv chunk queues receivers := by
  simp only [DeliveryCall.step] at hstep
  split at hstep
  · cases hstep
  · next hfree =>
    simp only [not_or, Bool.not_eq_true] at hfree
    cases hstep
    refine h.setQueues hfree.1 List.nodup_nil (Nat.zero_le _) ?_ ?_ ?_
    · exact fun r hr => List.mem_append_right _ hr
    · exact fun r hr hremoved => absurd (List.mem_append_left _ hr) hremoved
    · intro queue chunks heq
      have : s.replaying = some (queue, chunks) := heq
      rw [this] at hfree
      cases hfree.2

theorem step (h : s.Inv chunk queues receivers)
    (hpaired : ∀ r, Blocking receivers r ↔ (receivers r).queue.type.isFiFo = true) {l : Act R}
    (hstep : s.step chunk l = some s') : s'.Inv chunk queues receivers := by
  cases l with
  | advance => exact (h.advance hpaired hstep).1
  | tryAddQueue queueToAdd requestedHistory => exact h.tryAddQueue hstep
  | replay => exact h.replay hstep
  | tryRemoveQueue queueToRemove => exact h.tryRemoveQueue hstep
  | removeAllQueues => exact h.removeAllQueues hstep
  | tryPop queue =>
    cases hstep
    exact
      { h with
        log := h.log.tryPop queue
        put := by
          rw [QueueLog.tryPop_appended]
          exact h.put }
  | hasLostChunks queue =>
    cases hstep
    exact { h with log := h.log.setLostChunks fun _ => rfl }

theorem run (h : s.Inv chunk queues receivers)
    (hpaired : ∀ r, Blocking receivers r ↔ (receivers r).queue.type.isFiFo = true)
    {ls : List (Act R)} (hrun : runSteps (DeliveryCall.step chunk) s ls = some s') :
    s'.Inv chunk queues receivers :=
  runSteps_invariant (C := fun _ _ => True) (fun _ _ _ hI _ hstep => hI.step hpaired hstep)
    ls s s' h (meets_true ls s) hrun

theorem step_frame (h : s.Inv chunk queues receivers)
    (hpaired : ∀ r, Blocking receivers r ↔ (receivers r).queue.type.isFiFo = true) {l : Act R}
    (hstep : s.step chunk l = some s') {r : R} (hr : r ∉ s.data.queues)
    (hadd : ∀ requestedHistory, l ≠ .tryAddQueue r requestedHistory) :
    r ∉ s'.data.queues ∧ (l ≠ .tryPop r → l ≠ .hasLostChunks r →
      s'.log.receivers r = s.log.receivers r) := by
  cases l with
  | advance =>
    obtain ⟨hr', hlog⟩ := (h.advance hpaired hstep).2 r hr
    exact ⟨hr', fun _ _ => hlog⟩
  | tryAddQueue queueToAdd requestedHistory =>
    simp only [DeliveryCall.step] at hstep
    split at hstep
    · cases hstep
    · split at hstep
      · cases hstep
        exact ⟨hr, fun _ _ => rfl⟩
      · cases hstep
        refine ⟨fun hmem => ?_, fun _ _ => rfl⟩
        rcases List.mem_append.mp hmem with hmem | hmem
        · exact hr hmem
        · rw [List.mem_singleton] at hmem
          subst hmem
          exact hadd requestedHistory rfl
  | replay =>
    simp only [DeliveryCall.step] at hstep
    split at hstep
    · cases hstep
    · cases hstep
      exact ⟨hr, fun _ _ => rfl⟩
    · next queueToAdd c chunks hreplaying =>
      obtain ⟨⟨pushed, put, log⟩, hpush, rfl⟩ := Option.map_eq_some_iff.mp hstep
      refine ⟨hr, fun _ _ => (QueueLog.push_spec h.log hpush).2.1 r ?_⟩
      rintro rfl
      exact hr (h.adding r _ hreplaying)
  | tryRemoveQueue queueToRemove =>
    simp only [DeliveryCall.step] at hstep
    split at hstep
    · cases hstep
    · cases hstep
      exact ⟨fun hmem => hr (List.mem_of_mem_erase hmem), fun _ _ => rfl⟩
  | removeAllQueues =>
    simp only [DeliveryCall.step] at hstep
    split at hstep
    · cases hstep
    · cases hstep
      exact ⟨List.not_mem_nil, fun _ _ => rfl⟩
  | tryPop queue =>
    cases hstep
    refine ⟨hr, fun hpop _ => ?_⟩
    have hne : r ≠ queue := by
      rintro rfl
      exact hpop rfl
    simp only [QueueLog.tryPop]
    split
    · rfl
    · exact Function.update_of_ne hne _ _
  | hasLostChunks queue =>
    cases hstep
    refine ⟨hr, fun _ hlost => Function.update_of_ne ?_ _ _⟩
    rintro rfl
    exact hlost rfl

theorem run_not_stored (h : s.Inv chunk queues receivers)
    (hpaired : ∀ r, Blocking receivers r ↔ (receivers r).queue.type.isFiFo = true) {r : R}
    (hr : r ∉ s.data.queues) {ls : List (Act R)}
    (hadd : ∀ requestedHistory, .tryAddQueue r requestedHistory ∉ ls)
    (hrun : runSteps (DeliveryCall.step chunk) s ls = some s') : r ∉ s'.data.queues := by
  induction ls generalizing s with
  | nil =>
    cases hrun
    exact hr
  | cons l ls ih =>
    obtain ⟨m, hm, hrest⟩ := runSteps_cons hrun
    have hl : ∀ requestedHistory, l ≠ .tryAddQueue r requestedHistory := by
      intro n heq
      exact hadd n (heq ▸ List.mem_cons_self)
    refine ih (h.step hpaired hm) (h.step_frame hpaired hm hr hl).1 (fun n hmem => ?_) hrest
    exact hadd n (List.mem_cons_of_mem l hmem)

end Inv

variable [LinearOrder R]

/-- Every queue that stays gets the chunk once, a queue that blocks the producer loses
nothing, and a queue that was removed is left alone. -/
theorem exactly_once_per_queue {data : ChunkDistributorData R} (hnodup : data.queues.Nodup)
    (hroom : data.queues.length ≤ data.maxQueues) (hmax : data.maxQueues < 2 ^ 64)
    (hpolicy : data.consumerTooSlowPolicy = .waitForConsumer)
    (hpaired : ∀ r, (receivers r).queueFullPolicy = .blockProducer ↔
      (receivers r).queue.type.isFiFo = true) (chunk : Nat) :
    (∀ ls s, runSteps (step chunk) (start data receivers) ls = some s →
      s.served.Nodup ∧
      (∀ r ∈ s.served, chunk ∈ s.log.appended r) ∧
      (s.pc.finished = true → ∀ r ∈ data.queues, r ∉ s.removed → s.served.count r = 1) ∧
      (∀ n, s.pc = .returned n → n = s.served.length) ∧
      (∀ r, (receivers r).queueFullPolicy = .blockProducer →
        (receivers r).queue.elements ++ s.log.appended r =
          s.log.popped r ++ (s.log.receivers r).queue.elements ∧
        ((s.log.receivers r).queueHasLostChunks = true →
          (receivers r).queueHasLostChunks = true)) ∧
      (∀ r, (s.log.receivers r).queue.elements <:+
        (receivers r).queue.elements ++ s.log.appended r) ∧
      ∀ i remainingQueues, s.pc = .retrying i remainingQueues → remainingQueues ≠ [] →
        i < remainingQueues.length) ∧
    ∀ ls₁ ls₂ l s₁ s₂ s₃ r, runSteps (step chunk) (start data receivers) ls₁ = some s₁ →
      r ∉ s₁.data.queues → runSteps (step chunk) s₁ ls₂ = some s₂ → s₂.step chunk l = some s₃ →
      (∀ requestedHistory, .tryAddQueue r requestedHistory ∉ ls₂ ++ [l]) →
      l ≠ .tryPop r → l ≠ .hasLostChunks r → s₃.log.receivers r = s₂.log.receivers r := by
  have hstart : (start data receivers).Inv chunk data.queues receivers :=
    Inv.start hnodup hroom hmax hpolicy
  refine ⟨?_, ?_⟩
  · intro ls s hrun
    have h := hstart.run hpaired hrun
    have hserved := (List.nodup_append.mp h.progress.once).1
    refine ⟨hserved, h.put, ?_, ?_, ?_, fun r => (h.log r).last, h.progress.index⟩
    · intro hfinished r hr hremoved
      have hmem : r ∈ s.served ++ s.pc.outstanding :=
        h.progress.owed (by rintro hpc; rw [hpc] at hfinished; cases hfinished) r ⟨hr, hremoved⟩
      have hnone : s.pc.outstanding = [] := by
        cases hpc : s.pc with
        | addToHistory => rfl
        | returned n => rfl
        | _ =>
          rw [hpc] at hfinished
          cases hfinished
      rw [hnone, List.append_nil] at hmem
      exact List.count_eq_one_of_mem hserved hmem
    · intro n hn
      exact (h.progress.value n hn).trans h.progress.count
    · intro r hr
      exact ⟨(h.log r).fiFo ((hpaired r).mp hr), (h.log r).lost hr⟩
  · intro ls₁ ls₂ l s₁ s₂ s₃ r hrun₁ hr hrun₂ hstep hadd hpop hlost
    have h₁ := hstart.run hpaired hrun₁
    have h₂ := h₁.run hpaired hrun₂
    have hr₂ := h₁.run_not_stored hpaired hr
      (fun n hmem => hadd n (List.mem_append_left _ hmem)) hrun₂
    refine (h₂.step_frame hpaired hstep hr₂ fun n heq => ?_).2 hpop hlost
    exact hadd n (List.mem_append_right _ (heq ▸ List.mem_singleton_self _))

def fullQueues (r : Fin 2) : ChunkQueueData where
  uniqueId := r
  queue :=
    { type := if r = 0 then .fiFoSingleProducerSingleConsumer else .soFiSingleProducerSingleConsumer
      capacity := 1
      elements := [7] }
  queueHasLostChunks := false
  queueFullPolicy := if r = 0 then .blockProducer else .discardOldestData

def twoQueues : ChunkDistributorData (Fin 2) where
  historyCapacity := 0
  maxQueues := 2
  queues := [1, 0]
  history := []
  consumerTooSlowPolicy := .waitForConsumer

def slowConsumer : List (Act (Fin 2)) :=
  [.advance, .advance, .advance, .advance, .advance, .advance, .advance, .tryPop 0, .advance,
    .advance, .advance, .advance]

theorem exactly_once_slowConsumer :
    ∃ s, runSteps (step 9) (start twoQueues fullQueues) slowConsumer = some s ∧
      s.pc = .returned 2 ∧ s.served = [1, 0] ∧ s.served.count 0 = 1 ∧
      [7] ++ s.log.appended 0 = s.log.popped 0 ++ (s.log.receivers 0).queue.elements := by
  have h : (runSteps (step 9) (start twoQueues fullQueues) slowConsumer).map
      (fun s => (s.pc, s.served, s.removed)) = some (.returned 2, [1, 0], []) := by
    decide +kernel
  obtain ⟨s, hs, h⟩ := Option.map_eq_some_iff.mp h
  simp only [Prod.mk.injEq] at h
  obtain ⟨hpc, hserved, hremoved⟩ := h
  have hpaired : ∀ r, (fullQueues r).queueFullPolicy = .blockProducer ↔
      (fullQueues r).queue.type.isFiFo = true := by decide
  have hall := (exactly_once_per_queue (by decide) (by decide) (by decide) rfl hpaired 9).1
    slowConsumer s hs
  refine ⟨s, hs, hpc, hserved, ?_, (hall.2.2.2.2.1 0 rfl).1⟩
  exact hall.2.2.1 (by rw [hpc]; rfl) 0 (by decide) (by rw [hremoved]; exact List.not_mem_nil)

end DeliveryCall

end Iceoryx.Popo
