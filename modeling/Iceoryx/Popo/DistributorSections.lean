import Iceoryx.Lib.Run
import Iceoryx.Popo.ChunkDistributor

/-! The sections of `ChunkDistributor` that run under its lock, in any order in which the
publisher, RouDi and the subscribers may enter them.  References are not counted here; what
is pushed to a queue is recorded instead. -/

namespace Iceoryx.Popo

open Mepoo Lib

def VariantQueueTypes.isFiFo : VariantQueueTypes → Bool
  | .fiFoSingleProducerSingleConsumer | .fiFoMultiProducerSingleConsumer => true
  | .soFiSingleProducerSingleConsumer | .soFiMultiProducerSingleConsumer => false

/-- The queues, and the chunks pushed to a queue since it was added.  A chunk counts as
pushed once it is in the queue, or once no further attempt is made. -/
structure Delivery (R : Type) where
  receivers : R → ChunkQueueData
  pushed : R → List Nat

variable {R : Type} [LinearOrder R]

namespace Delivery

def setQueue (d : Delivery R) (r : R) (queue : VariantQueue Nat) : Delivery R :=
  { d with receivers := Function.update d.receivers r { d.receivers r with queue := queue } }

def record (d : Delivery R) (r : R) (chunk : Nat) : Delivery R :=
  { d with pushed := Function.update d.pushed r (d.pushed r ++ [chunk]) }

/-- `pushToQueue`; `retried` tells whether the caller tries again after a failure. -/
def pushToQueue (retried : Bool) (r : R) (chunk : Nat) : Prog Halt (Delivery R) Bool := fun d =>
  let queue := (d.receivers r).queue
  match queue.push chunk with
  | none => .error .blocked
  | some (pushRet, queue') =>
    -- a full FiFo hands the new chunk back, a full SoFi its oldest one
    if pushRet.isSome ∧ queue.type.isFiFo ∧ retried then
      .ok (pushRet.isNone, d.setQueue r queue')
    else .ok (pushRet.isNone, (d.setQueue r queue').record r chunk)

def lostAChunk (r : R) : Prog Halt (Delivery R) Unit :=
  modify fun d =>
    let queue := { d.receivers r with queueHasLostChunks := true }
    { d with receivers := Function.update d.receivers r queue }

def replay (r : R) (chunks : List Nat) : Prog Halt (Delivery R) PUnit :=
  chunks.forM fun chunk => do
    let _ ← pushToQueue false r chunk

end Delivery

/-- `publisher` is the chunk of the running call of `deliverToAllStoredQueues` and the
queues it still waits for.  The last two fields record the chunks of all calls, and how
many of them had returned when a queue was added. -/
structure Distributor (R : Type) where
  data : ChunkDistributorData R
  delivery : Delivery R
  publisher : Option (Nat × List R)
  sent : List Nat
  addedAt : R → Nat

namespace Distributor

inductive Section (R : Type)
  | deliver (chunk : Nat)
  | retry
  | addToHistory
  | tryAddQueue (queueToAdd : R) (requestedHistory : Nat)
  | tryRemoveQueue (queueToRemove : R)
  | tryPop (queue : R)
  deriving DecidableEq

def waitsFor (s : Distributor R) (r : R) : Bool :=
  s.data.consumerTooSlowPolicy = .waitForConsumer ∧
    (s.delivery.receivers r).queueFullPolicy = .blockProducer

def returned (s : Distributor R) : List Nat :=
  match s.publisher with
  | none => s.sent
  | some _ => s.sent.dropLast

def deliverySection (s : Distributor R) (chunk : Nat) : Prog Halt (Delivery R) (Nat × List R) :=
  ChunkDistributor.deliverToQueues (fun r => Delivery.pushToQueue (s.waitsFor r) r chunk)
    Delivery.lostAChunk s.waitsFor s.data.queues

def retrySection (s : Distributor R) (chunk : Nat) (remainingQueues : List R) :
    Prog Halt (Delivery R) (Nat × List R) :=
  ChunkDistributor.retryQueues (fun r => Delivery.pushToQueue true r chunk)
    (ChunkDistributor.intersection s.data.queues remainingQueues).reverse

def addToHistoryWithoutDelivery (chunk : Nat) (d : ChunkDistributorData R) :
    ChunkDistributorData R :=
  if 0 < d.historyCapacity then
    { d with history := (ChunkDistributor.makeRoom d.historyCapacity d.history).2 ++ [chunk] }
  else d

def step (s : Distributor R) : Section R → Option (Distributor R)
  | .deliver chunk =>
    match s.publisher with
    | some _ => none
    | none =>
      match s.deliverySection chunk s.delivery with
      | .error _ => none
      | .ok ((_, remainingQueues), delivery) =>
        some { s with
          delivery := delivery
          publisher := some (chunk, remainingQueues)
          sent := s.sent ++ [chunk] }
  | .retry =>
    match s.publisher with
    | none | some (_, []) => none
    | some (chunk, queue :: queues) =>
      match s.retrySection chunk (queue :: queues) s.delivery with
      | .error _ => none
      | .ok ((_, remaining), delivery) =>
        some { s with
          data := { s.data with queues := s.data.queues.insertionSort (· ≤ ·) }
          delivery := delivery
          publisher := some (chunk, remaining.reverse) }
  | .addToHistory =>
    match s.publisher with
    | none | some (_, _ :: _) => none
    | some (chunk, []) =>
      some { s with
        data := addToHistoryWithoutDelivery chunk s.data
        publisher := none }
  | .tryAddQueue queueToAdd requestedHistory =>
    if queueToAdd ∈ s.data.queues ∨ s.data.maxQueues ≤ s.data.queues.length then some s
    else
      match Delivery.replay queueToAdd
          (ChunkDistributor.requestedChunks s.data.history requestedHistory)
        { s.delivery with pushed := Function.update s.delivery.pushed queueToAdd [] } with
      | .error _ => none
      | .ok (_, delivery) =>
        some { s with
          data := { s.data with queues := s.data.queues ++ [queueToAdd] }
          delivery := delivery
          addedAt := Function.update s.addedAt queueToAdd s.returned.length }
  | .tryRemoveQueue queueToRemove =>
    some { s with data := { s.data with queues := s.data.queues.erase queueToRemove } }
  | .tryPop queue =>
    match (s.delivery.receivers queue).queue.pop with
    | none => some s
    | some (_, rest) => some { s with delivery := s.delivery.setQueue queue rest }

/-- No queue is added while a call has already passed it by. -/
def JoinsBetweenCalls (s : Distributor R) : Section R → Prop
  | .tryAddQueue queueToAdd _ =>
    match s.publisher with
    | none => True
    | some (_, remainingQueues) =>
      queueToAdd ∈ s.data.queues ∨ s.data.maxQueues ≤ s.data.queues.length ∨
        queueToAdd ∈ remainingQueues
  | _ => True

instance (s : Distributor R) (l : Section R) : Decidable (s.JoinsBetweenCalls l) := by
  unfold JoinsBetweenCalls
  split
  · split <;> infer_instance
  · infer_instance

def awaited (s : Distributor R) (r : R) : List Nat :=
  match s.publisher with
  | none => []
  | some (chunk, remainingQueues) => if r ∈ remainingQueues then [chunk] else []

end Distributor

omit [LinearOrder R] in
theorem VariantQueue.push_type {A : Type} {q q' : VariantQueue A} {value : A} {overflow : Option A}
    (h : q.push value = some (overflow, q')) : q'.type = q.type := by
  unfold push at h
  split at h <;> repeat' split at h
  all_goals
    cases h
    try rfl

omit [LinearOrder R] in
theorem VariantQueue.pop_type {A : Type} {q q' : VariantQueue A} {value : A}
    (h : q.pop = some (value, q')) : q'.type = q.type := by
  unfold pop at h
  split at h
  · cases h
  · cases h
    rfl

namespace Delivery

def Kept (d d' : Delivery R) : Prop :=
  ∀ r, (d'.receivers r).queueFullPolicy = (d.receivers r).queueFullPolicy ∧
    (d'.receivers r).queue.type = (d.receivers r).queue.type

/-- A queue that blocks the producer is a FiFo, as the port pool constructs it. -/
def Paired (d : Delivery R) : Prop :=
  ∀ r, (d.receivers r).queueFullPolicy = .blockProducer →
    (d.receivers r).queue.type.isFiFo = true

variable {d d' d'' : Delivery R} {E : Halt → Prop}

omit [LinearOrder R] in
theorem Kept.refl (d : Delivery R) : Kept d d := fun _ => ⟨rfl, rfl⟩

omit [LinearOrder R] in
theorem Kept.trans (h : Kept d d') (h' : Kept d' d'') : Kept d d'' :=
  fun r => ⟨(h' r).1.trans (h r).1, (h' r).2.trans (h r).2⟩

omit [LinearOrder R] in
theorem Kept.paired (h : Kept d d') (hd : d.Paired) : d'.Paired := by
  intro r hr
  rw [(h r).2]
  exact hd r ((h r).1.symm.trans hr)

theorem kept_update (r : R) (queue : ChunkQueueData)
    (hpolicy : queue.queueFullPolicy = (d.receivers r).queueFullPolicy)
    (htype : queue.queue.type = (d.receivers r).queue.type) (pushed : R → List Nat) :
    Kept d { receivers := Function.update d.receivers r queue, pushed := pushed } := by
  intro r'
  by_cases h : r' = r
  · subst h
    simpa using ⟨hpolicy, htype⟩
  · simp [Function.update_of_ne h]

theorem pushToQueue_triple {retried : Bool} {r : R} (chunk : Nat)
    (hretried : retried = true → (d.receivers r).queue.type.isFiFo = true) :
    Triple (fun _ => True) (· = d) (pushToQueue retried r chunk) fun b d' => Kept d d' ∧
      d'.pushed = Function.update d.pushed r
        (d.pushed r ++ if retried = true ∧ b = false then [] else [chunk]) := by
  intro s hs
  rw [hs, pushToQueue]
  split
  · trivial
  · next pushRet queue hpush =>
    have hkept : ∀ pushed, Kept d { d.setQueue r queue with pushed := pushed } :=
      kept_update r { d.receivers r with queue := queue } rfl (VariantQueue.push_type hpush)
    split
    · next hrejected =>
      refine ⟨hkept _, ?_⟩
      have hnot : retried = true ∧ pushRet.isNone = false := by
        cases pushRet <;> simp_all
      rw [if_pos hnot, List.append_nil, Function.update_eq_self]
      rfl
    · next hrejected =>
      refine ⟨hkept _, ?_⟩
      have hnot : ¬ (retried = true ∧ pushRet.isNone = false) := by
        rintro ⟨hr, hnone⟩
        refine hrejected ⟨?_, hretried hr, hr⟩
        cases pushRet <;> simp_all
      rw [if_neg hnot]
      rfl

theorem lostAChunk_triple (r : R) :
    Triple (fun _ => True) (· = d) (lostAChunk r) fun _ d' => Kept d d' ∧ d'.pushed = d.pushed :=
  Triple.modify fun s hs => by
    rw [hs]
    exact ⟨kept_update r { d.receivers r with queueHasLostChunks := true } rfl rfl d.pushed, rfl⟩

theorem replay_triple (r : R) (chunks : List Nat) :
    Triple (fun _ => True) (· = d) (replay r chunks) fun _ d' => Kept d d' ∧
      d'.pushed = Function.update d.pushed r (d.pushed r ++ chunks) := by
  induction chunks generalizing d with
  | nil =>
    refine Triple.pure ?_
    rintro s rfl
    exact ⟨Kept.refl s, by simp⟩
  | cons chunk chunks ih =>
    have hpush : Triple (fun _ => True) (· = d) (do let _ ← pushToQueue false r chunk)
        fun _ d' => Kept d d' ∧
          d'.pushed = Function.update d.pushed r (d.pushed r ++ [chunk]) := by
      refine Triple.bind (pushToQueue_triple chunk fun h => absurd h (by decide)) fun b => ?_
      exact Triple.pure fun s hs => ⟨hs.1, by simpa using hs.2⟩
    refine Triple.bind hpush ?_
    rintro _ d₁ ⟨hkept, hpushed⟩
    refine (ih d₁ rfl).mono fun _ d₂ h => ⟨hkept.trans h.1, ?_⟩
    rw [h.2, hpushed]
    simp

structure Delivered (chunk : Nat) (d : Delivery R) (queues remaining : List R)
    (d' : Delivery R) : Prop where
  kept : Kept d d'
  sub : remaining.Sublist queues
  pushed : ∀ r, d'.pushed r = d.pushed r ++ if r ∈ queues ∧ r ∉ remaining then [chunk] else []

theorem Delivered.skip {chunk : Nat} {d₁ : Delivery R} {r : R} {queues remaining : List R}
    (hr : r ∉ queues) (hkept : Kept d d₁)
    (hpushed : d₁.pushed = d.pushed) (h : Delivered chunk d₁ queues remaining d') :
    Delivered chunk d (r :: queues) (r :: remaining) d' := by
  refine ⟨hkept.trans h.kept, h.sub.cons_cons r, fun r' => ?_⟩
  rw [h.pushed, hpushed]
  by_cases hr' : r' = r
  · subst hr'
    simp [hr]
  · simp [hr']

theorem Delivered.cons {chunk : Nat} {d₁ : Delivery R} {r : R} {queues remaining : List R}
    (hr : r ∉ queues) (hkept : Kept d d₁)
    (hpushed : d₁.pushed = Function.update d.pushed r (d.pushed r ++ [chunk]))
    (h : Delivered chunk d₁ queues remaining d') :
    Delivered chunk d (r :: queues) remaining d' := by
  refine ⟨hkept.trans h.kept, h.sub.cons r, fun r' => ?_⟩
  rw [h.pushed, hpushed]
  by_cases hr' : r' = r
  · subst hr'
    have hnot : r' ∉ remaining := fun hmem => hr (h.sub.subset hmem)
    simp [hr, hnot]
  · simp [hr']

theorem deliverToQueues_delivered {waits : R → Bool} (chunk : Nat) {queues : List R}
    (hwaits : ∀ r, waits r = true → (d.receivers r).queue.type.isFiFo = true)
    (hnodup : queues.Nodup) :
    Triple (fun _ => True) (· = d)
      (ChunkDistributor.deliverToQueues (fun r => pushToQueue (waits r) r chunk) lostAChunk waits
        queues) fun p d' => Delivered chunk d queues p.2 d' ∧ ∀ r ∈ p.2, waits r = true := by
  induction queues generalizing d with
  | nil =>
    refine Triple.pure ?_
    rintro s rfl
    exact ⟨⟨Kept.refl s, List.Sublist.slnil, fun r => by simp⟩, by simp⟩
  | cons r queues ih =>
    obtain ⟨hr, hnodup⟩ := List.nodup_cons.mp hnodup
    -- the rest of the loop starts from whatever the push to `r` has left
    have hrest : ∀ d₁, Kept d d₁ → Triple (fun _ => True) (· = d₁)
        (ChunkDistributor.deliverToQueues (fun r => pushToQueue (waits r) r chunk) lostAChunk
          waits queues)
        fun p d' => Delivered chunk d₁ queues p.2 d' ∧ ∀ r ∈ p.2, waits r = true := by
      intro d₁ hkept
      refine ih (fun r' hr' => ?_) hnodup
      rw [(hkept r').2]
      exact hwaits r' hr'
    let Q : Nat × List R → Delivery R → Prop :=
      fun p d' => Delivered chunk d (r :: queues) p.2 d' ∧ ∀ r ∈ p.2, waits r = true
    refine Triple.bind (pushToQueue_triple chunk (hwaits r)) ?_
    rintro b d₁ ⟨hkept, hpushed⟩
    cases b with
    | true =>
      simp only [Bool.true_eq_false, and_false, if_false] at hpushed
      have hloop := Triple.bind (R := Q) (hrest d₁ hkept) fun p =>
        Triple.pure (a := (p.1 + 1, p.2)) fun d₂ h => ⟨h.1.cons hr hkept hpushed, h.2⟩
      exact hloop d₁ rfl
    | false =>
      cases hr' : waits r with
      | true =>
        simp only [hr', and_self, if_true, List.append_nil, Function.update_eq_self] at hpushed
        have hloop := Triple.bind (R := Q) (hrest d₁ hkept) fun p =>
          Triple.pure (a := (p.1, r :: p.2)) fun d₂ h =>
            ⟨h.1.skip hr hkept hpushed, List.forall_mem_cons.mpr ⟨hr', h.2⟩⟩
        simpa [hr'] using hloop d₁ rfl
      | false =>
        simp only [hr', Bool.false_eq_true, false_and, if_false] at hpushed
        have hlost : Triple (fun _ => True) (· = d₁) (lostAChunk r) fun _ d₂ =>
            Kept d d₂ ∧ d₂.pushed = Function.update d.pushed r (d.pushed r ++ [chunk]) :=
          (lostAChunk_triple r).post fun _ d₂ h => ⟨hkept.trans h.1, h.2.trans hpushed⟩
        have hloop := Triple.bind (R := Q) hlost fun _ d₂ h₂ => Triple.bind (hrest d₂ h₂.1)
          (fun p => Triple.pure (a := (p.1 + 1, p.2)) fun d₃ h => ⟨h.1.cons hr h₂.1 h₂.2, h.2⟩)
          d₂ rfl
        simpa [hr'] using hloop d₁ rfl

theorem retryQueues_delivered (chunk : Nat) {queues : List R}
    (hfifo : ∀ r ∈ queues, (d.receivers r).queue.type.isFiFo = true) (hnodup : queues.Nodup) :
    Triple (fun _ => True) (· = d)
      (ChunkDistributor.retryQueues (fun r => pushToQueue true r chunk) queues)
      fun p d' => Delivered chunk d queues p.2 d' := by
  induction queues generalizing d with
  | nil =>
    refine Triple.pure ?_
    rintro s rfl
    exact ⟨Kept.refl s, List.Sublist.slnil, fun r => by simp⟩
  | cons r queues ih =>
    obtain ⟨hr, hnodup⟩ := List.nodup_cons.mp hnodup
    refine Triple.bind (pushToQueue_triple chunk fun _ => hfifo r List.mem_cons_self) ?_
    rintro b d₁ ⟨hkept, hpushed⟩
    have hrest := ih (d := d₁) (fun r' hr' => by
      rw [(hkept r').2]
      exact hfifo r' (List.mem_cons_of_mem r hr')) hnodup
    refine Triple.bind hrest (fun p => ?_) d₁ rfl
    cases b with
    | true => exact Triple.pure fun d₂ h => h.cons hr hkept (by simpa using hpushed)
    | false => exact Triple.pure fun d₂ h => h.skip hr hkept (by simpa using hpushed)

end Delivery

namespace ChunkDistributor

theorem mem_intersection {queues remainingQueues : List R} {r : R} :
    r ∈ intersection queues remainingQueues ↔ r ∈ queues ∧ r ∈ remainingQueues := by
  simp [intersection, List.mem_bagInter]

theorem nodup_intersection {queues remainingQueues : List R} (h : queues.Nodup) :
    (intersection queues remainingQueues).Nodup :=
  ((List.perm_insertionSort (· ≤ ·) queues).nodup_iff.mpr h).sublist List.bagInter_sublist_left

omit [LinearOrder R] in
theorem makeRoom_drop {done : List Nat} {capacity : Nat} (hcapacity : 0 < capacity) (chunk : Nat) :
    (makeRoom capacity (done.drop (done.length - capacity))).2 ++ [chunk] =
      (done ++ [chunk]).drop (done.length + 1 - capacity) := by
  rw [List.drop_append_of_le_length (by omega), makeRoom]
  split
  · next hfull =>
    rw [List.length_drop] at hfull
    rw [List.tail_drop, show done.length - capacity + 1 = done.length + 1 - capacity by omega]
  · next hroom =>
    rw [List.length_drop] at hroom
    rw [show done.length - capacity = done.length + 1 - capacity by omega]

omit [LinearOrder R] in
theorem requestedChunks_drop (done : List Nat) (capacity requestedHistory : Nat) :
    ∃ k ≤ done.length,
      requestedChunks (done.drop (done.length - capacity)) requestedHistory = done.drop k := by
  simp only [requestedChunks, List.drop_drop, List.length_drop]
  refine ⟨_, ?_, rfl⟩
  split <;> omega

end ChunkDistributor

namespace Distributor

variable {s s' : Distributor R}

structure Inv (s : Distributor R) : Prop where
  nodup : s.data.queues.Nodup
  paired : s.delivery.Paired
  history : s.data.history = s.returned.drop (s.returned.length - s.data.historyCapacity)
  running : ∀ chunk remaining, s.publisher = some (chunk, remaining) →
    s.sent = s.returned ++ [chunk] ∧
      ∀ r ∈ remaining, (s.delivery.receivers r).queueFullPolicy = .blockProducer
  added : ∀ r, s.addedAt r ≤ s.returned.length
  pushed : ∀ r ∈ s.data.queues, ∃ k ≤ s.addedAt r,
    s.delivery.pushed r ++ s.awaited r = s.sent.drop k

namespace Inv

theorem deliver (h : s.Inv) {chunk : Nat} (hstep : s.step (.deliver chunk) = some s') :
    s'.Inv := by
  simp only [step] at hstep
  split at hstep
  · cases hstep
  · next hpub =>
    split at hstep
    · cases hstep
    · next n remaining delivery hsection =>
      cases hstep
      have hwaits : ∀ r, s.waitsFor r = true →
          (s.delivery.receivers r).queue.type.isFiFo = true := by
        intro r hr
        simp only [waitsFor, decide_eq_true_eq] at hr
        exact h.paired r hr.2
      have hdelivered :=
        (Delivery.deliverToQueues_delivered chunk hwaits h.nodup).of_ok rfl hsection
      obtain ⟨hdelivered, hremaining⟩ := hdelivered
      have hreturned : s.returned = s.sent := by rw [returned, hpub]
      have hreturned' : Distributor.returned { s with
          delivery := delivery
          publisher := some (chunk, remaining)
          sent := s.sent ++ [chunk] } = s.sent := List.dropLast_concat
      have hhistory := h.history
      have hadded := h.added
      rw [hreturned] at hhistory hadded
      refine ⟨h.nodup, hdelivered.kept.paired h.paired, ?_, ?_, ?_, ?_⟩
      · rw [hreturned']
        exact hhistory
      · intro c rest heq
        cases heq
        refine ⟨by rw [hreturned'], fun r hr => ?_⟩
        have hwait := hremaining r hr
        simp only [waitsFor, decide_eq_true_eq] at hwait
        exact (hdelivered.kept r).1.trans hwait.2
      · rw [hreturned']
        exact hadded
      · intro r hr
        obtain ⟨k, hk, hpushed⟩ := h.pushed r hr
        have hawaited : s.awaited r = [] := by rw [awaited, hpub]
        rw [hawaited, List.append_nil] at hpushed
        refine ⟨k, hk, ?_⟩
        rw [List.drop_append_of_le_length (hk.trans (hadded r)), ← hpushed, hdelivered.pushed,
          List.append_assoc]
        by_cases hmem : r ∈ remaining
        · simp [awaited, hmem]
        · simp [awaited, hmem, show r ∈ s.data.queues from hr]

theorem retry (h : s.Inv) (hstep : s.step .retry = some s') : s'.Inv := by
  simp only [step] at hstep
  split at hstep
  · cases hstep
  · cases hstep
  · next chunk queue queues hpub =>
    split at hstep
    · cases hstep
    · next n remaining delivery hsection =>
      cases hstep
      obtain ⟨hsent, hblocking⟩ := h.running _ _ hpub
      have hfifo : ∀ r ∈ (ChunkDistributor.intersection s.data.queues (queue :: queues)).reverse,
          (s.delivery.receivers r).queue.type.isFiFo = true := by
        intro r hr
        rw [List.mem_reverse, ChunkDistributor.mem_intersection] at hr
        exact h.paired r (hblocking r hr.2)
      have hdelivered := (Delivery.retryQueues_delivered chunk hfifo (List.nodup_reverse.mpr
        (ChunkDistributor.nodup_intersection h.nodup))).of_ok rfl hsection
      have hsub : ∀ r ∈ remaining, r ∈ s.data.queues ∧ r ∈ queue :: queues := by
        intro r hr
        have := hdelivered.sub.subset hr
        rwa [List.mem_reverse, ChunkDistributor.mem_intersection] at this
      have hreturned : s.returned = s.sent.dropLast := by rw [returned, hpub]
      refine ⟨?_, hdelivered.kept.paired h.paired, ?_, ?_, ?_, ?_⟩
      · exact (List.perm_insertionSort (· ≤ ·) s.data.queues).nodup_iff.mpr h.nodup
      · have hhistory := h.history
        rwa [hreturned] at hhistory
      · intro c rest heq
        cases heq
        rw [hreturned] at hsent
        refine ⟨hsent, fun r hr => ?_⟩
        exact (hdelivered.kept r).1.trans (hblocking r (hsub r (List.mem_reverse.mp hr)).2)
      · have hadded := h.added
        rwa [hreturned] at hadded
      · intro r hr
        have hr : r ∈ s.data.queues := (List.mem_insertionSort (· ≤ ·)).mp hr
        obtain ⟨k, hk, hpushed⟩ := h.pushed r hr
        refine ⟨k, hk, ?_⟩
        rw [← hpushed, hdelivered.pushed, List.append_assoc]
        congr 1
        simp only [awaited, hpub, List.mem_reverse, ChunkDistributor.mem_intersection]
        by_cases hmem : r ∈ remaining
        · simp [hmem, (hsub r hmem).2]
        · simp [hmem, hr]

theorem addToHistory (h : s.Inv) (hstep : s.step .addToHistory = some s') : s'.Inv := by
  simp only [step] at hstep
  split at hstep
  · cases hstep
  · cases hstep
  · next chunk hpub =>
    cases hstep
    obtain ⟨hsent, -⟩ := h.running _ _ hpub
    have hkeep : (addToHistoryWithoutDelivery chunk s.data).queues = s.data.queues ∧
        (addToHistoryWithoutDelivery chunk s.data).historyCapacity = s.data.historyCapacity := by
      unfold addToHistoryWithoutDelivery
      split <;> exact ⟨rfl, rfl⟩
    refine ⟨by rw [hkeep.1]; exact h.nodup, h.paired, ?_, ?_, ?_, ?_⟩
    · change _ = s.sent.drop (s.sent.length - _)
      rw [hkeep.2, hsent, List.length_append, List.length_singleton]
      unfold addToHistoryWithoutDelivery
      split
      · next hcapacity =>
        rw [← ChunkDistributor.makeRoom_drop hcapacity chunk, ← h.history]
      · next hcapacity =>
        rw [h.history, Nat.eq_zero_of_not_pos hcapacity]
        simp
    · intro c rest heq
      cases heq
    · intro r
      refine (h.added r).trans ?_
      change s.returned.length ≤ s.sent.length
      rw [hsent, List.length_append]
      exact Nat.le_add_right _ _
    · intro r hr
      rw [hkeep.1] at hr
      obtain ⟨k, hk, hpushed⟩ := h.pushed r hr
      have hawaited : s.awaited r = [] := by simp [awaited, hpub]
      rw [hawaited] at hpushed
      exact ⟨k, hk, hpushed⟩

/-- A queue that joins gets the chunks of the calls that have returned, and only misses
one that it is still going to get. -/
theorem append_awaited (h : s.Inv) {r : R} {requestedHistory k : Nat}
    (hjoin : s.JoinsBetweenCalls (.tryAddQueue r requestedHistory))
    (hnew : ¬ (r ∈ s.data.queues ∨ s.data.maxQueues ≤ s.data.queues.length))
    (hk : k ≤ s.returned.length) : s.returned.drop k ++ s.awaited r = s.sent.drop k := by
  simp only [JoinsBetweenCalls] at hjoin
  cases hpub : s.publisher with
  | none => simp [awaited, returned, hpub]
  | some call =>
    obtain ⟨chunk, remaining⟩ := call
    rw [hpub] at hjoin
    have hmem : r ∈ remaining := (or_assoc.mpr hjoin).resolve_left hnew
    rw [(h.running chunk remaining hpub).1, List.drop_append_of_le_length hk]
    simp [awaited, hpub, hmem]

theorem tryAddQueue (h : s.Inv) {queueToAdd : R} {requestedHistory : Nat}
    (hjoin : s.JoinsBetweenCalls (.tryAddQueue queueToAdd requestedHistory))
    (hstep : s.step (.tryAddQueue queueToAdd requestedHistory) = some s') : s'.Inv := by
  simp only [step] at hstep
  split at hstep
  · cases hstep
    exact h
  · next hnew =>
    split at hstep
    · cases hstep
    · next delivery hreplay =>
      cases hstep
      obtain ⟨hkept, hlog⟩ := (Delivery.replay_triple _ _).of_ok rfl hreplay
      have hlog : delivery.pushed = Function.update s.delivery.pushed queueToAdd
          (ChunkDistributor.requestedChunks s.data.history requestedHistory) := by
        simpa using hlog
      obtain ⟨k, hk, hrequested⟩ := ChunkDistributor.requestedChunks_drop s.returned
        s.data.historyCapacity requestedHistory
      rw [← h.history] at hrequested
      refine ⟨?_, hkept.paired h.paired, h.history, ?_, ?_, ?_⟩
      · rw [List.nodup_append]
        refine ⟨h.nodup, by simp, fun a ha b hb => ?_⟩
        rw [List.mem_singleton.mp hb]
        exact fun heq => hnew (Or.inl (heq ▸ ha))
      · intro chunk remaining hpub
        obtain ⟨hsent, hblocking⟩ := h.running chunk remaining hpub
        exact ⟨hsent, fun r hr => (hkept r).1.trans (hblocking r hr)⟩
      · intro r
        simp only [Function.update_apply]
        split
        · exact le_rfl
        · exact h.added r
      · intro r hr
        simp only [hlog, Function.update_apply]
        split
        · next heq =>
          subst heq
          refine ⟨k, hk, ?_⟩
          change _ ++ s.awaited r = _
          rw [hrequested, h.append_awaited hjoin hnew hk]
        · next hne =>
          rcases List.mem_append.mp hr with hr | hr
          · exact h.pushed r hr
          · exact absurd (List.mem_singleton.mp hr) hne

theorem tryRemoveQueue (h : s.Inv) (queueToRemove : R) :
    Inv { s with data := { s.data with queues := s.data.queues.erase queueToRemove } } where
  nodup := h.nodup.erase queueToRemove
  paired := h.paired
  history := h.history
  running := h.running
  added := h.added
  pushed := fun r hr => h.pushed r (List.mem_of_mem_erase hr)

theorem setQueue (h : s.Inv) {r : R} {queue : VariantQueue Nat}
    (htype : queue.type = (s.delivery.receivers r).queue.type) :
    Inv { s with delivery := s.delivery.setQueue r queue } := by
  have hkept : Delivery.Kept s.delivery (s.delivery.setQueue r queue) :=
    Delivery.kept_update r { s.delivery.receivers r with queue := queue } rfl htype _
  refine ⟨h.nodup, hkept.paired h.paired, h.history, ?_, h.added, h.pushed⟩
  intro chunk remaining hpub
  obtain ⟨hsent, hblocking⟩ := h.running chunk remaining hpub
  exact ⟨hsent, fun r hr => (hkept r).1.trans (hblocking r hr)⟩

theorem step {l : Section R} (h : s.Inv) (hjoin : s.JoinsBetweenCalls l)
    (hstep : s.step l = some s') : s'.Inv := by
  cases l with
  | deliver chunk => exact h.deliver hstep
  | retry => exact h.retry hstep
  | addToHistory => exact h.addToHistory hstep
  | tryAddQueue queueToAdd requestedHistory => exact h.tryAddQueue hjoin hstep
  | tryRemoveQueue queueToRemove =>
    cases hstep
    exact h.tryRemoveQueue queueToRemove
  | tryPop queue =>
    simp only [Distributor.step] at hstep
    split at hstep
    · cases hstep
      exact h
    · next value rest hpop =>
      cases hstep
      exact h.setQueue (VariantQueue.pop_type hpop)

theorem run {ls : List (Section R)} (h : s.Inv)
    (hrun : runSteps Distributor.step s ls = some s')
    (hjoin : Meets Distributor.step JoinsBetweenCalls s ls) : s'.Inv :=
  runSteps_invariant (fun _ _ _ hI hl hstep => hI.step hl hstep) ls s s' h hjoin hrun

end Inv

def start (historyCapacity maxQueues : Nat) (policy : ConsumerTooSlowPolicy)
    (receivers : R → ChunkQueueData) : Distributor R where
  data :=
    { historyCapacity := historyCapacity
      maxQueues := maxQueues
      queues := []
      history := []
      consumerTooSlowPolicy := policy }
  delivery :=
    { receivers := receivers
      pushed := fun _ => [] }
  publisher := none
  sent := []
  addedAt := fun _ => 0

/-- Replay and live deliveries are a contiguous run of what was sent, up to the last chunk
that is not awaited any more, and start no later than with the calls that return after the
queue was added. -/
theorem no_gap {historyCapacity maxQueues : Nat} {policy : ConsumerTooSlowPolicy}
    {receivers : R → ChunkQueueData}
    (hpaired : ∀ r, (receivers r).queueFullPolicy = .blockProducer →
      (receivers r).queue.type.isFiFo = true)
    (ls : List (Section R))
    (hrun : runSteps step (start historyCapacity maxQueues policy receivers) ls = some s)
    (hjoin : Meets step JoinsBetweenCalls (start historyCapacity maxQueues policy receivers) ls)
    (r : R) (hr : r ∈ s.data.queues) :
    ∃ k ≤ s.addedAt r, s.delivery.pushed r ++ s.awaited r = s.sent.drop k := by
  have hstart : (start historyCapacity maxQueues policy receivers).Inv := by
    refine ⟨List.nodup_nil, hpaired, ?_, ?_, ?_, ?_⟩
    · simp [start, returned]
    · simp [start]
    · simp [start]
    · simp [start]
  exact (hstart.run hrun hjoin).pushed r hr

def oneSlot (_ : Fin 1) : ChunkQueueData where
  uniqueId := 0
  queue := { type := .fiFoSingleProducerSingleConsumer, capacity := 1, elements := [] }
  queueHasLostChunks := false
  queueFullPolicy := .blockProducer

def startOneSlot : Distributor (Fin 1) := start 2 1 .waitForConsumer oneSlot

def lateJoiner : List (Section (Fin 1)) :=
  [.deliver 9, .addToHistory, .tryAddQueue 0 1, .deliver 10, .retry, .tryPop 0, .retry,
    .addToHistory]

theorem no_gap_lateJoiner :
    (runSteps step startOneSlot lateJoiner).map (fun s => (s.delivery.pushed 0, s.sent)) =
      some ([9, 10], [9, 10]) ∧
    ∃ s, runSteps step startOneSlot lateJoiner = some s ∧ 0 ∈ s.data.queues ∧
      ∃ k ≤ s.addedAt 0, s.delivery.pushed 0 ++ s.awaited 0 = s.sent.drop k := by
  refine ⟨by decide +kernel, ?_⟩
  have h : (runSteps step startOneSlot lateJoiner).map (fun s => s.data.queues) = some [0] := by
    decide +kernel
  obtain ⟨s, hs, hqueues⟩ := Option.map_eq_some_iff.mp h
  have hmem : 0 ∈ s.data.queues := by simp [hqueues]
  exact ⟨s, hs, hmem, no_gap (fun _ _ => rfl) lateJoiner hs (by decide +kernel) 0 hmem⟩

/-- The queue is added after the second chunk was delivered and before it is in the
history. -/
def joinsInBetween : List (Section (Fin 1)) :=
  [.deliver 9, .addToHistory, .deliver 10, .tryAddQueue 0 1, .addToHistory, .tryPop 0,
    .deliver 11, .addToHistory]

theorem chunk_missed_in_between :
    ∃ s, runSteps step startOneSlot joinsInBetween = some s ∧ 0 ∈ s.data.queues ∧
      s.publisher = none ∧ s.sent = [9, 10, 11] ∧ s.addedAt 0 = 1 ∧
      s.delivery.pushed 0 = [9, 11] ∧ ∀ k, s.delivery.pushed 0 ≠ s.sent.drop k := by
  have h : (runSteps step startOneSlot joinsInBetween).map
      (fun s => (s.data.queues, s.publisher, s.sent, s.addedAt 0, s.delivery.pushed 0)) =
        some ([0], none, [9, 10, 11], 1, [9, 11]) := by decide +kernel
  obtain ⟨s, hs, h⟩ := Option.map_eq_some_iff.mp h
  simp only [Prod.mk.injEq] at h
  obtain ⟨hqueues, hpub, hsent, hadded, hpushed⟩ := h
  refine ⟨s, hs, by simp [hqueues], hpub, hsent, hadded, hpushed, fun k hk => ?_⟩
  rw [hpushed, hsent] at hk
  have hlen := congrArg List.length hk
  simp only [List.length_drop, List.length_cons, List.length_nil] at hlen
  obtain rfl : k = 1 := by omega
  cases hk

end Distributor

end Iceoryx.Popo
