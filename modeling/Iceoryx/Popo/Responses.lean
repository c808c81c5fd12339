import Iceoryx.Popo.BlockingDelivery
import Iceoryx.Popo.ZeroCopy

/-! `ServerPortUser::sendResponse`: a response goes back to the queue of the client that sent
the request.  One step is one section under the lock of the `ChunkDistributor`, so that
clients come and go between two of them. -/

namespace Iceoryx.Popo

open Mepoo Lib Exec

variable {S R : Type}

def SameKind (start : R → ChunkReceiverData) (r : R) (d : ChunkReceiverData) : Prop :=
  d.uniqueId = (start r).uniqueId ∧ d.queueFullPolicy = (start r).queueFullPolicy ∧
    d.queue.type = (start r).queue.type

/-- The used-chunk list of the sender `s` is `l`, the queues in its container meet `C`, and
the data of every queue meet `K`. -/
structure Fixed (K : R → ChunkReceiverData → Prop) (C : R → Prop) (s : S)
    (policy : ConsumerTooSlowPolicy) (l : UsedChunkList) (w : World S R) : Prop where
  chunksInUse : (w.senders s).chunksInUse = l
  policy : (w.senders s).consumerTooSlowPolicy = policy
  queues : ∀ r ∈ (w.senders s).queues, C r
  receivers : ∀ r, K r (w.receivers r)

namespace Fixed

variable {start : R → ChunkReceiverData} {K : R → ChunkReceiverData → Prop} {C : R → Prop}
  {s : S} {policy : ConsumerTooSlowPolicy}
  {l : UsedChunkList} {T : Type} {Q : T → World S R → Prop} {r : R} {m : Nat}

theorem onMemory {x : Prog Halt MemoryManager T} :
    Triple (fun _ => True) (Fixed K C s policy l) (Exec.onMemory x : Exec S R T)
      fun _ => Fixed K C s policy l := by
  refine Triple.focus fun w hw => ?_
  cases x w.memory with
  | ok p => exact ⟨hw.chunksInUse, hw.policy, hw.queues, hw.receivers⟩
  | error e => trivial

theorem destroy? (o : Option Nat) :
    Triple (fun _ => True) (Fixed K C s policy l) (Exec.destroy? o : Exec S R PUnit)
      fun _ => Fixed K C s policy l := by
  cases o with
  | none => exact Triple.pure fun _ hw => hw
  | some m => exact onMemory

theorem receiver_bind {f : ChunkReceiverData → Exec S R T}
    (h : ∀ d, K r d →
      Triple (fun _ => True) (Fixed K C s policy l) (f d) Q) :
    Triple (fun _ => True) (Fixed K C s policy l) (receiver r >>= f) Q :=
  fun w hw => h (w.receivers r) (hw.receivers r) w hw

theorem sender_bind {f : ChunkSenderData R → Exec S R T}
    (h : ∀ d : ChunkSenderData R, d.chunksInUse = l → d.consumerTooSlowPolicy = policy →
      (∀ r ∈ d.queues, C r) → Triple (fun _ => True) (Fixed K C s policy l) (f d) Q) :
    Triple (fun _ => True) (Fixed K C s policy l) (sender s >>= f) Q :=
  fun w hw => h (w.senders s) hw.chunksInUse hw.policy hw.queues w hw

theorem setReceiver [DecidableEq R] {d : ChunkReceiverData} (hd : K r d) :
    Triple (fun _ => True) (Fixed K C s policy l) (Exec.setReceiver r d : Exec S R Unit)
      fun _ => Fixed K C s policy l := by
  intro w hw
  refine ⟨hw.chunksInUse, hw.policy, hw.queues, fun r' => ?_⟩
  by_cases hr : r' = r
  · subst hr
    simpa only [Function.update_self] using hd
  · simpa only [Function.update_of_ne hr] using hw.receivers r'

theorem setSender [DecidableEq S] {d : ChunkSenderData R} {l' : UsedChunkList}
    (hd : d.chunksInUse = l') (hpolicy : d.consumerTooSlowPolicy = policy)
    (hqueues : ∀ r ∈ d.queues, C r) :
    Triple (fun _ => True) (Fixed K C s policy l) (Exec.setSender s d : Exec S R Unit)
      fun _ => Fixed K C s policy l' := by
  intro w hw
  refine ⟨?_, ?_, ?_, hw.receivers⟩
  · simpa using hd
  · simpa using hpolicy
  · simpa using hqueues

theorem push [LinearOrder R] (r : R) (m : Nat) :
    Triple (fun _ => True) (Fixed (SameKind start) C s policy l)
      (ChunkDistributor.push r m : Exec S R Bool)
      fun _ => Fixed (SameKind start) C s policy l := by
  refine Triple.bind onMemory fun _ => receiver_bind fun d hd => ?_
  cases hpush : d.queue.push m with
  | none => exact Triple.throw trivial
  | some p =>
    obtain ⟨pushRet, queue⟩ := p
    have hkind : SameKind start r { d with queue := queue } :=
      ⟨hd.1, hd.2.1, (VariantQueue.push_type hpush).trans hd.2.2⟩
    exact Triple.bind (setReceiver hkind) fun _ => Triple.bind (destroy? pushRet) fun _ =>
      Triple.bind onMemory fun _ => Triple.pure fun _ hw => hw

theorem pushToQueue [LinearOrder R] (r : R) (m : Nat) :
    Triple (fun _ => True) (Fixed (SameKind start) C s policy l)
      (ChunkDistributor.pushToQueue r m : Exec S R Bool)
      fun _ => Fixed (SameKind start) C s policy l :=
  Triple.bind onMemory fun _ => Triple.bind (push r m) fun _ => Triple.bind onMemory fun _ =>
    Triple.pure fun _ hw => hw

section Container

variable [DecidableEq S] [LinearOrder R]

theorem tryAddQueue (hr : C r) (requestedHistory : Nat) :
    Triple (fun _ => True) (Fixed (SameKind start) C s policy l)
      (ChunkDistributor.tryAddQueue s r requestedHistory)
      fun _ => Fixed (SameKind start) C s policy l := by
  refine sender_bind fun d hl hpolicy hqueues => ?_
  split
  · exact Triple.pure fun _ hw => hw
  · split
    · have hadd : ∀ r' ∈ d.queues ++ [r], C r' := by
        intro r' hr'
        rcases List.mem_append.mp hr' with hr' | hr'
        · exact hqueues r' hr'
        · rw [List.mem_singleton.mp hr']
          exact hr
      refine Triple.bind (setSender hl hpolicy hadd) fun _ => ?_
      refine Triple.bind (Triple.forM_mem _ fun m _ => ?_) fun _ => Triple.pure fun _ hw => hw
      exact Triple.bind onMemory fun _ => Triple.bind (pushToQueue r m) fun _ =>
        Triple.pure fun _ hw => hw
    · exact Triple.pure fun _ hw => hw

theorem tryRemoveQueue (r : R) :
    Triple (fun _ => True) (Fixed K C s policy l) (ChunkDistributor.tryRemoveQueue s r)
      fun _ => Fixed K C s policy l := by
  refine sender_bind fun d hl hpolicy hqueues => ?_
  split
  · refine Triple.bind (setSender hl hpolicy fun r' hr' => ?_) fun _ => Triple.pure fun _ hw => hw
    exact hqueues r' (List.mem_of_mem_erase hr')
  · exact Triple.pure fun _ hw => hw

omit [LinearOrder R] in
theorem removeAllQueues :
    Triple (fun _ => True) (Fixed K C s policy l) (ChunkDistributor.removeAllQueues s)
      fun _ => Fixed K C s policy l :=
  sender_bind fun _ hl hpolicy _ => setSender hl hpolicy fun _ hr => by cases hr

end Container

section Receivers

variable [LinearOrder R]

theorem tryPop (r : R) :
    Triple (fun _ => True) (Fixed (SameKind start) C s policy l)
      (ChunkReceiver.tryPop r : Exec S R (Option Nat))
      fun _ => Fixed (SameKind start) C s policy l := by
  refine receiver_bind fun d hd => ?_
  cases hpop : d.queue.pop with
  | none => exact Triple.pure fun _ hw => hw
  | some p =>
    obtain ⟨m, queue⟩ := p
    have hkind : SameKind start r { d with queue := queue } :=
      ⟨hd.1, hd.2.1, (VariantQueue.pop_type hpop).trans hd.2.2⟩
    refine Triple.bind (setReceiver hkind) fun _ => ?_
    refine Triple.bind
      (Triple.get (R := fun _ => Fixed (SameKind start) C s policy l) fun _ hw => hw)
      fun w => ?_
    simp only
    split
    · exact Triple.bind onMemory fun _ => Triple.pure fun _ hw => hw
    · exact Triple.bind onMemory fun _ => Triple.bind onMemory fun _ => Triple.pure fun _ hw => hw

theorem insertChunk (r : R) (m : Nat) :
    Triple (fun _ => True) (Fixed (SameKind start) C s policy l)
      (ChunkReceiver.insertChunk r m : Exec S R Bool)
      fun _ => Fixed (SameKind start) C s policy l :=
  receiver_bind fun _ hd => Triple.bind onMemory fun _ => Triple.bind (setReceiver hd) fun _ =>
    Triple.pure fun _ hw => hw

theorem tryGet (r : R) :
    Triple (fun _ => True) (Fixed (SameKind start) C s policy l)
      (ChunkReceiver.tryGet r : Exec S R _) fun _ => Fixed (SameKind start) C s policy l := by
  refine Triple.bind (tryPop r) fun chunk => ?_
  cases chunk with
  | none => exact Triple.pure fun _ hw => hw
  | some m =>
    refine Triple.bind onMemory fun _ => Triple.bind onMemory fun _ =>
      Triple.bind (insertChunk r m) fun inserted => ?_
    refine Triple.bind
      (Triple.get (R := fun _ => Fixed (SameKind start) C s policy l) fun _ hw => hw)
      fun w => ?_
    refine Triple.bind onMemory fun _ => Triple.bind onMemory fun _ => ?_
    cases inserted <;> exact Triple.pure fun _ hw => hw

theorem release (r : R) (chunkHeader : Nat) :
    Triple (fun _ => True) (Fixed (SameKind start) C s policy l)
      (ChunkReceiver.release r chunkHeader : Exec S R PUnit)
      fun _ => Fixed (SameKind start) C s policy l :=
  receiver_bind fun _ hd => Triple.bind onMemory fun p => Triple.bind (setReceiver hd) fun _ =>
    destroy? p.1

theorem clear (r : R) :
    Triple (fun _ => True) (Fixed (SameKind start) C s policy l)
      (ChunkReceiver.clear r : Exec S R PUnit)
      fun _ => Fixed (SameKind start) C s policy l :=
  receiver_bind fun _ hd => Triple.bind (setReceiver hd) fun _ =>
    Triple.forM_mem _ fun _ _ => onMemory

end Receivers

end Fixed

namespace ChunkDistributor

section Lookup

variable {uniqueId : R → Nat} {queues : List R} {uniqueQueueId lastKnownQueueIndex : Nat}

theorem getQueueIndex_some {i : Nat}
    (h : getQueueIndex uniqueId queues uniqueQueueId lastKnownQueueIndex = some i) :
    ∃ r, queues[i]? = some r ∧ uniqueId r = uniqueQueueId := by
  unfold getQueueIndex at h
  split at h
  · next hknown =>
    cases h
    cases hr : queues[lastKnownQueueIndex]? with
    | none =>
      rw [hr] at hknown
      cases hknown
    | some r =>
      rw [hr] at hknown
      exact ⟨r, rfl, by simpa using hknown⟩
  · obtain ⟨hlt, hid, -⟩ := List.findIdx?_eq_some_iff_getElem.mp h
    exact ⟨queues[i], List.getElem?_eq_getElem hlt, by simpa using hid⟩

theorem getQueueIndex_none
    (h : getQueueIndex uniqueId queues uniqueQueueId lastKnownQueueIndex = none) :
    ∀ r ∈ queues, uniqueId r ≠ uniqueQueueId := by
  unfold getQueueIndex at h
  split at h
  · cases h
  · intro r hr hid
    have := List.findIdx?_eq_none_iff.mp h r hr
    simp [hid] at this

theorem findQueue_some {w : World S R} {d : ChunkSenderData R}
    {uniqueQueueId lastKnownQueueIndex : Nat} {r : R}
    (h : findQueue w d uniqueQueueId lastKnownQueueIndex = some r) :
    r ∈ d.queues ∧ (w.receivers r).uniqueId = uniqueQueueId := by
  obtain ⟨i, hi, hr⟩ := Option.bind_eq_some_iff.mp h
  obtain ⟨r', hr', hid⟩ := getQueueIndex_some hi
  obtain rfl : r' = r := Option.some.inj (hr'.symm.trans hr)
  exact ⟨List.mem_of_getElem? hr, hid⟩

theorem findQueue_none {w : World S R} {d : ChunkSenderData R}
    {uniqueQueueId lastKnownQueueIndex : Nat}
    (h : findQueue w d uniqueQueueId lastKnownQueueIndex = none) :
    ∀ r ∈ d.queues, (w.receivers r).uniqueId ≠ uniqueQueueId := by
  cases hi : getQueueIndex (fun r => (w.receivers r).uniqueId) d.queues uniqueQueueId
      lastKnownQueueIndex with
  | none => exact getQueueIndex_none hi
  | some i =>
    obtain ⟨r, hr, -⟩ := getQueueIndex_some hi
    simp only [findQueue, hi, Option.bind_some, hr] at h
    cases h

end Lookup

variable [LinearOrder R]

/-- A round of the loop of `deliverToQueue` once the queue is found; there is no result if
another round is needed. -/
def deliverFound (isBlockingQueue : Bool) (queue : R) (chunk : Nat) :
    Exec S R (Option (Except ChunkDistributorError Unit)) := do
  copy chunk
  let pushed ← pushToQueue queue chunk
  if pushed then pure (some (.ok ()))
  else if isBlockingQueue then pure none
  else do
    lostAChunk queue
    pure (some (.ok ()))

def deliverSection (s : S) (uniqueQueueId lastKnownQueueIndex chunk : Nat) :
    Exec S R (Option (Except ChunkDistributorError Unit)) := do
  let d ← sender s
  let w ← get
  match findQueue w d uniqueQueueId lastKnownQueueIndex with
  | none => pure (some (.error .queueNotInContainer))
  | some r => deliverFound (waitsFor w d r) r chunk

theorem deliverSection_apply (s : S) (uniqueQueueId lastKnownQueueIndex chunk : Nat)
    (w : World S R) :
    deliverSection s uniqueQueueId lastKnownQueueIndex chunk w =
      match findQueue w (w.senders s) uniqueQueueId lastKnownQueueIndex with
      | none => .ok (some (.error .queueNotInContainer), w)
      | some r => deliverFound (waitsFor w (w.senders s) r) r chunk w := by
  change (match findQueue w (w.senders s) uniqueQueueId lastKnownQueueIndex with
    | none => pure (some (Except.error .queueNotInContainer))
    | some r => deliverFound (waitsFor w (w.senders s) r) r chunk : Exec S R _) w = _
  cases findQueue w (w.senders s) uniqueQueueId lastKnownQueueIndex with
  | none => rfl
  | some r => rfl

theorem deliverToQueueLoop_succ (s : S)
    (uniqueQueueId lastKnownQueueIndex chunk patience : Nat) :
    (deliverToQueueLoop s uniqueQueueId lastKnownQueueIndex chunk (patience + 1) : Exec S R _) =
      deliverSection s uniqueQueueId lastKnownQueueIndex chunk >>= fun result =>
        match result with
        | some result => pure result
        | none => deliverToQueueLoop s uniqueQueueId lastKnownQueueIndex chunk patience := by
  simp only [deliverToQueueLoop, deliverSection, deliverFound, bind_assoc]
  congr 1
  funext d
  congr 1
  funext w
  cases findQueue w d uniqueQueueId lastKnownQueueIndex with
  | none => rfl
  | some r =>
    simp only [bind_assoc]
    congr 1
    funext _
    congr 1
    funext pushed
    cases pushed with
    | true => rfl
    | false =>
      simp only [Bool.false_eq_true, if_false]
      cases waitsFor w d r with
      | true => rfl
      | false => simp only [Bool.false_eq_true, if_false, bind_assoc, pure_bind]

end ChunkDistributor

def At (A : S → ChunkSenderData R) (B : R → ChunkReceiverData) (w : World S R) : Prop :=
  w.senders = A ∧ w.receivers = B

namespace At

variable {A : S → ChunkSenderData R} {B : R → ChunkReceiverData} {T : Type} {m : Nat} {r : R}

theorem onMemory {x : Prog Halt MemoryManager T} :
    Triple (fun _ => True) (At A B) (Exec.onMemory x : Exec S R T) fun _ => At A B := by
  refine Triple.focus fun w hw => ?_
  cases x w.memory with
  | ok p => exact hw
  | error e => trivial

theorem destroy? (o : Option Nat) :
    Triple (fun _ => True) (At A B) (Exec.destroy? o : Exec S R PUnit) fun _ => At A B := by
  cases o with
  | none => exact Triple.pure fun _ hw => hw
  | some m => exact onMemory

theorem receiver_bind {f : ChunkReceiverData → Exec S R T} {Q : T → World S R → Prop}
    (h : Triple (fun _ => True) (At A B) (f (B r)) Q) :
    Triple (fun _ => True) (At A B) (receiver r >>= f) Q := by
  rintro w ⟨rfl, rfl⟩
  exact h w ⟨rfl, rfl⟩

theorem setReceiver [DecidableEq R] (d : ChunkReceiverData) :
    Triple (fun _ => True) (At A B) (Exec.setReceiver r d : Exec S R Unit)
      fun _ => At A (Function.update B r d) := by
  rintro w ⟨rfl, rfl⟩
  exact ⟨rfl, rfl⟩

variable [LinearOrder R]

theorem push :
    Triple (fun _ => True) (At A B) (ChunkDistributor.push r m : Exec S R Bool) fun pushed w =>
      ∃ pushRet queue, (B r).queue.push m = some (pushRet, queue) ∧ pushed = pushRet.isNone ∧
        At A (Function.update B r { B r with queue := queue }) w := by
  refine Triple.bind onMemory fun _ => receiver_bind ?_
  cases hpush : (B r).queue.push m with
  | none => exact Triple.throw trivial
  | some p =>
    obtain ⟨pushRet, queue⟩ := p
    refine Triple.bind (setReceiver _) fun _ => Triple.bind (destroy? pushRet) fun _ =>
      Triple.bind onMemory fun _ => Triple.pure fun _ hw => ?_
    exact ⟨pushRet, queue, rfl, rfl, hw⟩

theorem pushToQueue :
    Triple (fun _ => True) (At A B) (ChunkDistributor.pushToQueue r m : Exec S R Bool)
      fun pushed w => ∃ pushRet queue, (B r).queue.push m = some (pushRet, queue) ∧
        pushed = pushRet.isNone ∧ At A (Function.update B r { B r with queue := queue }) w := by
  refine Triple.bind onMemory fun _ => Triple.bind push fun pushed => ?_
  refine Triple.exists fun pushRet => Triple.exists fun queue => Triple.assume fun hpush =>
    Triple.assume fun hpushed => ?_
  exact Triple.bind onMemory fun _ => Triple.pure fun _ hw => ⟨pushRet, queue, hpush, hpushed, hw⟩

theorem deliverFound (isBlockingQueue : Bool) :
    Triple (fun _ => True) (At A B)
      (ChunkDistributor.deliverFound isBlockingQueue r m : Exec S R _) fun result w =>
        ∃ pushRet queue, (B r).queue.push m = some (pushRet, queue) ∧
          result = (if pushRet.isSome ∧ isBlockingQueue then none else some (.ok ())) ∧
          (w.receivers r).queue = queue ∧ ∀ r', r' ≠ r → w.receivers r' = B r' := by
  refine Triple.bind onMemory fun _ => Triple.bind pushToQueue fun pushed => ?_
  refine Triple.exists fun pushRet => Triple.exists fun queue => Triple.assume fun hpush =>
    Triple.assume fun hpushed => ?_
  subst hpushed
  have hqueue : ∀ w, At A (Function.update B r { B r with queue := queue }) w →
      (w.receivers r).queue = queue ∧ ∀ r', r' ≠ r → w.receivers r' = B r' := by
    rintro w ⟨-, hw⟩
    rw [hw]
    exact ⟨by rw [Function.update_self], fun r' hr' => Function.update_of_ne hr' _ _⟩
  cases pushRet with
  | none => exact Triple.pure fun w hw => ⟨none, queue, hpush, by simp, hqueue w hw⟩
  | some overflow =>
    cases isBlockingQueue with
    | true => exact Triple.pure fun w hw => ⟨some overflow, queue, hpush, by simp, hqueue w hw⟩
    | false =>
      refine Triple.bind (receiver_bind (setReceiver _)) fun _ => Triple.pure fun w hw => ?_
      refine ⟨some overflow, queue, hpush, by simp, ?_, ?_⟩
      · rw [hw.2, Function.update_self, Function.update_self]
      · intro r' hr'
        rw [hw.2, Function.update_of_ne hr', Function.update_of_ne hr']

end At

variable [LinearOrder R]

theorem Fixed.deliverFound {start : R → ChunkReceiverData} {C : R → Prop} {s : S}
    {policy : ConsumerTooSlowPolicy} {l : UsedChunkList} (isBlockingQueue : Bool) (r : R)
    (m : Nat) :
    Triple (fun _ => True) (Fixed (SameKind start) C s policy l)
      (ChunkDistributor.deliverFound isBlockingQueue r m : Exec S R _)
      fun _ => Fixed (SameKind start) C s policy l := by
  refine Triple.bind onMemory fun _ => Triple.bind (pushToQueue r m) fun pushed => ?_
  cases pushed with
  | true => exact Triple.pure fun _ hw => hw
  | false =>
    cases isBlockingQueue with
    | true => exact Triple.pure fun _ hw => hw
    | false =>
      refine Triple.bind (receiver_bind fun _ hd => setReceiver hd) fun _ => ?_
      exact Triple.pure fun _ hw => hw

theorem ChunkDistributor.deliverFound_triple [Fintype S] [Fintype R] {E : Halt → Prop}
    {Γ : List (Nat × Nat)} {A : S → ChunkSenderData R} {H : Nat → Nat} {L : Multiset Nat} {m : Nat}
    (hE : E .blocked)
    (isBlockingQueue : Bool) (r : R) :
    Triple E (Held Γ A H (m ::ₘ L)) (deliverFound isBlockingQueue r m : Exec S R _)
      fun _ => Held Γ A H (m ::ₘ L) := by
  refine Triple.exists fun B => Triple.bind (copy_triple (by simp)) fun _ => ?_
  refine Triple.bind ((pushToQueue_triple hE r).pre fun w hw => ⟨_, hw⟩) fun pushed => ?_
  cases pushed with
  | true => exact Triple.pure fun w hw => hw
  | false =>
    cases isBlockingQueue with
    | true => exact Triple.pure fun w hw => hw
    | false => exact Triple.bind (lostAChunk_triple r) fun _ => Triple.pure fun w hw => hw

inductive ServerSendError
  | notOffered
  | clientNotAvailable
  | invalidResponse
  deriving DecidableEq, Repr

structure ResponseHeader where
  chunkHeader : Nat
  uniqueClientQueueId : Nat
  lastKnownClientQueueIndex : Nat

theorem VariantQueue.push_rejected {A : Type} {q q' : VariantQueue A} {value : A}
    {overflow : Option A} (h : q.push value = some (overflow, q'))
    (hrejected : overflow.isSome = true ∧ q.type.isFiFo = true) : q'.elements = q.elements := by
  rcases push_elements h with ⟨-, -, heq⟩ | ⟨hnone, -⟩ | ⟨htype, -⟩
  · exact heq
  · rw [hnone] at hrejected
    cases hrejected.1
  · rw [hrejected.2] at htype
    cases htype

theorem VariantQueue.push_taken {A : Type} {q q' : VariantQueue A} {value : A}
    {overflow : Option A} (h : q.push value = some (overflow, q'))
    (htaken : ¬ (overflow.isSome = true ∧ q.type.isFiFo = true)) :
    q'.elements <:+ q.elements ++ [value] ∧ (0 < q.capacity → value ∈ q'.elements) := by
  refine ⟨?_, fun hcapacity => ?_⟩
  · rcases push_elements h with ⟨hsome, htype, -⟩ | ⟨-, heq⟩ | ⟨-, hsuffix⟩
    · exact absurd ⟨hsome, htype⟩ htaken
    · rw [heq]
    · exact hsuffix
  · have hlast : value ∈ q.elements ++ [value] :=
      List.mem_append_right _ (List.mem_singleton_self value)
    unfold push at h
    split at h
    · next htype =>
      split at h
      · cases h
        exact hlast
      · cases h
        exact absurd ⟨rfl, by rw [htype]; rfl⟩ htaken
    · next htype =>
      split at h
      · cases h
        exact hlast
      · cases h
        exact absurd ⟨rfl, by rw [htype]; rfl⟩ htaken
    · split at h
      · cases h
        exact hlast
      · next hfull =>
        cases hq : q.elements with
        | nil =>
          rw [hq] at hfull
          exact absurd hcapacity (by simpa using hfull)
        | cons oldest rest =>
          rw [hq] at h
          cases h
          exact List.mem_append_right _ (List.mem_singleton_self value)
    · split at h
      · cases h
        exact hlast
      · split at h
        · cases h
          exact List.mem_append_right _ (List.mem_singleton_self value)
        · cases h

namespace Response

inductive Pc
  | called
  | release
  | found (queueIndex : Nat)
  | deliver (queueIndex chunk : Nat)
  | delivered (chunk : Nat) (success : Bool)
  | returned (result : Except ServerSendError Unit)
  deriving DecidableEq

def Pc.afterSection (queueIndex chunk : Nat) : Option (Except ChunkDistributorError Unit) → Pc
  | some result => .delivered chunk result.isOk
  | none => .deliver queueIndex chunk

inductive Act (R : Type)
  | advance
  | tryAddQueue (queueToAdd : R) (requestedHistory : Nat)
  | tryRemoveQueue (queueToRemove : R)
  | removeAllQueues
  | sortQueues
  | tryGet (queue : R)
  | release (queue : R) (chunkHeader : Nat)
  | clear (queue : R)
  deriving DecidableEq

end Response

/-- `stored` records for every section that looks for the queue whether it was in the
container, and `put` the queues that the chunk was put into. -/
structure Response (S R : Type) where
  world : World S R
  pc : Response.Pc
  stored : List Bool
  put : List R

namespace Response

def start (w : World S R) : Response S R where
  world := w
  pc := .called
  stored := []
  put := []

/-- RouDi connects a client only if its queue does not wait for a server that does not. -/
def isCompatible (policy : ConsumerTooSlowPolicy) (d : ChunkReceiverData) : Bool :=
  ¬ (policy = .discardOldestData ∧ d.queueFullPolicy = .blockProducer)

def isStored (server : S) (uniqueClientQueueId : Nat) (w : World S R) : Bool :=
  (w.senders server).queues.any fun r => (w.receivers r).uniqueId = uniqueClientQueueId

def takenBy (server : S) (header : ResponseHeader) (queueIndex chunk : Nat) (w : World S R) :
    List R :=
  match ChunkDistributor.findQueue w (w.senders server) header.uniqueClientQueueId queueIndex with
  | none => []
  | some r =>
    match (w.receivers r).queue.push chunk with
    | none => []
    | some (pushRet, _) =>
      if pushRet.isSome ∧ (w.receivers r).queue.type.isFiFo then [] else [r]

section Steps

variable [DecidableEq S]

def exec {T : Type} (s : Response S R) (x : Exec S R T) (next : T → World S R → Response S R) :
    Option (Response S R) :=
  match x s.world with
  | .error _ => none
  | .ok (a, w) => some (next a w)

def onWorld {T : Type} (s : Response S R) (x : Exec S R T) : Option (Response S R) :=
  s.exec x fun _ w => { s with world := w }

/-- The first part of `sendToQueue`: the chunk, of which the parameter of `deliverToQueue` is
another copy. -/
def takeChunk (server : S) (chunkHeader : Nat) : Exec S R (Option Nat) := do
  let chunk ← ChunkSender.getChunkReadyForSend server chunkHeader
  match chunk with
  | none => pure none
  | some m => do
    copy m
    pure (some m)

def sortQueues (server : S) : Exec S R Unit := do
  let d ← sender server
  setSender server { d with queues := d.queues.insertionSort (· ≤ ·) }

def advance (server : S) (offeringRequested : Bool) (header : ResponseHeader)
    (s : Response S R) : Option (Response S R) :=
  match s.pc with
  | .called =>
    if offeringRequested then
      let queues := (s.world.senders server).queues
      some { s with
        stored := s.stored ++ [isStored server header.uniqueClientQueueId s.world]
        pc := match ChunkDistributor.getQueueIndex (fun r => (s.world.receivers r).uniqueId) queues
            header.uniqueClientQueueId header.lastKnownClientQueueIndex with
          | some queueIndex => .found queueIndex
          | none => .release }
    else
      s.exec (ChunkSender.release server header.chunkHeader) fun _ w =>
        { s with
          world := w
          pc := .returned (.error .notOffered) }
  | .release =>
    s.exec (ChunkSender.release server header.chunkHeader) fun _ w =>
      { s with
        world := w
        pc := .returned (.error .clientNotAvailable) }
  | .found queueIndex =>
    s.exec (takeChunk server header.chunkHeader) fun chunk w =>
      { s with
        world := w
        pc := match chunk with
          | some m => .deliver queueIndex m
          | none => .returned (.error .clientNotAvailable) }
  | .deliver queueIndex m =>
    s.exec (ChunkDistributor.deliverSection server header.uniqueClientQueueId queueIndex m)
      fun result w =>
        { s with
          world := w
          stored := s.stored ++ [isStored server header.uniqueClientQueueId s.world]
          put := s.put ++ takenBy server header queueIndex m s.world
          pc := .afterSection queueIndex m result }
  | .delivered m success =>
    s.exec (do
      -- the parameter of `deliverToQueue`
      destroy m
      ChunkSender.storeLastChunk server m
      destroy m) fun _ w =>
      { s with
        world := w
        pc := .returned (if success then .ok () else .error .clientNotAvailable) }
  | .returned _ => none

def step (server : S) (offeringRequested : Bool) (header : ResponseHeader) (s : Response S R) :
    Act R → Option (Response S R)
  | .advance => s.advance server offeringRequested header
  | .tryAddQueue queueToAdd requestedHistory =>
    if isCompatible (s.world.senders server).consumerTooSlowPolicy
        (s.world.receivers queueToAdd) then
      s.onWorld (ChunkDistributor.tryAddQueue server queueToAdd requestedHistory)
    else none
  | .tryRemoveQueue queueToRemove =>
    s.onWorld (ChunkDistributor.tryRemoveQueue server queueToRemove)
  | .removeAllQueues => s.onWorld (ChunkDistributor.removeAllQueues server)
  | .sortQueues => s.onWorld (sortQueues server)
  | .tryGet queue => s.onWorld (ChunkReceiver.tryGet queue)
  | .release queue chunkHeader => s.onWorld (ChunkReceiver.release queue chunkHeader)
  | .clear queue => s.onWorld (ChunkReceiver.clear queue)

end Steps

section Programs

variable [DecidableEq S] [Fintype S] [Fintype R] {K : R → ChunkReceiverData → Prop}
  {C : R → Prop} {server : S} {policy : ConsumerTooSlowPolicy} {l : UsedChunkList}
  {Γ : List (Nat × Nat)} {H : Nat → Nat} {L : Multiset Nat} {chunkHeader m : Nat}

def Keeps (Γ : List (Nat × Nat)) (H : Nat → Nat) (L : Multiset Nat)
    (K : R → ChunkReceiverData → Prop) (C : R → Prop) (server : S)
    (policy : ConsumerTooSlowPolicy) (l : UsedChunkList) (w : World S R) : Prop :=
  Owes Γ H L w ∧ Fixed K C server policy l w

omit [LinearOrder R] [DecidableEq S] in
theorem Keeps.same {w : World S R} (h : Keeps Γ H L K C server policy l w) :
    Keeps Γ H L (fun r d => d = w.receivers r) C server policy l w :=
  ⟨h.1, h.2.chunksInUse, h.2.policy, h.2.queues, fun _ => rfl⟩

omit [LinearOrder R] [DecidableEq S] in
theorem Keeps.of_same {w w' : World S R} (h : ∀ r, K r (w.receivers r))
    (hsame : Keeps Γ H L (fun r d => d = w.receivers r) C server policy l w') :
    w'.receivers = w.receivers ∧ Keeps Γ H L K C server policy l w' := by
  have hreceivers : w'.receivers = w.receivers := funext hsame.2.receivers
  refine ⟨hreceivers, hsame.1, hsame.2.chunksInUse, hsame.2.policy, hsame.2.queues, fun r => ?_⟩
  rw [hreceivers]
  exact h r

omit [LinearOrder R] [DecidableEq S] in
theorem keeps_destroy : Triple (fun _ => True) (Keeps Γ H (m ::ₘ L) K C server policy l)
    (destroy m : Exec S R PUnit) fun _ => Keeps Γ H L K C server policy l := by
  refine Triple.and ?_ Fixed.onMemory
  refine Triple.exists fun A => Triple.exists fun B => ?_
  exact destroy_triple.post fun _ w hw => ⟨_, _, hw⟩

omit [LinearOrder R] [DecidableEq S] in
theorem keeps_copy : Triple (fun _ => True) (Keeps Γ H (m ::ₘ L) K C server policy l)
    (copy m : Exec S R PUnit) fun _ => Keeps Γ H (m ::ₘ m ::ₘ L) K C server policy l :=
  Triple.and ChunkSender.copy_owed Fixed.onMemory

omit [LinearOrder R] in
theorem removeChunk_keeps (hm : m ∈ l.slots) (hheader : H m = chunkHeader) :
    Triple (fun _ => True) (Keeps Γ H L K C server policy l)
      (ChunkSender.removeChunk server chunkHeader : Exec S R _) fun chunk w =>
        chunk = some m ∧ ∃ l', l.slots = m ::ₘ l'.slots ∧
          Keeps Γ H (m ::ₘ L) K C server policy l' w := by
  rintro w ⟨⟨A, B, hbooks⟩, hfixed⟩
  obtain rfl := hbooks.senders
  obtain rfl := hbooks.receivers
  have hmem : ∀ m ∈ l.slots, m ∈ L + slots w.senders w.receivers := by
    intro m hm
    refine Multiset.mem_add.mpr (Or.inr (mem_slots_sender (s := server) ?_))
    rw [← hfixed.chunksInUse] at hm
    exact Multiset.mem_add.mpr (Or.inl (Multiset.mem_add.mpr (Or.inr hm)))
  refine (ChunkSender.removeChunk_books server chunkHeader w hbooks).mono fun chunk w' hw' => ?_
  obtain ⟨-, hne, -⟩ | ⟨m', l', rfl, hheader', hslots, hw'⟩ := hw'
  · rw [hfixed.chunksInUse] at hne
    exact absurd hheader (hne m hm)
  · rw [hfixed.chunksInUse] at hslots
    have hm' : m' ∈ l.slots := by
      rw [hslots]
      exact Multiset.mem_cons_self m' _
    obtain rfl : m = m' := hbooks.ledger.unique m (hmem m hm) m' (hmem m' hm')
      (hheader.trans hheader'.symm)
    refine ⟨rfl, l', hslots, ⟨_, _, hw'⟩, ?_, ?_, ?_, ?_⟩
    · rw [hw'.senders, Function.update_self]
    · rw [hw'.senders, Function.update_self]
      exact hfixed.policy
    · rw [hw'.senders, Function.update_self]
      exact hfixed.queues
    · rw [hw'.receivers]
      exact hfixed.receivers

omit [LinearOrder R] in
theorem release_keeps (hm : m ∈ l.slots) (hheader : H m = chunkHeader) :
    Triple (fun _ => True) (Keeps Γ H L K C server policy l)
      (ChunkSender.release server chunkHeader : Exec S R PUnit) fun _ w =>
        ∃ l', l.slots = m ::ₘ l'.slots ∧ Keeps Γ H L K C server policy l' w := by
  refine Triple.bind (removeChunk_keeps hm hheader) fun chunk => ?_
  refine Triple.assume fun hchunk => Triple.exists fun l' => Triple.assume fun hslots => ?_
  rw [hchunk]
  exact keeps_destroy.post fun _ w hw => ⟨l', hslots, hw⟩

omit [LinearOrder R] in
theorem takeChunk_keeps (hm : m ∈ l.slots) (hheader : H m = chunkHeader) :
    Triple (fun _ => True) (Keeps Γ H L K C server policy l)
      (takeChunk server chunkHeader : Exec S R (Option Nat)) fun chunk w =>
        chunk = some m ∧ ∃ l', l.slots = m ::ₘ l'.slots ∧
          Keeps Γ H (m ::ₘ m ::ₘ L) K C server policy l' w := by
  have hready : Triple (fun _ => True) (Keeps Γ H L K C server policy l)
      (ChunkSender.getChunkReadyForSend server chunkHeader : Exec S R (Option Nat)) fun chunk w =>
        chunk = some m ∧ ∃ l', l.slots = m ::ₘ l'.slots ∧
          Keeps Γ H (m ::ₘ L) K C server policy l' w := by
    refine Triple.bind (removeChunk_keeps hm hheader) fun chunk => ?_
    refine Triple.assume fun hchunk => Triple.exists fun l' => Triple.assume fun hslots => ?_
    rw [hchunk]
    have hbooks : Triple (fun _ => True) (Owes Γ H (m ::ₘ L)) (do
        let d ← sender server
        modifyHeader m fun h => { h with sequenceNumber := d.sequenceNumber }
        setSender server { d with sequenceNumber := d.sequenceNumber + 1 }
        pure (some m) : Exec S R _) fun _ => Owes Γ H (m ::ₘ L) := by
      refine Triple.exists fun A => Triple.exists fun B => sender_bind ?_
      refine Triple.bind (modifyHeader_triple m _) fun _ => Books.lists fun hok _ => ?_
      refine Triple.bind (setSender_triple ?_ ?_) fun _ => Triple.pure fun w hw => ⟨_, _, hw⟩
      · exact hok server
      · rfl
    have hfixed : Triple (fun _ => True) (Fixed K C server policy l') (do
        let d ← sender server
        modifyHeader m fun h => { h with sequenceNumber := d.sequenceNumber }
        setSender server { d with sequenceNumber := d.sequenceNumber + 1 }
        pure (some m) : Exec S R _) fun chunk w =>
          chunk = some m ∧ Fixed K C server policy l' w := by
      refine Fixed.sender_bind fun d hl hpolicy hqueues => ?_
      have hheader : Triple (fun _ => True) (Fixed K C server policy l')
          (modifyHeader m fun h => { h with sequenceNumber := d.sequenceNumber })
          fun _ => Fixed K C server policy l' :=
        fun w hw => ⟨hw.chunksInUse, hw.policy, hw.queues, hw.receivers⟩
      refine Triple.bind hheader fun _ => Triple.bind (Fixed.setSender hl hpolicy hqueues)
        fun _ => Triple.pure fun w hw => ⟨rfl, hw⟩
    exact (hbooks.and hfixed).post fun _ w hw => ⟨hw.2.1, l', hslots, hw.1, hw.2.2⟩
  refine Triple.bind hready fun chunk => ?_
  refine Triple.assume fun hchunk => Triple.exists fun l' => Triple.assume fun hslots => ?_
  rw [hchunk]
  exact Triple.bind keeps_copy fun _ => Triple.pure fun w hw => ⟨rfl, l', hslots, hw⟩

omit [LinearOrder R] in
theorem finish_keeps :
    Triple (fun _ => True) (Keeps Γ H (m ::ₘ m ::ₘ L) K C server policy l) (do
      destroy m
      ChunkSender.storeLastChunk server m
      destroy m : Exec S R PUnit) fun _ => Keeps Γ H L K C server policy l := by
  have hrelease : Triple (fun _ => True) (Fixed K C server policy l)
      (ChunkSender.releaseLastChunk server : Exec S R PUnit)
      fun _ => Fixed K C server policy l :=
    Fixed.sender_bind fun d hl hpolicy hqueues =>
      Triple.bind (Fixed.setSender hl hpolicy hqueues) fun _ => Fixed.destroy? _
  have hstore : Triple (fun _ => True) (Fixed K C server policy l)
      (ChunkSender.storeLastChunk server m : Exec S R Unit) fun _ => Fixed K C server policy l :=
    Triple.bind hrelease fun _ => Triple.bind Fixed.onMemory fun _ =>
      Fixed.sender_bind fun d hl hpolicy hqueues => Fixed.setSender hl hpolicy hqueues
  exact Triple.bind keeps_destroy fun _ =>
    Triple.bind ((ChunkSender.storeLastChunk_triple server).and hstore) fun _ => keeps_destroy

end Programs

namespace Pc

def locals (m : Nat) : Pc → Multiset Nat
  | .deliver _ _ | .delivered _ _ => m ::ₘ m ::ₘ 0
  | _ => 0

def listed : Pc → Nat
  | .called | .release | .found _ => 1
  | _ => 0

def chunk : Pc → Option Nat
  | .deliver _ m | .delivered m _ => some m
  | _ => none

end Pc

def Puts (m : Nat) (s s' : Response S R) : Prop :=
  (s'.put = s.put ∧ ∀ r, (s'.world.receivers r).queue.elements =
    (s.world.receivers r).queue.elements) ∨
  ∃ r, s'.put = s.put ++ [r] ∧
    (∀ r', r' ≠ r → s'.world.receivers r' = s.world.receivers r') ∧
    (s'.world.receivers r).queue.elements <:+ (s.world.receivers r).queue.elements ++ [m] ∧
    (0 < (s.world.receivers r).queue.capacity → m ∈ (s'.world.receivers r).queue.elements)

def Outcome (uniqueId : R → Nat) (uniqueClientQueueId : Nat) (s : Response S R) : Prop :=
  match s.pc with
  | .called => s.stored = [] ∧ s.put = []
  | .found _ | .deliver _ _ => (∀ b ∈ s.stored, b = true) ∧ s.put = []
  | .delivered _ true | .returned (.ok _) =>
    (∀ b ∈ s.stored, b = true) ∧ ∃ r, s.put = [r] ∧ uniqueId r = uniqueClientQueueId
  | .release | .delivered _ false | .returned (.error .clientNotAvailable) =>
    false ∈ s.stored ∧ s.put = []
  | .returned (.error _) => False

variable [DecidableEq S] [Fintype S] [Fintype R]

structure Inv (server : S) (header : ResponseHeader) (w : World S R) (m : Nat)
    (Γ : List (Nat × Nat)) (H : Nat → Nat) (s : Response S R) : Prop where
  keeps : ∃ l, l.slots.count m = s.pc.listed ∧ Keeps Γ H (s.pc.locals m) (SameKind w.receivers)
    (fun r => isCompatible (w.senders server).consumerTooSlowPolicy (w.receivers r) = true) server
    (w.senders server).consumerTooSlowPolicy l s.world
  chunk : ∀ m', s.pc.chunk = some m' → m' = m
  outcome : s.Outcome (fun r => (w.receivers r).uniqueId) header.uniqueClientQueueId

variable {server : S} {header : ResponseHeader} {w : World S R} {m : Nat}
  {Γ : List (Nat × Nat)} {H : Nat → Nat} {s s' : Response S R}

omit [DecidableEq S] [Fintype S] [Fintype R] [LinearOrder R] in
theorem exec_eq_some {T : Type} {x : Exec S R T} {next : T → World S R → Response S R}
    (h : s.exec x next = some s') : ∃ a w, x s.world = .ok (a, w) ∧ s' = next a w := by
  unfold exec at h
  split at h
  · cases h
  · next a w hx => exact ⟨a, w, hx, (Option.some.inj h).symm⟩

namespace Inv

omit [DecidableEq S] [LinearOrder R] in
theorem onWorld (h : s.Inv server header w m Γ H) {T : Type} {x : Exec S R T}
    (howes : ∀ L, Triple (fun _ => True) (Owes Γ H L) x fun _ => Owes Γ H L)
    (hfixed : ∀ l, Triple (fun _ => True) (Fixed (SameKind w.receivers)
      (fun r => isCompatible (w.senders server).consumerTooSlowPolicy (w.receivers r) = true) server
      (w.senders server).consumerTooSlowPolicy l) x fun _ => Fixed (SameKind w.receivers)
      (fun r => isCompatible (w.senders server).consumerTooSlowPolicy (w.receivers r) = true) server
      (w.senders server).consumerTooSlowPolicy l)
    (hstep : s.onWorld x = some s') : s'.Inv server header w m Γ H := by
  obtain ⟨a, w', hx, rfl⟩ := exec_eq_some hstep
  obtain ⟨l, hl, hkeeps⟩ := h.keeps
  exact ⟨⟨l, hl, ((howes _).and (hfixed l)).of_ok hkeeps hx⟩, h.chunk, h.outcome⟩

omit [DecidableEq S] in
theorem advance_deliver (h : s.Inv server header w m Γ H)
    (hpaired : ∀ r, (w.receivers r).queueFullPolicy = .blockProducer ↔
      (w.receivers r).queue.type.isFiFo = true) {queueIndex m' : Nat}
    (hpc : s.pc = .deliver queueIndex m') {result : Option (Except ChunkDistributorError Unit)}
    {w' : World S R} (hx : ChunkDistributor.deliverSection server header.uniqueClientQueueId
      queueIndex m' s.world = .ok (result, w')) :
    Inv server header w m Γ H { s with
      world := w'
      stored := s.stored ++ [isStored server header.uniqueClientQueueId s.world]
      put := s.put ++ takenBy server header queueIndex m' s.world
      pc := .afterSection queueIndex m' result } := by
  obtain rfl : m' = m := h.chunk m' (by rw [hpc]; rfl)
  obtain ⟨l, hl, howes, hfixed⟩ := h.keeps
  obtain ⟨hstored, hput⟩ : (∀ b ∈ s.stored, b = true) ∧ s.put = [] := by
    have := h.outcome
    rwa [Outcome, hpc] at this
  rw [hpc] at hl howes
  rw [ChunkDistributor.deliverSection_apply] at hx
  cases hfind : ChunkDistributor.findQueue s.world (s.world.senders server)
      header.uniqueClientQueueId queueIndex with
  | none =>
    rw [hfind] at hx
    cases hx
    have hnone : isStored server header.uniqueClientQueueId s.world = false := by
      simpa [isStored] using ChunkDistributor.findQueue_none hfind
    refine ⟨⟨l, hl, howes, hfixed⟩, ?_, ?_, ?_⟩
    · rintro m' hm'
      exact (Option.some.inj hm').symm
    · simp [hnone]
    · simp [hput, takenBy, hfind]
  | some r =>
    rw [hfind] at hx
    obtain ⟨hmem, hid⟩ := ChunkDistributor.findQueue_some hfind
    obtain ⟨hsame, hpolicy, htype⟩ := hfixed.receivers r
    have hfixed' := (Fixed.deliverFound _ r m').of_ok hfixed hx
    have howes' : Owes Γ H (m' ::ₘ m' ::ₘ 0) w' := by
      obtain ⟨A, hheld⟩ := howes
      exact ⟨A,
        (ChunkDistributor.deliverFound_triple (E := fun _ => True) trivial _ r).of_ok hheld hx⟩
    obtain ⟨pushRet, queue, hpush, hresult, -, -⟩ := (At.deliverFound _).of_ok ⟨rfl, rfl⟩ hx
    have hyes : isStored server header.uniqueClientQueueId s.world = true := by
      simp only [isStored, List.any_eq_true, decide_eq_true_eq]
      exact ⟨r, hmem, hid⟩
    have hall : ∀ b ∈ s.stored ++ [true], b = true := by
      intro b hb
      rcases List.mem_append.mp hb with hb | hb
      · exact hstored b hb
      · exact List.mem_singleton.mp hb
    -- a full queue that blocks is tried again, and every other queue takes the chunk
    have hblocks : ChunkDistributor.waitsFor s.world (s.world.senders server) r = true ↔
        (s.world.receivers r).queue.type.isFiFo = true := by
      have hcompatible := hfixed.queues r hmem
      rw [htype, ← hpaired r]
      simp only [ChunkDistributor.waitsFor, hfixed.policy, hpolicy, decide_eq_true_eq,
        and_iff_right_iff_imp]
      intro hblock
      simp only [isCompatible, hblock, and_true, decide_eq_true_eq] at hcompatible
      cases hp : (w.senders server).consumerTooSlowPolicy with
      | waitForConsumer => rfl
      | discardOldestData => exact absurd hp hcompatible
    have htaken : takenBy server header queueIndex m' s.world =
        if pushRet.isSome ∧ ChunkDistributor.waitsFor s.world (s.world.senders server) r = true
          then [] else [r] := by
      simp only [takenBy, hfind, hpush, hblocks]
    rw [hyes, hput, htaken]
    split at hresult
    · next hretry =>
      subst hresult
      refine ⟨⟨l, hl, howes', hfixed'⟩, ?_, hall, ?_⟩
      · rintro m' hm'
        exact (Option.some.inj hm').symm
      · rw [if_pos hretry]
        rfl
    · next hdone =>
      subst hresult
      refine ⟨⟨l, hl, howes', hfixed'⟩, ?_, hall, r, ?_, hsame.symm.trans hid⟩
      · rintro m' hm'
        exact (Option.some.inj hm').symm
      · rw [if_neg hdone]
        rfl

omit [DecidableEq S] in
theorem puts_deliver (h : s.Inv server header w m Γ H) {queueIndex m' : Nat}
    (hpc : s.pc = .deliver queueIndex m') {result : Option (Except ChunkDistributorError Unit)}
    {w' : World S R} (hx : ChunkDistributor.deliverSection server header.uniqueClientQueueId
      queueIndex m' s.world = .ok (result, w')) {stored : List Bool} {pc : Pc} :
    Puts m s
      { world := w'
        stored := stored
        put := s.put ++ takenBy server header queueIndex m' s.world
        pc := pc } := by
  obtain rfl : m' = m := h.chunk m' (by rw [hpc]; rfl)
  rw [ChunkDistributor.deliverSection_apply] at hx
  cases hfind : ChunkDistributor.findQueue s.world (s.world.senders server)
      header.uniqueClientQueueId queueIndex with
  | none =>
    rw [hfind] at hx
    cases hx
    exact .inl ⟨by simp [takenBy, hfind], fun _ => rfl⟩
  | some r =>
    rw [hfind] at hx
    obtain ⟨pushRet, queue, hpush, -, hqueue, hframe⟩ := (At.deliverFound _).of_ok ⟨rfl, rfl⟩ hx
    simp only [takenBy, hfind, hpush]
    split
    · next hrejected =>
      refine .inl ⟨List.append_nil _, fun r' => ?_⟩
      by_cases hr' : r' = r
      · subst hr'
        rw [hqueue]
        exact VariantQueue.push_rejected hpush hrejected
      · simp only [hframe r' hr']
    · next htaken =>
      refine .inr ⟨r, rfl, hframe, ?_⟩
      rw [hqueue]
      exact VariantQueue.push_taken hpush htaken

theorem advance (h : s.Inv server header w m Γ H)
    (hpaired : ∀ r, (w.receivers r).queueFullPolicy = .blockProducer ↔
      (w.receivers r).queue.type.isFiFo = true) (hheader : H m = header.chunkHeader)
    (hstep : s.advance server true header = some s') :
    s'.Inv server header w m Γ H ∧ Puts m s s' := by
  have houtcome := h.outcome
  obtain ⟨l, hl, hkeeps⟩ := h.keeps
  have hkind := hkeeps.2.receivers
  cases hpc : s.pc with
  | called =>
    simp only [Response.advance, hpc, if_true, Option.some.injEq] at hstep
    subst hstep
    rw [Outcome, hpc] at houtcome
    rw [hpc] at hl hkeeps
    refine ⟨?_, .inl ⟨rfl, fun _ => rfl⟩⟩
    cases hindex : ChunkDistributor.getQueueIndex (fun r => (s.world.receivers r).uniqueId)
        (s.world.senders server).queues header.uniqueClientQueueId
        header.lastKnownClientQueueIndex with
    | none =>
      have hnone : isStored server header.uniqueClientQueueId s.world = false := by
        simpa [isStored] using ChunkDistributor.getQueueIndex_none hindex
      exact ⟨⟨l, hl, hkeeps⟩, by simp [Pc.chunk], by simp [Outcome, hnone, houtcome.2]⟩
    | some i =>
      obtain ⟨r, hr, hid⟩ := ChunkDistributor.getQueueIndex_some hindex
      have hyes : isStored server header.uniqueClientQueueId s.world = true := by
        simp only [isStored, List.any_eq_true, decide_eq_true_eq]
        exact ⟨r, List.mem_of_getElem? hr, hid⟩
      exact ⟨⟨l, hl, hkeeps⟩, by simp [Pc.chunk], by simp [Outcome, hyes, houtcome]⟩
  | release =>
    simp only [Response.advance, hpc] at hstep
    obtain ⟨_, w', hx, rfl⟩ := exec_eq_some hstep
    rw [Outcome, hpc] at houtcome
    rw [hpc] at hl hkeeps
    have hm : m ∈ l.slots := Multiset.count_pos.mp (by rw [hl]; exact Nat.one_pos)
    obtain ⟨l', hslots, hsame⟩ := (release_keeps hm hheader).of_ok hkeeps.same hx
    obtain ⟨hreceivers, hkeeps'⟩ := hsame.of_same hkind
    refine ⟨⟨⟨l', ?_, hkeeps'⟩, nofun, houtcome⟩, .inl ⟨rfl, fun r => by simp only [hreceivers]⟩⟩
    rw [hslots, Multiset.count_cons_self] at hl
    exact Nat.succ.inj hl
  | found queueIndex =>
    simp only [Response.advance, hpc] at hstep
    obtain ⟨chunk, w', hx, rfl⟩ := exec_eq_some hstep
    rw [Outcome, hpc] at houtcome
    rw [hpc] at hl hkeeps
    have hm : m ∈ l.slots := Multiset.count_pos.mp (by rw [hl]; exact Nat.one_pos)
    obtain ⟨rfl, l', hslots, hsame⟩ := (takeChunk_keeps hm hheader).of_ok hkeeps.same hx
    obtain ⟨hreceivers, hkeeps'⟩ := hsame.of_same hkind
    refine ⟨⟨⟨l', ?_, hkeeps'⟩, ?_, houtcome⟩, .inl ⟨rfl, fun r => by simp only [hreceivers]⟩⟩
    · rw [hslots, Multiset.count_cons_self] at hl
      exact Nat.succ.inj hl
    · rintro m' hm'
      exact (Option.some.inj hm').symm
  | deliver queueIndex m' =>
    simp only [Response.advance, hpc] at hstep
    obtain ⟨result, w', hx, rfl⟩ := exec_eq_some hstep
    exact ⟨h.advance_deliver hpaired hpc hx, h.puts_deliver hpc hx⟩
  | delivered m' success =>
    simp only [Response.advance, hpc] at hstep
    obtain ⟨_, w', hx, rfl⟩ := exec_eq_some hstep
    obtain rfl : m' = m := h.chunk m' (by rw [hpc]; rfl)
    rw [Outcome, hpc] at houtcome
    rw [hpc] at hl hkeeps
    have hsame := (finish_keeps (L := 0) (m := m')).of_ok hkeeps.same hx
    obtain ⟨hreceivers, hkeeps'⟩ := hsame.of_same hkind
    refine ⟨⟨⟨l, ?_, ?_⟩, ?_, ?_⟩, .inl ⟨rfl, fun r => by simp only [hreceivers]⟩⟩
    · cases success <;> exact hl
    · cases success <;> exact hkeeps'
    · cases success <;> exact nofun
    · cases success <;> exact houtcome
  | returned result =>
    simp only [Response.advance, hpc] at hstep
    cases hstep

theorem step (h : s.Inv server header w m Γ H)
    (hpaired : ∀ r, (w.receivers r).queueFullPolicy = .blockProducer ↔
      (w.receivers r).queue.type.isFiFo = true) (hheader : H m = header.chunkHeader)
    {l : Act R} (hstep : s.step server true header l = some s') :
    s'.Inv server header w m Γ H := by
  cases l with
  | advance => exact (h.advance hpaired hheader hstep).1
  | tryAddQueue queueToAdd requestedHistory =>
    simp only [Response.step] at hstep
    split at hstep
    · next hcompatible =>
      refine h.onWorld (fun L => ChunkDistributor.tryAddQueue_triple trivial server queueToAdd
        requestedHistory) (fun l => Fixed.tryAddQueue ?_ requestedHistory) hstep
      obtain ⟨l, -, -, hfixed⟩ := h.keeps
      simp only [isCompatible, hfixed.policy, (hfixed.receivers queueToAdd).2.1] at hcompatible
      exact hcompatible
    · cases hstep
  | tryRemoveQueue queueToRemove =>
    exact h.onWorld (fun L => ChunkDistributor.tryRemoveQueue_triple server queueToRemove)
      (fun l => Fixed.tryRemoveQueue queueToRemove) hstep
  | removeAllQueues =>
    exact h.onWorld (fun L => ChunkDistributor.removeAllQueues_triple server)
      (fun l => Fixed.removeAllQueues) hstep
  | sortQueues =>
    refine h.onWorld (fun L => ?_) (fun l => ?_) hstep
    · refine Triple.exists fun A => Triple.exists fun B => sender_bind ?_
      exact (ChunkDistributor.setQueues_triple server _).post fun _ w hw => ⟨_, _, hw⟩
    · refine Fixed.sender_bind fun d hl hpolicy hqueues => Fixed.setSender hl hpolicy fun r hr => ?_
      exact hqueues r ((List.mem_insertionSort (· ≤ ·)).mp hr)
  | tryGet queue =>
    exact h.onWorld (fun L => ChunkReceiver.tryGet_triple queue) (fun l => Fixed.tryGet queue) hstep
  | release queue chunkHeader =>
    exact h.onWorld (fun L => ChunkReceiver.release_triple queue chunkHeader)
      (fun l => Fixed.release queue chunkHeader) hstep
  | clear queue =>
    refine h.onWorld (fun L => ?_) (fun l => Fixed.clear queue) hstep
    refine Triple.exists fun A => Triple.exists fun B => ?_
    exact (ChunkReceiver.clear_triple queue).post fun _ w hw => ⟨_, _, hw⟩

theorem run (h : s.Inv server header w m Γ H)
    (hpaired : ∀ r, (w.receivers r).queueFullPolicy = .blockProducer ↔
      (w.receivers r).queue.type.isFiFo = true) (hheader : H m = header.chunkHeader)
    {ls : List (Act R)} (hrun : runSteps (Response.step server true header) s ls = some s') :
    s'.Inv server header w m Γ H :=
  runSteps_invariant (C := fun _ _ => True) (fun _ _ _ hI _ hstep => hI.step hpaired hheader hstep)
    ls s s' h (meets_true ls s) hrun

end Inv

/-- A response goes to the queue that the header names, whatever happens to the container
between two sections, or to no queue at all, and the server keeps nothing back. -/
theorem responses_go_to_the_client (w : World S R) (hsettled : w.Settled)
    (hpaired : ∀ r, (w.receivers r).queueFullPolicy = .blockProducer ↔
      (w.receivers r).queue.type.isFiFo = true)
    (hcompatible : ∀ r ∈ (w.senders server).queues,
      isCompatible (w.senders server).consumerTooSlowPolicy (w.receivers r) = true)
    (hlist : (w.senders server).chunksInUse.slots.count m = 1)
    (hheader : (w.memory.blocks m).chunkHeader = header.chunkHeader) (ls : List (Act R))
    (hrun : runSteps (step server true header) (start w) ls = some s) :
    (∀ result, s.pc = .returned result →
      ((∀ b ∈ s.stored, b = true) → result = .ok () ∧ ∃ r, s.put = [r] ∧
        (w.receivers r).uniqueId = header.uniqueClientQueueId) ∧
      (false ∈ s.stored → result = .error .clientNotAvailable ∧ s.put = []) ∧
      m ∉ (s.world.senders server).chunksInUse.slots ∧ s.world.ReferencesAccounted) ∧
    ∀ s', s.step server true header .advance = some s' → Puts m s s' := by
  obtain ⟨Γ, H, A, B, hbooks⟩ := hsettled
  have howes : Owes Γ H 0 w := ⟨A, B, hbooks⟩
  obtain rfl := hbooks.senders
  have hm : m ∈ 0 + slots w.senders B := by
    refine Multiset.mem_add.mpr (Or.inr (mem_slots_sender (s := server) ?_))
    refine Multiset.mem_add.mpr (Or.inl (Multiset.mem_add.mpr (Or.inr ?_)))
    exact Multiset.count_pos.mp (by rw [hlist]; exact Nat.one_pos)
  have hH : H m = header.chunkHeader := (hbooks.ledger.header m hm).symm.trans hheader
  have hstart : (start w).Inv server header w m Γ H := by
    refine ⟨⟨_, hlist, howes, rfl, rfl, hcompatible, fun r => ⟨rfl, rfl, rfl⟩⟩, nofun, rfl, rfl⟩
  have h := hstart.run hpaired hH hrun
  refine ⟨fun result hpc => ?_, fun s' hstep => (h.advance hpaired hH hstep).2⟩
  have houtcome := h.outcome
  obtain ⟨l, hl, howes, hfixed⟩ := h.keeps
  rw [hpc] at hl howes
  refine ⟨?_, ?_, ?_, World.Settled.accounted ⟨Γ, H, howes⟩⟩
  · intro hall
    rw [Outcome, hpc] at houtcome
    cases result with
    | ok u => exact ⟨rfl, houtcome.2⟩
    | error e =>
      cases e with
      | clientNotAvailable => exact absurd (hall false houtcome.1) Bool.false_ne_true
      | notOffered => exact houtcome.elim
      | invalidResponse => exact houtcome.elim
  · intro hfalse
    rw [Outcome, hpc] at houtcome
    cases result with
    | ok u => exact absurd (houtcome.1 false hfalse) Bool.false_ne_true
    | error e =>
      cases e with
      | clientNotAvailable => exact ⟨rfl, houtcome.2⟩
      | notOffered => exact houtcome.elim
      | invalidResponse => exact houtcome.elim
  · rw [hfixed.chunksInUse]
    exact Multiset.count_eq_zero.mp hl

def connected : List (Op (Fin 1) (Fin 1)) := [World.allocate, .tryAddQueue 0 0 0]

def outdatedHeader : ResponseHeader where
  chunkHeader := 2 ^ 40
  uniqueClientQueueId := 1
  lastKnownClientQueueIndex := 3

def reconnect : List (Act (Fin 1)) :=
  [.advance, .tryRemoveQueue 0, .tryAddQueue 0 0, .sortQueues, .advance, .advance, .advance]

def respondAfter (mePooConfig : MePooConfig) (ops : List (Op (Fin 1) (Fin 1)))
    (header : ResponseHeader) (m : Nat) (ls : List (Act (Fin 1))) :
    Option (Bool × Pc × List Bool × List (Fin 1)) := do
  let (mm, _) ← MemoryManager.configureMemoryManager mePooConfig 0 1 World.exampleMemory
  let (_, w) ← (World.run 0 ops
    (World.start mm World.exampleSender World.exampleReceiver)).toOption
  let s ← runSteps (step 0 true header) (start w) ls
  some (decide ((∀ r, (w.receivers r).queueFullPolicy = .blockProducer ↔
      (w.receivers r).queue.type.isFiFo = true) ∧
    (∀ r ∈ (w.senders 0).queues,
      isCompatible (w.senders 0).consumerTooSlowPolicy (w.receivers r) = true) ∧
    (w.senders 0).chunksInUse.slots.count m = 1 ∧
    (w.memory.blocks m).chunkHeader = header.chunkHeader),
    s.pc, s.stored, s.put)

theorem respondAfter_eq_some {mePooConfig : MePooConfig} {ops : List (Op (Fin 1) (Fin 1))}
    {header : ResponseHeader} {m : Nat} {ls : List (Act (Fin 1))} {pc : Pc} {stored : List Bool}
    {put : List (Fin 1)}
    (h : respondAfter mePooConfig ops header m ls = some (true, pc, stored, put)) :
    ∃ mm allocators w s,
      MemoryManager.configureMemoryManager mePooConfig 0 1 World.exampleMemory =
        some (mm, allocators) ∧
      World.run 0 ops (World.start mm World.exampleSender World.exampleReceiver) =
        .ok (⟨⟩, w) ∧
      runSteps (step 0 true header) (start w) ls = some s ∧
      ((∀ r, (w.receivers r).queueFullPolicy = .blockProducer ↔
          (w.receivers r).queue.type.isFiFo = true) ∧
        (∀ r ∈ (w.senders 0).queues,
          isCompatible (w.senders 0).consumerTooSlowPolicy (w.receivers r) = true) ∧
        (w.senders 0).chunksInUse.slots.count m = 1 ∧
        (w.memory.blocks m).chunkHeader = header.chunkHeader) ∧
      s.pc = pc ∧ s.stored = stored ∧ s.put = put := by
  obtain ⟨⟨mm, allocators⟩, hmm, h⟩ := Option.bind_eq_some_iff.mp h
  obtain ⟨⟨_, w⟩, hrun, h⟩ := Option.bind_eq_some_iff.mp h
  obtain ⟨s, hs, h⟩ := Option.bind_eq_some_iff.mp h
  obtain ⟨hstart, h⟩ := Prod.mk.inj (Option.some.inj h)
  obtain ⟨hpc, h⟩ := Prod.mk.inj h
  obtain ⟨hstored, hput⟩ := Prod.mk.inj h
  exact ⟨mm, allocators, w, s, hmm, eq_ok_of_toOption hrun, hs, of_decide_eq_true hstart, hpc,
    hstored, hput⟩

theorem response_after_reconnect : ∃ mm allocators w s,
    MemoryManager.configureMemoryManager World.smallConfig 0 1 World.exampleMemory =
      some (mm, allocators) ∧
    World.run 0 connected (World.start mm World.exampleSender World.exampleReceiver) =
      .ok (⟨⟩, w) ∧
    runSteps (step 0 true outdatedHeader) (start w) reconnect = some s ∧
    s.pc = .returned (.ok ()) ∧ s.stored = [true, true] ∧ (∃ r, s.put = [r] ∧
      (w.receivers r).uniqueId = 1) ∧ s.world.ReferencesAccounted := by
  have h : respondAfter World.smallConfig connected outdatedHeader 4128 reconnect =
      some (true, .returned (.ok ()), [true, true], [0]) := by
    decide +kernel
  obtain ⟨mm, allocators, w, s, hmm, hw, hs, ⟨hpaired, hcompatible, hlist, hheader⟩, hpc, hstored,
    -⟩ := respondAfter_eq_some h
  have hsettled : w.Settled := ⟨mm.shape,
    (World.run_triple (E := fun e => e = .blocked) rfl 0 connected).of_ok
      ⟨World.start_settled hmm (by decide) World.exampleSender World.exampleReceiver,
        World.meets_within_of_fits hmm (by decide) _ _ 0 connected⟩ hw⟩
  obtain ⟨htaken, -, -, haccounted⟩ := (responses_go_to_the_client w hsettled hpaired hcompatible
    hlist hheader reconnect hs).1 _ hpc
  refine ⟨mm, allocators, w, s, hmm, hw, hs, hpc, hstored, (htaken ?_).2, haccounted⟩
  rw [hstored]
  decide

end Response

end Iceoryx.Popo
