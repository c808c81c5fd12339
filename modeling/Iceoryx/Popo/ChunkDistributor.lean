import Mathlib.Data.List.Lattice
import Mathlib.Data.List.Sort
import Iceoryx.Popo.Books

/-! `popo::ChunkDistributor`: one chunk to many queues, and the history for
queues that join late.  The loops over the queues are generic in the effect of
one push; here a push moves references, and every function owns the `SharedChunk`
it takes by value. -/

namespace Iceoryx.Popo

open Mepoo Lib

variable {S R : Type}

inductive ChunkDistributorError
  | queueContainerOverflow
  | queueNotInContainer
  deriving DecidableEq, Repr

/-- Whether a queue is in a list is decided by comparing queues. -/
scoped instance lawfulBEq [LinearOrder R] : LawfulBEq R := inferInstance

scoped instance neZero_one : NeZero 1 := ⟨Nat.one_ne_zero⟩

namespace ChunkDistributor

section Loops

variable {M : Type → Type} [Monad M]

def deliverToQueues (push : R → M Bool) (lostAChunk : R → M Unit) (isBlockingQueue : R → Bool) :
    List R → M (Nat × List R)
  | [] => pure (0, [])
  | queue :: queues => do
    let pushed ← push queue
    if pushed then do
      let (n, remaining) ← deliverToQueues push lostAChunk isBlockingQueue queues
      pure (n + 1, remaining)
    else if isBlockingQueue queue then do
      let (n, remaining) ← deliverToQueues push lostAChunk isBlockingQueue queues
      pure (n, queue :: remaining)
    else do
      lostAChunk queue
      let (n, remaining) ← deliverToQueues push lostAChunk isBlockingQueue queues
      pure (n + 1, remaining)

/-- The loop of a retry section, which runs from the last queue to the first:
the argument is the reversed list. -/
def retryQueues (push : R → M Bool) : List R → M (Nat × List R)
  | [] => pure (0, [])
  | queue :: queues => do
    let pushed ← push queue
    let (n, remaining) ← retryQueues push queues
    if pushed then pure (n + 1, remaining) else pure (n, queue :: remaining)

variable {ε σ : Type} {E : ε → Prop} {P : σ → Prop} {push : R → Prog ε σ Bool}
  {lostAChunk : R → Prog ε σ Unit}

theorem deliverToQueues_triple (hpush : ∀ r, Triple E P (push r) fun _ => P)
    (hlost : ∀ r, Triple E P (lostAChunk r) fun _ => P) (isBlockingQueue : R → Bool) :
    ∀ queues, Triple E P (deliverToQueues push lostAChunk isBlockingQueue queues)
      fun _ => P := by
  intro queues
  induction queues with
  | nil => exact Triple.pure fun w hw => hw
  | cons r queues ih =>
    refine Triple.bind (hpush r) fun pushed => ?_
    have hrest : ∀ f : Nat × List R → Nat × List R,
        Triple E P (do
          let p ← deliverToQueues push lostAChunk isBlockingQueue queues
          pure (f p)) fun _ => P :=
      fun f => Triple.bind ih fun p => Triple.pure fun w hw => hw
    cases pushed with
    | true => exact hrest fun p => (p.1 + 1, p.2)
    | false =>
      cases isBlockingQueue r with
      | true => exact hrest fun p => (p.1, r :: p.2)
      | false => exact Triple.bind (hlost r) fun _ => hrest fun p => (p.1 + 1, p.2)

theorem retryQueues_triple (hpush : ∀ r, Triple E P (push r) fun _ => P) :
    ∀ queues, Triple E P (retryQueues push queues) fun _ => P := by
  intro queues
  induction queues with
  | nil => exact Triple.pure fun w hw => hw
  | cons r queues ih =>
    refine Triple.bind (hpush r) fun pushed => Triple.bind ih fun p => ?_
    cases pushed <;> exact Triple.pure fun w hw => hw

end Loops

/-- `std::sort` and `std::set_intersection` of the stored and the remaining
queues; pointers are ordered by their address. -/
def intersection [LinearOrder R] (queues remainingQueues : List R) : List R :=
  (queues.insertionSort (· ≤ ·)).bagInter (remainingQueues.insertionSort (· ≤ ·))

def requestedChunks {A : Type} (history : List A) (requestedHistory : Nat) : List A :=
  let currChunkHistorySize := history.length
  let startIndex :=
    if requestedHistory ≤ currChunkHistorySize then currChunkHistorySize - requestedHistory else 0
  history.drop startIndex

def makeRoom {A : Type} (historyCapacity : Nat) (history : List A) : Option A × List A :=
  if history.length ≥ historyCapacity then (history.head?, history.tail) else (none, history)

def getQueueIndex (uniqueId : R → Nat) (queues : List R) (uniqueQueueId lastKnownQueueIndex : Nat) :
    Option Nat :=
  if queues[lastKnownQueueIndex]?.any fun r => uniqueId r = uniqueQueueId then
    some lastKnownQueueIndex
  else queues.findIdx? fun r => uniqueId r = uniqueQueueId

open Exec

variable [DecidableEq S] [LinearOrder R]

def push (r : R) (chunk : Nat) : Exec S R Bool := do
  -- the conversion to `ShmSafeUnmanagedChunk` copies, the queue keeps the copy
  copy chunk
  let d ← receiver r
  match d.queue.push chunk with
  | none => throw .blocked
  | some (pushRet, queue) => do
    setReceiver r { d with queue := queue }
    destroy? pushRet
    destroy chunk
    pure pushRet.isNone

def pushToQueue (queue : R) (chunk : Nat) : Exec S R Bool := do
  copy chunk
  let pushed ← push queue chunk
  destroy chunk
  pure pushed

def lostAChunk (r : R) : Exec S R Unit := do
  let d ← receiver r
  setReceiver r { d with queueHasLostChunks := true }

def tryAddQueue (s : S) (queueToAdd : R) (requestedHistory : Nat) :
    Exec S R (Except ChunkDistributorError Unit) := do
  let d ← sender s
  if queueToAdd ∈ d.queues then pure (.ok ())
  else if d.queues.length < d.maxQueues then do
    setSender s { d with queues := d.queues ++ [queueToAdd] }
    (requestedChunks d.history requestedHistory).forM fun chunk => do
      -- `cloneToSharedChunk`
      copy chunk
      let _ ← pushToQueue queueToAdd chunk
    pure (.ok ())
  else pure (.error .queueContainerOverflow)

def tryRemoveQueue (s : S) (queueToRemove : R) : Exec S R (Except ChunkDistributorError Unit) := do
  let d ← sender s
  if queueToRemove ∈ d.queues then do
    setSender s { d with queues := d.queues.erase queueToRemove }
    pure (.ok ())
  else pure (.error .queueNotInContainer)

def removeAllQueues (s : S) : Exec S R Unit := do
  let d ← sender s
  setSender s { d with queues := [] }

def waitsFor (w : World S R) (d : ChunkSenderData R) (r : R) : Bool :=
  d.consumerTooSlowPolicy = .waitForConsumer ∧ (w.receivers r).queueFullPolicy = .blockProducer

def deliverySection (s : S) (chunk : Nat) : Exec S R (Nat × List R) := do
  let d ← sender s
  let w ← get
  deliverToQueues (fun r => do copy chunk; pushToQueue r chunk) lostAChunk (waitsFor w d) d.queues

def retrySection (s : S) (chunk : Nat) (remainingQueues : List R) : Exec S R (Nat × List R) := do
  let d ← sender s
  setSender s { d with queues := d.queues.insertionSort (· ≤ ·) }
  let (n, remaining) ← retryQueues (fun r => do copy chunk; pushToQueue r chunk)
    (intersection d.queues remainingQueues).reverse
  pure (n, remaining.reverse)

def busyWait (s : S) (chunk : Nat) : Nat → List R → Exec S R Nat
  | _, [] => pure 0
  | 0, _ :: _ => throw .blocked
  | patience + 1, queue :: queues => do
    let (n, remaining) ← retrySection s chunk (queue :: queues)
    let rest ← busyWait s chunk patience remaining
    pure (n + rest)

def addToHistoryWithoutDelivery (s : S) (chunk : Nat) : Exec S R PUnit := do
  let d ← sender s
  if 0 < d.historyCapacity then do
    let (chunkToRemove, history) := makeRoom d.historyCapacity d.history
    setSender s { d with history := history }
    destroy? chunkToRemove
    copy chunk
    setSender s { d with history := history ++ [chunk] }
    destroy chunk
  else destroy chunk

def deliverToAllStoredQueues (s : S) (chunk patience : Nat) : Exec S R Nat := do
  let (n, remainingQueues) ← deliverySection s chunk
  let rest ← busyWait s chunk patience remainingQueues
  copy chunk
  addToHistoryWithoutDelivery s chunk
  destroy chunk
  pure (n + rest)

def findQueue (w : World S R) (d : ChunkSenderData R) (uniqueQueueId lastKnownQueueIndex : Nat) :
    Option R :=
  (getQueueIndex (fun r => (w.receivers r).uniqueId) d.queues uniqueQueueId
    lastKnownQueueIndex).bind fun i => d.queues[i]?

def deliverToQueueLoop (s : S) (uniqueQueueId lastKnownQueueIndex chunk : Nat) :
    Nat → Exec S R (Except ChunkDistributorError Unit)
  | 0 => throw .blocked
  | patience + 1 => do
    let d ← sender s
    let w ← get
    match findQueue w d uniqueQueueId lastKnownQueueIndex with
    | none => pure (.error .queueNotInContainer)
    | some r => do
      copy chunk
      let pushed ← pushToQueue r chunk
      if pushed then pure (.ok ())
      else if waitsFor w d r then
        deliverToQueueLoop s uniqueQueueId lastKnownQueueIndex chunk patience
      else do
        lostAChunk r
        pure (.ok ())

def deliverToQueue (s : S) (uniqueQueueId lastKnownQueueIndex chunk patience : Nat) :
    Exec S R (Except ChunkDistributorError Unit) := do
  let result ← deliverToQueueLoop s uniqueQueueId lastKnownQueueIndex chunk patience
  destroy chunk
  pure result

def clearHistory (s : S) : Exec S R PUnit := do
  let d ← sender s
  setSender s { d with history := [] }
  d.history.forM destroy

/-- Nobody holds the lock between two operations, so `tryLock` succeeds. -/
def cleanup (s : S) : Exec S R PUnit := clearHistory s

variable [Fintype S] [Fintype R] {E : Halt → Prop} {A : S → ChunkSenderData R}
  {B : R → ChunkReceiverData} {Γ : List (Nat × Nat)} {H : Nat → Nat} {L : Multiset Nat} {m : Nat}

theorem push_slots {d : ChunkReceiverData} {overflow : Option Nat} {queue : VariantQueue Nat}
    (h : d.queue.push m = some (overflow, queue)) :
    (overflow.toList : Multiset Nat) + { d with queue := queue }.slots = m ::ₘ d.slots := by
  have hperm := Multiset.coe_eq_coe.mpr (VariantQueue.push_perm h)
  change (overflow.toList : Multiset Nat) + (queue.elements + d.chunksInUse.slots) =
    m ::ₘ (d.queue.elements + d.chunksInUse.slots)
  rw [← add_assoc, Multiset.coe_add, hperm, ← Multiset.cons_coe, Multiset.cons_add]

omit [DecidableEq S] in
theorem push_triple (hE : E .blocked) (r : R) :
    Triple E (Books Γ A B H (m ::ₘ L)) (push r m : Exec S R Bool) fun _ => Held Γ A H L := by
  refine Triple.bind (copy_triple (by simp)) fun _ => receiver_bind ?_
  cases hpush : (B r).queue.push m with
  | none => exact Triple.throw hE
  | some result =>
    obtain ⟨overflow, queue⟩ := result
    have heq : overflow.toList + (m ::ₘ L) + { (B r) with queue := queue }.slots =
        m ::ₘ m ::ₘ L + (B r).slots := by
      rw [add_right_comm, push_slots hpush]
      simp only [Multiset.cons_add, Multiset.add_cons, add_comm]
    refine Books.lists fun _ hok => ?_
    exact Triple.bind (setReceiver_triple (hok r) heq) fun _ =>
      Triple.bind destroy?_triple fun _ => Triple.bind destroy_triple fun _ =>
      Triple.pure fun w hw => ⟨_, hw⟩

omit [DecidableEq S] in
theorem pushToQueue_triple (hE : E .blocked) (r : R) :
    Triple E (Held Γ A H (m ::ₘ L)) (pushToQueue r m : Exec S R Bool) fun _ => Held Γ A H L := by
  refine Triple.exists fun B => ?_
  refine Triple.bind (copy_triple (by simp)) fun _ => Triple.bind (push_triple hE r) fun b => ?_
  refine Triple.exists fun B' => ?_
  exact Triple.bind destroy_triple fun _ => Triple.pure fun w hw => ⟨_, hw⟩

omit [DecidableEq S] in
theorem copy_pushToQueue_triple (hE : E .blocked) (r : R)
    (hm : ∀ B : R → ChunkReceiverData, m ∈ L + slots A B) :
    Triple E (Held Γ A H L) (do copy m; pushToQueue r m : Exec S R Bool) fun _ => Held Γ A H L := by
  refine Triple.exists fun B => ?_
  refine Triple.bind (copy_triple (hm B)) fun _ => ?_
  exact (pushToQueue_triple hE r).pre fun w hw => ⟨_, hw⟩

omit [DecidableEq S] in
theorem lostAChunk_triple (r : R) :
    Triple E (Held Γ A H L) (lostAChunk r : Exec S R Unit) fun _ => Held Γ A H L := by
  refine Triple.exists fun B => receiver_bind ?_
  refine Books.lists fun _ hok => ?_
  refine (setReceiver_triple ?_ ?_).post fun _ w hw => ⟨_, hw⟩
  · exact hok r
  · rfl

omit [LinearOrder R] in
theorem setQueues_triple (s : S) (queues : List R) :
    Triple E (Books Γ A B H L) (setSender s { A s with queues := queues })
      fun _ => Books Γ (Function.update A s { A s with queues := queues }) B H L := by
  refine Books.lists fun hok _ => setSender_triple ?_ ?_
  · exact hok s
  · rfl

theorem tryAddQueue_triple (hE : E .blocked) (s : S) (r : R) (requestedHistory : Nat) :
    Triple E (Owes Γ H L) (tryAddQueue s r requestedHistory : Exec S R _) fun _ => Owes Γ H L := by
  refine Triple.exists fun A => Triple.exists fun B => sender_bind ?_
  by_cases hknown : r ∈ (A s).queues
  · rw [if_pos hknown]
    exact Triple.pure fun w hw => ⟨_, _, hw⟩
  · rw [if_neg hknown]
    by_cases hroom : (A s).queues.length < (A s).maxQueues
    · rw [if_pos hroom]
      refine Triple.bind (setQueues_triple s _) fun _ => ?_
      -- the history of the sender keeps its chunks alive while they are replayed
      have hmem : ∀ m ∈ requestedChunks (A s).history requestedHistory,
          ∀ B : R → ChunkReceiverData, m ∈ L + slots (Function.update A s
            { A s with queues := (A s).queues ++ [r] }) B := by
        intro m hm B
        refine Multiset.mem_add.mpr (Or.inr (mem_slots_sender (s := s) ?_))
        rw [Function.update_self]
        refine Multiset.mem_add.mpr (Or.inl (Multiset.mem_add.mpr (Or.inl ?_)))
        exact List.mem_of_mem_drop hm
      refine Triple.bind (Triple.pre (P := Held Γ _ H L) (Triple.forM_mem _ fun m hm => ?_)
        fun w hw => ⟨B, hw⟩) fun _ => Triple.pure fun w hw => ⟨_, hw⟩
      refine Triple.exists fun B => Triple.bind (copy_triple (hmem m hm B)) fun _ => ?_
      exact Triple.bind ((pushToQueue_triple hE r).pre fun w hw => ⟨_, hw⟩) fun _ =>
        Triple.pure fun w hw => hw
    · rw [if_neg hroom]
      exact Triple.pure fun w hw => ⟨_, _, hw⟩

theorem tryRemoveQueue_triple (s : S) (r : R) :
    Triple E (Owes Γ H L) (tryRemoveQueue s r : Exec S R _) fun _ => Owes Γ H L := by
  refine Triple.exists fun A => Triple.exists fun B => sender_bind ?_
  by_cases hknown : r ∈ (A s).queues
  · rw [if_pos hknown]
    exact Triple.bind (setQueues_triple s _) fun _ => Triple.pure fun w hw => ⟨_, _, hw⟩
  · rw [if_neg hknown]
    exact Triple.pure fun w hw => ⟨_, _, hw⟩

omit [LinearOrder R] in
theorem removeAllQueues_triple (s : S) :
    Triple E (Owes Γ H L) (removeAllQueues s : Exec S R Unit) fun _ => Owes Γ H L := by
  refine Triple.exists fun A => Triple.exists fun B => sender_bind ?_
  exact (setQueues_triple s _).post fun _ w hw => ⟨_, _, hw⟩

omit [DecidableEq S] in
theorem deliverySection_triple (hE : E .blocked) (s : S) :
    Triple E (Owes Γ H (m ::ₘ L)) (deliverySection s m : Exec S R _)
      fun _ => Owes Γ H (m ::ₘ L) := by
  refine Triple.exists fun A => Triple.exists fun B => sender_bind ?_
  refine Triple.bind (Triple.get (R := fun _ => Held Γ A H (m ::ₘ L)) fun w hw => ⟨B, hw⟩)
    fun w => ?_
  refine (deliverToQueues_triple (fun r => ?_) lostAChunk_triple _ _).post fun _ w hw => ⟨_, hw⟩
  exact copy_pushToQueue_triple hE r fun B => by simp

theorem retrySection_triple (hE : E .blocked) (s : S) (remaining : List R) :
    Triple E (Owes Γ H (m ::ₘ L)) (retrySection s m remaining : Exec S R _)
      fun _ => Owes Γ H (m ::ₘ L) := by
  refine Triple.exists fun A => Triple.exists fun B => sender_bind ?_
  refine Triple.bind (setQueues_triple s _) fun _ => ?_
  refine Triple.bind (Triple.pre (P := Held Γ _ H (m ::ₘ L)) (retryQueues_triple (fun r => ?_) _)
    fun w hw => ⟨B, hw⟩) fun p => Triple.pure fun w hw => ⟨_, hw⟩
  exact copy_pushToQueue_triple hE r fun B => by simp

theorem busyWait_triple (hE : E .blocked) (s : S) :
    ∀ (patience : Nat) (remaining : List R),
      Triple E (Owes Γ H (m ::ₘ L)) (busyWait s m patience remaining : Exec S R Nat)
        fun _ => Owes Γ H (m ::ₘ L) := by
  intro patience
  induction patience with
  | zero =>
    intro remaining
    cases remaining with
    | nil => exact Triple.pure fun w hw => hw
    | cons r rest => exact Triple.throw hE
  | succ patience ih =>
    intro remaining
    cases remaining with
    | nil => exact Triple.pure fun w hw => hw
    | cons r rest =>
      refine Triple.bind (retrySection_triple hE s _) fun p => ?_
      exact Triple.bind (ih p.2) fun _ => Triple.pure fun w hw => hw

theorem makeRoom_coe {A : Type} (historyCapacity : Nat) (history : List A) :
    ((makeRoom historyCapacity history).1.toList : Multiset A) +
      (makeRoom historyCapacity history).2 = history := by
  unfold makeRoom
  split
  · cases history with
    | nil => rfl
    | cons a rest => rfl
  · exact zero_add _

omit [LinearOrder R] in
theorem addToHistoryWithoutDelivery_triple (s : S) :
    Triple E (Owes Γ H (m ::ₘ L)) (addToHistoryWithoutDelivery s m : Exec S R PUnit)
      fun _ => Owes Γ H L := by
  refine Triple.exists fun A => Triple.exists fun B => sender_bind ?_
  by_cases hcapacity : 0 < (A s).historyCapacity
  · rw [if_pos hcapacity]
    have hroom := makeRoom_coe (A s).historyCapacity (A s).history
    generalize makeRoom (A s).historyCapacity (A s).history = room at hroom ⊢
    obtain ⟨chunkToRemove, history⟩ := room
    have hevict : chunkToRemove.toList + (m ::ₘ L) + { A s with history := history }.slots =
        (m ::ₘ L) + (A s).slots := by
      simp only [ChunkSenderData.slots, ← hroom]
      simp only [add_assoc, add_left_comm]
    have happend : (m ::ₘ L) + { A s with history := history ++ [m] }.slots =
        (m ::ₘ m ::ₘ L) + (Function.update A s { A s with history := history } s).slots := by
      rw [Function.update_self]
      simp only [ChunkSenderData.slots, ← Multiset.coe_add, Multiset.coe_singleton,
        ← Multiset.singleton_add, add_assoc, add_left_comm]
    refine Books.lists fun hok _ => ?_
    refine Triple.bind (setSender_triple ?_ hevict) fun _ => Triple.bind destroy?_triple fun _ =>
      Triple.bind (copy_triple (by simp)) fun _ => Triple.bind (setSender_triple ?_ happend)
      fun _ => destroy_triple.post fun _ w hw => ⟨_, _, hw⟩
    · exact hok s
    · exact hok s
  · rw [if_neg hcapacity]
    exact destroy_triple.post fun _ w hw => ⟨_, _, hw⟩

theorem deliverToAllStoredQueues_triple (hE : E .blocked) (s : S) (patience : Nat) :
    Triple E (Owes Γ H (m ::ₘ L)) (deliverToAllStoredQueues s m patience : Exec S R Nat)
      fun _ => Owes Γ H L := by
  refine Triple.bind (deliverySection_triple hE s) fun p => ?_
  refine Triple.bind (busyWait_triple hE s patience p.2) fun _ => ?_
  refine Triple.exists fun A => Triple.exists fun B => ?_
  refine Triple.bind (copy_triple (by simp)) fun _ => ?_
  refine Triple.bind ((addToHistoryWithoutDelivery_triple s).pre fun w hw => ⟨_, _, hw⟩)
    fun _ => ?_
  refine Triple.exists fun A => Triple.exists fun B => ?_
  exact Triple.bind destroy_triple fun _ => Triple.pure fun w hw => ⟨_, _, hw⟩

omit [DecidableEq S] in
theorem deliverToQueueLoop_triple (hE : E .blocked) (s : S)
    (uniqueQueueId lastKnownQueueIndex : Nat) : ∀ patience : Nat,
    Triple E (Owes Γ H (m ::ₘ L))
      (deliverToQueueLoop s uniqueQueueId lastKnownQueueIndex m patience : Exec S R _)
      fun _ => Owes Γ H (m ::ₘ L) := by
  intro patience
  induction patience with
  | zero => exact Triple.throw hE
  | succ patience ih =>
    refine Triple.exists fun A => Triple.exists fun B => sender_bind ?_
    refine Triple.bind (Triple.get (R := fun _ => Held Γ A H (m ::ₘ L)) fun w hw => ⟨B, hw⟩)
      fun w => ?_
    cases findQueue w (A s) uniqueQueueId lastKnownQueueIndex with
    | none => exact Triple.pure fun w hw => ⟨_, hw⟩
    | some r =>
      refine Triple.exists fun B => Triple.bind (copy_triple (by simp)) fun _ => ?_
      refine Triple.bind ((pushToQueue_triple hE r).pre fun w hw => ⟨_, hw⟩) fun pushed => ?_
      cases pushed with
      | true => exact Triple.pure fun w hw => ⟨_, hw⟩
      | false =>
        cases waitsFor w (A s) r with
        | true => exact ih.pre fun w hw => ⟨_, hw⟩
        | false =>
          exact Triple.bind (lostAChunk_triple r) fun _ => Triple.pure fun w hw => ⟨_, hw⟩

omit [DecidableEq S] in
theorem deliverToQueue_triple (hE : E .blocked) (s : S)
    (uniqueQueueId lastKnownQueueIndex patience : Nat) :
    Triple E (Owes Γ H (m ::ₘ L))
      (deliverToQueue s uniqueQueueId lastKnownQueueIndex m patience : Exec S R _)
      fun _ => Owes Γ H L := by
  refine Triple.bind (deliverToQueueLoop_triple hE s uniqueQueueId lastKnownQueueIndex patience)
    fun _ => ?_
  refine Triple.exists fun A => Triple.exists fun B => ?_
  exact Triple.bind destroy_triple fun _ => Triple.pure fun w hw => ⟨_, _, hw⟩

omit [DecidableEq S] [LinearOrder R] in
theorem destroyAll_triple : ∀ chunks : List Nat,
    Triple E (Books Γ A B H (chunks + L)) (chunks.forM destroy : Exec S R PUnit)
      fun _ => Books Γ A B H L := by
  intro chunks
  have hloop := Triple.forM (E := E) (f := fun m => (destroy m : Exec S R PUnit))
    (I := fun rest => Books Γ A B H (rest + L)) (fun m rest => ?_) chunks
  · exact hloop.post fun _ w hw => by simpa using hw
  · exact destroy_triple.pre fun w hw => by simpa [← Multiset.cons_coe] using hw

omit [LinearOrder R] in
theorem clearHistory_triple (s : S) :
    Triple E (Books Γ A B H L) (clearHistory s : Exec S R PUnit)
      fun _ => Books Γ (Function.update A s { A s with history := [] }) B H L := by
  refine sender_bind ?_
  have heq : (A s).history + L + { A s with history := [] }.slots = L + (A s).slots := by
    simp only [ChunkSenderData.slots, Multiset.coe_nil, zero_add, add_assoc, add_left_comm]
  refine Books.lists fun hok _ => Triple.bind (setSender_triple ?_ heq) fun _ =>
    destroyAll_triple _
  exact hok s

end ChunkDistributor

end Iceoryx.Popo
