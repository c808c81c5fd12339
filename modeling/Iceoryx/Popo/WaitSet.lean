import Iceoryx.Lib.Indices
import Iceoryx.Hoofs.Algorithm
import Iceoryx.Popo.Listener

namespace Iceoryx.Popo

open Hoofs Lib

inductive TriggerType
  | stateBased | eventBased | invalid
  deriving DecidableEq, Repr

/-- `notificationOrigin`, `notificationId` and `callback` are the `NotificationInfo` of the
trigger; `hasTriggeredCallback` is the condition that it asks for. -/
structure Trigger where
  notificationOrigin : Nat
  notificationId : Nat
  callback : NotificationCallback
  hasTriggeredCallback : Option Nat
  resetCallback : Option Nat
  uniqueId : Nat
  triggerType : TriggerType
  originTriggerType : Nat
  originTriggerTypeHash : Nat

namespace Trigger

def isValid (t : Trigger) : Bool := t.uniqueId != invalidId

/-- The constructor of a state-based trigger has checked that there is a callback. -/
def isStateConditionSatisfied (t : Trigger) (conditions : Nat → Bool) : Bool :=
  match t.triggerType with
  | .stateBased => t.isValid && t.hasTriggeredCallback.any conditions
  | .eventBased => t.isValid
  | .invalid => false

def isLogicalEqualTo (t : Trigger) (notificationOrigin originTriggerType
    originTriggerTypeHash : Nat) : Bool :=
  t.isValid && t.notificationOrigin == notificationOrigin &&
    t.originTriggerType == originTriggerType && t.originTriggerTypeHash == originTriggerTypeHash

end Trigger

/-- What can be observed of a wait set; `triggered` is a call of `trigger` on the handle of an
attachment. -/
inductive WaitSetEvent
  | attached (t : Trigger)
  | detached (index : Nat)
  | triggered (origin index : Nat)
  | changed (condition : Nat) (value : Bool)
  | returned (triggers : List Trigger)

/-! What a wait set is for, told by what has been observed of it, the last event first. -/

namespace WaitSetEvent

def attachment (index : Nat) : List WaitSetEvent → Option Trigger
  | [] => none
  | .attached t :: h => if t.uniqueId = index then some t else attachment index h
  | .detached i :: h => if i = index then none else attachment index h
  | .triggered .. :: h => attachment index h
  | .changed .. :: h => attachment index h
  | .returned _ :: h => attachment index h

def condition (c : Nat) : List WaitSetEvent → Bool
  | [] => false
  | .attached _ :: h => condition c h
  | .detached _ :: h => condition c h
  | .triggered .. :: h => condition c h
  | .changed d value :: h => if d = c then value else condition c h
  | .returned _ :: h => condition c h

/-- The origin has called `trigger` after the attachment was made and, when it is event-based,
after the last wait that returned it. -/
def Due (t : Trigger) : List WaitSetEvent → Prop
  | [] => False
  | .attached t' :: h => t'.uniqueId ≠ t.uniqueId ∧ Due t h
  | .detached _ :: h => Due t h
  | .triggered origin index :: h =>
    (origin = t.notificationOrigin ∧ index = t.uniqueId) ∨ Due t h
  | .changed .. :: h => Due t h
  | .returned triggers :: h =>
    (t.triggerType = .eventBased → t.uniqueId ∉ triggers.map Trigger.uniqueId) ∧ Due t h

instance decidableDue (t : Trigger) : (h : List WaitSetEvent) → Decidable (Due t h)
  | [] => inferInstanceAs (Decidable False)
  | .attached _ :: h =>
    have := decidableDue t h
    inferInstanceAs (Decidable (_ ∧ _))
  | .triggered .. :: h =>
    have := decidableDue t h
    inferInstanceAs (Decidable (_ ∨ _))
  | .returned _ :: h =>
    have := decidableDue t h
    inferInstanceAs (Decidable (_ ∧ _))
  | .detached _ :: h => decidableDue t h
  | .changed .. :: h => decidableDue t h

def Satisfied (t : Trigger) (h : List WaitSetEvent) : Prop :=
  t.triggerType = .eventBased ∨ ∃ c, t.hasTriggeredCallback = some c ∧ condition c h

def NoStale : List WaitSetEvent → Prop
  | [] => True
  | .attached _ :: h => NoStale h
  | .detached _ :: h => NoStale h
  | .triggered .. :: h => NoStale h
  | .changed .. :: h => NoStale h
  | .returned triggers :: h =>
    (∀ t ∈ triggers, t.triggerType = .eventBased → Due t h) ∧ NoStale h

instance decidableNoStale : (h : List WaitSetEvent) → Decidable (NoStale h)
  | [] => inferInstanceAs (Decidable True)
  | .returned _ :: h =>
    have := decidableNoStale h
    inferInstanceAs (Decidable (_ ∧ _))
  | .attached _ :: h => decidableNoStale h
  | .detached _ :: h => decidableNoStale h
  | .triggered .. :: h => decidableNoStale h
  | .changed .. :: h => decidableNoStale h

def Delivers : List WaitSetEvent → Prop
  | [] => True
  | .attached _ :: h => Delivers h
  | .detached _ :: h => Delivers h
  | .triggered .. :: h => Delivers h
  | .changed .. :: h => Delivers h
  | .returned triggers :: h =>
    (∀ index t, attachment index h = some t → Due t h → Satisfied t h →
      t ∈ triggers ∧ (triggers.map Trigger.uniqueId).count index = 1) ∧ Delivers h

end WaitSetEvent

/-- A wait that has not returned waits for the semaphore, in the first or `again` in the
second of the two calls of the wait function. -/
inductive WaitPc
  | idle
  | waiting (timed again : Bool)
  deriving DecidableEq, Repr

inductive WaitSetError
  | waitSetFull | alreadyAttached
  deriving DecidableEq, Repr

/-- What the classes of the origins define: the handle in which an event or a state is kept,
if the origin knows it, and the condition of a state. -/
structure Origins where
  eventTrigger : Nat → EventType → Option Nat
  stateTrigger : Nat → EventType → Option Nat
  stateCondition : Nat → EventType → Option Nat

structure WaitSet where
  capacity : Nat
  triggerArray : Nat → Option Trigger
  indexRepository : List Nat
  activeNotifications : List Nat
  notified : Nat → Bool
  semaphore : Nat
  triggers : TriggerHandles
  conditions : Nat → Bool
  pc : WaitPc
  history : List WaitSetEvent

namespace WaitSet

def start (capacity : Nat) : WaitSet where
  capacity := capacity
  triggerArray := fun _ => none
  indexRepository := (List.range capacity).reverse
  activeNotifications := []
  notified := fun _ => false
  semaphore := 0
  triggers := fun _ _ => none
  conditions := fun _ => false
  pc := .idle
  history := []

section Operations

variable (maxNumberOfNotifiers : Nat) (origins : Origins) (s : WaitSet)

def isAttached (origin originType originTypeHash : Nat) : Bool :=
  (List.range s.capacity).any fun i =>
    (s.triggerArray i).any (·.isLogicalEqualTo origin originType originTypeHash)

def getInvalidateTriggerMethod (origin : Nat) : Option Nat := some origin

def occupy (t : Trigger) (indexRepository : List Nat) : WaitSet :=
  { s with
    triggerArray := Function.update s.triggerArray t.uniqueId (some t)
    indexRepository := indexRepository
    history := .attached t :: s.history }

def vacate (index uniqueTriggerId : Nat) : WaitSet :=
  { s with
    triggerArray := Function.update s.triggerArray index none
    indexRepository := uniqueTriggerId :: s.indexRepository
    history := .detached index :: s.history }

def attachImpl (eventOrigin : Nat) (hasTriggeredCallback : Option Nat) (eventId : Nat)
    (eventCallback : NotificationCallback) (originType originTypeHash : Nat) :
    Except WaitSetError Nat × WaitSet :=
  if s.isAttached eventOrigin originType originTypeHash then (.error .alreadyAttached, s)
  else
    match s.indexRepository with
    | [] => (.error .waitSetFull, s)
    | index :: indexRepository =>
      let t : Trigger :=
        { notificationOrigin := eventOrigin
          notificationId := eventId
          callback := eventCallback
          hasTriggeredCallback := hasTriggeredCallback
          resetCallback := getInvalidateTriggerMethod eventOrigin
          uniqueId := index
          triggerType := if hasTriggeredCallback.isSome then .stateBased else .eventBased
          originTriggerType := originType
          originTriggerTypeHash := originTypeHash }
      (.ok index, s.occupy t indexRepository)

/-- The trigger is invalid when its slot is reset, so the origin is not called.  The `Ensures`
fails when the stack is full. -/
def removeTrigger (uniqueTriggerId : Nat) : Option WaitSet :=
  match (List.range s.capacity).find? fun i =>
      (s.triggerArray i).any (·.uniqueId == uniqueTriggerId) with
  | none => some s
  | some i =>
    if s.indexRepository.length < s.capacity then some (s.vacate i uniqueTriggerId) else none

def resetTrigger (origin handle : Nat) : Option WaitSet :=
  match s.triggers origin handle with
  | none => some s
  | some uniqueTriggerId =>
    (s.removeTrigger uniqueTriggerId).map fun s =>
      { s with triggers := s.triggers.set origin handle none }

/-- `enableEvent` and `enableState`.  The move into the handle of the origin resets what the
handle held before.  A handle that the origin does not take is reset by its own destructor. -/
def enable (trigger : Option Nat) (origin uniqueId : Nat) : Option WaitSet :=
  match trigger with
  | none => s.removeTrigger uniqueId
  | some handle =>
    (s.resetTrigger origin handle).map fun s =>
      { s with triggers := s.triggers.set origin handle (some uniqueId) }

def disable (trigger : Option Nat) (origin : Nat) : Option WaitSet :=
  match trigger with
  | none => some s
  | some handle => s.resetTrigger origin handle

def attach (trigger : Option Nat) (origin : Nat) (hasTriggeredCallback : Option Nat)
    (eventId : Nat) (callback : NotificationCallback) (type : EventType) :
    Option (Except WaitSetError Unit × WaitSet) :=
  match s.attachImpl origin hasTriggeredCallback eventId callback type.toUInt64 type.hashCode with
  | (.error e, s) => some (.error e, s)
  | (.ok uniqueId, s) => (s.enable trigger origin uniqueId).map fun s => (.ok (), s)

def attachEvent (eventOrigin : Nat) (eventType : EventType) (eventId : Nat)
    (eventCallback : NotificationCallback) : Option (Except WaitSetError Unit × WaitSet) :=
  s.attach (origins.eventTrigger eventOrigin eventType) eventOrigin none eventId eventCallback
    eventType

def attachState (stateOrigin : Nat) (stateType : EventType) (id : Nat)
    (stateCallback : NotificationCallback) : Option (Except WaitSetError Unit × WaitSet) :=
  s.attach (origins.stateTrigger stateOrigin stateType) stateOrigin
    (origins.stateCondition stateOrigin stateType) id stateCallback stateType

def detachEvent (eventOrigin : Nat) (eventType : EventType) : Option WaitSet :=
  s.disable (origins.eventTrigger eventOrigin eventType) eventOrigin

def detachState (stateOrigin : Nat) (stateType : EventType) : Option WaitSet :=
  s.disable (origins.stateTrigger stateOrigin stateType) stateOrigin

def collect : List Nat × WaitSet :=
  ((List.range maxNumberOfNotifiers).filter s.notified,
    { s with notified := fun i => s.notified i && !decide (i < maxNumberOfNotifiers) })

def acquire (notificationVector : List Nat) : WaitSet :=
  if s.activeNotifications = [] then { s with activeNotifications := notificationVector }
  else if notificationVector ≠ [] then
    { s with
      activeNotifications := uniqueMergeSortedContainers maxNumberOfNotifiers
        notificationVector s.activeNotifications }
  else s

/-- The loop of `createVectorWithTriggeredTriggers`, with the indices below `i` to come.  An
index that is not one of the array and a full vector end the program. -/
def createLoop : Nat → List Nat → List Trigger → Option (List Nat × List Trigger)
  | 0, active, triggers => some (active, triggers)
  | i + 1, active, triggers => do
    let index ← active[i]?
    if index < s.capacity then
      match s.triggerArray index with
      | none => createLoop i (active.eraseIdx i) triggers
      | some t =>
        if t.isStateConditionSatisfied s.conditions then
          if triggers.length < s.capacity then
            if t.triggerType = .eventBased then
              createLoop i (active.eraseIdx i) (triggers ++ [t])
            else createLoop i active (triggers ++ [t])
          else none
        else createLoop i active triggers
    else none

def createVectorWithTriggeredTriggers : Option (List Trigger × WaitSet) :=
  (s.createLoop s.activeNotifications.length s.activeNotifications []).map
    fun (active, triggers) => (triggers, { s with activeNotifications := active })

def doReturn (triggers : List Trigger) : WaitSet :=
  { s with pc := .idle, history := .returned triggers :: s.history }

def finish (notificationVector : List Nat) : Option WaitSet :=
  (s.acquire maxNumberOfNotifiers notificationVector).createVectorWithTriggeredTriggers.map
    fun (triggers, s) => s.doReturn triggers

/-- The start of `waitImpl`: the semaphore is reset, and the wait goes on with `next` when a
flag is raised. -/
def waitImpl (timed again : Bool) (next : WaitSet → List Nat → Option WaitSet) :
    Option WaitSet :=
  let (active, s) := { s with semaphore := 0 }.collect maxNumberOfNotifiers
  if active ≠ [] then next s active else some { s with pc := .waiting timed again }

def deliver (timed : Bool) : Option WaitSet := do
  let (triggers, s) ← s.createVectorWithTriggeredTriggers
  if triggers ≠ [] then some (s.doReturn triggers)
  else s.waitImpl maxNumberOfNotifiers timed true fun s => s.finish maxNumberOfNotifiers

def proceed (timed : Bool) (notificationVector : List Nat) : Option WaitSet :=
  (s.acquire maxNumberOfNotifiers notificationVector).deliver maxNumberOfNotifiers timed

def waitAndReturnTriggeredTriggers (timed : Bool) : Option WaitSet :=
  if s.semaphore ≠ 0 then
    s.waitImpl maxNumberOfNotifiers timed false fun s => s.proceed maxNumberOfNotifiers timed
  else s.deliver maxNumberOfNotifiers timed

def resume (timed again doReturnAfterNotificationCollection : Bool) : Option WaitSet :=
  let (active, s) := s.collect maxNumberOfNotifiers
  if active ≠ [] ∨ doReturnAfterNotificationCollection then
    if again then s.finish maxNumberOfNotifiers active
    else s.proceed maxNumberOfNotifiers timed active
  else some s

def notify (index : Nat) : Option WaitSet :=
  if index < maxNumberOfNotifiers then
    some { s with
      notified := Function.update s.notified index true
      semaphore := s.semaphore + 1 }
  else none

def wake : Option WaitSet :=
  match s.pc with
  | .idle => some s
  | .waiting timed again =>
    { s with semaphore := s.semaphore - 1 }.resume maxNumberOfNotifiers timed again timed

def trigger (origin handle : Nat) : Option WaitSet :=
  match s.triggers origin handle with
  | none => some s
  | some uniqueTriggerId => do
    let s ← s.notify maxNumberOfNotifiers uniqueTriggerId
    { s with history := .triggered origin uniqueTriggerId :: s.history }.wake
      maxNumberOfNotifiers

/-- The calls, one after another.  As long as a wait waits for the semaphore, the others can
trigger, the conditions can change, and the time of a timed wait can run out; `resetTrigger`
is a handle that its origin resets itself. -/
inductive Operation
  | attachEvent (eventOrigin : Nat) (eventType : EventType) (eventId : Nat)
    (eventCallback : NotificationCallback)
  | attachState (stateOrigin : Nat) (stateType : EventType) (id : Nat)
    (stateCallback : NotificationCallback)
  | detachEvent (eventOrigin : Nat) (eventType : EventType)
  | detachState (stateOrigin : Nat) (stateType : EventType)
  | resetTrigger (origin handle : Nat)
  | trigger (origin handle : Nat)
  | changeCondition (condition : Nat) (value : Bool)
  | wait (timed : Bool)
  | timeout

def whenIdle (next : Option WaitSet) : Option WaitSet :=
  match s.pc with
  | .idle => next
  | .waiting .. => none

def perform : Operation → Option WaitSet
  | .attachEvent eventOrigin eventType eventId eventCallback =>
    s.whenIdle
      ((s.attachEvent origins eventOrigin eventType eventId eventCallback).map Prod.snd)
  | .attachState stateOrigin stateType id stateCallback =>
    s.whenIdle ((s.attachState origins stateOrigin stateType id stateCallback).map Prod.snd)
  | .detachEvent eventOrigin eventType =>
    s.whenIdle (s.detachEvent origins eventOrigin eventType)
  | .detachState stateOrigin stateType =>
    s.whenIdle (s.detachState origins stateOrigin stateType)
  | .resetTrigger origin handle => s.whenIdle (s.resetTrigger origin handle)
  | .trigger origin handle => s.trigger maxNumberOfNotifiers origin handle
  | .changeCondition condition value =>
    some { s with
      conditions := Function.update s.conditions condition value
      history := .changed condition value :: s.history }
  | .wait timed =>
    s.whenIdle (s.waitAndReturnTriggeredTriggers maxNumberOfNotifiers timed)
  | .timeout =>
    match s.pc with
    | .waiting true again => s.resume maxNumberOfNotifiers true again true
    | _ => none

end Operations

def Pending (s : WaitSet) (index : Nat) : Prop :=
  s.notified index = true ∨ index ∈ s.activeNotifications

instance (s : WaitSet) (index : Nat) : Decidable (s.Pending index) :=
  inferInstanceAs (Decidable (_ ∨ _))

def AttachesFresh (s : WaitSet) (trigger : Option Nat) (origin : Nat)
    (hasTriggeredCallback : Option Nat) (type : EventType) : Prop :=
  trigger.isSome → hasTriggeredCallback = none →
    s.isAttached origin type.toUInt64 type.hashCode = false →
      ∀ index ∈ s.indexRepository.head?, ¬ s.Pending index

instance (s : WaitSet) (trigger : Option Nat) (origin : Nat) (hasTriggeredCallback : Option Nat)
    (type : EventType) :
    Decidable (s.AttachesFresh trigger origin hasTriggeredCallback type) :=
  inferInstanceAs (Decidable (_ → _ → _ → _))

/-- No index is given to an event-based trigger that is pending from an earlier attachment. -/
def Fresh (origins : Origins) (s : WaitSet) : Operation → Prop
  | .attachEvent eventOrigin eventType .. =>
    s.AttachesFresh (origins.eventTrigger eventOrigin eventType) eventOrigin none eventType
  | .attachState stateOrigin stateType .. =>
    s.AttachesFresh (origins.stateTrigger stateOrigin stateType) stateOrigin
      (origins.stateCondition stateOrigin stateType) stateType
  | .detachEvent .. | .detachState .. | .resetTrigger .. | .trigger .. | .changeCondition ..
  | .wait .. | .timeout => True

instance (origins : Origins) (s : WaitSet) : (op : Operation) → Decidable (s.Fresh origins op)
  | .attachEvent .. | .attachState .. => inferInstanceAs (Decidable (AttachesFresh ..))
  | .detachEvent .. | .detachState .. | .resetTrigger .. | .trigger .. | .changeCondition ..
  | .wait .. | .timeout => inferInstanceAs (Decidable True)

/-- The free indices and the slots with a trigger; a handle is the one of the trigger whose
index it has. -/
structure Slots (s : WaitSet) : Prop where
  nodup : s.indexRepository.Nodup
  lt : ∀ i ∈ s.indexRepository, i < s.capacity
  vacant : ∀ i, i ∈ s.indexRepository ∨ s.capacity ≤ i → s.triggerArray i = none
  occupied : ∀ i < s.capacity, i ∉ s.indexRepository →
    ∃ t, s.triggerArray i = some t ∧ t.uniqueId = i ∧ t.triggerType ≠ .invalid
  handle : ∀ origin handle i, s.triggers origin handle = some i →
    ∃ t, s.triggerArray i = some t ∧ t.notificationOrigin = origin
  unique : ∀ origin handle origin' handle' i, s.triggers origin handle = some i →
    s.triggers origin' handle' = some i → origin = origin' ∧ handle = handle'
  bound : s.capacity < 2 ^ 64

variable {s s' : WaitSet} {t : Trigger} {i : Nat}

theorem Slots.of_some (h : s.Slots) (hi : s.triggerArray i = some t) :
    i < s.capacity ∧ i ∉ s.indexRepository ∧ t.uniqueId = i ∧ t.triggerType ≠ .invalid := by
  have hnot : ¬ (i ∈ s.indexRepository ∨ s.capacity ≤ i) := by
    intro hor
    rw [h.vacant i hor] at hi
    exact absurd hi (Option.some_ne_none t).symm
  obtain ⟨hfree, hle⟩ := not_or.mp hnot
  obtain ⟨t', ht', hid, htype⟩ := h.occupied i (Nat.lt_of_not_le hle) hfree
  cases hi.symm.trans ht'
  exact ⟨Nat.lt_of_not_le hle, hfree, hid, htype⟩

theorem Slots.removeTrigger (h : s.Slots) (hi : s.triggerArray i = some t) :
    s.removeTrigger i = some (s.vacate i i) := by
  obtain ⟨hlt, hfree, hid, -⟩ := h.of_some hi
  have hfind : (List.range s.capacity).find? (fun j =>
      (s.triggerArray j).any (·.uniqueId == i)) = some i := by
    rw [List.find?_range_eq_some]
    refine ⟨?_, List.mem_range.mpr hlt, fun j hj => ?_⟩
    · simp only [hi, Option.any_some, hid, beq_self_eq_true]
    · cases hslot : s.triggerArray j with
      | none => rfl
      | some t' =>
        obtain ⟨-, -, hid', -⟩ := h.of_some hslot
        simp only [Option.any_some, hid', Bool.not_eq_eq_eq_not, Bool.not_true,
          beq_eq_false_iff_ne]
        exact Nat.ne_of_lt hj
  have hroom : s.indexRepository.length < s.capacity :=
    Lib.length_lt_of_nodup_lt h.nodup h.lt hlt hfree
  simp only [WaitSet.removeTrigger, hfind, hroom, if_true]

theorem Slots.vacate (h : s.Slots) (hi : s.triggerArray i = some t) {triggers : TriggerHandles}
    (htriggers : ∀ origin handle j, triggers origin handle = some j →
      s.triggers origin handle = some j ∧ j ≠ i) :
    Slots { s.vacate i i with triggers := triggers } := by
  obtain ⟨hlt, hfree, -, -⟩ := h.of_some hi
  refine ⟨List.nodup_cons.mpr ⟨hfree, h.nodup⟩, fun j hj => ?_, fun j hj => ?_,
    fun j hj hnot => ?_, fun origin handle j hj => ?_, fun origin handle origin' handle' j hj hj' =>
      h.unique _ _ _ _ j (htriggers _ _ j hj).1 (htriggers _ _ j hj').1, h.bound⟩
  · exact (List.mem_cons.mp hj).elim (fun hji => hji ▸ hlt) (h.lt j)
  · by_cases hji : j = i
    · exact hji ▸ Function.update_self ..
    · refine (Function.update_of_ne hji ..).trans (h.vacant j ?_)
      exact hj.imp_left fun hmem => (List.mem_cons.mp hmem).resolve_left hji
  · obtain ⟨hji, hjfree⟩ := not_or.mp (mt List.mem_cons.mpr hnot)
    obtain ⟨t', ht', hrest⟩ := h.occupied j hj hjfree
    exact ⟨t', (Function.update_of_ne hji ..).trans ht', hrest⟩
  · obtain ⟨hold, hji⟩ := htriggers origin handle j hj
    obtain ⟨t', ht', horigin⟩ := h.handle origin handle j hold
    exact ⟨t', (Function.update_of_ne hji ..).trans ht', horigin⟩

structure Attachable (s : WaitSet) (t : Trigger) (indexRepository : List Nat) : Prop where
  slots : s.Slots
  free : s.indexRepository = t.uniqueId :: indexRepository
  type : t.triggerType ≠ .invalid

variable {indexRepository : List Nat}

theorem Attachable.vacant (h : s.Attachable t indexRepository) :
    s.triggerArray t.uniqueId = none :=
  h.slots.vacant _ (Or.inl (h.free ▸ List.mem_cons_self))

theorem Attachable.handle_ne (h : s.Attachable t indexRepository) {origin handle j : Nat}
    (hj : s.triggers origin handle = some j) : j ≠ t.uniqueId := by
  rintro rfl
  obtain ⟨t', ht', -⟩ := h.slots.handle origin handle _ hj
  rw [h.vacant] at ht'
  exact absurd ht' (Option.some_ne_none t').symm

theorem Attachable.occupy (h : s.Attachable t indexRepository) :
    (s.occupy t indexRepository).Slots := by
  have hmem : ∀ {j}, j ∈ indexRepository → j ∈ s.indexRepository :=
    fun hj => h.free ▸ List.mem_cons_of_mem _ hj
  obtain ⟨hfresh, hnodup⟩ := List.nodup_cons.mp (h.free ▸ h.slots.nodup)
  have hlt : t.uniqueId < s.capacity := h.slots.lt _ (h.free ▸ List.mem_cons_self)
  refine ⟨hnodup, fun j hj => h.slots.lt j (hmem hj), fun j hj => ?_, fun j hj hnot => ?_,
    fun origin handle j hj => ?_, h.slots.unique, h.slots.bound⟩
  · have hji : j ≠ t.uniqueId := by
      rintro rfl
      exact hj.elim hfresh (Nat.not_le.mpr hlt)
    exact (Function.update_of_ne hji ..).trans (h.slots.vacant j (hj.imp_left hmem))
  · by_cases hji : j = t.uniqueId
    · subst hji
      exact ⟨t, Function.update_self .., rfl, h.type⟩
    · have hjfree : j ∉ s.indexRepository := by
        rw [h.free, List.mem_cons, not_or]
        exact ⟨hji, hnot⟩
      obtain ⟨t', ht', hrest⟩ := h.slots.occupied j hj hjfree
      exact ⟨t', (Function.update_of_ne hji ..).trans ht', hrest⟩
  · obtain ⟨t', ht', horigin⟩ := h.slots.handle origin handle j hj
    exact ⟨t', (Function.update_of_ne (h.handle_ne hj) ..).trans ht', horigin⟩

structure Recorded (maxNumberOfNotifiers : Nat) (s : WaitSet) : Prop where
  lt : ∀ i, s.Pending i → i < s.capacity ∧ i < maxNumberOfNotifiers
  attachment : ∀ i, WaitSetEvent.attachment i s.history = s.triggerArray i
  condition : ∀ c, WaitSetEvent.condition c s.history = s.conditions c
  due : ∀ i t, s.triggerArray i = some t → WaitSetEvent.Due t s.history → s.Pending i
  delivers : WaitSetEvent.Delivers s.history

structure Notifications (maxNumberOfNotifiers : Nat) (s : WaitSet) : Prop
    extends Recorded maxNumberOfNotifiers s where
  sorted : s.activeNotifications.Pairwise (· < ·)
  semaphore : s.semaphore ≠ 0 ↔ ∃ i, s.notified i = true

/-- No event-based attachment is pending but not due, except for one at index `e`. -/
structure StaleFree (e : Option Nat) (s : WaitSet) : Prop where
  due : ∀ i t, s.triggerArray i = some t → some i ≠ e → t.triggerType = .eventBased →
    s.Pending i → WaitSetEvent.Due t s.history
  noStale : WaitSetEvent.NoStale s.history

variable {maxNumberOfNotifiers : Nat} {e : Option Nat}

theorem StaleFree.weaken (h : s.StaleFree none) : s.StaleFree e :=
  ⟨fun i t ht _ => h.due i t ht (Option.some_ne_none i), h.noStale⟩

theorem Notifications.vacate (h : s.Notifications maxNumberOfNotifiers) (i : Nat)
    (triggers : TriggerHandles) :
    Notifications maxNumberOfNotifiers { s.vacate i i with triggers := triggers } := by
  refine ⟨⟨h.lt, fun j => ?_, h.condition, fun j t ht hdue => ?_, h.delivers⟩, h.sorted,
    h.semaphore⟩
  · change (if i = j then none else _) = Function.update s.triggerArray i none j
    by_cases hij : i = j
    · rw [if_pos hij, hij, Function.update_self]
    · rw [if_neg hij, h.attachment, Function.update_of_ne (Ne.symm hij)]
  · change Function.update s.triggerArray i none j = some t at ht
    by_cases hij : j = i
    · rw [hij, Function.update_self] at ht
      exact absurd ht (Option.some_ne_none t).symm
    · rw [Function.update_of_ne hij] at ht
      exact h.due j t ht hdue

theorem StaleFree.vacate (h : s.StaleFree (some i)) (triggers : TriggerHandles) :
    StaleFree none { s.vacate i i with triggers := triggers } := by
  refine ⟨fun j t ht _ htype hpending => ?_, h.noStale⟩
  change Function.update s.triggerArray i none j = some t at ht
  by_cases hij : j = i
  · rw [hij, Function.update_self] at ht
    exact absurd ht (Option.some_ne_none t).symm
  · rw [Function.update_of_ne hij] at ht
    exact h.due j t ht (fun heq => hij (Option.some.inj heq)) htype hpending

theorem Notifications.occupy (h : s.Notifications maxNumberOfNotifiers) (t : Trigger)
    (indexRepository : List Nat) :
    (s.occupy t indexRepository).Notifications maxNumberOfNotifiers := by
  refine ⟨⟨h.lt, fun j => ?_, h.condition, fun j t' ht hdue => ?_, h.delivers⟩, h.sorted,
    h.semaphore⟩
  · change (if t.uniqueId = j then some t else _) =
      Function.update s.triggerArray t.uniqueId (some t) j
    by_cases hij : t.uniqueId = j
    · rw [if_pos hij, hij, Function.update_self]
    · rw [if_neg hij, h.attachment, Function.update_of_ne (Ne.symm hij)]
  · change Function.update s.triggerArray t.uniqueId (some t) j = some t' at ht
    obtain ⟨hne, hdue⟩ := hdue
    by_cases hij : j = t.uniqueId
    · rw [hij, Function.update_self] at ht
      cases ht
      exact absurd rfl hne
    · rw [Function.update_of_ne hij] at ht
      exact h.due j t' ht hdue

theorem StaleFree.occupy (h : s.StaleFree none) (hslots : s.Slots) (t : Trigger)
    (indexRepository : List Nat)
    (he : some t.uniqueId = e ∨ (t.triggerType = .eventBased → ¬ s.Pending t.uniqueId)) :
    (s.occupy t indexRepository).StaleFree e := by
  refine ⟨fun j t' ht hje htype hpending => ?_, h.noStale⟩
  change Function.update s.triggerArray t.uniqueId (some t) j = some t' at ht
  by_cases hij : j = t.uniqueId
  · rw [hij, Function.update_self] at ht
    cases ht
    subst hij
    exact he.elim (absurd · hje) fun hfresh => absurd hpending (hfresh htype)
  · rw [Function.update_of_ne hij] at ht
    obtain ⟨-, -, hid, -⟩ := hslots.of_some ht
    exact ⟨fun heq => hij (hid.symm.trans heq.symm),
      h.due j t' ht (Option.some_ne_none j) htype hpending⟩

structure Inv (maxNumberOfNotifiers : Nat) (s : WaitSet) : Prop where
  slots : s.Slots
  notifications : s.Notifications maxNumberOfNotifiers

section Attachment

structure Removes (maxNumberOfNotifiers : Nat) (s s' : WaitSet) : Prop where
  inv : s'.Inv maxNumberOfNotifiers
  pc : s'.pc = s.pc
  capacity : s'.capacity = s.capacity
  staleFree : s.StaleFree none → s'.StaleFree none
  triggers : ∀ origin handle i, s'.triggers origin handle = some i →
    s.triggers origin handle = some i
  others : ∀ i, (∀ origin handle, s.triggers origin handle ≠ some i) →
    s'.triggerArray i = s.triggerArray i

theorem Removes.refl (h : s.Inv maxNumberOfNotifiers) : s.Removes maxNumberOfNotifiers s :=
  ⟨h, rfl, rfl, id, fun _ _ _ => id, fun _ _ => rfl⟩

theorem resetTrigger_removes (h : s.Inv maxNumberOfNotifiers) (origin handle : Nat) :
    ∃ s', s.resetTrigger origin handle = some s' ∧ s.Removes maxNumberOfNotifiers s' := by
  cases htrigger : s.triggers origin handle with
  | none =>
    refine ⟨s, ?_, .refl h⟩
    simp only [resetTrigger, htrigger]
  | some i =>
    obtain ⟨t, ht, -⟩ := h.slots.handle origin handle i htrigger
    refine ⟨{ s.vacate i i with triggers := s.triggers.set origin handle none }, ?_,
      ⟨h.slots.vacate ht fun origin' handle' j hj => ?_, h.notifications.vacate i _⟩, rfl, rfl,
      fun hstale => hstale.weaken.vacate _, fun origin' handle' j hj => ?_, fun j hj => ?_⟩
    · simp only [resetTrigger, htrigger, h.slots.removeTrigger ht, Option.map_some]
      rfl
    · rcases TriggerHandles.set_eq_some hj with ⟨-, -, hnone⟩ | ⟨hne, hold⟩
      · exact absurd hnone (Option.some_ne_none j).symm
      · refine ⟨hold, ?_⟩
        rintro rfl
        exact hne (h.slots.unique origin' handle' origin handle j hold htrigger)
    · rcases TriggerHandles.set_eq_some hj with ⟨-, -, hnone⟩ | ⟨-, hold⟩
      · exact absurd hnone (Option.some_ne_none j).symm
      · exact hold
    · refine Function.update_of_ne ?_ ..
      rintro rfl
      exact hj origin handle htrigger

theorem disable_removes (h : s.Inv maxNumberOfNotifiers) (trigger : Option Nat)
    (origin : Nat) :
    ∃ s', s.disable trigger origin = some s' ∧ s.Removes maxNumberOfNotifiers s' := by
  cases trigger with
  | none => exact ⟨s, rfl, .refl h⟩
  | some handle => exact resetTrigger_removes h origin handle

theorem Slots.takeHandle (h : s.Slots) {origin handle : Nat} (ht : s.triggerArray i = some t)
    (horigin : t.notificationOrigin = origin)
    (hfree : ∀ origin handle, s.triggers origin handle ≠ some i) :
    Slots { s with triggers := s.triggers.set origin handle (some i) } := by
  refine ⟨h.nodup, h.lt, h.vacant, h.occupied, fun origin' handle' j hj => ?_,
    fun o₁ h₁ o₂ h₂ j hj₁ hj₂ => ?_, h.bound⟩
  · rcases TriggerHandles.set_eq_some hj with ⟨ho, -, hij⟩ | ⟨-, hold⟩
    · cases hij
      exact ⟨t, ht, horigin.trans ho.symm⟩
    · exact h.handle origin' handle' j hold
  · rcases TriggerHandles.set_eq_some hj₁ with ⟨rfl, rfl, hij⟩ | ⟨-, hold₁⟩ <;>
      rcases TriggerHandles.set_eq_some hj₂ with ⟨ho, hh, hij'⟩ | ⟨-, hold₂⟩
    · exact ⟨ho.symm, hh.symm⟩
    · cases hij
      exact absurd hold₂ (hfree o₂ h₂)
    · cases hij'
      exact absurd hold₁ (hfree o₁ h₁)
    · exact h.unique o₁ h₁ o₂ h₂ j hold₁ hold₂

theorem enable_spec (h : s.Inv maxNumberOfNotifiers) (ht : s.triggerArray i = some t)
    (hfree : ∀ origin handle, s.triggers origin handle ≠ some i) (trigger : Option Nat) :
    ∃ s', s.enable trigger t.notificationOrigin i = some s' ∧ s'.Inv maxNumberOfNotifiers ∧
      s'.pc = s.pc ∧ s'.capacity = s.capacity ∧
      (s.StaleFree (if trigger.isSome then none else some i) → s'.StaleFree none) := by
  cases trigger with
  | none =>
    refine ⟨s.vacate i i, h.slots.removeTrigger ht, ⟨?_, h.notifications.vacate i s.triggers⟩,
      rfl, rfl, fun hstale => hstale.vacate s.triggers⟩
    have hothers : ∀ origin handle j, s.triggers origin handle = some j →
        s.triggers origin handle = some j ∧ j ≠ i := by
      intro origin handle j hj
      refine ⟨hj, ?_⟩
      rintro rfl
      exact hfree origin handle hj
    exact h.slots.vacate ht hothers
  | some handle =>
    obtain ⟨s', hreset, hr⟩ := resetTrigger_removes h t.notificationOrigin handle
    refine ⟨{ s' with triggers := s'.triggers.set t.notificationOrigin handle (some i) }, ?_,
      ⟨?_, ?_⟩, hr.pc, hr.capacity, fun hstale => ?_⟩
    · simp only [enable, hreset, Option.map_some]
    · exact hr.inv.slots.takeHandle ((hr.others i hfree).trans ht) rfl
        fun origin' handle' hi => hfree origin' handle' (hr.triggers origin' handle' i hi)
    · have hn := hr.inv.notifications
      exact ⟨⟨hn.lt, hn.attachment, hn.condition, hn.due, hn.delivers⟩, hn.sorted,
        hn.semaphore⟩
    · have hs := hr.staleFree hstale
      exact ⟨hs.due, hs.noStale⟩

theorem attach_spec (h : s.Inv maxNumberOfNotifiers) (trigger : Option Nat) (origin : Nat)
    (hasTriggeredCallback : Option Nat) (eventId : Nat) (callback : NotificationCallback)
    (type : EventType) :
    ∃ r s', s.attach trigger origin hasTriggeredCallback eventId callback type = some (r, s') ∧
      s'.Inv maxNumberOfNotifiers ∧ s'.pc = s.pc ∧ s'.capacity = s.capacity ∧
      (∀ e, r = .error e → s' = s) ∧
      (s.StaleFree none → s.AttachesFresh trigger origin hasTriggeredCallback type →
        s'.StaleFree none) := by
  unfold attach attachImpl
  cases hattached : s.isAttached origin type.toUInt64 type.hashCode with
  | true => exact ⟨_, s, rfl, h, rfl, rfl, fun _ _ => rfl, fun hstale _ => hstale⟩
  | false =>
    cases hrepository : s.indexRepository with
    | nil => exact ⟨_, s, rfl, h, rfl, rfl, fun _ _ => rfl, fun hstale _ => hstale⟩
    | cons index rest =>
      simp only [Bool.false_eq_true, if_false]
      generalize ht : Trigger.mk origin eventId callback hasTriggeredCallback
        (getInvalidateTriggerMethod origin) index _ _ _ = t
      have hid : t.uniqueId = index := by rw [← ht]
      have horigin : t.notificationOrigin = origin := by rw [← ht]
      have htype : t.triggerType ≠ .invalid := by
        rw [← ht]
        cases hasTriggeredCallback <;> nofun
      have ha : s.Attachable t rest := ⟨h.slots, hid ▸ hrepository, htype⟩
      have hinv : (s.occupy t rest).Inv maxNumberOfNotifiers :=
        ⟨ha.occupy, h.notifications.occupy t rest⟩
      have hslot : (s.occupy t rest).triggerArray index = some t :=
        hid ▸ Function.update_self ..
      obtain ⟨s', henable, hinv', hpc, hcapacity, hstale⟩ := enable_spec hinv hslot
        (fun origin handle hhandle => hid ▸ ha.handle_ne hhandle <| rfl) trigger
      rw [horigin] at henable
      simp only [henable, Option.map_some]
      refine ⟨_, s', rfl, hinv', hpc, hcapacity, nofun, fun hold hfresh => hstale ?_⟩
      refine hold.occupy h.slots t rest ?_
      cases trigger with
      | none => exact Or.inl (congrArg some hid)
      | some handle =>
        refine Or.inr fun hevent => ?_
        rw [hid]
        refine hfresh rfl ?_ hattached index (hrepository ▸ rfl)
        rw [← ht] at hevent
        cases hasTriggeredCallback with
        | none => rfl
        | some c => cases hevent

end Attachment

end WaitSet

end Iceoryx.Popo
