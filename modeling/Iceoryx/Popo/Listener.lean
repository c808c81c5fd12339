import Mathlib.Data.List.Dedup
import Mathlib.Logic.Function.Basic
import Iceoryx.Hoofs.Loffli
import Iceoryx.Lib.Run
import Iceoryx.Lib.Sum

namespace Iceoryx.Popo

open Hoofs Lib

def invalidId : Nat := 2 ^ 64 - 1

/-- An enumerator, and the hash of the enumeration that it belongs to. -/
structure EventType where
  value : Int
  hashCode : Nat
  deriving DecidableEq, Repr

namespace EventType

def toUInt64 (t : EventType) : Nat := (t.value % 2 ^ 64).toNat

/-- `NoEnumUsed::PLACEHOLDER`, for an event that is attached without an enumerator. -/
def placeholder (hashCode : Nat) : EventType where
  value := 0
  hashCode := hashCode

/-- Neither of the two numbers of the event is the one of a slot without an event. -/
def Valid (t : EventType) : Prop := t.toUInt64 ≠ invalidId ∧ t.hashCode ≠ invalidId

instance (t : EventType) : Decidable t.Valid :=
  inferInstanceAs (Decidable (_ ∧ _))

end EventType

/-- `translation` is the instance of `TranslateAndCallTypelessCallback` for the types of the
callback. -/
structure NotificationCallback where
  callback : Option Nat
  contextData : Option Nat
  translation : Nat

/-- The valid trigger handles into one listener: by the origin and the number of the handle
in it, the id of the event. -/
abbrev TriggerHandles := Nat → Nat → Option Nat

namespace TriggerHandles

def set (triggers : TriggerHandles) (origin handle : Nat) (id : Option Nat) : TriggerHandles :=
  Function.update triggers origin (Function.update (triggers origin) handle id)

def invalidateTrigger (triggers : TriggerHandles) (origin uniqueTriggerId : Nat) :
    TriggerHandles :=
  Function.update triggers origin fun handle =>
    if triggers origin handle = some uniqueTriggerId then none else triggers origin handle

theorem set_eq_some {triggers : TriggerHandles} {origin handle origin' handle' i : Nat}
    {id : Option Nat} (h : triggers.set origin handle id origin' handle' = some i) :
    (origin' = origin ∧ handle' = handle ∧ id = some i) ∨
      (¬ (origin' = origin ∧ handle' = handle) ∧ triggers origin' handle' = some i) := by
  unfold set at h
  by_cases horigin : origin' = origin
  · subst horigin
    rw [Function.update_self] at h
    by_cases hhandle : handle' = handle
    · subst hhandle
      rw [Function.update_self] at h
      exact Or.inl ⟨rfl, rfl, h⟩
    · rw [Function.update_of_ne hhandle] at h
      exact Or.inr ⟨fun hboth => hhandle hboth.2, h⟩
  · rw [Function.update_of_ne horigin] at h
    exact Or.inr ⟨fun hboth => horigin hboth.1, h⟩

end TriggerHandles

/-- One slot, `Event_t`.  Objects and functions are told by their address, and a null pointer
is `none`; `invalidationCallback` is the object whose `invalidateTrigger` is to be called. -/
structure Event where
  origin : Option Nat := none
  eventType : Nat := invalidId
  eventTypeHash : Nat := invalidId
  callback : Option Nat := none
  translationCallback : Option Nat := none
  userType : Option Nat := none
  eventId : Nat := invalidId
  invalidationCallback : Option Nat := none
  deriving DecidableEq, Repr

structure Invocation where
  translationCallback : Nat
  origin : Nat
  userType : Option Nat
  callback : Nat
  deriving DecidableEq, Repr

namespace Event

def isInitialized (e : Event) : Bool :=
  e.origin.isSome && e.eventId != invalidId && e.eventType != invalidId &&
    e.eventTypeHash != invalidId && e.callback.isSome && e.translationCallback.isSome &&
    e.invalidationCallback.isSome

def isEqualTo (e : Event) (origin eventType eventTypeHash : Nat) : Bool :=
  e.origin == some origin && e.eventType == eventType && e.eventTypeHash == eventTypeHash

def init (e : Event) (eventId origin : Nat) (userType : Option Nat)
    (eventType eventTypeHash callback translationCallback : Nat)
    (invalidationCallback : Option Nat) : Option Event :=
  if invalidationCallback.isSome then
    some { e with
      eventId := eventId
      origin := some origin
      userType := userType
      eventType := eventType
      eventTypeHash := eventTypeHash
      callback := some callback
      translationCallback := some translationCallback
      invalidationCallback := invalidationCallback }
  else none

def executeCallback (e : Event) : Option Invocation :=
  if e.isInitialized then do
    let translationCallback ← e.translationCallback
    let origin ← e.origin
    let callback ← e.callback
    some
      { translationCallback := translationCallback
        origin := origin
        userType := e.userType
        callback := callback }
  else none

/-- The invalidation callback reaches the handles of the origin; `userType` stays. -/
def reset (e : Event) (triggers : TriggerHandles) : Bool × Event × TriggerHandles :=
  if e.isInitialized then
    (true,
      { e with
        eventId := invalidId
        origin := none
        eventType := invalidId
        eventTypeHash := invalidId
        callback := none
        translationCallback := none
        invalidationCallback := none },
      match e.invalidationCallback with
      | some object => triggers.invalidateTrigger object e.eventId
      | none => triggers)
  else (false, e, triggers)

/-- The slot has been given to an event and not been taken back, but no callback is run for
it and `reset` does not take it back. -/
def isLeaked (e : Event) : Bool := e.origin.isSome && !e.isInitialized

structure Occupied (e : Event) : Prop where
  origin : e.origin.isSome
  eventId : e.eventId ≠ invalidId
  callback : e.callback.isSome
  translationCallback : e.translationCallback.isSome
  invalidationCallback : e.invalidationCallback.isSome

theorem Occupied.isInitialized_iff {e : Event} (h : e.Occupied) :
    e.isInitialized ↔ e.eventType ≠ invalidId ∧ e.eventTypeHash ≠ invalidId := by
  simp [isInitialized, h.origin, h.eventId, h.callback, h.translationCallback,
    h.invalidationCallback]

theorem Occupied.isLeaked_iff {e : Event} (h : e.Occupied) :
    e.isLeaked ↔ ¬ (e.eventType ≠ invalidId ∧ e.eventTypeHash ≠ invalidId) := by
  rw [← h.isInitialized_iff, isLeaked, h.origin, Bool.true_and, Bool.not_eq_true',
    Bool.not_eq_true]

theorem isInitialized_origin {e : Event} (h : e.isInitialized) : e.origin.isSome := by
  simp only [isInitialized, Bool.and_eq_true] at h
  exact h.1.1.1.1.1.1

theorem isLeaked_of_origin_none {e : Event} (h : e.origin = none) : e.isLeaked = false := by
  rw [isLeaked, h]
  rfl

theorem isLeaked_of_isInitialized {e : Event} (h : e.isInitialized) : e.isLeaked = false := by
  rw [isLeaked, h, Bool.not_true, Bool.and_false]

theorem reset_of_isInitialized {e : Event} (h : e.isInitialized) (triggers : TriggerHandles) :
    ∃ e' triggers', e.reset triggers = (true, e', triggers') ∧ e'.origin = none := by
  rw [reset, if_pos h]
  exact ⟨_, _, rfl, rfl⟩

theorem reset_of_not_isInitialized {e : Event} (h : ¬ e.isInitialized)
    (triggers : TriggerHandles) : e.reset triggers = (false, e, triggers) :=
  if_neg h

end Event

structure IndexManager where
  loffli : Loffli
  indicesInUse : Nat

namespace IndexManager

def pop (m : IndexManager) : Option (Nat × IndexManager) :=
  m.loffli.pop.map fun (index, loffli) =>
    (index, { loffli := loffli, indicesInUse := (m.indicesInUse + 1) % 2 ^ 64 })

def push (m : IndexManager) (index : Nat) : Option IndexManager :=
  (m.loffli.push index).map fun loffli =>
    { loffli := loffli, indicesInUse := (m.indicesInUse + (2 ^ 64 - 1)) % 2 ^ 64 }

structure Rep (m : IndexManager) (capacity : Nat) (free : List Nat) : Prop where
  loffli : m.loffli.Rep free
  size : m.loffli.size = capacity
  bound : capacity < uint32Range
  used : m.indicesInUse + free.length = capacity

variable {m : IndexManager} {capacity i : Nat} {free : List Nat}

theorem pop_nil (h : m.Rep capacity []) : m.pop = none := by
  rw [pop, Loffli.pop_nil h.loffli]
  rfl

theorem pop_cons (h : m.Rep capacity (i :: free)) :
    ∃ m', m.pop = some (i, m') ∧ m'.Rep capacity free := by
  obtain ⟨loffli, hpop, hsize, hrep⟩ := Loffli.pop_cons h.loffli
  have hbound := h.bound
  have hused := h.used
  rw [List.length_cons] at hused
  refine ⟨{ loffli := loffli, indicesInUse := (m.indicesInUse + 1) % 2 ^ 64 }, ?_,
    hrep, hsize.trans h.size, h.bound, ?_⟩
  · rw [pop, hpop]
    rfl
  · change (m.indicesInUse + 1) % 2 ^ 64 + free.length = capacity
    unfold uint32Range at hbound
    omega

theorem push_taken (h : m.Rep capacity free) (hi : i < capacity) (hfree : i ∉ free) :
    ∃ m', m.push i = some m' ∧ m'.Rep capacity (i :: free) := by
  obtain ⟨loffli, hpush, hsize, hrep⟩ :=
    Loffli.push_taken h.loffli (h.size.symm ▸ hi) hfree
  have hbound := h.bound
  have hused := h.used
  have hle := hrep.length_le
  rw [hsize, h.size, List.length_cons] at hle
  refine ⟨{ loffli := loffli, indicesInUse := (m.indicesInUse + (2 ^ 64 - 1)) % 2 ^ 64 }, ?_,
    hrep, hsize.trans h.size, h.bound, ?_⟩
  · rw [push, hpush]
    rfl
  · change (m.indicesInUse + (2 ^ 64 - 1)) % 2 ^ 64 + (free.length + 1) = capacity
    unfold uint32Range at hbound
    omega

end IndexManager

inductive ListenerError
  | listenerFull | eventAlreadyAttached | emptyEventCallback | emptyInvalidationCallback
  deriving DecidableEq, Repr

structure Listener where
  capacity : Nat
  indexManager : IndexManager
  events : Nat → Event
  triggers : TriggerHandles

namespace Listener

def start (capacity : Nat) : Option Listener :=
  (Loffli.init capacity).map fun loffli =>
    { capacity := capacity
      indexManager := { loffli := loffli, indicesInUse := 0 }
      events := fun _ => {}
      triggers := fun _ _ => none }

def getInvalidateTriggerMethod (origin : Nat) : Option Nat := some origin

section Operations

-- The handle in which `enableEvent` of an origin keeps an event, if it knows the event.
variable (eventTrigger : Nat → EventType → Option Nat)

variable (l : Listener)

def size : Nat := l.indexManager.indicesInUse

def attached : List Event := ((List.range l.capacity).map l.events).filter (·.isInitialized)

def free : List Nat := l.indexManager.loffli.free

def addEvent (origin : Nat) (userType : Option Nat)
    (eventType eventTypeHash callback translationCallback : Nat)
    (invalidationCallback : Option Nat) : Except ListenerError Nat × Listener :=
  if ∃ i < l.capacity, (l.events i).isEqualTo origin eventType eventTypeHash then
    (.error .eventAlreadyAttached, l)
  else
    match l.indexManager.pop with
    | none => (.error .listenerFull, l)
    | some (index, indexManager) =>
      let l := { l with indexManager := indexManager }
      match (l.events index).init index origin userType eventType eventTypeHash callback
          translationCallback invalidationCallback with
      | none => (.error .emptyInvalidationCallback, l)
      | some event => (.ok index, { l with events := Function.update l.events index event })

def removeTrigger (index : Nat) : Option Listener :=
  if index ≥ l.capacity then some l
  else
    let (wasReset, event, triggers) := (l.events index).reset l.triggers
    let l := { l with events := Function.update l.events index event, triggers := triggers }
    if wasReset then
      (l.indexManager.push (index % uint32Range)).map fun indexManager =>
        { l with indexManager := indexManager }
    else some l

def resetTrigger (origin handle : Nat) : Option Listener :=
  match l.triggers origin handle with
  | none => some l
  | some uniqueTriggerId =>
    (l.removeTrigger uniqueTriggerId).map fun l =>
      { l with triggers := l.triggers.set origin handle none }

/-- The move into the handle of the origin resets what the handle held before.  A handle that
the origin does not take is reset by its own destructor. -/
def enableEvent (origin : Nat) (eventType : EventType) (eventId : Nat) : Option Listener :=
  match eventTrigger origin eventType with
  | none => l.removeTrigger eventId
  | some handle =>
    (l.resetTrigger origin handle).map fun l =>
      { l with triggers := l.triggers.set origin handle (some eventId) }

def disableEvent (origin : Nat) (eventType : EventType) : Option Listener :=
  match eventTrigger origin eventType with
  | none => some l
  | some handle => l.resetTrigger origin handle

def attachEvent (origin : Nat) (eventType : EventType) (eventCallback : NotificationCallback) :
    Option (Except ListenerError Unit × Listener) :=
  match eventCallback.callback with
  | none => some (.error .emptyEventCallback, l)
  | some callback =>
    match l.addEvent origin eventCallback.contextData eventType.toUInt64 eventType.hashCode
        callback eventCallback.translation (getInvalidateTriggerMethod origin) with
    | (.error e, l) => some (.error e, l)
    | (.ok eventId, l) =>
      (l.enableEvent eventTrigger origin eventType eventId).map fun l => (.ok (), l)

def detachEvent (origin : Nat) (eventType : EventType) : Option Listener :=
  l.disableEvent eventTrigger origin eventType

def executeCallback (id : Nat) : Option (Option Invocation) :=
  if id < l.capacity then some (l.events id).executeCallback else none

/-- `resetTrigger` is a handle that its origin resets itself: in the destructor of the origin,
or when the origin is attached elsewhere.  What a callback calls comes after it. -/
inductive Operation
  | attachEvent (origin : Nat) (eventType : EventType) (eventCallback : NotificationCallback)
  | detachEvent (origin : Nat) (eventType : EventType)
  | resetTrigger (origin handle : Nat)
  | executeCallback (id : Nat)

def perform : Operation → Option Listener
  | .attachEvent origin eventType eventCallback =>
    (l.attachEvent eventTrigger origin eventType eventCallback).map Prod.snd
  | .detachEvent origin eventType => l.detachEvent eventTrigger origin eventType
  | .resetTrigger origin handle => l.resetTrigger origin handle
  | .executeCallback id => (l.executeCallback id).map fun _ => l

def Accepts (origin eventType eventTypeHash : Nat) : Prop :=
  (¬ ∃ i < l.capacity, (l.events i).isEqualTo origin eventType eventTypeHash) ∧ l.free ≠ []

instance (origin eventType eventTypeHash : Nat) :
    Decidable (l.Accepts origin eventType eventTypeHash) :=
  inferInstanceAs (Decidable (_ ∧ _))

/-- No event with a number of an empty slot gets a slot. -/
def Admits : Operation → Prop
  | .attachEvent origin eventType eventCallback =>
    eventCallback.callback ≠ none →
      l.Accepts origin eventType.toUInt64 eventType.hashCode → eventType.Valid
  | .detachEvent .. | .resetTrigger .. | .executeCallback .. => True

instance : (op : Operation) → Decidable (l.Admits op)
  | .attachEvent .. => inferInstanceAs (Decidable (_ → _ → _))
  | .detachEvent .. | .resetTrigger .. | .executeCallback .. => inferInstanceAs (Decidable True)

structure Unchanged (l l' : Listener) : Prop where
  size : l'.size = l.size
  attached : l'.attached = l.attached
  free : l'.free = l.free

end Operations

structure Rep (l : Listener) (free : List Nat) : Prop where
  indexManager : l.indexManager.Rep l.capacity free
  vacant : ∀ i, i ∈ free ∨ l.capacity ≤ i → (l.events i).origin = none
  occupied : ∀ i < l.capacity, i ∉ free → (l.events i).Occupied

def Consistent (l : Listener) : Prop := ∃ free, l.Rep free

def leaked (l : Listener) : List Event :=
  ((List.range l.capacity).map l.events).filter (·.isLeaked)

variable {l l' : Listener} {free : List Nat}

theorem Rep.free_eq (h : l.Rep free) : l.free = free := h.indexManager.loffli.free_eq

theorem Rep.head_lt {index : Nat} (h : l.Rep (index :: free)) : index < l.capacity :=
  h.indexManager.size ▸ h.indexManager.loffli.lt index List.mem_cons_self

theorem Rep.congr (h : l.Rep free) (hmanager : l'.indexManager = l.indexManager)
    (hcapacity : l'.capacity = l.capacity) (hevents : l'.events = l.events) : l'.Rep free := by
  refine ⟨?_, ?_, ?_⟩
  · rw [hmanager, hcapacity]
    exact h.indexManager
  · rw [hcapacity, hevents]
    exact h.vacant
  · rw [hcapacity, hevents]
    exact h.occupied

theorem Rep.vacate {index : Nat} {indexManager : IndexManager} {event : Event}
    (h : l.Rep free) (hmanager : indexManager.Rep l.capacity (index :: free))
    (hevent : event.origin = none) (triggers : TriggerHandles) :
    Rep { l with
      indexManager := indexManager
      events := Function.update l.events index event
      triggers := triggers } (index :: free) := by
  refine ⟨hmanager, fun i hi => ?_, fun i hi hnot => ?_⟩
  · by_cases hii : i = index
    · exact hii ▸ (congrArg Event.origin (Function.update_self ..)).trans hevent
    · refine (congrArg Event.origin (Function.update_of_ne hii ..)).trans ?_
      exact h.vacant i (hi.imp_left fun hmem => (List.mem_cons.mp hmem).resolve_left hii)
  · obtain ⟨hii, hifree⟩ := not_or.mp (mt List.mem_cons.mpr hnot)
    change (Function.update l.events index event i).Occupied
    rw [Function.update_of_ne hii]
    exact h.occupied i hi hifree

theorem Rep.occupy {index : Nat} {indexManager : IndexManager} {event : Event}
    (h : l.Rep (index :: free)) (hmanager : indexManager.Rep l.capacity free)
    (hevent : event.Occupied) :
    Rep { l with
      indexManager := indexManager
      events := Function.update l.events index event } free := by
  obtain ⟨hfresh, -⟩ := List.nodup_cons.mp h.indexManager.loffli.nodup
  refine ⟨hmanager, fun i hi => ?_, fun i hi hnot => ?_⟩
  · have hii : i ≠ index := by
      rintro rfl
      exact hi.elim hfresh (Nat.not_le.mpr h.head_lt)
    refine (congrArg Event.origin (Function.update_of_ne hii ..)).trans ?_
    exact h.vacant i (hi.imp_left (List.mem_cons_of_mem index))
  · change (Function.update l.events index event i).Occupied
    by_cases hii : i = index
    · rw [hii, Function.update_self]
      exact hevent
    · rw [Function.update_of_ne hii]
      exact h.occupied i hi fun hmem => (List.mem_cons.mp hmem).elim hii hnot

theorem start_rep {capacity : Nat} (h : start capacity = some l) :
    l.Rep (List.range capacity) ∧ ∀ i, l.events i = {} := by
  obtain ⟨loffli, hinit, rfl⟩ := Option.map_eq_some_iff.mp h
  obtain ⟨hsize, hrep⟩ := Loffli.init_rep hinit
  refine ⟨⟨⟨hrep, hsize, Loffli.init_lt hinit, ?_⟩, fun _ _ => rfl, ?_⟩, fun _ => rfl⟩
  · exact (Nat.zero_add _).trans List.length_range
  · intro i hi hfree
    exact absurd (List.mem_range.mpr hi) hfree

section Removal

structure Removes (l l' : Listener) : Prop where
  consistent : l'.Consistent
  leaks : ∀ i, (l'.events i).isLeaked = (l.events i).isLeaked

theorem Removes.refl (h : l.Consistent) : l.Removes l := ⟨h, fun _ => rfl⟩

theorem Removes.triggers (h : l.Removes l') (triggers : TriggerHandles) :
    l.Removes { l' with triggers := triggers } := by
  obtain ⟨free, hrep⟩ := h.consistent
  exact ⟨⟨free, hrep.congr rfl rfl rfl⟩, h.leaks⟩

theorem removeTrigger_removes (h : l.Consistent) (index : Nat) :
    ∃ l', l.removeTrigger index = some l' ∧ l.Removes l' := by
  by_cases hindex : index ≥ l.capacity
  · exact ⟨l, if_pos hindex, .refl h⟩
  rw [removeTrigger, if_neg hindex]
  by_cases hinit : (l.events index).isInitialized
  · obtain ⟨free, hrep⟩ := h
    have hlt : index < l.capacity := Nat.lt_of_not_le hindex
    have hfree : index ∉ free := by
      intro hmem
      have hsome := Event.isInitialized_origin hinit
      rw [hrep.vacant index (Or.inl hmem)] at hsome
      exact absurd hsome Bool.false_ne_true
    obtain ⟨event, triggers, hreset, hevent⟩ :=
      Event.reset_of_isInitialized hinit l.triggers
    obtain ⟨indexManager, hpush, hmanager⟩ := IndexManager.push_taken hrep.indexManager hlt hfree
    have hmod : index % uint32Range = index :=
      Nat.mod_eq_of_lt (Nat.lt_trans hlt hrep.indexManager.bound)
    simp only [hreset, if_true, hmod, hpush, Option.map_some]
    refine ⟨_, rfl, ⟨index :: free, hrep.vacate hmanager hevent triggers⟩, fun i => ?_⟩
    change (Function.update l.events index event i).isLeaked = (l.events i).isLeaked
    by_cases hii : i = index
    · rw [hii, Function.update_self, Event.isLeaked_of_origin_none hevent,
        Event.isLeaked_of_isInitialized hinit]
    · rw [Function.update_of_ne hii]
  · simp only [Event.reset_of_not_isInitialized hinit, Bool.false_eq_true, if_false,
      Function.update_eq_self]
    exact ⟨l, rfl, .refl h⟩

theorem resetTrigger_removes (h : l.Consistent) (origin handle : Nat) :
    ∃ l', l.resetTrigger origin handle = some l' ∧ l.Removes l' := by
  cases htrigger : l.triggers origin handle with
  | none =>
    refine ⟨l, ?_, .refl h⟩
    simp only [resetTrigger, htrigger]
  | some uniqueTriggerId =>
    obtain ⟨l', hremove, hremoves⟩ := removeTrigger_removes h uniqueTriggerId
    refine ⟨_, ?_, hremoves.triggers (l'.triggers.set origin handle none)⟩
    simp only [resetTrigger, htrigger, hremove, Option.map_some]

variable (eventTrigger : Nat → EventType → Option Nat)

theorem disableEvent_removes (h : l.Consistent) (origin : Nat) (eventType : EventType) :
    ∃ l', l.disableEvent eventTrigger origin eventType = some l' ∧ l.Removes l' := by
  unfold disableEvent
  cases eventTrigger origin eventType with
  | none => exact ⟨l, rfl, .refl h⟩
  | some handle => exact resetTrigger_removes h origin handle

theorem enableEvent_removes (h : l.Consistent) (origin : Nat) (eventType : EventType)
    (eventId : Nat) :
    ∃ l', l.enableEvent eventTrigger origin eventType eventId = some l' ∧ l.Removes l' := by
  unfold enableEvent
  cases eventTrigger origin eventType with
  | none => exact removeTrigger_removes h eventId
  | some handle =>
    obtain ⟨l', hreset, hremoves⟩ := resetTrigger_removes h origin handle
    refine ⟨_, ?_, hremoves.triggers (l'.triggers.set origin handle (some eventId))⟩
    simp only [hreset, Option.map_some]

end Removal

section Attachment

theorem addEvent_refused {origin eventType eventTypeHash : Nat} (h : l.Consistent)
    (hrefused : ¬ l.Accepts origin eventType eventTypeHash) (userType : Option Nat)
    (callback translationCallback : Nat) (invalidationCallback : Option Nat) :
    ∃ e, l.addEvent origin userType eventType eventTypeHash callback translationCallback
      invalidationCallback = (.error e, l) := by
  unfold addEvent
  split
  · exact ⟨_, rfl⟩
  · next hnew =>
    obtain ⟨free, hrep⟩ := h
    have hfull : free = [] := by
      by_contra hroom
      exact hrefused ⟨hnew, hrep.free_eq.symm ▸ hroom⟩
    subst hfull
    rw [IndexManager.pop_nil hrep.indexManager]
    exact ⟨_, rfl⟩

theorem Accepts.pop {origin eventType eventTypeHash : Nat} (h : l.Consistent)
    (haccepts : l.Accepts origin eventType eventTypeHash) :
    ∃ index rest indexManager, l.Rep (index :: rest) ∧
      l.indexManager.pop = some (index, indexManager) ∧
        indexManager.Rep l.capacity rest := by
  obtain ⟨free, hrep⟩ := h
  cases free with
  | nil => exact absurd hrep.free_eq haccepts.2
  | cons index rest =>
    obtain ⟨indexManager, hpop, hmanager⟩ := IndexManager.pop_cons hrep.indexManager
    exact ⟨index, rest, indexManager, hrep, hpop, hmanager⟩

theorem addEvent_accepted {origin eventType eventTypeHash : Nat} (h : l.Consistent)
    (haccepts : l.Accepts origin eventType eventTypeHash) (userType : Option Nat)
    (callback translationCallback object : Nat) :
    ∃ index l', l.addEvent origin userType eventType eventTypeHash callback translationCallback
        (some object) = (.ok index, l') ∧ l'.Consistent ∧
      (l.events index).isLeaked = false ∧
      ((l'.events index).isLeaked ↔ ¬ (eventType ≠ invalidId ∧ eventTypeHash ≠ invalidId)) ∧
      ∀ i, i ≠ index → l'.events i = l.events i := by
  obtain ⟨index, rest, indexManager, hrep, hpop, hmanager⟩ := haccepts.pop h
  have hvacant := hrep.vacant index (Or.inl List.mem_cons_self)
  have hid : index ≠ invalidId := by
    have hlt := Nat.lt_trans hrep.head_lt hrep.indexManager.bound
    unfold uint32Range at hlt
    unfold invalidId
    omega
  rw [addEvent, if_neg haccepts.1, hpop]
  simp only [Event.init, Option.isSome_some, if_true]
  refine ⟨index, _, rfl, ⟨rest, hrep.occupy hmanager ⟨rfl, hid, rfl, rfl, rfl⟩⟩,
    Event.isLeaked_of_origin_none hvacant, ?_, fun i hii => Function.update_of_ne hii _ _⟩
  simp only [Function.update_self]
  exact Event.Occupied.isLeaked_iff ⟨rfl, hid, rfl, rfl, rfl⟩

/-- Without an invalidation callback the index is gone and no event is attached. -/
theorem addEvent_loses {origin eventType eventTypeHash : Nat} (h : l.Consistent)
    (haccepts : l.Accepts origin eventType eventTypeHash) (userType : Option Nat)
    (callback translationCallback : Nat) :
    ∃ index l', l.addEvent origin userType eventType eventTypeHash callback translationCallback
        none = (.error .emptyInvalidationCallback, l') ∧
      l'.attached = l.attached ∧ l'.size = l.size + 1 ∧ l.free = index :: l'.free := by
  obtain ⟨index, rest, indexManager, hrep, hpop, hmanager⟩ := haccepts.pop h
  rw [addEvent, if_neg haccepts.1, hpop]
  refine ⟨index, _, rfl, rfl, ?_, ?_⟩
  · have hused := hrep.indexManager.used
    have hused' := hmanager.used
    rw [List.length_cons] at hused
    change indexManager.indicesInUse = l.indexManager.indicesInUse + 1
    omega
  · rw [hrep.free_eq]
    exact congrArg (index :: ·) hmanager.loffli.free_eq.symm

theorem addEvent_unchanged_iff {origin eventType eventTypeHash : Nat} {userType : Option Nat}
    {callback translationCallback : Nat} {invalidationCallback : Option Nat} {e : ListenerError}
    (h : l.Consistent) (hadd : l.addEvent origin userType eventType eventTypeHash callback
      translationCallback invalidationCallback = (.error e, l')) :
    l.Unchanged l' ↔
      (l.Accepts origin eventType eventTypeHash → invalidationCallback ≠ none) := by
  by_cases haccepts : l.Accepts origin eventType eventTypeHash
  · cases invalidationCallback with
    | none =>
      obtain ⟨index, l'', hlost, -, hsize, -⟩ :=
        addEvent_loses h haccepts userType callback translationCallback
      rw [hlost] at hadd
      cases hadd
      refine iff_of_false (fun hunchanged => ?_) fun himp => himp haccepts rfl
      have hsame := hunchanged.size
      omega
    | some object =>
      obtain ⟨index, l'', hadded, -⟩ :=
        addEvent_accepted h haccepts userType callback translationCallback object
      rw [hadded] at hadd
      cases hadd
  · obtain ⟨e', herror⟩ := addEvent_refused h haccepts userType callback translationCallback
      invalidationCallback
    rw [herror] at hadd
    cases hadd
    exact iff_of_true ⟨rfl, rfl, rfl⟩ fun hyes => absurd hyes haccepts

def HasLeak (l : Listener) : Prop := ∃ i, (l.events i).isLeaked

theorem Removes.hasLeak (h : l.Removes l') : l'.HasLeak ↔ l.HasLeak :=
  exists_congr fun i => by rw [h.leaks i]

variable (eventTrigger : Nat → EventType → Option Nat)

theorem attachEvent_returns (h : l.Consistent) (origin : Nat) (eventType : EventType)
    (eventCallback : NotificationCallback) :
    ∃ r l', l.attachEvent eventTrigger origin eventType eventCallback = some (r, l') ∧
      l'.Consistent ∧ (∀ e, r = .error e → l' = l) ∧
      (l'.HasLeak ↔ l.HasLeak ∨ ¬ l.Admits (.attachEvent origin eventType eventCallback)) := by
  cases hcallback : eventCallback.callback with
  | none =>
    refine ⟨.error .emptyEventCallback, l, ?_, h, fun _ _ => rfl, ?_⟩
    · rw [attachEvent, hcallback]
    · have hadmits : l.Admits (.attachEvent origin eventType eventCallback) :=
        fun hset => absurd hcallback hset
      simp only [hadmits, not_true_eq_false, or_false]
  | some callback =>
    have hset : eventCallback.callback ≠ none := by
      rw [hcallback]
      exact Option.some_ne_none callback
    by_cases haccepts : l.Accepts origin eventType.toUInt64 eventType.hashCode
    · obtain ⟨index, l₁, hadd, hconsistent, hold, hnew, hothers⟩ :=
        addEvent_accepted h haccepts eventCallback.contextData callback
          eventCallback.translation origin
      obtain ⟨l', henable, hremoves⟩ :=
        enableEvent_removes eventTrigger hconsistent origin eventType index
      refine ⟨.ok (), l', ?_, hremoves.consistent, nofun, ?_⟩
      · simp only [attachEvent, hcallback, getInvalidateTriggerMethod, hadd, henable,
          Option.map_some]
      rw [hremoves.hasLeak]
      have hadmits : l.Admits (.attachEvent origin eventType eventCallback) ↔
          eventType.Valid := ⟨fun hall => hall hset haccepts, fun hvalid _ _ => hvalid⟩
      rw [hadmits, EventType.Valid, ← hnew]
      constructor
      · rintro ⟨i, hi⟩
        by_cases hii : i = index
        · exact Or.inr (hii ▸ hi)
        · exact Or.inl ⟨i, hothers i hii ▸ hi⟩
      · rintro (⟨i, hi⟩ | hi)
        · refine ⟨i, ?_⟩
          rw [hothers i]
          · exact hi
          · rintro rfl
            rw [hold] at hi
            exact absurd hi Bool.false_ne_true
        · exact ⟨index, hi⟩
    · obtain ⟨e, hadd⟩ := addEvent_refused h haccepts eventCallback.contextData callback
        eventCallback.translation (getInvalidateTriggerMethod origin)
      refine ⟨.error e, l, ?_, h, fun _ _ => rfl, ?_⟩
      · simp only [attachEvent, hcallback, hadd]
      · have hadmits : l.Admits (.attachEvent origin eventType eventCallback) :=
          fun _ hyes => absurd hyes haccepts
        simp only [hadmits, not_true_eq_false, or_false]

theorem perform_hasLeak (op : Operation) (h : l.Consistent)
    (hstep : l.perform eventTrigger op = some l') :
    l'.Consistent ∧ (l'.HasLeak ↔ l.HasLeak ∨ ¬ l.Admits op) := by
  have hremoves : ∀ {l₁}, l.Removes l₁ → l₁.Consistent ∧ (l₁.HasLeak ↔ l.HasLeak ∨ ¬ True) :=
    fun hr => ⟨hr.consistent, by rw [hr.hasLeak, not_true_eq_false, or_false]⟩
  cases op with
  | attachEvent origin eventType eventCallback =>
    obtain ⟨r, l₁, hattach, hconsistent, -, hleak⟩ :=
      attachEvent_returns eventTrigger h origin eventType eventCallback
    simp only [perform, hattach, Option.map_some, Option.some.injEq] at hstep
    subst hstep
    exact ⟨hconsistent, hleak⟩
  | detachEvent origin eventType =>
    obtain ⟨l₁, hdisable, hr⟩ := disableEvent_removes eventTrigger h origin eventType
    obtain rfl : l₁ = l' := Option.some.inj (hdisable.symm.trans hstep)
    exact hremoves hr
  | resetTrigger origin handle =>
    obtain ⟨l₁, hreset, hr⟩ := resetTrigger_removes h origin handle
    obtain rfl : l₁ = l' := Option.some.inj (hreset.symm.trans hstep)
    exact hremoves hr
  | executeCallback id =>
    obtain ⟨-, -, rfl⟩ := Option.map_eq_some_iff.mp hstep
    exact hremoves (.refl h)

end Attachment

section Accounting

theorem Rep.countP_free (h : l.Rep free) :
    (List.range l.capacity).countP (· ∈ free) = free.length := by
  rw [List.countP_eq_length_filter]
  refine List.Perm.length_eq ?_
  refine (List.perm_ext_iff_of_nodup (List.nodup_range.filter _)
    h.indexManager.loffli.nodup).mpr fun i => ?_
  rw [List.mem_filter, List.mem_range, decide_eq_true_iff, and_iff_right_iff_imp]
  exact fun hi => h.indexManager.size ▸ h.indexManager.loffli.lt i hi

theorem Rep.size_eq (h : l.Rep free) : l.size = l.attached.length + l.leaked.length := by
  have hcount : ∀ p : Event → Bool,
      (((List.range l.capacity).map l.events).filter p).length =
        (List.range l.capacity).countP fun i => p (l.events i) := by
    intro p
    rw [← List.countP_eq_length_filter, List.countP_map]
    rfl
  have htaken : (List.range l.capacity).countP (fun i => ¬ decide (i ∈ free)) =
      (List.range l.capacity).countP (fun i => (l.events i).isInitialized) +
        (List.range l.capacity).countP (fun i => (l.events i).isLeaked) := by
    refine countP_eq_add fun i hi => ?_
    by_cases hfree : i ∈ free
    · have hvacant := h.vacant i (Or.inl hfree)
      have hinit : ¬ (l.events i).isInitialized := by
        intro hinit
        have hsome := Event.isInitialized_origin hinit
        rw [hvacant] at hsome
        exact absurd hsome Bool.false_ne_true
      simp only [hfree, hinit, Event.isLeaked_of_origin_none hvacant]
      decide
    · have hoccupied := h.occupied i (List.mem_range.mp hi) hfree
      by_cases hinit : (l.events i).isInitialized
      · simp [hfree, hinit, Event.isLeaked_of_isInitialized hinit]
      · simp [hfree, hinit, Event.isLeaked, hoccupied.origin]
  have hall := List.length_eq_countP_add_countP (· ∈ free) (l := List.range l.capacity)
  rw [List.length_range, h.countP_free, htaken] at hall
  have hused := h.indexManager.used
  rw [size, attached, leaked, hcount, hcount]
  omega

theorem leaked_eq_nil_iff (h : l.Consistent) : l.leaked = [] ↔ ¬ l.HasLeak := by
  obtain ⟨free, hrep⟩ := h
  rw [leaked, List.filter_eq_nil_iff]
  constructor
  · rintro hnone ⟨i, hi⟩
    have hlt : i < l.capacity := by
      by_contra hge
      have hvacant := hrep.vacant i (Or.inr (Nat.le_of_not_lt hge))
      rw [Event.isLeaked_of_origin_none hvacant] at hi
      exact absurd hi Bool.false_ne_true
    exact hnone _ (List.mem_map_of_mem (List.mem_range.mpr hlt)) hi
  · intro hnone e he hleak
    obtain ⟨i, -, rfl⟩ := List.mem_map.mp he
    exact hnone ⟨i, hleak⟩

theorem size_eq_attached_iff (h : l.Consistent) :
    l.size = l.attached.length ↔ ¬ l.HasLeak := by
  rw [← leaked_eq_nil_iff h]
  obtain ⟨free, hrep⟩ := h
  rw [hrep.size_eq, Nat.add_eq_left, List.length_eq_zero_iff]

end Accounting

variable (eventTrigger : Nat → EventType → Option Nat)

/-- `size()` counts the attached events exactly as long as no event with a number of an empty
slot got a slot.  No call of `attachEvent` that fails changes the listener; `addEvent` loses
an index when it is the invalidation callback that is missing. -/
theorem attachEvent_exact {capacity : Nat} {l₀ : Listener} {ops : List Operation}
    (hstart : start capacity = some l₀)
    (hrun : runSteps (perform eventTrigger) l₀ ops = some l) :
    ((l.size = l.attached.length ∧
        ∀ origin eventType eventCallback e l',
          l.attachEvent eventTrigger origin eventType eventCallback = some (.error e, l') →
            l.Unchanged l') ↔
      Meets (perform eventTrigger) Admits l₀ ops) ∧
    ∀ origin userType eventType eventTypeHash callback translationCallback invalidationCallback
      e l', l.addEvent origin userType eventType eventTypeHash callback translationCallback
          invalidationCallback = (.error e, l') →
        (l.Unchanged l' ↔
          (l.Accepts origin eventType eventTypeHash → invalidationCallback ≠ none)) := by
  obtain ⟨hrep, hempty⟩ := start_rep hstart
  obtain ⟨hconsistent, hleak⟩ :=
    runSteps_defect (fun _ op _ => perform_hasLeak eventTrigger op) ops l₀ l ⟨_, hrep⟩ hrun
  refine ⟨?_, fun _ _ _ _ _ _ _ _ _ => addEvent_unchanged_iff hconsistent⟩
  have hfailed : ∀ origin eventType eventCallback e l',
      l.attachEvent eventTrigger origin eventType eventCallback = some (.error e, l') →
        l.Unchanged l' := by
    intro origin eventType eventCallback e l' hattach
    obtain ⟨r, l'', hreturns, -, hsame, -⟩ :=
      attachEvent_returns eventTrigger hconsistent origin eventType eventCallback
    cases hreturns.symm.trans hattach
    cases hsame e rfl
    exact ⟨rfl, rfl, rfl⟩
  have hnew : ¬ l₀.HasLeak := by
    rintro ⟨i, hi⟩
    rw [hempty i] at hi
    exact absurd hi (by decide)
  rw [and_iff_left hfailed, size_eq_attached_iff hconsistent, hleak, or_iff_right hnew,
    not_not]

section Example

def history (capacity : Nat) (ops : List Operation) : Option (Listener × Listener) := do
  let l₀ ← start capacity
  let l ← runSteps (perform eventTrigger) l₀ ops
  some (l₀, l)

theorem history_eq_some {capacity : Nat} {ops : List Operation} {l₀ : Listener}
    (h : history eventTrigger capacity ops = some (l₀, l)) :
    start capacity = some l₀ ∧ runSteps (perform eventTrigger) l₀ ops = some l := by
  obtain ⟨l₁, hstart, h⟩ := Option.bind_eq_some_iff.mp h
  obtain ⟨l₂, hrun, h⟩ := Option.bind_eq_some_iff.mp h
  cases h
  exact ⟨hstart, hrun⟩

def singleTrigger (_ : Nat) (_ : EventType) : Option Nat := some 0

def attachment (origin : Nat) (value : Int) : Operation :=
  .attachEvent origin
    { value := value, hashCode := 11 }
    { callback := some 100, contextData := none, translation := 200 }

def detachment (origin : Nat) (value : Int) : Operation :=
  .detachEvent origin { value := value, hashCode := 11 }

theorem attachEvent_exact_once :
    ∃ l₀ l, start 2 = some l₀ ∧
      runSteps (perform singleTrigger) l₀ [attachment 7 0, attachment 7 0, attachment 8 0,
        attachment 9 0, .executeCallback 0, detachment 7 0] = some l ∧
      l.size = l.attached.length := by
  have hmeets : (history singleTrigger 2 [attachment 7 0, attachment 7 0, attachment 8 0,
      attachment 9 0, .executeCallback 0, detachment 7 0]).map (fun (l₀, _) =>
        decide (Meets (perform singleTrigger) Admits l₀ [attachment 7 0, attachment 7 0,
          attachment 8 0, attachment 9 0, .executeCallback 0, detachment 7 0])) =
            some true := by
    decide +kernel
  obtain ⟨⟨l₀, l⟩, hhistory, hmeets⟩ := Option.map_eq_some_iff.mp hmeets
  obtain ⟨hstart, hrun⟩ := history_eq_some singleTrigger hhistory
  refine ⟨l₀, l, hstart, hrun, ?_⟩
  exact ((attachEvent_exact singleTrigger hstart hrun).1.mpr (of_decide_eq_true hmeets)).1

/-- The enumerator `-1` has the number of an empty slot: its event is never run, and
`detachEvent` does not give the slot back. -/
theorem attachEvent_leaks :
    ∃ l₀ l, start 256 = some l₀ ∧
      runSteps (perform singleTrigger) l₀ [attachment 7 (-1), detachment 7 (-1)] = some l ∧
      l.size = 1 ∧ l.attached = [] := by
  have hsizes : (history singleTrigger 256 [attachment 7 (-1), detachment 7 (-1)]).map
      (fun (_, l) => (l.size, l.attached)) = some (1, []) := by
    decide +kernel
  obtain ⟨⟨l₀, l⟩, hhistory, hvalues⟩ := Option.map_eq_some_iff.mp hsizes
  obtain ⟨hstart, hrun⟩ := history_eq_some singleTrigger hhistory
  obtain ⟨hsize, hattached⟩ := Prod.mk.inj hvalues
  exact ⟨l₀, l, hstart, hrun, hsize, hattached⟩

end Example

end Listener

end Iceoryx.Popo
