import Iceoryx.Lib.Notification
import Iceoryx.Popo.ConditionVariable
import Iceoryx.Popo.Listener

universe u

namespace Iceoryx.Popo

open Hoofs Lib

inductive WaitStep
  | tryWait | checkDestroyed | load | reset | semaphoreWait
  deriving DecidableEq, Repr

def WaitStep.toConditionStep {T : Type u} : WaitStep → ConditionStep T
  | .tryWait => .tryWait
  | .checkDestroyed => .checkDestroyed
  | .load => .load
  | .reset => .reset
  | .semaphoreWait => .semaphoreWait

/-- `N` tells the calls of `trigger` apart.  The log of the notes has the event that was in
the slot, and the call that was made for it. -/
structure ListenerThreads (N : Type u) where
  listener : Listener
  condition : ConditionVariable (Nat × N) := {}
  wasDtorCalled : Bool := false
  activateNotificationIds : List Nat := []
  log : List (Note Nat Event Invocation) := []

/-- A handle keeps its mutex for `notify`, and a slot keeps its own for a callback; what a
callback calls comes after it. -/
inductive ListenerStep (N : Type u)
  | perform (op : Listener.Operation)
  | trigger (n : N) (origin handle : Nat)
  | post (n : N) (id : Nat)
  | dtor
  | destroyStore
  | destroyPost
  | call
  | wait (l : WaitStep)
  | executeCallback

namespace ListenerThreads

variable {N : Type u} [DecidableEq N]

section Steps

-- `MAX_NUMBER_OF_EVENTS_PER_LISTENER`, which is `MAX_NUMBER_OF_NOTIFIERS`.
variable (capacity : Nat) (eventTrigger : Nat → EventType → Option Nat)

def start (l : Listener) : ListenerThreads N where
  listener := l

def changes (l l' : Listener) : List Nat :=
  (List.range l.capacity).filter fun i => l'.events i ≠ l.events i

def onCondition (s : ListenerThreads N) (l : ConditionStep (Nat × N)) :
    Option (ListenerThreads N) :=
  (s.condition.step capacity Prod.fst l).map fun condition => { s with condition := condition }

def step (s : ListenerThreads N) : ListenerStep N → Option (ListenerThreads N)
  | .perform op =>
    (s.listener.perform eventTrigger op).map fun listener =>
      { s with
        listener := listener
        log := s.log ++ (changes s.listener listener).map .changed }
  | .trigger n origin handle =>
    match s.listener.triggers origin handle with
    | none => some s
    | some id =>
      (s.onCondition capacity (.store (id, n))).map fun s =>
        { s with log := s.log ++ [.requested id (s.listener.events id)] }
  | .post n id => s.onCondition capacity (.post (id, n))
  | .dtor => some { s with wasDtorCalled := true }
  | .destroyStore => s.onCondition capacity .destroyStore
  | .destroyPost => s.onCondition capacity .destroyPost
  | .call =>
    if s.wasDtorCalled = false ∧ s.activateNotificationIds = [] then
      s.onCondition capacity (.call false)
    else none
  | .wait l =>
    (s.onCondition capacity l.toConditionStep).map fun s =>
      -- the wait returned
      if s.condition.pc = .idle then { s with activateNotificationIds := s.condition.active }
      else s
  | .executeCallback =>
    match s.activateNotificationIds with
    | [] => none
    | id :: ids =>
      (s.listener.executeCallback id).map fun invocation =>
        { s with
          activateNotificationIds := ids
          log := s.log ++ [.answered id invocation] }

structure AtRest (s : ListenerThreads N) : Prop where
  pc : s.condition.pc = .waiting
  semaphore : s.condition.semaphore = 0
  notifiers : ∀ t, s.condition.notifiers t = .idle

def board (s : ListenerThreads N) : Board Nat Event Invocation where
  value := s.listener.events
  raised := s.condition.activeNotifications
  collected := if s.condition.pc = .idle then s.activateNotificationIds else s.condition.active
  log := s.log

def Attaches (l : Listener) (op : Listener.Operation) (i : Nat) : Prop :=
  ∃ l', l.perform eventTrigger op = some l' ∧ l'.events i ≠ l.events i ∧
    (l'.events i).executeCallback ≠ none

def Admissible (s : ListenerThreads N) : ListenerStep N → Prop
  | .perform op => ∀ i, Attaches eventTrigger s.listener op i → ¬ s.board.Due i
  | _ => True

end Steps

end ListenerThreads

namespace Listener

variable {l l' l'' : Listener} {eventTrigger : Nat → EventType → Option Nat}

structure Within (l l' : Listener) : Prop where
  capacity : l'.capacity = l.capacity
  events : ∀ i, l.capacity ≤ i → l'.events i = l.events i
  triggers : ∀ origin handle i, l'.triggers origin handle = some i →
    l.triggers origin handle = some i ∨ i < l.capacity

namespace Within

theorem refl (l : Listener) : l.Within l := ⟨rfl, fun _ _ => rfl, fun _ _ _ h => Or.inl h⟩

theorem trans (h : l.Within l') (h' : l'.Within l'') : l.Within l'' where
  capacity := h'.capacity.trans h.capacity
  events i hi := (h'.events i (h.capacity.symm ▸ hi)).trans (h.events i hi)
  triggers origin handle i hi := by
    rcases h'.triggers origin handle i hi with hold | hlt
    · exact h.triggers origin handle i hold
    · exact Or.inr (h.capacity ▸ hlt)

theorem set (h : l.Within l') {origin handle : Nat} {id : Option Nat}
    (hid : ∀ i, id = some i → i < l.capacity) :
    l.Within { l' with triggers := l'.triggers.set origin handle id } where
  capacity := h.capacity
  events := h.events
  triggers origin' handle' i hi := by
    rcases TriggerHandles.set_eq_some hi with ⟨-, -, hnew⟩ | ⟨-, hold⟩
    · exact Or.inr (hid i hnew)
    · exact h.triggers origin' handle' i hold

end Within

theorem reset_triggers {e : Event} {triggers : TriggerHandles} {origin handle i : Nat}
    (h : (e.reset triggers).2.2 origin handle = some i) : triggers origin handle = some i := by
  unfold Event.reset at h
  split at h
  · split at h
    · next object _ =>
      simp only [TriggerHandles.invalidateTrigger] at h
      by_cases horigin : origin = object
      · subst horigin
        rw [Function.update_self] at h
        split at h
        · cases h
        · exact h
      · rwa [Function.update_of_ne horigin] at h
    · exact h
  · exact h

theorem removeTrigger_within {index : Nat} (h : l.removeTrigger index = some l') :
    l.Within l' := by
  unfold removeTrigger at h
  split at h
  · cases h
    exact .refl l
  · next hindex =>
    have hwithin : ∀ indexManager, l.Within { l with
        indexManager := indexManager
        events := Function.update l.events index ((l.events index).reset l.triggers).2.1
        triggers := ((l.events index).reset l.triggers).2.2 } := by
      refine fun _ => ⟨rfl, fun i hi => Function.update_of_ne ?_ _ _, fun _ _ _ hi => ?_⟩
      · rintro rfl
        exact hindex hi
      · exact Or.inl (reset_triggers hi)
    simp only at h
    split at h
    · obtain ⟨indexManager, -, rfl⟩ := Option.map_eq_some_iff.mp h
      exact hwithin indexManager
    · cases h
      exact hwithin _

theorem resetTrigger_within {origin handle : Nat} (h : l.resetTrigger origin handle = some l') :
    l.Within l' := by
  unfold resetTrigger at h
  split at h
  · cases h
    exact .refl l
  · obtain ⟨l₁, hremove, rfl⟩ := Option.map_eq_some_iff.mp h
    exact (removeTrigger_within hremove).set fun i hi => by cases hi

theorem disableEvent_within {origin : Nat} {eventType : EventType}
    (h : l.disableEvent eventTrigger origin eventType = some l') : l.Within l' := by
  unfold disableEvent at h
  split at h
  · cases h
    exact .refl l
  · exact resetTrigger_within h

theorem enableEvent_within {origin eventId : Nat} {eventType : EventType}
    (hid : eventId < l.capacity)
    (h : l.enableEvent eventTrigger origin eventType eventId = some l') : l.Within l' := by
  unfold enableEvent at h
  split at h
  · exact removeTrigger_within h
  · obtain ⟨l₁, hreset, rfl⟩ := Option.map_eq_some_iff.mp h
    refine (resetTrigger_within hreset).set fun i hi => ?_
    cases hi
    exact hid

theorem addEvent_within {origin eventType eventTypeHash callback translationCallback : Nat}
    {userType invalidationCallback : Option Nat} {r : Except ListenerError Nat}
    (hconsistent : l.Consistent)
    (h : l.addEvent origin userType eventType eventTypeHash callback translationCallback
      invalidationCallback = (r, l')) :
    l.Within l' ∧ ∀ index, r = .ok index → index < l.capacity := by
  unfold addEvent at h
  split at h
  · cases h
    exact ⟨.refl l, fun _ hr => by cases hr⟩
  · split at h
    · cases h
      exact ⟨.refl l, fun _ hr => by cases hr⟩
    · next index indexManager hpop =>
      have hindex : index < l.capacity := by
        obtain ⟨free, hrep⟩ := hconsistent
        cases free with
        | nil => cases (IndexManager.pop_nil hrep.indexManager).symm.trans hpop
        | cons i free =>
          obtain ⟨_, hpop', -⟩ := IndexManager.pop_cons hrep.indexManager
          cases hpop'.symm.trans hpop
          exact hrep.head_lt
      simp only at h
      split at h
      · cases h
        exact ⟨⟨rfl, fun _ _ => rfl, fun _ _ _ hi => Or.inl hi⟩, fun _ hr => by cases hr⟩
      · cases h
        refine ⟨⟨rfl, fun i hi => Function.update_of_ne ?_ _ _, fun _ _ _ hi => Or.inl hi⟩, ?_⟩
        · rintro rfl
          exact Nat.not_lt_of_le hi hindex
        · intro i hi
          cases hi
          exact hindex

theorem attachEvent_within {origin : Nat} {eventType : EventType}
    {eventCallback : NotificationCallback} {r : Except ListenerError Unit}
    (hconsistent : l.Consistent)
    (h : l.attachEvent eventTrigger origin eventType eventCallback = some (r, l')) :
    l.Within l' := by
  unfold attachEvent at h
  split at h
  · cases h
    exact .refl l
  · split at h
    · next hadd =>
      cases h
      exact (addEvent_within hconsistent hadd).1
    · next hadd =>
      obtain ⟨hwithin, hid⟩ := addEvent_within hconsistent hadd
      obtain ⟨l₁, henable, heq⟩ := Option.map_eq_some_iff.mp h
      cases heq
      exact hwithin.trans (enableEvent_within (hwithin.capacity.symm ▸ hid _ rfl) henable)

theorem perform_within {op : Operation} (hconsistent : l.Consistent)
    (h : l.perform eventTrigger op = some l') : l.Within l' := by
  cases op with
  | attachEvent origin eventType eventCallback =>
    obtain ⟨⟨r, l₁⟩, hattach, rfl⟩ := Option.map_eq_some_iff.mp h
    exact attachEvent_within hconsistent hattach
  | detachEvent origin eventType => exact disableEvent_within h
  | resetTrigger origin handle => exact resetTrigger_within h
  | executeCallback id =>
    obtain ⟨_, -, rfl⟩ := Option.map_eq_some_iff.mp h
    exact .refl l

end Listener

namespace ConditionVariable

variable {T : Type u} [DecidableEq T] {maxNumberOfNotifiers : Nat} {index : T → Nat}

theorem wait_cases {c c' : ConditionVariable T} {l : WaitStep}
    (h : c.step maxNumberOfNotifiers index l.toConditionStep = some c') :
    c.pc ≠ .idle ∧
      ((c'.activeNotifications = c.activeNotifications ∧ c'.active = c.active ∧
          (c'.pc = .waiting → c.active = [])) ∨
        ∃ i, c.pc = .resetting i ∧
          c'.activeNotifications = Function.update c.activeNotifications i false ∧
          c'.active = c.active ++ [i] ∧ c'.pc = .scanning (i + 1)) := by
  cases l with
  | tryWait =>
    simp only [WaitStep.toConditionStep, step, Option.ite_none_right_eq_some] at h
    obtain ⟨hpc, h⟩ := h
    refine ⟨by rw [hpc]; decide, Or.inl ?_⟩
    split at h
    · cases h
      exact ⟨rfl, rfl, fun hw => by cases hw⟩
    · cases h
      exact ⟨rfl, rfl, fun hw => by cases hpc.symm.trans hw⟩
  | checkDestroyed =>
    simp only [WaitStep.toConditionStep, step, Option.ite_none_right_eq_some] at h
    obtain ⟨hpc, h⟩ := h
    refine ⟨by rw [hpc]; decide, Or.inl ?_⟩
    split at h <;> cases h <;> exact ⟨rfl, rfl, fun hw => by cases hw⟩
  | load =>
    simp only [WaitStep.toConditionStep, step] at h
    split at h
    · next i hpc =>
      refine ⟨by simp [hpc], Or.inl ?_⟩
      split at h
      · split at h <;> cases h <;> exact ⟨rfl, rfl, fun hw => by cases hw⟩
      · split at h
        · cases h
          exact ⟨rfl, rfl, fun hw => by cases hw⟩
        · next hempty =>
          cases h
          exact ⟨rfl, rfl, fun _ => by simpa using fun hne => hempty (Or.inl hne)⟩
    · cases h
  | reset =>
    simp only [WaitStep.toConditionStep, step] at h
    split at h
    · next i hpc =>
      cases h
      exact ⟨by simp [hpc], Or.inr ⟨i, hpc, rfl, rfl, rfl⟩⟩
    · cases h
  | semaphoreWait =>
    simp only [WaitStep.toConditionStep, step, Option.ite_none_right_eq_some,
      Option.some.injEq] at h
    obtain ⟨⟨hpc, -⟩, rfl⟩ := h
    exact ⟨by simp [hpc], Or.inl ⟨rfl, rfl, fun hw => by cases hw⟩⟩

end ConditionVariable

namespace ListenerThreads

variable {N : Type u} [DecidableEq N] {capacity : Nat}
  {eventTrigger : Nat → EventType → Option Nat} {s s' : ListenerThreads N}

theorem mem_changes_iff {l l' : Listener} (h : l.Within l') (i : Nat) :
    i ∈ changes l l' ↔ l'.events i ≠ l.events i := by
  rw [changes, List.mem_filter, List.mem_range, decide_eq_true_iff, and_iff_right_iff_imp]
  intro hne
  by_contra hge
  exact hne (h.events i (Nat.le_of_not_lt hge))

structure Settled (capacity : Nat) (s : ListenerThreads N) : Prop where
  condition : s.condition.Sound capacity Prod.fst
  waiting : s.condition.pc = .waiting → s.condition.active = []
  busy : s.condition.pc ≠ .idle → s.activateNotificationIds = []
  consistent : s.listener.Consistent
  size : s.listener.capacity = capacity
  handles : ∀ origin handle i, s.listener.triggers origin handle = some i → i < capacity
  due_lt : ∀ i, s.board.Due i → i < capacity

abbrev Moves (capacity : Nat) (s s' : ListenerThreads N) : Prop :=
  s'.Settled capacity ∧ s.board.Move Event.executeCallback s'.board

namespace Settled

variable {c : ConditionVariable (Nat × N)} {l : ConditionStep (Nat × N)}

omit [DecidableEq N] in
theorem idle_of_ids (h : s.Settled capacity) (hids : s.activateNotificationIds ≠ []) :
    s.condition.pc = .idle := by
  by_contra hpc
  exact hids (h.busy hpc)

theorem quiet (h : s.Settled capacity) (hstep : s.condition.step capacity Prod.fst l = some c)
    {ids : List Nat} (hflags : c.activeNotifications = s.condition.activeNotifications)
    (hcollected : (if c.pc = .idle then ids else c.active) = s.board.collected)
    (hwaiting : c.pc = .waiting → c.active = []) (hbusy : c.pc ≠ .idle → ids = []) :
    s.Moves capacity { s with condition := c, activateNotificationIds := ids } := by
  have hboard : board { s with condition := c, activateNotificationIds := ids } = s.board := by
    rw [board, board, hflags, hcollected]
    rfl
  refine ⟨⟨h.condition.step hstep, hwaiting, hbusy, h.consistent, h.size, h.handles, ?_⟩, ?_⟩
  · rw [hboard]
    exact h.due_lt
  · rw [hboard]
    exact .stay

theorem aside (h : s.Settled capacity) (hstep : s.condition.step capacity Prod.fst l = some c)
    (hflags : c.activeNotifications = s.condition.activeNotifications)
    (hpc : c.pc = s.condition.pc) (hactive : c.active = s.condition.active) :
    s.Moves capacity { s with condition := c } := by
  refine h.quiet hstep hflags ?_ ?_ ?_
  · rw [hpc, hactive]
    rfl
  · rw [hpc, hactive]
    exact h.waiting
  · rw [hpc]
    exact h.busy

theorem trigger (h : s.Settled capacity) {n : N} {id : Nat} (hid : id < capacity)
    (hstep : s.condition.step capacity Prod.fst (.store (id, n)) = some c) :
    s.Moves capacity
      { s with condition := c, log := s.log ++ [.requested id (s.listener.events id)] } := by
  have hsound := h.condition.step hstep
  simp only [ConditionVariable.step, Option.ite_none_right_eq_some, if_pos hid,
    Option.some.injEq] at hstep
  obtain ⟨-, rfl⟩ := hstep
  refine ⟨⟨hsound, h.waiting, h.busy, h.consistent, h.size, h.handles, ?_⟩,
    .request id⟩
  intro i hi
  by_cases hii : i = id
  · exact hii ▸ hid
  · exact h.due_lt i (hi.imp_left fun hraised => (Function.update_of_ne hii ..).symm.trans hraised)

theorem wait (h : s.Settled capacity) {l : WaitStep}
    (hstep : s.condition.step capacity Prod.fst l.toConditionStep = some c) :
    s.Moves capacity (if c.pc = .idle then
      { s with condition := c, activateNotificationIds := c.active }
      else { s with condition := c }) := by
  obtain ⟨hpc, ⟨hflags, hactive, hwaiting⟩ | ⟨i, hresetting, hflags, hactive, hscanning⟩⟩ :=
    ConditionVariable.wait_cases hstep
  · have hcollected : s.board.collected = c.active := (if_neg hpc).trans hactive.symm
    split
    · next hidle =>
      refine h.quiet hstep hflags ?_ (fun _ => hactive.trans (hwaiting ‹_›)) fun hne => ?_
      · rw [hcollected, ite_self]
      · exact absurd hidle hne
    · next hbusy =>
      refine h.quiet hstep hflags ?_ (fun hw => hactive.trans (hwaiting hw)) fun _ => h.busy hpc
      rw [hcollected, if_neg hbusy]
  · have hraised := h.condition.resetting i hresetting
    have hidle : c.pc ≠ .idle := by simp [hscanning]
    have hboard : board { s with condition := c } =
        { s.board with
          raised := Function.update s.board.raised i false
          collected := s.board.collected ++ [i] } := by
      simp only [board, hflags, hactive, if_neg hidle, if_neg hpc]
    rw [if_neg hidle]
    refine ⟨⟨h.condition.step hstep, fun hw => ?_, fun _ => h.busy hpc, h.consistent,
      h.size, h.handles, fun j hj => ?_⟩, ?_⟩
    · cases hscanning.symm.trans hw
    · rw [hboard] at hj
      exact h.due_lt j ((Board.due_collect_iff hraised).mp hj)
    · rw [hboard]
      exact .collect i hraised

omit [DecidableEq N] in
theorem execute (h : s.Settled capacity) {id : Nat} {ids : List Nat}
    {invocation : Option Invocation} (hids : s.activateNotificationIds = id :: ids)
    (hexecute : s.listener.executeCallback id = some invocation) :
    s.Moves capacity { s with
      activateNotificationIds := ids
      log := s.log ++ [.answered id invocation] } := by
  have hidle := h.idle_of_ids (hids ▸ List.cons_ne_nil id ids)
  have hcollected : s.board.collected = id :: ids := (if_pos hidle).trans hids
  have hboard : board { s with
      activateNotificationIds := ids
      log := s.log ++ [.answered id invocation] } =
      { s.board with
        collected := ids
        log := s.board.log ++ [.answered id (s.board.value id).executeCallback] } := by
    unfold Listener.executeCallback at hexecute
    split at hexecute
    · cases hexecute
      simp only [board, if_pos hidle]
    · cases hexecute
  refine ⟨⟨h.condition, h.waiting, fun hpc => absurd hidle hpc, h.consistent, h.size,
    h.handles, fun i hi => ?_⟩, ?_⟩
  · rw [hboard] at hi
    refine h.due_lt i (hi.imp_right fun hmem => ?_)
    rw [hcollected]
    exact List.mem_cons_of_mem id hmem
  · rw [hboard]
    exact .answer id ids hcollected

omit [DecidableEq N] in
theorem perform (h : s.Settled capacity) {op : Listener.Operation} {l : Listener}
    (hop : s.listener.perform eventTrigger op = some l) :
    s.Moves capacity { s with
      listener := l
      log := s.log ++ (changes s.listener l).map .changed } := by
  have hwithin := Listener.perform_within h.consistent hop
  refine ⟨⟨h.condition, h.waiting, h.busy,
    (Listener.perform_hasLeak eventTrigger op h.consistent hop).1,
    hwithin.capacity.trans h.size, fun origin handle i hi => ?_, h.due_lt⟩,
    .change l.events _ (mem_changes_iff hwithin)⟩
  rcases hwithin.triggers origin handle i hi with hold | hlt
  · exact h.handles origin handle i hold
  · exact h.size ▸ hlt

theorem step (h : s.Settled capacity) {l : ListenerStep N}
    (hstep : s.step capacity eventTrigger l = some s') : s.Moves capacity s' := by
  cases l with
  | perform op =>
    obtain ⟨l, hop, rfl⟩ := Option.map_eq_some_iff.mp hstep
    exact h.perform hop
  | trigger n origin handle =>
    simp only [ListenerThreads.step] at hstep
    split at hstep
    · cases hstep
      exact ⟨h, .stay⟩
    · next id hid =>
      obtain ⟨s₁, hcondition, rfl⟩ := Option.map_eq_some_iff.mp hstep
      obtain ⟨c, hc, rfl⟩ := Option.map_eq_some_iff.mp hcondition
      exact h.trigger (h.handles origin handle id hid) hc
  | post n id =>
    obtain ⟨c, hc, rfl⟩ := Option.map_eq_some_iff.mp hstep
    have hpost := hc
    simp only [ConditionVariable.step, Option.ite_none_right_eq_some, Option.some.injEq] at hpost
    obtain ⟨-, rfl⟩ := hpost
    exact h.aside hc rfl rfl rfl
  | dtor =>
    cases hstep
    exact ⟨⟨h.condition, h.waiting, h.busy, h.consistent, h.size, h.handles, h.due_lt⟩, .stay⟩
  | destroyStore =>
    cases hstep
    exact h.aside (l := .destroyStore) rfl rfl rfl rfl
  | destroyPost =>
    cases hstep
    exact h.aside (l := .destroyPost) rfl rfl rfl rfl
  | call =>
    simp only [ListenerThreads.step, Option.ite_none_right_eq_some] at hstep
    obtain ⟨⟨-, hids⟩, hstep⟩ := hstep
    obtain ⟨c, hc, rfl⟩ := Option.map_eq_some_iff.mp hstep
    have hcall := hc
    simp only [ConditionVariable.step, Option.ite_none_right_eq_some, Option.some.injEq] at hcall
    obtain ⟨hidle, rfl⟩ := hcall
    refine h.quiet hc rfl ?_ (fun _ => rfl) fun _ => hids
    exact hids.symm.trans (if_pos hidle).symm
  | wait l =>
    obtain ⟨s₁, hcondition, rfl⟩ := Option.map_eq_some_iff.mp hstep
    obtain ⟨c, hc, rfl⟩ := Option.map_eq_some_iff.mp hcondition
    exact h.wait hc
  | executeCallback =>
    simp only [ListenerThreads.step] at hstep
    split at hstep
    · cases hstep
    · next id ids hids =>
      obtain ⟨invocation, hexecute, rfl⟩ := Option.map_eq_some_iff.mp hstep
      exact h.execute hids hexecute

omit [DecidableEq N] in
theorem start {l : Listener} (h : Listener.start capacity = some l) :
    (ListenerThreads.start l : ListenerThreads N).Settled capacity where
  condition := .start
  waiting hpc := by cases hpc
  busy _ := rfl
  consistent := ⟨_, (Listener.start_rep h).1⟩
  size := by
    obtain ⟨loffli, -, rfl⟩ := Option.map_eq_some_iff.mp h
    rfl
  handles origin handle i hi := by
    obtain ⟨loffli, -, rfl⟩ := Option.map_eq_some_iff.mp h
    cases hi
  due_lt i hi := by
    rcases hi with hraised | hmem
    · cases hraised
    · cases hmem

omit [DecidableEq N] in
theorem not_due (h : s.Settled capacity) (hrest : s.AtRest) (i : Nat) : ¬ s.board.Due i := by
  intro hdue
  have hlt := h.due_lt i hdue
  rcases hdue with hraised | hmem
  · obtain ⟨t, -, hstored⟩ := h.condition.waiting hrest.pc hrest.semaphore hlt hraised
    cases (hrest.notifiers t).symm.trans hstored
  · have hnil : s.board.collected = [] := by
      refine (if_neg ?_).trans (h.waiting hrest.pc)
      rw [hrest.pc]
      decide
    rw [hnil] at hmem
    cases hmem

end Settled

theorem listener_step {l : ListenerStep N} (hl : ∀ op, l ≠ .perform op)
    (hstep : s.step capacity eventTrigger l = some s') : s'.listener = s.listener := by
  cases l with
  | perform op => exact absurd rfl (hl op)
  | trigger n origin handle =>
    simp only [step] at hstep
    split at hstep
    · cases hstep
      rfl
    · obtain ⟨s₁, hcondition, rfl⟩ := Option.map_eq_some_iff.mp hstep
      obtain ⟨c, -, rfl⟩ := Option.map_eq_some_iff.mp hcondition
      rfl
  | post n id =>
    obtain ⟨c, -, rfl⟩ := Option.map_eq_some_iff.mp hstep
    rfl
  | dtor =>
    cases hstep
    rfl
  | destroyStore =>
    cases hstep
    rfl
  | destroyPost =>
    cases hstep
    rfl
  | call =>
    simp only [step, Option.ite_none_right_eq_some] at hstep
    obtain ⟨c, -, rfl⟩ := Option.map_eq_some_iff.mp hstep.2
    rfl
  | wait l =>
    obtain ⟨s₁, hcondition, rfl⟩ := Option.map_eq_some_iff.mp hstep
    obtain ⟨c, -, rfl⟩ := Option.map_eq_some_iff.mp hcondition
    split <;> rfl
  | executeCallback =>
    simp only [step] at hstep
    split at hstep
    · cases hstep
    · obtain ⟨invocation, -, rfl⟩ := Option.map_eq_some_iff.mp hstep
      rfl

theorem calm_iff {l : ListenerStep N} (hstep : s.step capacity eventTrigger l = some s') :
    Board.Calm Event.executeCallback s.board s'.board ↔ Admissible eventTrigger s l := by
  cases l with
  | perform op =>
    obtain ⟨l, hop, rfl⟩ := Option.map_eq_some_iff.mp hstep
    constructor
    · rintro hcalm i ⟨l', hop', hne, hsome⟩ hdue
      cases hop.symm.trans hop'
      exact (hcalm i hdue).elim hne hsome
    · intro hadmissible i hdue
      by_contra hnot
      obtain ⟨hne, hsome⟩ := not_or.mp hnot
      exact hadmissible i ⟨l, hop, hne, hsome⟩ hdue
  | trigger | post | dtor | destroyStore | destroyPost | call | wait | executeCallback =>
    refine iff_of_true (fun i _ => Or.inl ?_) trivial
    exact congrFun (congrArg Listener.events (listener_step (fun _ h => by cases h) hstep)) i

omit [DecidableEq N] in
theorem board_start (l : Listener) :
    (start l : ListenerThreads N).board.Sound Event.executeCallback ∧
      (start l : ListenerThreads N).board.Own Event.executeCallback := by
  have hnil : ∀ {pre post : List (Note Nat Event Invocation)} {o},
      ¬ (start l : ListenerThreads N).board.log = pre ++ o :: post :=
    fun h => List.append_ne_nil_of_right_ne_nil _ (List.cons_ne_nil _ _) h.symm
  refine ⟨⟨fun _ _ _ _ h => absurd h hnil, fun _ _ _ _ h => absurd h hnil, fun _ => ?_⟩,
    fun _ _ _ _ h => absurd h hnil, fun k _ hdue => ?_⟩
  · exact Nat.le_refl 0
  · rcases hdue with hraised | hmem
    · cases hraised
    · cases hmem

/-- No notification is lost: when the thread of the listener waits and nobody is about to
wake it, every call of `trigger` was followed by the callback of the event that it was for, or
of what became of its slot.  Nor are there more callbacks than calls, no handle has an index
that is too large, and the thread reads no slot that does not exist. -/
theorem no_event_lost {l : Listener} (hstart : Listener.start capacity = some l)
    (steps : List (ListenerStep N))
    (hrun : runSteps (step capacity eventTrigger) (start l) steps = some s) :
    (s.AtRest → ∀ pre i event post, s.log = pre ++ .requested i event :: post →
      Board.Answered Event.executeCallback i event post) ∧
    (∀ i, s.log.countP (Board.isAnswer i) ≤ s.log.countP (Board.isRequest i)) ∧
    (∀ origin handle i, s.listener.triggers origin handle = some i → i < capacity) ∧
    (s.activateNotificationIds ≠ [] →
      (s.step capacity eventTrigger .executeCallback).isSome) := by
  obtain ⟨hsettled, hsound⟩ := runSteps_invariant (C := fun _ _ => True)
    (I := fun s : ListenerThreads N => s.Settled capacity ∧ s.board.Sound Event.executeCallback)
    (fun _ _ _ h _ hs => ⟨(h.1.step hs).1, h.2.move (h.1.step hs).2⟩) steps (start l) s
    ⟨.start hstart, (board_start l).1⟩ (meets_true steps _) hrun
  refine ⟨fun hrest pre i event post hlog => ?_, fun i => ?_, hsettled.handles, fun hids => ?_⟩
  · exact (hsound.answered pre i event post hlog).resolve_right (hsettled.not_due hrest i)
  · have hcounted := hsound.counted i
    change s.log.countP _ + _ + _ ≤ s.log.countP _ at hcounted
    omega
  · obtain ⟨id, ids, hcons⟩ := List.exists_cons_of_ne_nil hids
    have hcollected : s.board.collected = id :: ids :=
      (if_pos (hsettled.idle_of_ids hids)).trans hcons
    have hlt : id < s.listener.capacity := by
      rw [hsettled.size]
      exact hsettled.due_lt id (Or.inr (hcollected ▸ List.mem_cons_self))
    rw [step, hcons]
    simp only [Listener.executeCallback, if_pos hlt, Option.map_some, Option.isSome_some]

def triggeredOnce : List (ListenerStep Unit) :=
  .perform (Listener.attachment 7 0) ::
    [.call, .wait .tryWait, .wait .checkDestroyed, .wait .load, .wait .load, .trigger () 7 0,
      .post () 0, .wait .semaphoreWait, .wait .checkDestroyed, .wait .load, .wait .reset,
      .wait .load, .executeCallback, .call, .wait .tryWait, .wait .checkDestroyed, .wait .load,
      .wait .load]

theorem triggeredOnce_rests :
    ∃ l s, Listener.start 1 = some l ∧
      runSteps (step 1 Listener.singleTrigger) (start l) triggeredOnce = some s ∧ s.AtRest := by
  refine ⟨_, _, rfl, rfl, rfl, rfl, fun t => ?_⟩
  change Function.update (Function.update (fun _ => NotifierPc.idle) (0, ()) .stored) (0, ())
    .idle t = .idle
  rw [Function.update_idem, Function.update_eq_self]

theorem no_event_lost_once :
    ∃ l s, Listener.start 1 = some l ∧
      runSteps (step 1 Listener.singleTrigger) (start l) triggeredOnce = some s ∧
      ∀ pre i event post, s.log = pre ++ .requested i event :: post →
        Board.Answered Event.executeCallback i event post := by
  obtain ⟨l, s, hstart, hrun, hrest⟩ := triggeredOnce_rests
  exact ⟨l, s, hstart, hrun, (no_event_lost hstart triggeredOnce hrun).1 hrest⟩

/-- A callback that was run, or that would be run for a notification on its way, is that of
an event which was itself triggered since it was attached, exactly as long as no event is
attached in a slot with a notification on its way.  `removeTrigger` leaves the flag up, and
the slot is the next one to be taken. -/
theorem callbacks_own_iff {l : Listener} (hstart : Listener.start capacity = some l)
    (steps : List (ListenerStep N))
    (hrun : runSteps (step capacity eventTrigger) (start l) steps = some s) :
    (∀ n m, runSteps (step capacity eventTrigger) (start l) (steps.take n) = some m →
        m.board.Own Event.executeCallback) ↔
      Meets (step capacity eventTrigger) (Admissible eventTrigger) (start l) steps := by
  refine runSteps_always_iff (I := fun s : ListenerThreads N =>
      s.Settled capacity ∧ s.board.Own Event.executeCallback) (fun _ h => h.2) ?_ steps _ s
    ⟨.start hstart, (board_start l).2⟩ hrun
  intro s op s' hs hstep
  obtain ⟨hsettled, hmove⟩ := hs.1.step hstep
  have hown := hs.2.move_iff hmove
  exact ⟨fun hadmissible => ⟨hsettled, hown.mpr ((calm_iff hstep).mpr hadmissible)⟩,
    fun h => (calm_iff hstep).mp (hown.mp h)⟩

theorem callbacks_own_iff_once :
    ∃ l s, Listener.start 1 = some l ∧
      runSteps (step 1 Listener.singleTrigger) (start l) triggeredOnce = some s ∧
      s.board.Own Event.executeCallback := by
  obtain ⟨l, s, hstart, hrun, -⟩ := triggeredOnce_rests
  refine ⟨l, s, hstart, hrun, ?_⟩
  refine (callbacks_own_iff hstart triggeredOnce hrun).mpr ?_ triggeredOnce.length s hrun
  rw [triggeredOnce, Meets]
  refine ⟨fun i _ hdue => ?_, ?_⟩
  · rcases hdue with hraised | hmem
    · cases hraised
    · cases hmem
  · split
    · exact meets_of_forall (by simp [Admissible]) _
    · trivial

example : ((Listener.start 1).bind fun l =>
    (runSteps (step 1 Listener.singleTrigger) (start l : ListenerThreads Unit)
      [.perform (Listener.attachment 7 0), .trigger () 7 0, .perform (Listener.detachment 7 0),
        .perform (Listener.attachment 8 0), .call, .wait .tryWait, .wait .checkDestroyed,
        .wait .load, .wait .reset, .wait .load, .executeCallback]).map fun s =>
      (s.log.map fun note => match note with
        | .requested i event => (i, event.origin)
        | .answered i invocation => (i, invocation.map (·.origin))
        | .changed i => (i, none))) =
      some [(0, none), (0, some 7), (0, none), (0, none), (0, some 8)] := by
  decide +kernel

end ListenerThreads

end Iceoryx.Popo
