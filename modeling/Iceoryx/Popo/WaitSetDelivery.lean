import Iceoryx.Popo.WaitSet

namespace Iceoryx.Popo

open Hoofs Lib

namespace WaitSet

variable {s s' : WaitSet} {t : Trigger} {i maxNumberOfNotifiers : Nat}

section Wait

def shown (s : WaitSet) (i : Nat) : Option Trigger :=
  (s.triggerArray i).filter (·.isStateConditionSatisfied s.conditions)

def keeps (s : WaitSet) (i : Nat) : Bool :=
  (s.triggerArray i).any fun t =>
    !(t.isStateConditionSatisfied s.conditions && t.triggerType == .eventBased)

theorem createLoop_eq (pre post : List Nat) (triggers : List Trigger)
    (hlt : ∀ i ∈ pre, i < s.capacity) (hroom : triggers.length + pre.length ≤ s.capacity) :
    s.createLoop pre.length (pre ++ post) triggers =
      some (pre.filter s.keeps ++ post, triggers ++ pre.reverse.filterMap s.shown) := by
  induction pre using List.reverseRecOn generalizing post triggers with
  | nil => simp only [List.length_nil, createLoop, List.filter_nil, List.reverse_nil,
      List.filterMap_nil, List.append_nil, List.nil_append]
  | append_singleton pre i ih =>
    have hlt' : ∀ j ∈ pre, j < s.capacity := fun j hj => hlt j (List.mem_append_left [i] hj)
    have hi : i < s.capacity := hlt i (List.mem_append_right pre (List.mem_singleton_self i))
    have hget : (pre ++ [i] ++ post)[pre.length]? = some i := by simp
    have herase : (pre ++ [i] ++ post).eraseIdx pre.length = pre ++ post := by
      rw [List.append_assoc, List.eraseIdx_append_of_length_le (Nat.le_refl _), Nat.sub_self]
      rfl
    rw [List.length_append, List.length_singleton] at hroom
    rw [List.length_append, List.length_singleton, createLoop, hget]
    simp only [Option.bind_eq_bind, Option.bind_some, if_pos hi, herase, List.filter_append,
      List.reverse_append, List.reverse_singleton, List.singleton_append]
    cases hslot : s.triggerArray i with
    | none =>
      have hkeeps : s.keeps i = false := by rw [keeps, hslot]; rfl
      have hshown : s.shown i = none := by rw [shown, hslot]; rfl
      simp only [List.filterMap_cons_none hshown, List.filter_singleton, hkeeps]
      simpa using ih post triggers hlt' (by omega)
    | some t =>
      cases hsatisfied : t.isStateConditionSatisfied s.conditions with
      | false =>
        have hkeeps : s.keeps i = true := by
          simp only [keeps, hslot, Option.any_some, hsatisfied, Bool.false_and, Bool.not_false]
        have hshown : s.shown i = none := by
          simp only [shown, hslot, Option.filter_some, hsatisfied]; rfl
        simp only [List.filterMap_cons_none hshown, List.filter_singleton, hkeeps]
        simpa [hsatisfied] using ih (i :: post) triggers hlt' (by omega)
      | true =>
        have hshown : s.shown i = some t := by
          simp only [shown, hslot, Option.filter_some, hsatisfied, if_true]
        have hvector : triggers.length < s.capacity := by omega
        have hroom' : (triggers ++ [t]).length + pre.length ≤ s.capacity := by
          rw [List.length_append, List.length_singleton]
          omega
        by_cases htype : t.triggerType = .eventBased
        · have hkeeps : s.keeps i = false := by simp [keeps, hslot, hsatisfied, htype]
          simp only [List.filterMap_cons_some hshown, List.filter_singleton, hkeeps, hvector, htype,
            if_true]
          simpa [hsatisfied] using ih post (triggers ++ [t]) hlt' hroom'
        · have hkeeps : s.keeps i = true := by simp [keeps, hslot, hsatisfied, htype]
          simp only [List.filterMap_cons_some hshown, List.filter_singleton, hkeeps, hvector, htype,
            if_true, if_false]
          simpa [hsatisfied] using ih (i :: post) (triggers ++ [t]) hlt' hroom'

theorem createVectorWithTriggeredTriggers_eq
    (hsorted : s.activeNotifications.Pairwise (· < ·))
    (hlt : ∀ i ∈ s.activeNotifications, i < s.capacity) :
    s.createVectorWithTriggeredTriggers =
      some (s.activeNotifications.reverse.filterMap s.shown,
        { s with activeNotifications := s.activeNotifications.filter s.keeps }) := by
  have hloop := createLoop_eq s.activeNotifications [] [] hlt
    (by simpa using length_le_of_pairwise_lt hsorted hlt)
  rw [List.append_nil, List.append_nil, List.nil_append] at hloop
  rw [createVectorWithTriggeredTriggers, hloop]
  rfl

structure Frame (s s' : WaitSet) : Prop where
  capacity : s'.capacity = s.capacity
  triggerArray : s'.triggerArray = s.triggerArray
  indexRepository : s'.indexRepository = s.indexRepository
  triggers : s'.triggers = s.triggers
  conditions : s'.conditions = s.conditions

theorem Frame.slots (h : s.Frame s') (hslots : s.Slots) : s'.Slots := by
  obtain ⟨hcapacity, harray, hrepository, htriggers, -⟩ := h
  obtain ⟨hnodup, hlt, hvacant, hoccupied, hhandle, hunique, hbound⟩ := hslots
  rw [← hrepository] at hnodup hlt hvacant hoccupied
  rw [← hcapacity] at hlt hvacant hoccupied hbound
  rw [← harray] at hvacant hoccupied hhandle
  rw [← htriggers] at hhandle hunique
  exact ⟨hnodup, hlt, hvacant, hoccupied, hhandle, hunique, hbound⟩

structure Quiet (s : WaitSet) : Prop where
  semaphore : s.semaphore = 0
  notified : ∀ i, s.notified i = false

structure Blocks (s s' : WaitSet) : Prop where
  frame : s.Frame s'
  quiet : s'.Quiet
  sorted : s'.activeNotifications.Pairwise (· < ·)
  history : s'.history = s.history
  pending : ∀ i, s'.Pending i → s.Pending i
  attached : ∀ i t, s.triggerArray i = some t → s.Pending i → s'.Pending i
  unsatisfied : ∀ i t, s.triggerArray i = some t → s.Pending i →
    ¬ t.isStateConditionSatisfied s.conditions

structure Returns (s s' : WaitSet) (triggers : List Trigger) : Prop where
  frame : s.Frame s'
  quiet : s'.Quiet
  sorted : s'.activeNotifications.Pairwise (· < ·)
  history : s'.history = .returned triggers :: s.history
  pc : s'.pc = .idle
  pending : ∀ i, s'.Pending i → s.Pending i
  attached : ∀ i t, s.triggerArray i = some t → s.Pending i →
    (s'.Pending i ↔ ¬ (t.isStateConditionSatisfied s.conditions ∧ t.triggerType = .eventBased))
  mem : ∀ t, t ∈ triggers ↔
    ∃ i, s.Pending i ∧ s.triggerArray i = some t ∧ t.isStateConditionSatisfied s.conditions
  nodup : (triggers.map Trigger.uniqueId).Nodup

def Waits (s s' : WaitSet) : Prop := s.Blocks s' ∨ ∃ triggers, s.Returns s' triggers

theorem Quiet.pending_iff (h : s.Quiet) : s.Pending i ↔ i ∈ s.activeNotifications := by
  simp only [Pending, h.notified, Bool.false_eq_true, false_or]

theorem mem_shown : t ∈ s.activeNotifications.reverse.filterMap s.shown ↔
    ∃ i ∈ s.activeNotifications, s.triggerArray i = some t ∧
      t.isStateConditionSatisfied s.conditions := by
  simp only [List.mem_filterMap, List.mem_reverse, shown, Option.filter_eq_some_iff]

theorem shown_nodup (hslots : s.Slots) (hsorted : s.activeNotifications.Pairwise (· < ·)) :
    ((s.activeNotifications.reverse.filterMap s.shown).map Trigger.uniqueId).Nodup := by
  have hid : ∀ i t, s.shown i = some t → t.uniqueId = i := by
    intro i t hi
    obtain ⟨ht, -⟩ := Option.filter_eq_some_iff.mp hi
    obtain ⟨-, -, hid, -⟩ := hslots.of_some ht
    exact hid
  rw [List.map_filterMap]
  refine List.Nodup.filterMap (fun i j k hi hj => ?_)
    (List.nodup_reverse.mpr (hsorted.imp Nat.ne_of_lt))
  obtain ⟨t, ht, rfl⟩ := Option.map_eq_some_iff.mp hi
  obtain ⟨t', ht', hk⟩ := Option.map_eq_some_iff.mp hj
  exact (hid i t ht).symm.trans (hk.symm.trans (hid j t' ht'))

theorem keeps_iff (ht : s.triggerArray i = some t) :
    s.keeps i ↔ ¬ (t.isStateConditionSatisfied s.conditions ∧ t.triggerType = .eventBased) := by
  simp [keeps, ht, imp_iff_not_or]

structure Ready (s : WaitSet) : Prop where
  slots : s.Slots
  quiet : s.Quiet
  sorted : s.activeNotifications.Pairwise (· < ·)
  lt : ∀ i ∈ s.activeNotifications, i < s.capacity

theorem Ready.returns (h : s.Ready) :
    s.Returns ({ s with activeNotifications := s.activeNotifications.filter s.keeps }.doReturn
      (s.activeNotifications.reverse.filterMap s.shown))
      (s.activeNotifications.reverse.filterMap s.shown) := by
  have hquiet : Quiet ({ s with
      activeNotifications := s.activeNotifications.filter s.keeps }.doReturn
        (s.activeNotifications.reverse.filterMap s.shown)) :=
    ⟨h.quiet.semaphore, h.quiet.notified⟩
  refine ⟨⟨rfl, rfl, rfl, rfl, rfl⟩, hquiet, h.sorted.filter _, rfl, rfl, fun i hi => ?_,
    fun i t ht hi => ?_, fun t => ?_, shown_nodup h.slots h.sorted⟩
  · exact h.quiet.pending_iff.mpr (List.mem_of_mem_filter (hquiet.pending_iff.mp hi))
  · rw [hquiet.pending_iff, ← keeps_iff ht]
    exact List.mem_filter.trans (and_iff_right (h.quiet.pending_iff.mp hi))
  · rw [mem_shown]
    exact exists_congr fun i => and_congr_left fun _ => h.quiet.pending_iff.symm

theorem Ready.createVectorWithTriggeredTriggers (h : s.Ready) :
    s.createVectorWithTriggeredTriggers =
      some (s.activeNotifications.reverse.filterMap s.shown,
        { s with activeNotifications := s.activeNotifications.filter s.keeps }) :=
  createVectorWithTriggeredTriggers_eq h.sorted h.lt

theorem Ready.deliver (h : s.Ready) (maxNumberOfNotifiers : Nat) (timed : Bool) :
    ∃ s', s.deliver maxNumberOfNotifiers timed = some s' ∧ s.Waits s' := by
  rw [WaitSet.deliver, h.createVectorWithTriggeredTriggers]
  simp only [Option.bind_eq_bind, Option.bind_some]
  by_cases hnone : s.activeNotifications.reverse.filterMap s.shown = []
  · have hcollect : (List.range maxNumberOfNotifiers).filter s.notified = [] := by
      rw [List.filter_eq_nil_iff]
      exact fun i _ => Bool.not_eq_true _ ▸ h.quiet.notified i
    simp only [hnone, ne_eq, not_true_eq_false, if_false, waitImpl, collect, hcollect]
    have hquiet : ∀ i, (s.notified i && !decide (i < maxNumberOfNotifiers)) = false := by
      intro i
      rw [h.quiet.notified i, Bool.false_and]
    refine ⟨_, rfl, Or.inl ⟨⟨rfl, rfl, rfl, rfl, rfl⟩, ⟨rfl, hquiet⟩, h.sorted.filter _, rfl,
      fun i hi => ?_, fun i t ht hi => ?_, fun i t ht hi hsatisfied => ?_⟩⟩
    · exact hi.elim (fun hi => Bool.noConfusion (hi.symm.trans (hquiet i)))
        fun hi => Or.inr (List.mem_of_mem_filter hi)
    · have hmem := h.quiet.pending_iff.mp hi
      refine Or.inr (List.mem_filter.mpr ⟨hmem, (keeps_iff ht).mpr fun hboth => ?_⟩)
      exact List.not_mem_nil (hnone ▸ mem_shown.mpr ⟨i, hmem, ht, hboth.1⟩)
    · exact List.not_mem_nil
        (hnone ▸ mem_shown.mpr ⟨i, h.quiet.pending_iff.mp hi, ht, hsatisfied⟩)
  · simp only [ne_eq, hnone, not_false_eq_true, if_true]
    exact ⟨_, rfl, Or.inr ⟨_, h.returns⟩⟩

structure Collected (s s' : WaitSet) : Prop where
  frame : s.Frame s'
  history : s'.history = s.history
  pending : ∀ i, s'.Pending i ↔ s.Pending i

theorem Frame.trans {s₁ s₂ s₃ : WaitSet} (h : s₁.Frame s₂) (h' : s₂.Frame s₃) : s₁.Frame s₃ :=
  ⟨h'.capacity.trans h.capacity, h'.triggerArray.trans h.triggerArray,
    h'.indexRepository.trans h.indexRepository, h'.triggers.trans h.triggers,
    h'.conditions.trans h.conditions⟩

theorem Collected.waits {s₁ : WaitSet} (h : s.Collected s₁) (hw : s₁.Waits s') :
    s.Waits s' := by
  rcases hw with hb | ⟨triggers, hr⟩
  · refine Or.inl ⟨h.frame.trans hb.frame, hb.quiet, hb.sorted, hb.history.trans h.history,
      fun i hi => (h.pending i).mp (hb.pending i hi), fun i t ht hi => ?_, fun i t ht hi => ?_⟩
    · exact hb.attached i t (h.frame.triggerArray ▸ ht) ((h.pending i).mpr hi)
    · rw [← h.frame.conditions]
      exact hb.unsatisfied i t (h.frame.triggerArray ▸ ht) ((h.pending i).mpr hi)
  · refine Or.inr ⟨triggers, h.frame.trans hr.frame, hr.quiet, hr.sorted,
      h.history ▸ hr.history, hr.pc, fun i hi => (h.pending i).mp (hr.pending i hi),
      fun i t ht hi => ?_, fun t => ?_, hr.nodup⟩
    · rw [← h.frame.conditions]
      exact hr.attached i t (h.frame.triggerArray ▸ ht) ((h.pending i).mpr hi)
    · rw [hr.mem, h.frame.triggerArray, h.frame.conditions]
      exact exists_congr fun i => and_congr_left fun _ => h.pending i

theorem acquire_eq (s : WaitSet) (v : List Nat) :
    s.acquire maxNumberOfNotifiers v =
      { s with activeNotifications := (s.acquire maxNumberOfNotifiers v).activeNotifications } := by
  unfold acquire
  split
  · rfl
  · split <;> rfl

theorem mem_acquire {v : List Nat} (hsorted : s.activeNotifications.Pairwise (· < ·))
    (hv : v.Pairwise (· < ·)) (hs : ∀ i ∈ s.activeNotifications, i < maxNumberOfNotifiers)
    (hlt : ∀ i ∈ v, i < maxNumberOfNotifiers) :
    (s.acquire maxNumberOfNotifiers v).activeNotifications.Pairwise (· < ·) ∧
      ∀ i, i ∈ (s.acquire maxNumberOfNotifiers v).activeNotifications ↔
        i ∈ s.activeNotifications ∨ i ∈ v := by
  unfold acquire
  split
  · next hnone =>
    refine ⟨hv, fun i => ?_⟩
    rw [hnone, or_iff_right (List.not_mem_nil)]
  · split
    · next hsome =>
      rw [uniqueMergeSortedContainers_eq hv hsorted hlt hs]
      refine ⟨mergeLoops_pairwise hv hsorted, fun i => ?_⟩
      rw [mem_mergeLoops, or_comm]
    · next hnone =>
      refine ⟨hsorted, fun i => ?_⟩
      rw [not_not.mp hnone, or_iff_left (List.not_mem_nil)]

theorem mem_foldl_acquire {waits : List (List Nat)}
    (hwaits : ∀ v ∈ waits, v.Pairwise (· < ·) ∧ ∀ i ∈ v, i < maxNumberOfNotifiers) :
    ∀ s : WaitSet, s.activeNotifications.Pairwise (· < ·) →
      (∀ i ∈ s.activeNotifications, i < maxNumberOfNotifiers) →
      (waits.foldl (acquire maxNumberOfNotifiers) s).activeNotifications.Pairwise (· < ·) ∧
        ∀ i, i ∈ (waits.foldl (acquire maxNumberOfNotifiers) s).activeNotifications ↔
          i ∈ s.activeNotifications ∨ ∃ v ∈ waits, i ∈ v := by
  induction waits with
  | nil =>
    intro s hsorted _
    refine ⟨hsorted, fun i => ?_⟩
    rw [List.foldl_nil, or_iff_left]
    rintro ⟨_, hv, _⟩
    exact absurd hv List.not_mem_nil
  | cons v waits ih =>
    intro s hsorted hs
    obtain ⟨hv, hlt⟩ := hwaits v List.mem_cons_self
    obtain ⟨hnext, hmem⟩ := mem_acquire hsorted hv hs hlt
    obtain ⟨hall, hiff⟩ := ih (fun w hw => hwaits w (List.mem_cons_of_mem v hw)) _ hnext
      fun i hi => ((hmem i).mp hi).elim (hs i) (hlt i)
    refine ⟨hall, fun i => ?_⟩
    rw [List.foldl_cons, hiff, hmem, or_assoc, List.exists_mem_cons_iff]

theorem collect_acquire (hslots : s.Slots) (hsemaphore : s.semaphore = 0)
    (hsorted : s.activeNotifications.Pairwise (· < ·))
    (hlt : ∀ i, s.Pending i → i < s.capacity ∧ i < maxNumberOfNotifiers) :
    Ready ((s.collect maxNumberOfNotifiers).2.acquire maxNumberOfNotifiers
      (s.collect maxNumberOfNotifiers).1) ∧
    s.Collected ((s.collect maxNumberOfNotifiers).2.acquire maxNumberOfNotifiers
      (s.collect maxNumberOfNotifiers).1) := by
  have hquiet : ∀ i, (s.notified i && !decide (i < maxNumberOfNotifiers)) = false := by
    intro i
    cases hi : s.notified i with
    | false => rfl
    | true => simp only [(hlt i (Or.inl hi)).2, decide_true, Bool.not_true, Bool.and_false]
  have hmem : ∀ i, i ∈ (List.range maxNumberOfNotifiers).filter s.notified ↔
      s.notified i = true := by
    intro i
    rw [List.mem_filter, List.mem_range, and_iff_right_iff_imp]
    exact fun hi => (hlt i (Or.inl hi)).2
  have hv : ((List.range maxNumberOfNotifiers).filter s.notified).Pairwise (· < ·) :=
    List.Pairwise.filter _ List.pairwise_lt_range
  -- whichever way the notifications are merged, they are these
  have hall : ∀ active : List Nat, active.Pairwise (· < ·) →
      (∀ i, i ∈ active ↔ s.Pending i) →
      Ready { s with
        notified := fun i => s.notified i && !decide (i < maxNumberOfNotifiers)
        activeNotifications := active } ∧
      s.Collected { s with
        notified := fun i => s.notified i && !decide (i < maxNumberOfNotifiers)
        activeNotifications := active } := by
    intro active hactive hiff
    have hready : Quiet { s with
        notified := fun i => s.notified i && !decide (i < maxNumberOfNotifiers)
        activeNotifications := active } := ⟨hsemaphore, hquiet⟩
    refine ⟨⟨Frame.slots (s := s) ⟨rfl, rfl, rfl, rfl, rfl⟩ hslots, hready, hactive,
      fun i hi => (hlt i ((hiff i).mp hi)).1⟩, ⟨rfl, rfl, rfl, rfl, rfl⟩, rfl, fun i => ?_⟩
    rw [hready.pending_iff]
    exact hiff i
  rw [acquire_eq]
  obtain ⟨hactive, hiff⟩ := mem_acquire (s := (s.collect maxNumberOfNotifiers).2) hsorted hv
    (fun i hi => (hlt i (Or.inr hi)).2) fun i hi => (hlt i (Or.inl ((hmem i).mp hi))).2
  refine hall _ hactive fun i => (hiff i).trans ?_
  rw [hmem, Pending, or_comm]
  rfl

theorem finish_returns {v : List Nat} (h : (s.acquire maxNumberOfNotifiers v).Ready) :
    ∃ s', s.finish maxNumberOfNotifiers v = some s' ∧
      (s.acquire maxNumberOfNotifiers v).Waits s' := by
  rw [finish, h.createVectorWithTriggeredTriggers]
  exact ⟨_, rfl, Or.inr ⟨_, h.returns⟩⟩

theorem resume_waits (hslots : s.Slots) (hsemaphore : s.semaphore = 0)
    (hsorted : s.activeNotifications.Pairwise (· < ·))
    (hlt : ∀ i, s.Pending i → i < s.capacity ∧ i < maxNumberOfNotifiers)
    (timed again doReturn : Bool) (hreturn : (∃ i, s.notified i = true) ∨ doReturn = true) :
    ∃ s', s.resume maxNumberOfNotifiers timed again doReturn = some s' ∧ s.Waits s' := by
  obtain ⟨hready, hcollected⟩ := collect_acquire hslots hsemaphore hsorted hlt
  have hgo : (s.collect maxNumberOfNotifiers).1 ≠ [] ∨ doReturn = true := by
    refine hreturn.imp_left ?_
    rintro ⟨i, hi⟩
    exact List.ne_nil_of_mem
      (List.mem_filter.mpr ⟨List.mem_range.mpr (hlt i (Or.inl hi)).2, hi⟩)
  simp only [resume, if_pos hgo]
  cases again with
  | true =>
    obtain ⟨s', hs', hw⟩ := finish_returns hready
    exact ⟨s', hs', hcollected.waits hw⟩
  | false =>
    obtain ⟨s', hs', hw⟩ := hready.deliver maxNumberOfNotifiers timed
    exact ⟨s', hs', hcollected.waits hw⟩

theorem waitAndReturnTriggeredTriggers_waits (h : s.Inv maxNumberOfNotifiers) (timed : Bool) :
    ∃ s', s.waitAndReturnTriggeredTriggers maxNumberOfNotifiers timed = some s' ∧
      s.Waits s' := by
  have hn := h.notifications
  unfold waitAndReturnTriggeredTriggers
  by_cases hsemaphore : s.semaphore = 0
  · rw [if_neg (not_not.mpr hsemaphore)]
    have hquiet : s.Quiet := by
      refine ⟨hsemaphore, fun i => ?_⟩
      cases hi : s.notified i with
      | false => rfl
      | true => exact absurd hsemaphore (hn.semaphore.mpr ⟨i, hi⟩)
    exact Ready.deliver ⟨h.slots, hquiet, hn.sorted, fun i hi => (hn.lt i (Or.inr hi)).1⟩ _ timed
  · rw [if_pos hsemaphore]
    obtain ⟨i, hi⟩ := hn.semaphore.mp hsemaphore
    have hgo : ({ s with semaphore := 0 }.collect maxNumberOfNotifiers).1 ≠ [] :=
      List.ne_nil_of_mem
        (List.mem_filter.mpr ⟨List.mem_range.mpr (hn.lt i (Or.inl hi)).2, hi⟩)
    obtain ⟨hready, hcollected⟩ := collect_acquire (s := { s with semaphore := 0 })
      (Frame.slots (s := s) ⟨rfl, rfl, rfl, rfl, rfl⟩ h.slots) rfl hn.sorted hn.lt
    obtain ⟨s', hs', hw⟩ := hready.deliver maxNumberOfNotifiers timed
    simp only [waitImpl, if_pos hgo]
    have hframe : s.Frame { s with semaphore := 0 } := ⟨rfl, rfl, rfl, rfl, rfl⟩
    exact ⟨s', hs', Collected.waits
      ⟨hframe.trans hcollected.frame, hcollected.history, hcollected.pending⟩ hw⟩

theorem Slots.isValid (h : s.Slots) (ht : s.triggerArray i = some t) : t.isValid = true := by
  obtain ⟨hlt, -, rfl, -⟩ := h.of_some ht
  have hbound := h.bound
  rw [Trigger.isValid, bne_iff_ne]
  unfold invalidId
  omega

theorem Slots.isStateConditionSatisfied (h : s.Slots) (ht : s.triggerArray i = some t)
    (hevent : t.triggerType = .eventBased) : t.isStateConditionSatisfied s.conditions := by
  rw [Trigger.isStateConditionSatisfied, hevent]
  exact h.isValid ht

theorem Recorded.satisfied (h : s.Recorded maxNumberOfNotifiers) (hslots : s.Slots)
    (ht : s.triggerArray i = some t) (hs : WaitSetEvent.Satisfied t s.history) :
    t.isStateConditionSatisfied s.conditions := by
  cases htype : t.triggerType with
  | eventBased => exact hslots.isStateConditionSatisfied ht htype
  | invalid =>
    obtain ⟨-, -, -, hne⟩ := hslots.of_some ht
    exact absurd htype hne
  | stateBased =>
    rcases hs with hs | ⟨c, hc, hcondition⟩
    · rw [htype] at hs
      cases hs
    · rw [h.condition] at hcondition
      simp only [Trigger.isStateConditionSatisfied, htype, hslots.isValid ht, hc,
        Option.any_some, hcondition, Bool.and_self]

def Waiting (s : WaitSet) : Prop :=
  s.pc ≠ .idle → s.semaphore = 0 ∧
    ∀ i t, s.triggerArray i = some t → t.triggerType = .eventBased → ¬ s.Pending i

theorem Quiet.semaphore_iff (h : s.Quiet) : s.semaphore ≠ 0 ↔ ∃ i, s.notified i = true := by
  refine iff_of_false (not_not.mpr h.semaphore) ?_
  rintro ⟨i, hi⟩
  exact Bool.noConfusion (hi.symm.trans (h.notified i))

theorem Waits.capacity (hw : s.Waits s') : s'.capacity = s.capacity := by
  rcases hw with hb | ⟨triggers, hr⟩
  · exact hb.frame.capacity
  · exact hr.frame.capacity

theorem Waits.inv (hw : s.Waits s') (hslots : s.Slots) (h : s.Recorded maxNumberOfNotifiers) :
    s'.Inv maxNumberOfNotifiers := by
  rcases hw with hb | ⟨triggers, hr⟩
  · refine ⟨hb.frame.slots hslots, ⟨fun i hi => ?_, fun i => ?_, fun c => ?_,
      fun i t ht hdue => ?_, hb.history ▸ h.delivers⟩, hb.sorted, hb.quiet.semaphore_iff⟩
    · rw [hb.frame.capacity]
      exact h.lt i (hb.pending i hi)
    · rw [hb.history, hb.frame.triggerArray, h.attachment]
    · rw [hb.history, hb.frame.conditions, h.condition]
    · rw [hb.frame.triggerArray] at ht
      rw [hb.history] at hdue
      exact hb.attached i t ht (h.due i t ht hdue)
  · refine ⟨hr.frame.slots hslots, ⟨fun i hi => ?_, fun i => ?_, fun c => ?_,
      fun i t ht hdue => ?_, ?_⟩, hr.sorted, hr.quiet.semaphore_iff⟩
    · rw [hr.frame.capacity]
      exact h.lt i (hr.pending i hi)
    · rw [hr.history, WaitSetEvent.attachment, hr.frame.triggerArray, h.attachment]
    · rw [hr.history, WaitSetEvent.condition, hr.frame.conditions, h.condition]
    · rw [hr.frame.triggerArray] at ht
      rw [hr.history, WaitSetEvent.Due] at hdue
      have hpending := h.due i t ht hdue.2
      refine (hr.attached i t ht hpending).mpr ?_
      rintro ⟨hsatisfied, htype⟩
      exact hdue.1 htype
        (List.mem_map_of_mem ((hr.mem t).mpr ⟨i, hpending, ht, hsatisfied⟩))
    · rw [hr.history, WaitSetEvent.Delivers]
      refine ⟨fun i t ht hdue hsatisfied => ?_, h.delivers⟩
      rw [h.attachment] at ht
      have hmem := (hr.mem t).mpr ⟨i, h.due i t ht hdue, ht, h.satisfied hslots ht hsatisfied⟩
      obtain ⟨-, -, rfl, -⟩ := hslots.of_some ht
      exact ⟨hmem, List.count_eq_one_of_mem hr.nodup (List.mem_map_of_mem hmem)⟩

theorem Waits.waiting (hw : s.Waits s') (hslots : s.Slots) : s'.Waiting := by
  rcases hw with hb | ⟨triggers, hr⟩
  · refine fun _ => ⟨hb.quiet.semaphore, fun i t ht htype hpending => ?_⟩
    rw [hb.frame.triggerArray] at ht
    exact hb.unsatisfied i t ht (hb.pending i hpending)
      (hslots.isStateConditionSatisfied ht htype)
  · exact fun hpc => absurd hr.pc hpc

theorem Waits.staleFree (hw : s.Waits s') (hslots : s.Slots) (h : s.StaleFree none) :
    s'.StaleFree none := by
  rcases hw with hb | ⟨triggers, hr⟩
  · refine ⟨fun i t ht hne htype hpending => ?_, hb.history ▸ h.noStale⟩
    rw [hb.frame.triggerArray] at ht
    rw [hb.history]
    exact h.due i t ht hne htype (hb.pending i hpending)
  · refine ⟨fun i t ht _ htype hpending => ?_, ?_⟩
    · rw [hr.frame.triggerArray] at ht
      exact absurd ⟨hslots.isStateConditionSatisfied ht htype, htype⟩
        ((hr.attached i t ht (hr.pending i hpending)).mp hpending)
    · rw [hr.history, WaitSetEvent.NoStale]
      refine ⟨fun t ht htype => ?_, h.noStale⟩
      obtain ⟨i, hpending, hslot, -⟩ := (hr.mem t).mp ht
      exact h.due i t hslot (Option.some_ne_none i) htype hpending

def triggerAt (s : WaitSet) (origin i : Nat) : WaitSet :=
  { s with
    notified := Function.update s.notified i true
    semaphore := s.semaphore + 1
    history := .triggered origin i :: s.history }

theorem triggerAt_pending (origin i j : Nat) :
    (s.triggerAt origin i).Pending j ↔ j = i ∨ s.Pending j := by
  change Function.update s.notified i true j = true ∨ _ ↔ _
  by_cases hji : j = i
  · rw [hji, Function.update_self]
    exact iff_of_true (Or.inl rfl) (Or.inl rfl)
  · rw [Function.update_of_ne hji, or_iff_right hji]
    rfl

theorem Recorded.triggerAt (h : s.Recorded maxNumberOfNotifiers) (hslots : s.Slots)
    {i : Nat} (hi : i < maxNumberOfNotifiers) (ht : s.triggerArray i = some t) (origin : Nat) :
    (s.triggerAt origin i).Recorded maxNumberOfNotifiers := by
  refine ⟨fun j hj => ?_, h.attachment, h.condition, fun j t' ht' hdue => ?_, h.delivers⟩
  · rcases (triggerAt_pending origin i j).mp hj with rfl | hj
    · exact ⟨(hslots.of_some ht).1, hi⟩
    · exact h.lt j hj
  · rw [triggerAt_pending]
    obtain ⟨-, -, hid, -⟩ := hslots.of_some ht'
    exact hdue.imp (fun hboth => hid.symm.trans hboth.2.symm) (h.due j t' ht')

theorem StaleFree.triggerAt (h : s.StaleFree none) (hslots : s.Slots) {i : Nat}
    (ht : s.triggerArray i = some t) : (s.triggerAt t.notificationOrigin i).StaleFree none := by
  refine ⟨fun j t' ht' hne htype hpending => ?_, h.noStale⟩
  rcases (triggerAt_pending _ i j).mp hpending with rfl | hpending
  · cases ht.symm.trans ht'
    obtain ⟨-, -, hid, -⟩ := hslots.of_some ht
    exact Or.inl ⟨rfl, hid.symm⟩
  · exact Or.inr (h.due j t' ht' hne htype hpending)

theorem wake_waiting {timed again : Bool} (hpc : s.pc = .waiting timed again) :
    s.wake maxNumberOfNotifiers =
      { s with semaphore := s.semaphore - 1 }.resume maxNumberOfNotifiers timed again timed := by
  unfold wake
  split
  · next hidle => cases hidle.symm.trans hpc
  · next hwaiting =>
    cases hwaiting.symm.trans hpc
    rfl

theorem trigger_spec (h : s.Inv maxNumberOfNotifiers) (hw : s.Waiting) (origin handle : Nat)
    (hs' : s.trigger maxNumberOfNotifiers origin handle = some s') :
    s'.Inv maxNumberOfNotifiers ∧ s'.Waiting ∧ s'.capacity = s.capacity ∧
      (s.StaleFree none → s'.StaleFree none) := by
  cases htrigger : s.triggers origin handle with
  | none =>
    simp only [trigger, htrigger, Option.some.injEq] at hs'
    subst hs'
    exact ⟨h, hw, rfl, id⟩
  | some i =>
    obtain ⟨t, ht, rfl⟩ := h.slots.handle origin handle i htrigger
    by_cases hi : i < maxNumberOfNotifiers
    · have hr := h.notifications.triggerAt h.slots hi ht t.notificationOrigin
      have hslots : (s.triggerAt t.notificationOrigin i).Slots :=
        Frame.slots (s := s) ⟨rfl, rfl, rfl, rfl, rfl⟩ h.slots
      have hraised : ∃ j, (s.triggerAt t.notificationOrigin i).notified j = true :=
        ⟨i, Function.update_self ..⟩
      have hwake : (s.triggerAt t.notificationOrigin i).wake maxNumberOfNotifiers = some s' := by
        simpa [trigger, htrigger, notify, hi, triggerAt] using hs'
      cases hpc : s.pc with
      | idle =>
        have hidle : (s.triggerAt t.notificationOrigin i).pc = .idle := hpc
        simp only [wake, hidle, Option.some.injEq] at hwake
        subst hwake
        refine ⟨⟨hslots, hr, h.notifications.sorted, ?_⟩, fun hne => absurd hidle hne, rfl,
          fun hs => hs.triggerAt h.slots ht⟩
        exact iff_of_true (Nat.succ_ne_zero s.semaphore) hraised
      | waiting timed again =>
        have hwaiting : (s.triggerAt t.notificationOrigin i).pc = .waiting timed again := hpc
        have hnone : s.semaphore = 0 := (hw (hpc ▸ nofun)).1
        have hslots' : Slots { s.triggerAt t.notificationOrigin i with semaphore := 0 } :=
          Frame.slots (s := s) ⟨rfl, rfl, rfl, rfl, rfl⟩ h.slots
        have hr' : Recorded maxNumberOfNotifiers
            { s.triggerAt t.notificationOrigin i with semaphore := 0 } :=
          ⟨hr.lt, hr.attachment, hr.condition, hr.due, hr.delivers⟩
        have hsemaphore : (s.triggerAt t.notificationOrigin i).semaphore - 1 = 0 := hnone
        rw [wake_waiting hwaiting, hsemaphore] at hwake
        obtain ⟨s'', hs'', hwaits⟩ := resume_waits hslots' rfl h.notifications.sorted hr'.lt
          timed again timed (Or.inl hraised)
        obtain rfl : s'' = s' := Option.some.inj (hs''.symm.trans hwake)
        refine ⟨hwaits.inv hslots' hr', hwaits.waiting hslots', hwaits.capacity, fun hs => ?_⟩
        have hstale := hs.triggerAt h.slots ht
        exact hwaits.staleFree hslots' ⟨hstale.due, hstale.noStale⟩
    · simp [trigger, htrigger, notify, hi] at hs'

end Wait

theorem whenIdle_eq_some {next : Option WaitSet} (h : s.whenIdle next = some s') :
    s.pc = .idle ∧ next = some s' := by
  cases hpc : s.pc <;> simp only [whenIdle, hpc] at h
  · exact ⟨rfl, h⟩
  · cases h

theorem perform_spec (origins : Origins) (h : s.Inv maxNumberOfNotifiers) (hw : s.Waiting)
    (op : Operation) (hs' : s.perform maxNumberOfNotifiers origins op = some s') :
    s'.Inv maxNumberOfNotifiers ∧ s'.Waiting ∧ s'.capacity = s.capacity ∧
      (s.StaleFree none → s.Fresh origins op → s'.StaleFree none) := by
  have hidle : ∀ {s₁ : WaitSet}, s.pc = .idle → s₁.pc = s.pc → s₁.Waiting :=
    fun hpc hpc₁ hne => absurd (hpc₁.trans hpc) hne
  have hremoves : ∀ {s₁}, s.pc = .idle → s.Removes maxNumberOfNotifiers s₁ →
      s₁.Inv maxNumberOfNotifiers ∧ s₁.Waiting ∧ s₁.capacity = s.capacity ∧
        (s.StaleFree none → True → s₁.StaleFree none) :=
    fun hpc hr => ⟨hr.inv, hidle hpc hr.pc, hr.capacity, fun hs _ => hr.staleFree hs⟩
  have hattach : ∀ {trigger origin callback eventId notification type}, s.pc = .idle →
      (s.attach trigger origin callback eventId notification type).map Prod.snd = some s' →
      s'.Inv maxNumberOfNotifiers ∧ s'.Waiting ∧ s'.capacity = s.capacity ∧ (s.StaleFree none →
        s.AttachesFresh trigger origin callback type → s'.StaleFree none) := by
    intro trigger origin callback eventId notification type hpc hmap
    obtain ⟨r, s₁, hs₁, hinv, hpc₁, hcapacity, -, hstale⟩ :=
      attach_spec h trigger origin callback eventId notification type
    rw [hs₁, Option.map_some, Option.some.injEq] at hmap
    subst hmap
    exact ⟨hinv, hidle hpc hpc₁, hcapacity, hstale⟩
  cases op with
  | attachEvent eventOrigin eventType eventId eventCallback =>
    obtain ⟨hpc, hmap⟩ := whenIdle_eq_some hs'
    exact hattach hpc hmap
  | attachState stateOrigin stateType id stateCallback =>
    obtain ⟨hpc, hmap⟩ := whenIdle_eq_some hs'
    exact hattach hpc hmap
  | detachEvent eventOrigin eventType =>
    obtain ⟨hpc, hdisable⟩ := whenIdle_eq_some hs'
    obtain ⟨s₁, hs₁, hr⟩ :=
      disable_removes h (origins.eventTrigger eventOrigin eventType) eventOrigin
    obtain rfl : s₁ = s' := Option.some.inj (hs₁.symm.trans hdisable)
    exact hremoves hpc hr
  | detachState stateOrigin stateType =>
    obtain ⟨hpc, hdisable⟩ := whenIdle_eq_some hs'
    obtain ⟨s₁, hs₁, hr⟩ :=
      disable_removes h (origins.stateTrigger stateOrigin stateType) stateOrigin
    obtain rfl : s₁ = s' := Option.some.inj (hs₁.symm.trans hdisable)
    exact hremoves hpc hr
  | resetTrigger origin handle =>
    obtain ⟨hpc, hreset⟩ := whenIdle_eq_some hs'
    obtain ⟨s₁, hs₁, hr⟩ := resetTrigger_removes h origin handle
    obtain rfl : s₁ = s' := Option.some.inj (hs₁.symm.trans hreset)
    exact hremoves hpc hr
  | trigger origin handle =>
    obtain ⟨hinv, hwaiting, hcapacity, hstale⟩ := trigger_spec h hw origin handle hs'
    exact ⟨hinv, hwaiting, hcapacity, fun hs _ => hstale hs⟩
  | changeCondition condition value =>
    cases hs'
    obtain ⟨hnodup, hlt, hvacant, hoccupied, hhandle, hunique, hbound⟩ := h.slots
    have hn := h.notifications
    refine ⟨⟨⟨hnodup, hlt, hvacant, hoccupied, hhandle, hunique, hbound⟩,
      ⟨hn.lt, hn.attachment, fun c => ?_, hn.due, hn.delivers⟩, hn.sorted, hn.semaphore⟩, hw,
      rfl, fun hs _ => ⟨hs.due, hs.noStale⟩⟩
    change (if condition = c then value else _) = Function.update s.conditions condition value c
    by_cases hc : condition = c
    · rw [if_pos hc, hc, Function.update_self]
    · rw [if_neg hc, hn.condition, Function.update_of_ne (Ne.symm hc)]
  | wait timed =>
    obtain ⟨hpc, hwait⟩ := whenIdle_eq_some hs'
    obtain ⟨s₁, hs₁, hwaits⟩ := waitAndReturnTriggeredTriggers_waits h timed
    obtain rfl : s₁ = s' := Option.some.inj (hs₁.symm.trans hwait)
    exact ⟨hwaits.inv h.slots h.notifications.toRecorded, hwaits.waiting h.slots,
      hwaits.capacity, fun hs _ => hwaits.staleFree h.slots hs⟩
  | timeout =>
    cases hpc : s.pc with
    | idle => simp [perform, hpc] at hs'
    | waiting timed again =>
      cases timed with
      | false => simp [perform, hpc] at hs'
      | true =>
        simp only [perform, hpc] at hs'
        have hn := h.notifications
        obtain ⟨s₁, hs₁, hwaits⟩ := resume_waits h.slots (hw (hpc ▸ nofun)).1 hn.sorted hn.lt
          true again true (Or.inr rfl)
        obtain rfl : s₁ = s' := Option.some.inj (hs₁.symm.trans hs')
        exact ⟨hwaits.inv h.slots hn.toRecorded, hwaits.waiting h.slots,
          hwaits.capacity, fun hs _ => hwaits.staleFree h.slots hs⟩

theorem start_spec (maxNumberOfNotifiers : Nat) {capacity : Nat}
    (hcapacity : capacity < 2 ^ 64) :
    (start capacity).Inv maxNumberOfNotifiers ∧ (start capacity).Waiting ∧
      (start capacity).StaleFree none := by
  have hmem : ∀ i, i ∈ (start capacity).indexRepository ↔ i < capacity :=
    fun i => List.mem_reverse.trans List.mem_range
  have hpending : ∀ i, ¬ (start capacity).Pending i := by
    rintro i (hi | hi)
    · cases hi
    · cases hi
  refine ⟨⟨⟨List.nodup_reverse.mpr List.nodup_range, fun i => (hmem i).mp, fun _ _ => rfl,
    fun i hi hnot => absurd ((hmem i).mpr hi) hnot, nofun, nofun, hcapacity⟩,
    ⟨fun i hi => absurd hi (hpending i), fun _ => rfl, fun _ => rfl, nofun, trivial⟩,
    List.Pairwise.nil, ?_⟩, fun hpc => absurd rfl hpc, fun _ _ => nofun, trivial⟩
  exact iff_of_false (fun hne => hne rfl) (by rintro ⟨i, hi⟩; cases hi)

theorem run_spec {origins : Origins} {capacity : Nat} {ops : List Operation}
    (hcapacity : capacity < 2 ^ 64)
    (hrun : runSteps (perform maxNumberOfNotifiers origins) (start capacity) ops = some s) :
    s.Inv maxNumberOfNotifiers ∧ s.Waiting ∧ s.capacity = capacity := by
  obtain ⟨hinv, hwaiting, -⟩ := start_spec maxNumberOfNotifiers hcapacity
  refine runSteps_invariant (C := fun _ _ => True)
    (I := fun s => s.Inv maxNumberOfNotifiers ∧ s.Waiting ∧ s.capacity = capacity)
    (fun s op s' hI _ hstep => ?_) ops _ s ⟨hinv, hwaiting, rfl⟩ (meets_true ops _) hrun
  obtain ⟨hinv', hwaiting', hsame, -⟩ := perform_spec origins hI.1 hI.2.1 op hstep
  exact ⟨hinv', hwaiting', hsame.trans hI.2.2⟩

structure Partition (s : WaitSet) (capacity : Nat) : Prop where
  nodup : s.indexRepository.Nodup
  cover : ∀ i, i < capacity ↔ i ∈ s.indexRepository ∨ (s.triggerArray i).isSome
  disjoint : ∀ i ∈ s.indexRepository, s.triggerArray i = none
  uniqueId : ∀ i t, s.triggerArray i = some t → t.uniqueId = i

theorem Slots.partition (h : s.Slots) : s.Partition s.capacity := by
  refine ⟨h.nodup, fun i => ⟨fun hi => ?_, ?_⟩, fun i hi => h.vacant i (Or.inl hi),
    fun i t ht => (h.of_some ht).2.2.1⟩
  · by_cases hfree : i ∈ s.indexRepository
    · exact Or.inl hfree
    · obtain ⟨t, ht, -⟩ := h.occupied i hi hfree
      exact Or.inr (Option.isSome_of_eq_some ht)
  · rintro (hi | hi)
    · exact h.lt i hi
    · obtain ⟨t, ht⟩ := Option.isSome_iff_exists.mp hi
      exact (h.of_some ht).1

theorem Inv.wait_returns (h : s.Inv maxNumberOfNotifiers) (origins : Origins)
    (hpc : s.pc = .idle) (timed : Bool) :
    ∃ s', s.perform maxNumberOfNotifiers origins (.wait timed) = some s' ∧
      ((∃ i t, WaitSetEvent.attachment i s.history = some t ∧ WaitSetEvent.Due t s.history ∧
          WaitSetEvent.Satisfied t s.history) →
        ∃ triggers, s'.history = .returned triggers :: s.history) := by
  have hn := h.notifications
  obtain ⟨s', hs', hwaits⟩ := waitAndReturnTriggeredTriggers_waits h timed
  refine ⟨s', ?_, ?_⟩
  · simp only [perform, whenIdle, hpc, hs']
  · rintro ⟨i, t, ht, hdue, hsatisfied⟩
    rw [hn.attachment] at ht
    rcases hwaits with hb | ⟨triggers, hr⟩
    · exact absurd (hn.satisfied h.slots ht hsatisfied)
        (hb.unsatisfied i t ht (hn.due i t ht hdue))
    · exact ⟨triggers, hr.history⟩

theorem wait_delivers {origins : Origins} {capacity : Nat} {ops : List Operation}
    (hcapacity : capacity < 2 ^ 64)
    (hrun : runSteps (perform maxNumberOfNotifiers origins) (start capacity) ops = some s) :
    s.Partition capacity ∧
    (∀ origin type id callback e s',
      s.attachEvent origins origin type id callback = some (.error e, s') ∨
        s.attachState origins origin type id callback = some (.error e, s') → s' = s) ∧
    s.activeNotifications.Pairwise (· < ·) ∧
    s.activeNotifications.length ≤ maxNumberOfNotifiers ∧
    (∀ i, WaitSetEvent.attachment i s.history = s.triggerArray i) ∧
    (∀ c, WaitSetEvent.condition c s.history = s.conditions c) ∧
    WaitSetEvent.Delivers s.history ∧
    (s.pc = .idle → ∀ timed,
      ∃ s', s.perform maxNumberOfNotifiers origins (.wait timed) = some s' ∧
        ((∃ i t, WaitSetEvent.attachment i s.history = some t ∧ WaitSetEvent.Due t s.history ∧
            WaitSetEvent.Satisfied t s.history) →
          ∃ triggers, s'.history = .returned triggers :: s.history)) ∧
    (s.pc ≠ .idle → ∀ i t, WaitSetEvent.attachment i s.history = some t →
      t.triggerType = .eventBased → ¬ WaitSetEvent.Due t s.history) := by
  obtain ⟨hinv, hwaiting, hsame⟩ := run_spec hcapacity hrun
  have hn := hinv.notifications
  have hfailed : ∀ {trigger origin condition id callback type e s'},
      s.attach trigger origin condition id callback type = some (.error e, s') → s' = s := by
    intro trigger origin condition id callback type e s' hattach
    obtain ⟨r, s₁, hs₁, -, -, -, hunchanged, -⟩ :=
      attach_spec hinv trigger origin condition id callback type
    cases hs₁.symm.trans hattach
    exact hunchanged e rfl
  refine ⟨hsame ▸ hinv.slots.partition, fun origin type id callback e s' hattach => ?_,
    hn.sorted, length_le_of_pairwise_lt hn.sorted fun i hi => (hn.lt i (Or.inr hi)).2,
    hn.attachment, hn.condition, hn.delivers, fun hpc timed => hinv.wait_returns origins hpc timed,
    fun hpc i t ht htype hdue => ?_⟩
  · exact hattach.elim hfailed hfailed
  · rw [hn.attachment] at ht
    exact (hwaiting hpc).2 i t ht htype (hn.due i t ht hdue)

/-- A wait returns an event-based attachment only when its origin has triggered it, as long as
no attachment gets an index that is still pending. -/
theorem wait_noStale {origins : Origins} {capacity : Nat} {ops : List Operation}
    (hcapacity : capacity < 2 ^ 64)
    (hrun : runSteps (perform maxNumberOfNotifiers origins) (start capacity) ops = some s)
    (hfresh : Meets (perform maxNumberOfNotifiers origins) (Fresh origins) (start capacity) ops) :
    WaitSetEvent.NoStale s.history := by
  have hall := runSteps_invariant
    (I := fun s => (s.Inv maxNumberOfNotifiers ∧ s.Waiting) ∧ s.StaleFree none)
    (fun s op s' hI hop hstep => ?_) ops _ s ?_ hfresh hrun
  · exact hall.2.noStale
  · obtain ⟨hinv', hwaiting', -, hstale⟩ := perform_spec origins hI.1.1 hI.1.2 op hstep
    exact ⟨⟨hinv', hwaiting'⟩, hstale hI.2 hop⟩
  · obtain ⟨hinv, hwaiting, hstale⟩ := start_spec _ hcapacity
    exact ⟨⟨hinv, hwaiting⟩, hstale⟩

section Example

def singleOrigins : Origins where
  eventTrigger := fun _ _ => some 0
  stateTrigger := fun _ _ => some 0
  stateCondition := fun origin _ => some origin

def eventType : EventType where
  value := 0
  hashCode := 11

def notificationCallback : NotificationCallback where
  callback := none
  contextData := none
  translation := 0

def attachment (origin : Nat) : Operation := .attachEvent origin eventType 5 notificationCallback

def stateAttachment (origin : Nat) : Operation :=
  .attachState origin eventType 6 notificationCallback

theorem wait_delivers_twice :
    ∃ s, runSteps (perform 256 singleOrigins) (start 3)
        [attachment 7, attachment 7, stateAttachment 8, attachment 9, attachment 10, .trigger 7 0,
          .changeCondition 8 true, .trigger 8 0, .wait false, .changeCondition 8 false,
          .wait true, .timeout, .trigger 9 0] = some s ∧
      s.Partition 3 ∧ WaitSetEvent.Delivers s.history := by
  have hrun : (runSteps (perform 256 singleOrigins) (start 3)
      [attachment 7, attachment 7, stateAttachment 8, attachment 9, attachment 10, .trigger 7 0,
        .changeCondition 8 true, .trigger 8 0, .wait false, .changeCondition 8 false,
        .wait true, .timeout, .trigger 9 0]).isSome := by
    decide +kernel
  obtain ⟨s, hs⟩ := Option.isSome_iff_exists.mp hrun
  obtain ⟨hpartition, -, -, -, -, -, hdelivers, -⟩ := wait_delivers (by decide) hs
  exact ⟨s, hs, hpartition, hdelivers⟩

theorem wait_noStale_once :
    ∃ s, runSteps (perform 256 singleOrigins) (start 1)
        [attachment 7, .trigger 7 0, .wait false, .detachEvent 7 eventType, attachment 8,
          .wait true] = some s ∧ WaitSetEvent.NoStale s.history := by
  have hrun : (runSteps (perform 256 singleOrigins) (start 1)
      [attachment 7, .trigger 7 0, .wait false, .detachEvent 7 eventType, attachment 8,
        .wait true]).isSome := by
    decide +kernel
  have hfresh : Meets (perform 256 singleOrigins) (Fresh singleOrigins) (start 1)
      [attachment 7, .trigger 7 0, .wait false, .detachEvent 7 eventType, attachment 8,
        .wait true] := by
    decide +kernel
  obtain ⟨s, hs⟩ := Option.isSome_iff_exists.mp hrun
  exact ⟨s, hs, wait_noStale (by decide) hs hfresh⟩

theorem wait_returns_stale :
    ∃ s, runSteps (perform 256 singleOrigins) (start 256)
        [attachment 7, .trigger 7 0, .detachEvent 7 eventType, attachment 8, .wait false] =
          some s ∧ ¬ WaitSetEvent.NoStale s.history := by
  have hrun : (runSteps (perform 256 singleOrigins) (start 256)
      [attachment 7, .trigger 7 0, .detachEvent 7 eventType, attachment 8, .wait false]).map
        (fun s => decide (WaitSetEvent.NoStale s.history)) = some false := by
    decide +kernel
  obtain ⟨s, hs, hstale⟩ := Option.map_eq_some_iff.mp hrun
  exact ⟨s, hs, of_decide_eq_false hstale⟩

end Example

end WaitSet

end Iceoryx.Popo
