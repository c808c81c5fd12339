import Mathlib.Data.List.Induction
import Mathlib.Logic.Function.Basic
import Iceoryx.Lib.Run

universe u

namespace Iceoryx.Popo

inductive Observation
  | stored (i : Nat)
  | loaded (i : Nat) (value : Bool)
  | collected (i : Nat)
  | returned (activeNotifications : List Nat)
  deriving DecidableEq, Repr

/-- Where the listener is in `waitImpl`; `waiting` is the wait for the semaphore. -/
inductive ListenerPc
  | idle | resetSemaphore | checkDestroyed | scanning (i : Nat) | resetting (i : Nat) | waiting
  deriving DecidableEq, Repr

/-- A notifier has stored its flag but not yet posted, or it is not in `notify`. -/
inductive NotifierPc
  | idle | stored
  deriving DecidableEq, Repr

structure ConditionVariable (T : Type u) where
  semaphore : Nat := 0
  activeNotifications : Nat → Bool := fun _ => false
  toBeDestroyed : Bool := false
  notifiers : T → NotifierPc := fun _ => .idle
  pc : ListenerPc := .idle
  /-- The call is one of `timedWait`. -/
  timed : Bool := false
  doReturnAfterNotificationCollection : Bool := false
  active : List Nat := []
  history : List Observation := []

inductive ConditionStep (T : Type u)
  | store (t : T)
  | post (t : T)
  | destroyStore
  | destroyPost
  | call (timed : Bool)
  | tryWait
  | checkDestroyed
  | load
  | reset
  | semaphoreWait
  | timeout

namespace ConditionVariable

variable {T : Type u} [DecidableEq T] (maxNumberOfNotifiers : Nat) (index : T → Nat)

def observe (o : Observation) (s : ConditionVariable T) : ConditionVariable T :=
  { s with history := s.history ++ [o] }

def doReturn (s : ConditionVariable T) : ConditionVariable T :=
  { s with pc := .idle }.observe (.returned s.active)

def step (s : ConditionVariable T) : ConditionStep T → Option (ConditionVariable T)
  | .store t =>
    if s.notifiers t = .idle then
      let s := { s with notifiers := Function.update s.notifiers t .stored }
      if index t < maxNumberOfNotifiers then
        some ({ s with
          activeNotifications := Function.update s.activeNotifications (index t) true }.observe
            (.stored (index t)))
      else some s
    else none
  | .post t =>
    if s.notifiers t = .stored then
      some { s with
        notifiers := Function.update s.notifiers t .idle
        semaphore := s.semaphore + 1 }
    else none
  | .destroyStore => some { s with toBeDestroyed := true }
  | .destroyPost => some { s with semaphore := s.semaphore + 1 }
  | .call timed =>
    if s.pc = .idle then
      some { s with
        pc := .resetSemaphore
        timed := timed
        doReturnAfterNotificationCollection := false
        active := [] }
    else none
  | .tryWait =>
    if s.pc = .resetSemaphore then
      if s.semaphore = 0 then some { s with pc := .checkDestroyed }
      else some { s with semaphore := s.semaphore - 1 }
    else none
  | .checkDestroyed =>
    if s.pc = .checkDestroyed then
      if s.toBeDestroyed then some s.doReturn else some { s with pc := .scanning 0 }
    else none
  | .load =>
    match s.pc with
    | .scanning i =>
      if i < maxNumberOfNotifiers then
        let s := s.observe (.loaded i (s.activeNotifications i))
        if s.activeNotifications i then some { s with pc := .resetting i }
        else some { s with pc := .scanning (i + 1) }
      else if s.active ≠ [] ∨ s.doReturnAfterNotificationCollection then some s.doReturn
      else some { s with pc := .waiting }
    | _ => none
  | .reset =>
    match s.pc with
    | .resetting i =>
      some ({ s with
        activeNotifications := Function.update s.activeNotifications i false
        active := s.active ++ [i]
        pc := .scanning (i + 1) }.observe (.collected i))
    | _ => none
  | .semaphoreWait =>
    if s.pc = .waiting ∧ s.semaphore ≠ 0 then
      some { s with
        semaphore := s.semaphore - 1
        doReturnAfterNotificationCollection := s.timed
        pc := .checkDestroyed }
    else none
  | .timeout =>
    if s.pc = .waiting ∧ s.timed then
      some { s with doReturnAfterNotificationCollection := true, pc := .checkDestroyed }
    else none

def raised (i : Nat) (h : List Observation) : Bool :=
  h.foldl (fun b o => if o = .stored i then true else if o = .collected i then false else b) false

def collection (h : List Observation) : List Nat :=
  h.foldl (fun is o =>
    match o with
    | .returned _ => []
    | .collected i => is ++ [i]
    | _ => is) []

theorem raised_concat (i : Nat) (h : List Observation) (o : Observation) :
    raised i (h ++ [o]) =
      if o = .stored i then true else if o = .collected i then false else raised i h := by
  simp [raised]

theorem raised_of_store {i : Nat} {a b : List Observation} (h : .collected i ∉ b) :
    raised i (a ++ .stored i :: b) = true := by
  induction b using List.reverseRecOn with
  | nil => simp [raised_concat]
  | append_singleton b o ih =>
    simp only [List.mem_append, List.mem_singleton, not_or] at h
    have hassoc : a ++ .stored i :: (b ++ [o]) = (a ++ .stored i :: b) ++ [o] := by simp
    rw [hassoc, raised_concat, ih h.1, if_neg (Ne.symm h.2)]
    simp

theorem store_of_raised {i : Nat} {h : List Observation} (hr : raised i h = true) :
    ∃ a b, h = a ++ Observation.stored i :: b ∧ Observation.collected i ∉ b := by
  induction h using List.reverseRecOn with
  | nil => cases hr
  | append_singleton h o ih =>
    rw [raised_concat] at hr
    by_cases hs : o = .stored i
    · exact ⟨h, [], by rw [hs], by simp⟩
    · rw [if_neg hs] at hr
      by_cases hc : o = .collected i
      · rw [if_pos hc] at hr
        cases hr
      · rw [if_neg hc] at hr
        obtain ⟨a, b, rfl, hb⟩ := ih hr
        refine ⟨a, b ++ [o], by simp, ?_⟩
        simp [hb, Ne.symm hc]

theorem collection_concat (h : List Observation) (o : Observation) :
    collection (h ++ [o]) =
      match o with
      | .returned _ => []
      | .collected i => collection h ++ [i]
      | _ => collection h := by
  simp [collection]

theorem split_concat {h pre post : List Observation} {o o' : Observation}
    (heq : h ++ [o'] = pre ++ o :: post) :
    (pre = h ∧ o = o' ∧ post = []) ∨ ∃ post', post = post' ++ [o'] ∧ h = pre ++ o :: post' := by
  rcases List.eq_nil_or_concat post with rfl | ⟨post', o'', rfl⟩
  · obtain ⟨rfl, ho⟩ := List.append_inj' heq rfl
    exact Or.inl ⟨rfl, (List.singleton_inj.mp ho).symm, rfl⟩
  · right
    have heq' : h ++ [o'] = (pre ++ o :: post') ++ [o''] := by simpa using heq
    obtain ⟨rfl, ho⟩ := List.append_inj' heq' rfl
    rw [List.singleton_inj.mp ho]
    exact ⟨post', List.concat_eq_append, rfl⟩

def Explained (pc : ListenerPc) (pre : List Observation) (o : Observation)
    (post : List Observation) : Prop :=
  match o with
  | .stored _ => True
  | .loaded i value =>
    value = raised i pre ∧ (value = true → .collected i ∈ post ∨ pc = .resetting i)
  | .collected i => raised i pre = true
  | .returned is => is = collection pre

theorem Explained.mono {pc pc' : ListenerPc} {pre post post' : List Observation} {o : Observation}
    (h : Explained pc pre o post) (hpost : post ⊆ post')
    (hpc : ∀ i, pc = .resetting i → .collected i ∈ post' ∨ pc' = .resetting i) :
    Explained pc' pre o post' := by
  match o, h with
  | .stored _, _ => trivial
  | .loaded i value, ⟨hvalue, hcollected⟩ =>
    refine ⟨hvalue, fun hv => ?_⟩
    rcases hcollected hv with hmem | hresetting
    · exact Or.inl (hpost hmem)
    · exact hpc i hresetting
  | .collected _, h => exact h
  | .returned _, h => exact h

/-- The flag is down, or a notifier has yet to post, or the semaphore is posted. -/
def Covered (s : ConditionVariable T) (i : Nat) : Prop :=
  s.activeNotifications i = true →
    (∃ t, index t = i ∧ s.notifiers t = .stored) ∨ s.semaphore ≠ 0

def Scanned (s : ConditionVariable T) : Prop :=
  match s.pc with
  | .scanning k => s.active = [] → ∀ i < k, s.Covered index i
  | .waiting => ∀ i < maxNumberOfNotifiers, s.Covered index i
  | _ => True

def Collecting (s : ConditionVariable T) : Prop :=
  match s.pc with
  | .idle => collection s.history = []
  | .resetSemaphore => s.active = [] ∧ collection s.history = []
  | _ => s.active = collection s.history

structure Sound (s : ConditionVariable T) : Prop where
  flags : ∀ i, s.activeNotifications i = raised i s.history
  resetting : ∀ i, s.pc = .resetting i → s.activeNotifications i = true
  scanned : s.Scanned maxNumberOfNotifiers index
  collecting : s.Collecting
  explained : ∀ pre o post, s.history = pre ++ o :: post → Explained s.pc pre o post

variable {maxNumberOfNotifiers index}

omit [DecidableEq T] in
theorem scanned_of_posted {s : ConditionVariable T} (h : s.semaphore ≠ 0) :
    s.Scanned maxNumberOfNotifiers index := by
  unfold Scanned
  split
  · exact fun _ _ _ _ => Or.inr h
  · exact fun _ _ _ => Or.inr h
  · trivial

omit [DecidableEq T] in
theorem Scanned.mono {s s' : ConditionVariable T} (h : s.Scanned maxNumberOfNotifiers index)
    (hpc : s'.pc = s.pc) (hactive : s'.active = s.active)
    (hcovered : ∀ i, s.Covered index i → s'.Covered index i) :
    s'.Scanned maxNumberOfNotifiers index := by
  unfold Scanned at h ⊢
  rw [hpc, hactive]
  split at h
  · exact fun hnil i hi => hcovered i (h hnil i hi)
  · exact fun i hi => hcovered i (h i hi)
  · trivial

omit [DecidableEq T] in
theorem Collecting.mono {s s' : ConditionVariable T} (h : s.Collecting) (hpc : s'.pc = s.pc)
    (hactive : s'.active = s.active)
    (hcollection : collection s'.history = collection s.history) : s'.Collecting := by
  unfold Collecting at h ⊢
  rw [hpc, hactive, hcollection]
  exact h

omit [DecidableEq T] in
theorem Collecting.busy {s : ConditionVariable T} (h : s.Collecting) (hidle : s.pc ≠ .idle)
    (hreset : s.pc ≠ .resetSemaphore) : s.active = collection s.history := by
  unfold Collecting at h
  split at h
  · next hpc => exact absurd hpc hidle
  · next hpc => exact absurd hpc hreset
  · exact h

theorem stored_update {s : ConditionVariable T} {t : T} (hidle : s.notifiers t = .idle) {t' : T}
    (ht' : s.notifiers t' = .stored) :
    Function.update s.notifiers t .stored t' = .stored := by
  have hne : t' ≠ t := by
    rintro rfl
    rw [hidle] at ht'
    cases ht'
  rw [Function.update_of_ne hne, ht']

namespace Sound

omit [DecidableEq T] in
theorem quiet {s s' : ConditionVariable T} (h : s.Sound maxNumberOfNotifiers index)
    (hhistory : s'.history = s.history)
    (hflags : s'.activeNotifications = s.activeNotifications)
    (hpc : ∀ i, s'.pc = .resetting i ↔ s.pc = .resetting i)
    (hscanned : s'.Scanned maxNumberOfNotifiers index) (hcollecting : s'.Collecting) :
    s'.Sound maxNumberOfNotifiers index where
  flags := by
    rw [hflags, hhistory]
    exact h.flags
  resetting i hi := by
    rw [hflags]
    exact h.resetting i ((hpc i).mp hi)
  scanned := hscanned
  collecting := hcollecting
  explained pre o post heq := by
    rw [hhistory] at heq
    exact (h.explained pre o post heq).mono (List.Subset.refl _)
      fun i hi => Or.inr ((hpc i).mpr hi)

omit [DecidableEq T] in
theorem explained_observe {s : ConditionVariable T} {pc' : ListenerPc} {o' : Observation}
    (h : s.Sound maxNumberOfNotifiers index) (ho : Explained pc' s.history o' [])
    (hpc : ∀ i, s.pc = .resetting i → o' = .collected i ∨ pc' = .resetting i)
    (pre : List Observation) (o : Observation) (post : List Observation)
    (heq : s.history ++ [o'] = pre ++ o :: post) : Explained pc' pre o post := by
  rcases split_concat heq with ⟨rfl, rfl, rfl⟩ | ⟨post', rfl, hold⟩
  · exact ho
  · refine (h.explained pre o post' hold).mono (List.subset_append_left _ _) ?_
    intro i hi
    rcases hpc i hi with rfl | hi'
    · simp
    · exact Or.inr hi'

theorem store {s : ConditionVariable T} (h : s.Sound maxNumberOfNotifiers index) {t : T}
    (hidle : s.notifiers t = .idle) :
    Sound maxNumberOfNotifiers index ({ s with
      notifiers := Function.update s.notifiers t .stored
      activeNotifications := Function.update s.activeNotifications (index t) true }.observe
        (.stored (index t))) where
  flags i := by
    simp only [observe, raised_concat, Observation.stored.injEq]
    by_cases hi : i = index t
    · rw [hi, Function.update_self, if_pos rfl]
    · rw [Function.update_of_ne hi, if_neg (Ne.symm hi), h.flags i]
      simp
  resetting i hi := by
    simp only [observe]
    by_cases heq : i = index t
    · rw [heq, Function.update_self]
    · rw [Function.update_of_ne heq, h.resetting i hi]
  scanned := by
    refine h.scanned.mono rfl rfl ?_
    intro i hi hraised
    by_cases heq : i = index t
    · exact Or.inl ⟨t, heq.symm, Function.update_self ..⟩
    · simp only [observe, Function.update_of_ne heq] at hraised
      rcases hi hraised with ⟨t', ht', hpc⟩ | hposted
      · exact Or.inl ⟨t', ht', stored_update hidle hpc⟩
      · exact Or.inr hposted
  collecting := h.collecting.mono rfl rfl (by simp [observe, collection_concat])
  explained := h.explained_observe trivial fun _ hi => Or.inr hi

theorem store_nothing {s : ConditionVariable T} (h : s.Sound maxNumberOfNotifiers index) {t : T}
    (hidle : s.notifiers t = .idle) :
    Sound maxNumberOfNotifiers index
      { s with notifiers := Function.update s.notifiers t .stored } := by
  refine h.quiet rfl rfl (fun _ => Iff.rfl) (h.scanned.mono rfl rfl ?_) h.collecting
  intro i hi hraised
  rcases hi hraised with ⟨t', ht', hpc⟩ | hposted
  · exact Or.inl ⟨t', ht', stored_update hidle hpc⟩
  · exact Or.inr hposted

omit [DecidableEq T] in
theorem doReturn {s : ConditionVariable T} (h : s.Sound maxNumberOfNotifiers index)
    (hidle : s.pc ≠ .idle) (hreset : s.pc ≠ .resetSemaphore) (hpc : ∀ i, s.pc ≠ .resetting i) :
    s.doReturn.Sound maxNumberOfNotifiers index where
  flags i := by
    simp only [ConditionVariable.doReturn, observe, raised_concat]
    simpa using h.flags i
  resetting i hi := by cases hi
  scanned := trivial
  collecting := by
    simp [Collecting, ConditionVariable.doReturn, observe, collection_concat]
  explained := h.explained_observe (h.collecting.busy hidle hreset)
    fun i hi => absurd hi (hpc i)

omit [DecidableEq T] in
theorem load {s : ConditionVariable T} (h : s.Sound maxNumberOfNotifiers index) {i : Nat}
    (hpc : s.pc = .scanning i) {pc' : ListenerPc}
    (hpc' : pc' = if s.activeNotifications i then .resetting i else .scanning (i + 1)) :
    Sound maxNumberOfNotifiers index
      { s.observe (.loaded i (s.activeNotifications i)) with pc := pc' } := by
  have hcollected : s.active = collection s.history :=
    h.collecting.busy (by simp [hpc]) (by simp [hpc])
  have hloaded : Explained pc' s.history (.loaded i (s.activeNotifications i)) [] :=
    ⟨h.flags i, fun hraised => Or.inr (by rw [hpc', hraised, if_pos rfl])⟩
  have hexplained := h.explained_observe hloaded fun j hj => absurd hj (by simp [hpc])
  refine ⟨?_, ?_, ?_, ?_, hexplained⟩
  · intro j
    simp only [observe, raised_concat]
    simpa using h.flags j
  · intro j hj
    have hj' : pc' = .resetting j := hj
    cases hraised : s.activeNotifications i with
    | false => simp [hpc', hraised] at hj'
    | true =>
      obtain rfl : i = j := by simpa [hpc', hraised] using hj'
      exact hraised
  · cases hraised : s.activeNotifications i with
    | true => simp [Scanned, hpc', hraised]
    | false =>
      simp only [Scanned, hpc', hraised]
      intro hnil j hj hj'
      have hscanned := h.scanned
      simp only [Scanned, hpc] at hscanned
      have hne : j ≠ i := by
        rintro rfl
        rw [show s.activeNotifications j = true from hj'] at hraised
        cases hraised
      exact hscanned hnil j (by omega) hj'
  · cases hraised : s.activeNotifications i <;>
      simp [Collecting, hpc', hraised, observe, collection_concat, hcollected]

omit [DecidableEq T] in
theorem reset {s : ConditionVariable T} (h : s.Sound maxNumberOfNotifiers index) {i : Nat}
    (hpc : s.pc = .resetting i) :
    Sound maxNumberOfNotifiers index ({ s with
      activeNotifications := Function.update s.activeNotifications i false
      active := s.active ++ [i]
      pc := .scanning (i + 1) }.observe (.collected i)) where
  flags j := by
    simp only [observe, raised_concat, Observation.collected.injEq]
    by_cases hj : j = i
    · simp [hj]
    · rw [Function.update_of_ne hj, if_neg (by simp), if_neg (Ne.symm hj), h.flags j]
  resetting j hj := by cases hj
  scanned := by simp [Scanned, observe]
  collecting := by
    have hcollected : s.active = collection s.history :=
      h.collecting.busy (by simp [hpc]) (by simp [hpc])
    simp [Collecting, observe, collection_concat, hcollected]
  explained := by
    refine h.explained_observe ((h.flags i).symm.trans (h.resetting i hpc)) ?_
    intro j hj
    rw [hpc] at hj
    exact Or.inl (congrArg Observation.collected (ListenerPc.resetting.inj hj))

omit [DecidableEq T] in
theorem posted {s s' : ConditionVariable T} (h : s.Sound maxNumberOfNotifiers index)
    (hhistory : s'.history = s.history)
    (hflags : s'.activeNotifications = s.activeNotifications) (hpc : s'.pc = s.pc)
    (hactive : s'.active = s.active) (hsemaphore : s'.semaphore ≠ 0) :
    s'.Sound maxNumberOfNotifiers index :=
  h.quiet hhistory hflags (fun _ => by rw [hpc]) (scanned_of_posted hsemaphore)
    (h.collecting.mono hpc hactive (by rw [hhistory]))

theorem call {s s' : ConditionVariable T} {timed : Bool}
    (h : s.Sound maxNumberOfNotifiers index)
    (hstep : s.step maxNumberOfNotifiers index (.call timed) = some s') :
    s'.Sound maxNumberOfNotifiers index := by
  simp only [ConditionVariable.step, Option.ite_none_right_eq_some, Option.some.injEq] at hstep
  obtain ⟨hpc, rfl⟩ := hstep
  have hcollecting := h.collecting
  simp only [Collecting, hpc] at hcollecting
  exact h.quiet rfl rfl (fun _ => by simp [hpc]) trivial ⟨rfl, hcollecting⟩

theorem tryWait {s s' : ConditionVariable T}
    (h : s.Sound maxNumberOfNotifiers index)
    (hstep : s.step maxNumberOfNotifiers index .tryWait = some s') :
    s'.Sound maxNumberOfNotifiers index := by
  simp only [ConditionVariable.step, Option.ite_none_right_eq_some] at hstep
  obtain ⟨hpc, hstep⟩ := hstep
  have hcollecting := h.collecting
  simp only [Collecting, hpc] at hcollecting
  split at hstep
  · cases hstep
    exact h.quiet rfl rfl (fun _ => by simp [hpc]) trivial
      (hcollecting.1.trans hcollecting.2.symm)
  · cases hstep
    refine h.quiet rfl rfl (fun _ => Iff.rfl) ?_ (h.collecting.mono rfl rfl rfl)
    simp [Scanned, hpc]

theorem checkDestroyed {s s' : ConditionVariable T}
    (h : s.Sound maxNumberOfNotifiers index)
    (hstep : s.step maxNumberOfNotifiers index .checkDestroyed = some s') :
    s'.Sound maxNumberOfNotifiers index := by
  simp only [ConditionVariable.step, Option.ite_none_right_eq_some] at hstep
  obtain ⟨hpc, hstep⟩ := hstep
  split at hstep
  · cases hstep
    exact h.doReturn (by simp [hpc]) (by simp [hpc]) (by simp [hpc])
  · cases hstep
    refine h.quiet rfl rfl (fun _ => by simp [hpc]) ?_
      (h.collecting.busy (by simp [hpc]) (by simp [hpc]))
    intro _ i hi
    omega

omit [DecidableEq T] in
theorem endScan {s : ConditionVariable T} (h : s.Sound maxNumberOfNotifiers index) {i : Nat}
    (hpc : s.pc = .scanning i) (hi : ¬ i < maxNumberOfNotifiers) (hempty : s.active = []) :
    Sound maxNumberOfNotifiers index { s with pc := .waiting } := by
  have hscanned := h.scanned
  simp only [Scanned, hpc] at hscanned
  refine h.quiet rfl rfl (fun _ => by simp [hpc]) ?_
    (h.collecting.busy (by simp [hpc]) (by simp [hpc]))
  intro j hj
  exact hscanned hempty j (by omega)

theorem scan {s s' : ConditionVariable T}
    (h : s.Sound maxNumberOfNotifiers index)
    (hstep : s.step maxNumberOfNotifiers index .load = some s') :
    s'.Sound maxNumberOfNotifiers index := by
  simp only [ConditionVariable.step] at hstep
  split at hstep
  · next i hpc =>
    split at hstep
    · split at hstep
      · next hraised =>
        cases hstep
        exact h.load hpc (if_pos hraised).symm
      · next hraised =>
        cases hstep
        exact h.load hpc (if_neg hraised).symm
    · next hend =>
      split at hstep
      · cases hstep
        exact h.doReturn (by simp [hpc]) (by simp [hpc]) (by simp [hpc])
      · next hempty =>
        cases hstep
        exact h.endScan hpc hend (by simpa using fun hne => hempty (Or.inl hne))
  · cases hstep

omit [DecidableEq T] in
theorem wake {s s' : ConditionVariable T} (h : s.Sound maxNumberOfNotifiers index)
    (hpc : s.pc = .waiting) (hhistory : s'.history = s.history)
    (hflags : s'.activeNotifications = s.activeNotifications) (hactive : s'.active = s.active)
    (hpc' : s'.pc = .checkDestroyed) : s'.Sound maxNumberOfNotifiers index := by
  refine h.quiet hhistory hflags (fun _ => by simp [hpc, hpc']) ?_ ?_
  · simp [Scanned, hpc']
  · simp only [Collecting, hpc']
    rw [hactive, hhistory]
    exact h.collecting.busy (by simp [hpc]) (by simp [hpc])

theorem step {s s' : ConditionVariable T} {l : ConditionStep T}
    (h : s.Sound maxNumberOfNotifiers index)
    (hstep : s.step maxNumberOfNotifiers index l = some s') :
    s'.Sound maxNumberOfNotifiers index := by
  cases l with
  | store t =>
    simp only [ConditionVariable.step, Option.ite_none_right_eq_some] at hstep
    obtain ⟨hidle, hstep⟩ := hstep
    split at hstep
    · cases hstep
      exact h.store hidle
    · cases hstep
      exact h.store_nothing hidle
  | post t =>
    simp only [ConditionVariable.step, Option.ite_none_right_eq_some, Option.some.injEq] at hstep
    obtain ⟨-, rfl⟩ := hstep
    exact h.posted rfl rfl rfl rfl (Nat.succ_ne_zero _)
  | destroyStore =>
    cases hstep
    exact h.quiet rfl rfl (fun _ => Iff.rfl) (h.scanned.mono rfl rfl fun _ hi => hi)
      (h.collecting.mono rfl rfl rfl)
  | destroyPost =>
    cases hstep
    exact h.posted rfl rfl rfl rfl (Nat.succ_ne_zero _)
  | call timed => exact h.call hstep
  | tryWait => exact h.tryWait hstep
  | checkDestroyed => exact h.checkDestroyed hstep
  | load => exact h.scan hstep
  | reset =>
    simp only [ConditionVariable.step] at hstep
    split at hstep
    · next hpc =>
      cases hstep
      exact h.reset hpc
    · cases hstep
  | semaphoreWait =>
    simp only [ConditionVariable.step, Option.ite_none_right_eq_some, Option.some.injEq] at hstep
    obtain ⟨⟨hpc, -⟩, rfl⟩ := hstep
    exact h.wake hpc rfl rfl rfl rfl
  | timeout =>
    simp only [ConditionVariable.step, Option.ite_none_right_eq_some, Option.some.injEq] at hstep
    obtain ⟨⟨hpc, -⟩, rfl⟩ := hstep
    exact h.wake hpc rfl rfl rfl rfl

omit [DecidableEq T] in
theorem start : ({} : ConditionVariable T).Sound maxNumberOfNotifiers index where
  flags _ := rfl
  resetting _ hi := by cases hi
  scanned := trivial
  collecting := rfl
  explained pre o post heq := by simp at heq

theorem run {ls : List (ConditionStep T)} {s : ConditionVariable T}
    (hrun : Lib.runSteps (ConditionVariable.step maxNumberOfNotifiers index) {} ls = some s) :
    s.Sound maxNumberOfNotifiers index :=
  Lib.runSteps_invariant (C := fun _ _ => True) (fun _ _ _ h _ hs => h.step hs) ls {} s start
    (Lib.meets_true ls _) hrun

omit [DecidableEq T] in
theorem waiting {s : ConditionVariable T} (h : s.Sound maxNumberOfNotifiers index)
    (hpc : s.pc = .waiting) (hsemaphore : s.semaphore = 0) {i : Nat}
    (hi : i < maxNumberOfNotifiers) (hraised : s.activeNotifications i = true) :
    ∃ t, index t = i ∧ s.notifiers t = .stored := by
  have hscanned := h.scanned
  simp only [Scanned, hpc] at hscanned
  exact (hscanned i hi hraised).resolve_right (by simp [hsemaphore])

omit [DecidableEq T] in
theorem loaded_after_store {s : ConditionVariable T} (h : s.Sound maxNumberOfNotifiers index)
    {i : Nat} {value : Bool} {pre post : List Observation}
    (heq : s.history = pre ++ .stored i :: post) (hload : .loaded i value ∈ post) :
    .collected i ∈ post ∨ s.pc = .resetting i := by
  obtain ⟨a, b, rfl⟩ := List.append_of_mem hload
  by_cases hcollected : .collected i ∈ a
  · exact Or.inl (by simp [hcollected])
  · have hsplit : s.history = (pre ++ .stored i :: a) ++ .loaded i value :: b := by
      simpa using heq
    obtain ⟨hvalue, hmust⟩ := h.explained _ _ _ hsplit
    rw [raised_of_store hcollected] at hvalue
    rcases hmust hvalue with hmem | hresetting
    · exact Or.inl (by simp [hmem])
    · exact Or.inr hresetting

end Sound

theorem no_lost_wakeup (ls : List (ConditionStep T)) (s : ConditionVariable T)
    (hrun : Lib.runSteps (step maxNumberOfNotifiers index) {} ls = some s) :
    (s.pc = .waiting → s.semaphore = 0 → ∀ i < maxNumberOfNotifiers,
      s.activeNotifications i = true → ∃ t, index t = i ∧ s.notifiers t = .stored) ∧
    (∀ pre is post, s.history = pre ++ Observation.returned is :: post → is = collection pre) ∧
    (∀ pre i post, s.history = pre ++ Observation.collected i :: post →
      ∃ a b, pre = a ++ Observation.stored i :: b ∧ Observation.collected i ∉ b) ∧
    ∀ pre i post, s.history = pre ++ Observation.stored i :: post →
      (Observation.collected i ∉ post → s.activeNotifications i = true) ∧
      ∀ value, Observation.loaded i value ∈ post →
        Observation.collected i ∈ post ∨ s.pc = .resetting i := by
  have h := Sound.run hrun
  refine ⟨fun hpc hsemaphore i hi hraised => h.waiting hpc hsemaphore hi hraised, ?_, ?_, ?_⟩
  · intro pre is post heq
    exact h.explained pre (.returned is) post heq
  · intro pre i post heq
    exact store_of_raised (h.explained pre (.collected i) post heq)
  · intro pre i post heq
    refine ⟨fun hnot => ?_, fun value hload => h.loaded_after_store heq hload⟩
    rw [h.flags i, heq]
    exact raised_of_store hnot

/-- Index 0 is notified, and once more after its flag was collected and before the
call returns; the next call returns it again. -/
def notifiedBeforeReturn : List (ConditionStep Unit) :=
  [.store (), .post (), .call false, .tryWait, .tryWait, .checkDestroyed, .load, .reset,
    .store (), .post (), .load, .call false, .tryWait, .tryWait, .checkDestroyed, .load, .reset,
    .load]

theorem no_lost_wakeup_twice :
    ∃ s : ConditionVariable Unit,
      Lib.runSteps (step 1 fun _ => 0) {} notifiedBeforeReturn = some s ∧
      ∀ pre i post, s.history = pre ++ Observation.collected i :: post →
        ∃ a b, pre = a ++ Observation.stored i :: b ∧ Observation.collected i ∉ b := by
  obtain ⟨s, hs⟩ : ∃ s : ConditionVariable Unit,
      Lib.runSteps (step 1 fun _ => 0) {} notifiedBeforeReturn = some s := ⟨_, rfl⟩
  exact ⟨s, hs, (no_lost_wakeup notifiedBeforeReturn s hs).2.2.1⟩

theorem returned_again_without_notification :
    ∃ (s : ConditionVariable Unit) (pre mid : List Observation),
      Lib.runSteps (step 1 fun _ => 0) {} notifiedBeforeReturn = some s ∧
      s.history = pre ++ Observation.returned [0] :: (mid ++ [Observation.returned [0]]) ∧
      Observation.stored 0 ∉ mid :=
  ⟨_, [.stored 0, .loaded 0 true, .collected 0, .stored 0], [.loaded 0 true, .collected 0],
    rfl, rfl, by decide⟩

end ConditionVariable

end Iceoryx.Popo
