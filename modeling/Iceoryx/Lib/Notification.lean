import Mathlib.Data.List.Induction
import Mathlib.Logic.Function.Basic

/-! Requests that raise a flag each, and a worker that collects the raised flags and answers
them one by one.  Requests for one key merge as long as its flag is up, and the value that a
key stands for may change in the meantime. -/

universe u v w

namespace Lib

inductive Note (K : Type u) (V : Type v) (R : Type w)
  | requested (k : K) (value : V)
  | answered (k : K) (answer : Option R)
  | changed (k : K)
  deriving DecidableEq, Repr

structure Board (K : Type u) (V : Type v) (R : Type w) where
  value : K → V
  raised : K → Bool
  collected : List K
  log : List (Note K V R)

namespace Board

variable {K : Type u} {V : Type v} {R : Type w} [DecidableEq K]

def Due (b : Board K V R) (k : K) : Prop := b.raised k = true ∨ k ∈ b.collected

/-- The log goes on with an answer for the key, by the value that was requested unless the
key changed. -/
def Answered (respond : V → Option R) (k : K) (value : V) (post : List (Note K V R)) : Prop :=
  ∃ a r c, post = a ++ .answered k r :: c ∧ (.changed k ∉ a → r = respond value)

def Recent (respond : V → Option R) (k : K) (r : R) (log : List (Note K V R)) : Prop :=
  ∃ a value c, log = a ++ .requested k value :: c ∧ .changed k ∉ c ∧ respond value = some r

def isRequest (k : K) : Note K V R → Bool
  | .requested k' _ => k' = k
  | _ => false

def isAnswer (k : K) : Note K V R → Bool
  | .answered k' _ => k' = k
  | _ => false

section Moves

variable (respond : V → Option R)

/-- `change` logs the keys whose values change, and no others. -/
inductive Move (b : Board K V R) : Board K V R → Prop
  | stay : Move b b
  | request (k : K) :
    Move b { b with
      raised := Function.update b.raised k true
      log := b.log ++ [.requested k (b.value k)] }
  | collect (k : K) (h : b.raised k = true) :
    Move b { b with
      raised := Function.update b.raised k false
      collected := b.collected ++ [k] }
  | answer (k : K) (ks : List K) (h : b.collected = k :: ks) :
    Move b { b with
      collected := ks
      log := b.log ++ [.answered k (respond (b.value k))] }
  | change (value : K → V) (ks : List K) (h : ∀ k, k ∈ ks ↔ value k ≠ b.value k) :
    Move b { b with
      value := value
      log := b.log ++ ks.map .changed }

/-- No key on which a request waits comes to be answered differently, unless it is not
answered any more. -/
def Calm (b b' : Board K V R) : Prop :=
  ∀ k, b.Due k → b'.value k = b.value k ∨ respond (b'.value k) = none

structure Sound (b : Board K V R) : Prop where
  value : ∀ pre k value post, b.log = pre ++ .requested k value :: post →
    .changed k ∉ post → b.value k = value
  answered : ∀ pre k value post, b.log = pre ++ .requested k value :: post →
    Answered respond k value post ∨ b.Due k
  counted : ∀ k, b.log.countP (isAnswer k) + b.collected.count k + (b.raised k).toNat ≤
    b.log.countP (isRequest k)

structure Own (b : Board K V R) : Prop where
  given : ∀ pre k r post, b.log = pre ++ .answered k (some r) :: post → Recent respond k r pre
  due : ∀ k r, b.Due k → respond (b.value k) = some r → Recent respond k r b.log

end Moves

section Logs

variable {α : Type*} {log : List (Note K V R)} {respond : V → Option R} {k : K} {r : R}

omit [DecidableEq K] in
theorem append_split {l ys pre post : List α} {o : α} (h : l ++ ys = pre ++ o :: post) :
    (∃ mid, l = pre ++ o :: mid ∧ post = mid ++ ys) ∨
      ∃ mid, pre = l ++ mid ∧ ys = mid ++ o :: post := by
  rcases List.append_eq_append_iff.mp h with ⟨mid, hpre, hys⟩ | ⟨mid, hl, hcons⟩
  · exact Or.inr ⟨mid, hpre, hys⟩
  · cases mid with
    | nil =>
      refine Or.inr ⟨[], ?_, hcons.symm⟩
      rw [List.append_nil] at hl ⊢
      exact hl.symm
    | cons x mid =>
      obtain ⟨rfl, rfl⟩ := List.cons.inj hcons
      exact Or.inl ⟨mid, hl, rfl⟩

omit [DecidableEq K] in
theorem append_split_of_not_mem {l ys pre post : List α} {o : α} (ho : o ∉ ys)
    (h : l ++ ys = pre ++ o :: post) : ∃ mid, l = pre ++ o :: mid ∧ post = mid ++ ys := by
  rcases append_split h with hold | ⟨mid, -, hys⟩
  · exact hold
  · exact absurd (hys ▸ List.mem_append_right mid List.mem_cons_self) ho

omit [DecidableEq K] in
theorem concat_split {l pre post : List α} {x o : α} (h : l ++ [x] = pre ++ o :: post) :
    (∃ mid, l = pre ++ o :: mid ∧ post = mid ++ [x]) ∨ (pre = l ∧ o = x ∧ post = []) := by
  rcases append_split h with hold | ⟨mid, rfl, hx⟩
  · exact Or.inl hold
  · cases mid with
    | nil =>
      obtain ⟨rfl, rfl⟩ := List.cons.inj hx
      exact Or.inr ⟨List.append_nil l, rfl, rfl⟩
    | cons y mid =>
      have hnil := (List.cons.inj hx).2
      exact absurd hnil.symm (List.append_ne_nil_of_right_ne_nil _ (List.cons_ne_nil _ _))

omit [DecidableEq K] in
theorem Answered.mono {value : V} {post : List (Note K V R)} (h : Answered respond k value post)
    (ys : List (Note K V R)) : Answered respond k value (post ++ ys) := by
  obtain ⟨a, r, c, rfl, hr⟩ := h
  exact ⟨a, r, c ++ ys, by rw [List.append_assoc, List.cons_append], hr⟩

omit [DecidableEq K] in
theorem Recent.mono {ys : List (Note K V R)} (h : Recent respond k r log)
    (hys : .changed k ∉ ys) : Recent respond k r (log ++ ys) := by
  obtain ⟨a, value, c, rfl, hc, hr⟩ := h
  refine ⟨a, value, c ++ ys, by rw [List.append_assoc, List.cons_append], ?_, hr⟩
  exact fun hmem => (List.mem_append.mp hmem).elim hc hys

omit [DecidableEq K] in
theorem changed_mem_iff {ks : List K} :
    (.changed k : Note K V R) ∈ ks.map .changed ↔ k ∈ ks := by
  constructor
  · intro h
    obtain ⟨k', hk', heq⟩ := List.mem_map.mp h
    cases heq
    exact hk'
  · exact List.mem_map_of_mem

omit [DecidableEq K] in
theorem not_changed {ks : List K} {o : Note K V R} (ho : ∀ k, o ≠ .changed k) :
    o ∉ ks.map .changed := by
  intro h
  obtain ⟨k', -, heq⟩ := List.mem_map.mp h
  exact ho k' heq.symm

end Logs

section Steps

variable {respond : V → Option R} {b b' : Board K V R}

theorem due_request {k k' : K} (h : b.Due k') :
    Due { b with
      raised := Function.update b.raised k true
      log := b.log ++ [.requested k (b.value k)] } k' := by
  refine h.imp_left fun hraised => ?_
  by_cases hk : k' = k
  · exact hk ▸ Function.update_self ..
  · exact (Function.update_of_ne hk ..).trans hraised

theorem due_collect_iff {k k' : K} (h : b.raised k = true) :
    Due { b with
      raised := Function.update b.raised k false
      collected := b.collected ++ [k] } k' ↔ b.Due k' := by
  simp only [Due, List.mem_append, List.mem_singleton]
  by_cases hk : k' = k
  · subst hk
    simp [h]
  · simp [hk]

namespace Sound

theorem request (h : b.Sound respond) (k : K) :
    Sound respond { b with
      raised := Function.update b.raised k true
      log := b.log ++ [.requested k (b.value k)] } where
  value pre k' value post heq hpost := by
    rcases concat_split heq with ⟨mid, hlog, rfl⟩ | ⟨-, hnew, -⟩
    · exact h.value pre k' value mid hlog fun hmem => hpost (List.mem_append_left _ hmem)
    · cases hnew
      rfl
  answered pre k' value post heq := by
    rcases concat_split heq with ⟨mid, hlog, rfl⟩ | ⟨-, hnew, -⟩
    · exact (h.answered pre k' value mid hlog).imp (·.mono _) due_request
    · cases hnew
      exact Or.inr (Or.inl (Function.update_self ..))
  counted k' := by
    have hold := h.counted k'
    by_cases hk : k' = k
    · subst hk
      have hone := (b.raised k').toNat_le
      simp only [List.countP_append, List.countP_singleton, isAnswer, isRequest,
        Function.update_self, decide_true, if_true, Bool.toNat_true, Bool.false_eq_true, if_false]
      omega
    · simpa [List.countP_append, isAnswer, isRequest, Function.update_of_ne hk, Ne.symm hk]
        using hold

theorem collect (h : b.Sound respond) {k : K} (hk : b.raised k = true) :
    Sound respond { b with
      raised := Function.update b.raised k false
      collected := b.collected ++ [k] } where
  value := h.value
  answered pre k' value post heq :=
    (h.answered pre k' value post heq).imp_right (due_collect_iff hk).mpr
  counted k' := by
    have hold := h.counted k'
    by_cases hkk : k' = k
    · subst hkk
      rw [hk] at hold
      simp only [Function.update_self, List.count_append, List.count_singleton_self,
        Bool.toNat_false, Bool.toNat_true] at hold ⊢
      omega
    · simpa [List.count_append, List.count_singleton, Function.update_of_ne hkk, Ne.symm hkk]
        using hold

theorem answer {k : K} {ks : List K} (h : b.Sound respond) (hk : b.collected = k :: ks) :
    Sound respond { b with
      collected := ks
      log := b.log ++ [.answered k (respond (b.value k))] } where
  value pre k' value post heq hpost := by
    rcases concat_split heq with ⟨mid, hlog, rfl⟩ | ⟨-, hnew, -⟩
    · exact h.value pre k' value mid hlog fun hmem => hpost (List.mem_append_left _ hmem)
    · cases hnew
  answered pre k' value post heq := by
    rcases concat_split heq with ⟨mid, hlog, rfl⟩ | ⟨-, hnew, -⟩
    · rcases h.answered pre k' value mid hlog with hanswered | hraised | hmem
      · exact Or.inl (hanswered.mono _)
      · exact Or.inr (Or.inl hraised)
      · rw [hk] at hmem
        rcases List.mem_cons.mp hmem with rfl | hmem
        · -- this is the answer to it
          refine Or.inl ⟨mid, _, [], rfl, fun hmid => ?_⟩
          rw [h.value pre k' value mid hlog hmid]
        · exact Or.inr (Or.inr hmem)
    · cases hnew
  counted k' := by
    have hold := h.counted k'
    rw [hk] at hold
    by_cases hkk : k = k'
    · subst hkk
      simp only [List.countP_append, List.countP_singleton, isAnswer, isRequest, decide_true,
        if_true, List.count_cons_self, Bool.false_eq_true, if_false] at hold ⊢
      omega
    · simpa [List.countP_append, isAnswer, isRequest, List.count_cons, hkk] using hold

theorem change (h : b.Sound respond) {value : K → V} {ks : List K}
    (hks : ∀ k, k ∈ ks ↔ value k ≠ b.value k) :
    Sound respond { b with
      value := value
      log := b.log ++ ks.map .changed } where
  value pre k v post heq hpost := by
    obtain ⟨mid, hlog, rfl⟩ := append_split_of_not_mem (not_changed (by simp)) heq
    have hk : k ∉ ks := fun hmem => hpost (List.mem_append_right mid (changed_mem_iff.mpr hmem))
    have hsame : value k = b.value k := by
      by_contra hne
      exact hk ((hks k).mpr hne)
    exact hsame.trans (h.value pre k v mid hlog fun hmem => hpost (List.mem_append_left _ hmem))
  answered pre k v post heq := by
    obtain ⟨mid, hlog, rfl⟩ := append_split_of_not_mem (not_changed (by simp)) heq
    exact (h.answered pre k v mid hlog).imp_left (·.mono _)
  counted k := by
    have hnone : ∀ p : Note K V R → Bool, (∀ k, p (.changed k) = false) →
        (ks.map (Note.changed (V := V) (R := R))).countP p = 0 := by
      intro p hp
      rw [List.countP_eq_zero]
      intro o ho
      obtain ⟨k', -, rfl⟩ := List.mem_map.mp ho
      rw [hp k']
      exact Bool.false_ne_true
    rw [List.countP_append, List.countP_append, hnone _ fun _ => rfl, hnone _ fun _ => rfl]
    exact h.counted k

theorem move (h : b.Sound respond) (hmove : b.Move respond b') : b'.Sound respond := by
  cases hmove with
  | stay => exact h
  | request k => exact h.request k
  | collect k hk => exact h.collect hk
  | answer k ks hk => exact h.answer hk
  | change value ks hks => exact h.change hks

end Sound

namespace Own

theorem request (h : b.Own respond) (k : K) :
    Own respond { b with
      raised := Function.update b.raised k true
      log := b.log ++ [.requested k (b.value k)] } where
  given pre k' r post heq := by
    rcases concat_split heq with ⟨mid, hlog, rfl⟩ | ⟨-, hnew, -⟩
    · exact h.given pre k' r mid hlog
    · cases hnew
  due k' r hdue hr := by
    by_cases hk : k' = k
    · subst hk
      exact ⟨b.log, b.value k', [], rfl, List.not_mem_nil, hr⟩
    · refine (h.due k' r ?_ hr).mono (by simp)
      exact hdue.imp_left fun hraised => (Function.update_of_ne hk ..).symm.trans hraised

theorem collect (h : b.Own respond) {k : K} (hk : b.raised k = true) :
    Own respond { b with
      raised := Function.update b.raised k false
      collected := b.collected ++ [k] } where
  given := h.given
  due k' r hdue hr := h.due k' r ((due_collect_iff hk).mp hdue) hr

omit [DecidableEq K] in
theorem answer {k : K} {ks : List K} (h : b.Own respond) (hk : b.collected = k :: ks) :
    Own respond { b with
      collected := ks
      log := b.log ++ [.answered k (respond (b.value k))] } where
  given pre k' r post heq := by
    rcases concat_split heq with ⟨mid, hlog, rfl⟩ | ⟨rfl, hnew, -⟩
    · exact h.given pre k' r mid hlog
    · obtain ⟨rfl, hr⟩ := Note.answered.inj hnew
      exact h.due k' r (Or.inr (hk ▸ List.mem_cons_self)) hr.symm
  due k' r hdue hr := by
    refine (h.due k' r (hdue.imp_right fun hmem => ?_) hr).mono (by simp)
    rw [hk]
    exact List.mem_cons_of_mem k hmem

omit [DecidableEq K] in
theorem change_iff (h : b.Own respond) {value : K → V} {ks : List K}
    (hks : ∀ k, k ∈ ks ↔ value k ≠ b.value k) :
    Own respond { b with
        value := value
        log := b.log ++ ks.map .changed } ↔
      ∀ k, b.Due k → value k = b.value k ∨ respond (value k) = none := by
  constructor
  · intro hown k hdue
    cases hr : respond (value k) with
    | none => exact Or.inr rfl
    | some r =>
      left
      obtain ⟨a, v, c, hlog, hc, -⟩ := hown.due k r hdue hr
      obtain ⟨mid, -, rfl⟩ := append_split_of_not_mem (not_changed (by simp)) hlog
      by_contra hne
      exact hc (List.mem_append_right mid (changed_mem_iff.mpr ((hks k).mpr hne)))
  · intro hcalm
    refine ⟨fun pre k r post heq => ?_, fun k r hdue hr => ?_⟩
    · obtain ⟨mid, hlog, -⟩ := append_split_of_not_mem (not_changed (by simp)) heq
      exact h.given pre k r mid hlog
    · rcases hcalm k hdue with hsame | hnone
      · refine (h.due k r hdue (hsame ▸ hr)).mono fun hmem => ?_
        exact (hks k).mp (changed_mem_iff.mp hmem) hsame
      · cases hnone.symm.trans hr

theorem move_iff (h : b.Own respond) (hmove : b.Move respond b') :
    b'.Own respond ↔ Calm respond b b' := by
  cases hmove with
  | stay => exact iff_of_true h fun _ _ => Or.inl rfl
  | request k => exact iff_of_true (h.request k) fun _ _ => Or.inl rfl
  | collect k hk => exact iff_of_true (h.collect hk) fun _ _ => Or.inl rfl
  | answer k ks hk => exact iff_of_true (h.answer hk) fun _ _ => Or.inl rfl
  | change value ks hks => exact h.change_iff hks

end Own

end Steps

end Board

end Lib
