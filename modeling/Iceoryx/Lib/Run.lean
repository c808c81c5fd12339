import Mathlib.Algebra.GroupWithZero.Nat

/-! Runs of a partial step function.  A label that is not enabled has no
successor, so a list of labels either describes a run or it does not. -/

universe u v

namespace Lib

variable {S : Type u} {L : Type v}

def runSteps (step : S → L → Option S) : S → List L → Option S
  | s, [] => some s
  | s, l :: ls => (step s l).bind fun s' => runSteps step s' ls

def Meets (step : S → L → Option S) (C : S → L → Prop) : S → List L → Prop
  | _, [] => True
  | s, l :: ls => C s l ∧
    match step s l with
    | some s' => Meets step C s' ls
    | none => True

instance decidableMeets (step : S → L → Option S) (C : S → L → Prop)
    [∀ s l, Decidable (C s l)] : ∀ s ls, Decidable (Meets step C s ls)
  | _, [] => inferInstanceAs (Decidable True)
  | s, l :: ls =>
    match hs : step s l with
    | some s' =>
      have := decidableMeets step C s' ls
      decidable_of_iff (C s l ∧ Meets step C s' ls) (by simp [Meets, hs])
    | none => decidable_of_iff (C s l) (by simp [Meets, hs])

@[simp] theorem runSteps_nil (step : S → L → Option S) (s : S) :
    runSteps step s [] = some s := rfl

theorem runSteps_cons {step : S → L → Option S} {s s' : S} {l : L} {ls : List L}
    (h : runSteps step s (l :: ls) = some s') :
    ∃ m, step s l = some m ∧ runSteps step m ls = some s' :=
  Option.bind_eq_some_iff.mp h

theorem runSteps_append {step : S → L → Option S} (ls ls' : List L) (s : S) :
    runSteps step s (ls ++ ls') = (runSteps step s ls).bind fun m => runSteps step m ls' := by
  induction ls generalizing s with
  | nil => rfl
  | cons l ls ih => simp only [List.cons_append, runSteps, ih, Option.bind_assoc]

theorem runSteps_replicate {step : S → L → Option S} {P : Nat → S → Prop} {block : List L}
    {n : Nat} (hblock : ∀ k s, k < n → P k s →
      ∃ s', runSteps step s block = some s' ∧ P (k + 1) s') {s : S} (hs : P 0 s) :
    ∃ s', runSteps step s (List.replicate n block).flatten = some s' ∧ P n s' := by
  induction n with
  | zero => exact ⟨s, rfl, hs⟩
  | succ n ih =>
    obtain ⟨m, hm, hlevel⟩ := ih fun k s hk => hblock k s (Nat.lt_succ_of_lt hk)
    obtain ⟨s', hs', hnext⟩ := hblock n m (Nat.lt_succ_self n) hlevel
    refine ⟨s', ?_, hnext⟩
    rw [List.replicate_succ', List.flatten_append, List.flatten_singleton, runSteps_append, hm]
    exact hs'

theorem length_flatMap_flatten_replicate {C : Type u} (f : L → List C) (block : List L) (n : Nat) :
    ((List.replicate n block).flatten.flatMap f).length = n * (block.flatMap f).length := by
  induction n with
  | zero => rw [Nat.zero_mul]; rfl
  | succ n ih =>
    rw [List.replicate_succ, List.flatten_cons, List.flatMap_append, List.length_append, ih,
      Nat.succ_mul, Nat.add_comm]

theorem meets_true {step : S → L → Option S} (ls : List L) (s : S) :
    Meets step (fun _ _ => True) s ls := by
  induction ls generalizing s with
  | nil => trivial
  | cons l ls ih =>
    refine ⟨trivial, ?_⟩
    split
    · exact ih _
    · trivial

theorem meets_of_forall {step : S → L → Option S} {C : S → L → Prop} {ls : List L}
    (h : ∀ l ∈ ls, ∀ s, C s l) (s : S) : Meets step C s ls := by
  induction ls generalizing s with
  | nil => trivial
  | cons l ls ih =>
    refine ⟨h l List.mem_cons_self s, ?_⟩
    split
    · exact ih (fun k hk => h k (List.mem_cons_of_mem l hk)) _
    · trivial

theorem runSteps_invariant {step : S → L → Option S} {C : S → L → Prop} {I : S → Prop}
    (hstep : ∀ s l s', I s → C s l → step s l = some s' → I s') :
    ∀ (ls : List L) (s s' : S), I s → Meets step C s ls →
      runSteps step s ls = some s' → I s' := by
  intro ls
  induction ls with
  | nil =>
    intro s s' hI _ h
    cases h
    exact hI
  | cons l ls ih =>
    intro s s' hI hC h
    obtain ⟨m, hm, hrest⟩ := runSteps_cons h
    obtain ⟨hl, hls⟩ := hC
    rw [hm] at hls
    exact ih m s' (hstep s l m hI hl hm) hls hrest

theorem meets_of_invariant {step : S → L → Option S} {C : S → L → Prop} {I : S → Prop}
    (hC : ∀ s l, I s → C s l) (hstep : ∀ s l s', I s → step s l = some s' → I s') :
    ∀ (ls : List L) (s : S), I s → Meets step C s ls := by
  intro ls
  induction ls with
  | nil => exact fun _ _ => trivial
  | cons l ls ih =>
    intro s hI
    refine ⟨hC s l hI, ?_⟩
    split
    · next s' hs' => exact ih s' (hstep s l s' hI hs')
    · trivial

theorem runSteps_total {step : S → L → Option S} {I : S → Prop}
    (hstep : ∀ s l, I s → ∃ s', step s l = some s' ∧ I s') :
    ∀ (ls : List L) (s : S), I s → ∃ s', runSteps step s ls = some s' ∧ I s' := by
  intro ls
  induction ls with
  | nil => exact fun s hs => ⟨s, rfl, hs⟩
  | cons l ls ih =>
    intro s hs
    obtain ⟨m, hm, hIm⟩ := hstep s l hs
    obtain ⟨s', hs', hI⟩ := ih m hIm
    exact ⟨s', by rw [runSteps, hm]; exact hs', hI⟩

theorem runSteps_total_of_meets {step : S → L → Option S} {C : S → L → Prop} {I : S → Prop}
    (hstep : ∀ s l, I s → C s l → ∃ s', step s l = some s' ∧ I s') :
    ∀ (ls : List L) (s : S), I s → Meets step C s ls →
      ∀ n, ∃ m, runSteps step s (ls.take n) = some m ∧ I m := by
  intro ls
  induction ls with
  | nil =>
    intro s hI _ n
    exact ⟨s, by rw [List.take_nil]; rfl, hI⟩
  | cons l ls ih =>
    rintro s hI ⟨hl, hls⟩ n
    cases n with
    | zero => exact ⟨s, rfl, hI⟩
    | succ n =>
      obtain ⟨m, hm, hIm⟩ := hstep s l hI hl
      rw [hm] at hls
      obtain ⟨s', hs', hI'⟩ := ih m hIm hls n
      exact ⟨s', by rw [List.take_succ_cons, runSteps, hm]; exact hs', hI'⟩

theorem runSteps_keeps_iff {step : S → L → Option S} {A C : S → L → Prop} {I P : S → Prop}
    (hP : ∀ s, I s → P s)
    (hkeep : ∀ s l, I s → A s l → C s l → ∃ s', step s l = some s' ∧ I s')
    (hbreak : ∀ s l s', I s → A s l → step s l = some s' → P s' → C s l) :
    ∀ (ls : List L) (s : S), I s → Meets step A s ls →
      ((∀ n, ∃ m, runSteps step s (ls.take n) = some m ∧ P m) ↔ Meets step C s ls) := by
  intro ls
  induction ls with
  | nil =>
    intro s hI _
    refine iff_of_true (fun n => ⟨s, ?_, hP s hI⟩) trivial
    rw [List.take_nil]
    rfl
  | cons l ls ih =>
    rintro s hI ⟨hl, hls⟩
    constructor
    · intro hall
      obtain ⟨m, hm, hPm⟩ := hall 1
      rw [List.take_succ_cons, List.take_zero] at hm
      obtain ⟨m', hstep, hm'⟩ := runSteps_cons hm
      cases hm'
      have hC := hbreak s l m hI hl hstep hPm
      obtain ⟨m', hstep', hIm⟩ := hkeep s l hI hl hC
      obtain rfl : m' = m := Option.some.inj (hstep'.symm.trans hstep)
      rw [hstep] at hls
      refine ⟨hC, ?_⟩
      rw [hstep]
      refine (ih m' hIm hls).mp fun n => ?_
      obtain ⟨k, hk, hPk⟩ := hall (n + 1)
      rw [List.take_succ_cons, runSteps, hstep] at hk
      exact ⟨k, hk, hPk⟩
    · rintro ⟨hC, hCs⟩ n
      cases n with
      | zero => exact ⟨s, rfl, hP s hI⟩
      | succ n =>
        obtain ⟨m, hstep, hIm⟩ := hkeep s l hI hl hC
        rw [hstep] at hls hCs
        obtain ⟨k, hk, hPk⟩ := (ih m hIm hls).mpr hCs n
        refine ⟨k, ?_, hPk⟩
        rw [List.take_succ_cons, runSteps, hstep]
        exact hk

theorem runSteps_prefixes_iff {step : S → L → Option S} {s : S} {ls : List L} (P : S → Prop)
    (hrun : ∀ n, ∃ m, runSteps step s (ls.take n) = some m) :
    (∀ n, ∃ m, runSteps step s (ls.take n) = some m ∧ P m) ↔
      ∀ n m, runSteps step s (ls.take n) = some m → P m := by
  refine forall_congr' fun n => ?_
  obtain ⟨m, hm⟩ := hrun n
  rw [hm]
  simp only [Option.some.injEq, exists_eq_left', forall_eq']

theorem runSteps_defect {step : S → L → Option S} {C : S → L → Prop} {I B : S → Prop}
    (hstep : ∀ s l s', I s → step s l = some s' → I s' ∧ (B s' ↔ B s ∨ ¬ C s l)) :
    ∀ (ls : List L) (s s' : S), I s → runSteps step s ls = some s' →
      I s' ∧ (B s' ↔ B s ∨ ¬ Meets step C s ls) := by
  intro ls
  induction ls with
  | nil =>
    intro s s' hI h
    cases h
    exact ⟨hI, by simp only [Meets, not_true_eq_false, or_false]⟩
  | cons l ls ih =>
    intro s s' hI h
    obtain ⟨m, hm, hrest⟩ := runSteps_cons h
    obtain ⟨hIm, hBm⟩ := hstep s l m hI hm
    obtain ⟨hI', hB'⟩ := ih m s' hIm hrest
    refine ⟨hI', ?_⟩
    rw [hB', hBm, Meets, hm, or_assoc, not_and_or]

/-- A property that a run keeps in every state exactly as long as it meets the condition: a
step that meets it keeps the invariant, and one that breaks it leaves a state without the
property. -/
theorem runSteps_always_iff {step : S → L → Option S} {C : S → L → Prop} {I P : S → Prop}
    (hP : ∀ s, I s → P s)
    (hstep : ∀ s l s', I s → step s l = some s' → (C s l → I s') ∧ (P s' → C s l)) :
    ∀ (ls : List L) (s s' : S), I s → runSteps step s ls = some s' →
      ((∀ n m, runSteps step s (ls.take n) = some m → P m) ↔ Meets step C s ls) := by
  intro ls
  induction ls with
  | nil =>
    intro s s' hI _
    refine iff_of_true (fun n m hm => ?_) trivial
    rw [List.take_nil] at hm
    cases hm
    exact hP s hI
  | cons l ls ih =>
    intro s s' hI h
    obtain ⟨m, hm, hrest⟩ := runSteps_cons h
    obtain ⟨hkeep, hbreak⟩ := hstep s l m hI hm
    rw [Meets, hm]
    constructor
    · intro hall
      have hl : C s l := hbreak (hall 1 m (by rw [List.take_succ_cons, runSteps, hm]; rfl))
      refine ⟨hl, (ih m s' (hkeep hl) hrest).mp fun n k hk => hall (n + 1) k ?_⟩
      rw [List.take_succ_cons, runSteps, hm]
      exact hk
    · rintro ⟨hl, hls⟩ n k hk
      cases n with
      | zero =>
        cases hk
        exact hP s hI
      | succ n =>
        rw [List.take_succ_cons, runSteps, hm] at hk
        exact (ih m s' (hkeep hl) hrest).mpr hls n k hk

theorem runSteps_budget {step : S → L → Option S} {C : S → L → Prop} {I : S → Prop}
    (used : S → Nat) (cost : L → Nat) (budget : Nat)
    (hcost : ∀ s l s', step s l = some s' → used s' = used s + cost l)
    (hstep : ∀ s l s', I s → C s l → used s' < budget → step s l = some s' → I s') :
    ∀ (ls : List L) (s s' : S), I s → used s + (ls.map cost).sum < budget → Meets step C s ls →
      runSteps step s ls = some s' → I s' := by
  intro ls
  induction ls with
  | nil =>
    intro s s' hI _ _ h
    cases h
    exact hI
  | cons l ls ih =>
    intro s s' hI hb hC h
    obtain ⟨m, hm, hrest⟩ := runSteps_cons h
    obtain ⟨hl, hls⟩ := hC
    rw [hm] at hls
    have hused := hcost s l m hm
    simp only [List.map_cons, List.sum_cons] at hb
    exact ih m s' (hstep s l m hI hl (by omega) hm) (by omega) hls hrest

end Lib
