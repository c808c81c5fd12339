import Mathlib.Logic.Basic

universe u v w x

namespace Lib

variable {S : Type u} {T : Type v} {Op : Type w} {Out : Type x}

def runOps (step : S → Op → Option (Out × S)) : S → List Op → Option (List Out × S)
  | s, [] => some ([], s)
  | s, op :: ops =>
    (step s op).bind fun r => (runOps step r.2 ops).map fun rest => (r.1 :: rest.1, rest.2)

def Admits (step : S → Op → Option (Out × S)) (C : S → Op → Prop) : S → List Op → Prop
  | _, [] => True
  | s, op :: ops => C s op ∧ ∀ r, step s op = some r → Admits step C r.2 ops

def Simulates (step : S → Op → Option (Out × S)) (spec : T → Op → Option (Out × T))
    (C : S → Op → Prop) (R : S → T → Prop) : Prop :=
  ∀ s t op out t', R s t → C s op → spec t op = some (out, t') →
    ∃ s', step s op = some (out, s') ∧ R s' t'

section

variable {step : S → Op → Option (Out × S)} {spec : T → Op → Option (Out × T)}
  {C : S → Op → Prop} {R : S → T → Prop}

theorem runOps_cons {s s'' : S} {op : Op} {ops : List Op} {outs : List Out}
    (h : runOps step s (op :: ops) = some (outs, s'')) :
    ∃ out s' rest, step s op = some (out, s') ∧ runOps step s' ops = some (rest, s'') ∧
      outs = out :: rest := by
  obtain ⟨⟨out, s'⟩, hstep, h⟩ := Option.bind_eq_some_iff.mp h
  obtain ⟨⟨rest, t⟩, hrest, h⟩ := Option.map_eq_some_iff.mp h
  cases h
  exact ⟨out, s', rest, hstep, hrest, rfl⟩

theorem runOps_cons_eq {s s' s'' : S} {op : Op} {ops : List Op} {out : Out} {outs : List Out}
    (hstep : step s op = some (out, s')) (hrest : runOps step s' ops = some (outs, s'')) :
    runOps step s (op :: ops) = some (out :: outs, s'') := by
  rw [runOps, hstep, Option.bind_some, hrest, Option.map_some]

theorem runOps_total (htotal : ∀ s op, (step s op).isSome) (ops : List Op) (s : S) :
    ∃ outs s', runOps step s ops = some (outs, s') := by
  induction ops generalizing s with
  | nil => exact ⟨[], s, rfl⟩
  | cons op ops ih =>
    obtain ⟨⟨out, m⟩, hstep⟩ := Option.isSome_iff_exists.mp (htotal s op)
    obtain ⟨outs, s', hrest⟩ := ih m
    exact ⟨out :: outs, s', runOps_cons_eq hstep hrest⟩

theorem runOps_append_eq {s s' : S} {ops ops' : List Op} {outs : List Out}
    (h : runOps step s ops = some (outs, s')) :
    runOps step s (ops ++ ops') =
      (runOps step s' ops').map fun rest => (outs ++ rest.1, rest.2) := by
  induction ops generalizing s outs with
  | nil =>
    cases h
    simp
  | cons op ops ih =>
    obtain ⟨out, m, rest, hm, hrest, rfl⟩ := runOps_cons h
    rw [List.cons_append, runOps, hm, Option.bind_some, ih hrest, Option.map_map]
    rfl

theorem runOps_append_some {s s' t : S} {ops ops' : List Op} {outs outs' : List Out}
    (h : runOps step s ops = some (outs, s')) (h' : runOps step s' ops' = some (outs', t)) :
    runOps step s (ops ++ ops') = some (outs ++ outs', t) := by
  rw [runOps_append_eq h, h']
  rfl

theorem runOps_replicate {P : Nat → S → Prop} {block : List Op} {n : Nat}
    (hblock : ∀ k s, k < n → P k s →
      ∃ outs s', runOps step s block = some (outs, s') ∧ P (k + 1) s') {s : S} (hs : P 0 s) :
    ∃ outs s', runOps step s (List.replicate n block).flatten = some (outs, s') ∧ P n s' := by
  induction n with
  | zero => exact ⟨[], s, rfl, hs⟩
  | succ n ih =>
    obtain ⟨outs, m, hm, hlevel⟩ := ih fun k s hk => hblock k s (Nat.lt_succ_of_lt hk)
    obtain ⟨outs', s', hs', hnext⟩ := hblock n m (Nat.lt_succ_self n) hlevel
    refine ⟨outs ++ outs', s', ?_, hnext⟩
    rw [List.replicate_succ', List.flatten_append, List.flatten_singleton]
    exact runOps_append_some hm hs'

theorem runOps_invariant {I : S → Prop}
    (hstep : ∀ s op out s', I s → C s op → step s op = some (out, s') → I s') :
    ∀ (ops : List Op) (s s' : S) (outs : List Out), I s → Admits step C s ops →
      runOps step s ops = some (outs, s') → I s' := by
  intro ops
  induction ops with
  | nil =>
    intro s s' outs hI _ h
    cases h
    exact hI
  | cons op ops ih =>
    intro s s' outs hI hC h
    obtain ⟨out, m, rest, hm, hrest, _⟩ := runOps_cons h
    exact ih m s' rest (hstep s op out m hI hC.1 hm) (hC.2 _ hm) hrest

theorem admits_of_forall (h : ∀ s op, C s op) (ops : List Op) (s : S) : Admits step C s ops := by
  induction ops generalizing s with
  | nil => trivial
  | cons op ops ih => exact ⟨h s op, fun r _ => ih r.2⟩

theorem Simulates.run (h : Simulates step spec C R) :
    ∀ (ops : List Op) (s : S) (t t' : T) (outs : List Out), R s t → Admits step C s ops →
      runOps spec t ops = some (outs, t') →
      ∃ s', runOps step s ops = some (outs, s') ∧ R s' t' := by
  intro ops
  induction ops with
  | nil =>
    intro s t t' outs hR _ hspec
    cases hspec
    exact ⟨s, rfl, hR⟩
  | cons op ops ih =>
    intro s t t' outs hR hC hspec
    obtain ⟨out, m, rest, hm, hrest, rfl⟩ := runOps_cons hspec
    obtain ⟨sm, hsm, hRm⟩ := h s t op out m hR hC.1 hm
    obtain ⟨s', hs', hR'⟩ := ih sm m t' rest hRm (hC.2 _ hsm) hrest
    exact ⟨s', runOps_cons_eq hsm hs', hR'⟩

end

end Lib
