import Mathlib.Logic.Basic

/-! Loops whose number of passes is not known beforehand.  The body goes on or leaves the loop; a
body that does not come back, or too few passes, give no result. -/

universe u v

namespace Lib

variable {S : Type u} {R : Type v}

def loop (body : S → Option (S ⊕ R)) : Nat → S → Option R
  | 0, _ => none
  | fuel + 1, s =>
    match body s with
    | none => none
    | some (.inl s') => loop body fuel s'
    | some (.inr r) => some r

variable {body : S → Option (S ⊕ R)} {s s' : S} {r : R} {fuel : Nat}

theorem loop_leave (h : body s = some (.inr r)) (hfuel : 0 < fuel) :
    loop body fuel s = some r := by
  cases fuel with
  | zero => exact absurd hfuel (Nat.lt_irrefl 0)
  | succ fuel => rw [loop, h]

theorem loop_next (h : body s = some (.inl s')) :
    loop body (fuel + 1) s = loop body fuel s' := by
  rw [loop, h]

theorem loop_second (h : body s = some (.inl s')) (h' : body s' = some (.inr r))
    (hfuel : 1 < fuel) : loop body fuel s = some r := by
  obtain ⟨k, rfl⟩ : ∃ k, fuel = k + 1 := ⟨fuel - 1, by omega⟩
  rw [loop_next h]
  exact loop_leave h' (by omega)

/-- The loop rule: while the invariant holds, each pass leaves the loop with `Q` or makes the
measure smaller. -/
theorem loop_returns {I : S → Prop} {Q : R → Prop} (measure : S → Nat)
    (hbody : ∀ s, I s → (∃ r, body s = some (.inr r) ∧ Q r) ∨
      ∃ s', body s = some (.inl s') ∧ I s' ∧ measure s' < measure s) :
    ∀ (fuel : Nat) (s : S), I s → measure s < fuel → ∃ r, loop body fuel s = some r ∧ Q r := by
  intro fuel
  induction fuel with
  | zero =>
    intro s _ h
    exact absurd h (Nat.not_lt_zero _)
  | succ fuel ih =>
    intro s hs hfuel
    rcases hbody s hs with ⟨r, hr, hQ⟩ | ⟨s', hs', hI, hless⟩
    · exact ⟨r, loop_leave hr (Nat.succ_pos fuel), hQ⟩
    · rw [loop_next hs']
      exact ih s' hI (by omega)

theorem loop_never {I : S → Prop} (hbody : ∀ s, I s → ∃ s', body s = some (.inl s') ∧ I s') :
    ∀ (fuel : Nat) (s : S), I s → loop body fuel s = none := by
  intro fuel
  induction fuel with
  | zero => exact fun _ _ => rfl
  | succ fuel ih =>
    intro s hs
    obtain ⟨s', hs', hI⟩ := hbody s hs
    rw [loop_next hs']
    exact ih s' hI

end Lib
