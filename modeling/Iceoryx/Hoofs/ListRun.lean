import Iceoryx.Hoofs.SlotSeq

universe u v w

namespace Iceoryx.Hoofs

variable {T : Type u} {L : Type v}

inductive ListResult (T : Type u)
  | iter (it : CxxIterator)
  | value (x : T)
  | flag (b : Bool)
  | count (n : Nat)
  | done

structure ListRun (L : Type v) (T : Type u) where
  lists : Nat → L
  seqs : Nat → SlotSeq T
  results : List (ListResult T)
  expected : List (ListResult T)

namespace ListRun

def on {A : Type w} (ls : Nat → L) (l : Nat) (result : A → ListResult T) (r : Option (A × L)) :
    Option (ListResult T × (Nat → L)) :=
  r.map fun r => (result r.1, Function.update ls l r.2)

def onOne (ls : Nat → L) (l : Nat) (r : Option L) : Option (ListResult T × (Nat → L)) :=
  r.map fun m => (.done, Function.update ls l m)

def onBoth (ls : Nat → L) (l rhs : Nat) (r : Option (L × L)) :
    Option (ListResult T × (Nat → L)) :=
  r.map fun r => (.done, Function.update (Function.update ls l r.1) rhs r.2)

def advance (s : ListRun L T) (r : Option (ListResult T × (Nat → L)))
    (r' : ListResult T × (Nat → SlotSeq T)) : Option (ListRun L T) :=
  r.map fun r =>
    { lists := r.2
      seqs := r'.2
      results := s.results ++ [r.1]
      expected := s.expected ++ [r'.1] }

structure Refines (Repr : Nat → L → List (Nat × T) → List Nat → Prop) (s : ListRun L T) :
    Prop where
  agree : s.results = s.expected
  repr : ∀ l, Repr l (s.lists l) (s.seqs l).elems (s.seqs l).free

namespace Refines

variable {Repr : Nat → L → List (Nat × T) → List Nat → Prop} {s : ListRun L T} {l rhs : Nat}
  {q q' : SlotSeq T}

theorem on (h : s.Refines Repr) {A : Type w} {result : A → ListResult T} {r : Option (A × L)}
    {a : A} (hr : ∃ m, r = some (a, m) ∧ Repr l m q.elems q.free) :
    ∃ s', s.advance (ListRun.on s.lists l result r)
        (result a, Function.update s.seqs l q) = some s' ∧ s'.Refines Repr := by
  obtain ⟨m, rfl, hm⟩ := hr
  refine ⟨_, rfl, ?_, fun k => ?_⟩
  · rw [h.agree]
  · by_cases hk : k = l
    · subst hk
      simp only [Function.update_self]
      exact hm
    · simp only [Function.update_of_ne hk]
      exact h.repr k

theorem onOne (h : s.Refines Repr) {r : Option L}
    (hr : ∃ m, r = some m ∧ Repr l m q.elems q.free) :
    ∃ s', s.advance (ListRun.onOne s.lists l r) (.done, Function.update s.seqs l q) = some s' ∧
      s'.Refines Repr := by
  obtain ⟨m, rfl, hm⟩ := hr
  exact @on _ _ _ s l q h Unit (fun _ => .done) (some ((), m)) () ⟨m, rfl, hm⟩

theorem onBoth (h : s.Refines Repr) {r : Option (L × L)} (hne : l ≠ rhs)
    (hr : ∃ m m', r = some (m, m') ∧ Repr l m q.elems q.free ∧ Repr rhs m' q'.elems q'.free) :
    ∃ s', s.advance (ListRun.onBoth s.lists l rhs r)
        (.done, Function.update (Function.update s.seqs l q) rhs q') = some s' ∧
      s'.Refines Repr := by
  obtain ⟨m, m', rfl, hm, hm'⟩ := hr
  refine ⟨_, rfl, ?_, fun k => ?_⟩
  · rw [h.agree]
  · by_cases hk : k = rhs
    · subst hk
      simp only [Function.update_self]
      exact hm'
    · simp only [Function.update_of_ne hk]
      by_cases hk' : k = l
      · subst hk'
        simp only [Function.update_self]
        exact hm
      · simp only [Function.update_of_ne hk']
        exact h.repr k

theorem same (h : s.Refines Repr) :
    ∃ s', s.advance (some (.done, s.lists)) (.done, s.seqs) = some s' ∧ s'.Refines Repr := by
  refine ⟨_, rfl, ?_, h.repr⟩
  rw [h.agree]

end Refines

end ListRun

end Iceoryx.Hoofs
