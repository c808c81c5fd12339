import Mathlib.Logic.Basic
import Iceoryx.Lib.Run

/-! Pre- and postconditions for programs that pass a state on and may halt.
`Triple E P x Q`: started where `P` holds, `x` either returns with `Q` or halts
for a reason that `E` allows. -/

universe u v

namespace Lib

abbrev Prog (ε : Type u) (σ : Type u) (α : Type u) : Type u := StateT σ (Except ε) α

variable {ε σ τ α β : Type u} {E : ε → Prop} {P P' : σ → Prop} {x : Prog ε σ α}
  {Q Q' : α → σ → Prop}

theorem eq_ok_of_toOption {x : Except ε α} {a : α} (h : x.toOption = some a) : x = .ok a := by
  cases x with
  | ok _ => exact congrArg Except.ok (Option.some.inj h)
  | error _ => cases h

theorem Prog.bind_apply (x : Prog ε σ α) (f : α → Prog ε σ β) (s : σ) :
    (x >>= f) s = Except.bind (x s) fun r => f r.1 r.2 := rfl

def Ends (E : ε → Prop) (Q : α → σ → Prop) : Except ε (α × σ) → Prop
  | .ok (a, s) => Q a s
  | .error e => E e

def Triple (E : ε → Prop) (P : σ → Prop) (x : Prog ε σ α) (Q : α → σ → Prop) : Prop :=
  ∀ s, P s → Ends E Q (x s)

theorem Ends.mono {r : Except ε (α × σ)} (h : Ends E Q r) (hQ : ∀ a s, Q a s → Q' a s) :
    Ends E Q' r := by
  cases r with
  | ok p => exact hQ _ _ h
  | error e => exact h

theorem Triple.of_ok (h : Triple E P x Q) {s s' : σ} {a : α} (hs : P s)
    (hx : x s = .ok (a, s')) : Q a s' := by
  have := h s hs
  rw [hx] at this
  exact this

theorem Triple.of_error (h : Triple E P x Q) {s : σ} {e : ε} (hs : P s)
    (hx : x s = .error e) : E e := by
  have := h s hs
  rw [hx] at this
  exact this

theorem Triple.trivial : Triple (fun _ => True) P x fun _ _ => True := by
  intro s _
  cases x s <;> exact True.intro

theorem Triple.returns (h : Triple (fun _ => False) P x Q) {s : σ} (hs : P s) :
    ∃ a s', x s = .ok (a, s') ∧ Q a s' := by
  cases hx : x s with
  | ok r => exact ⟨r.1, r.2, rfl, h.of_ok hs hx⟩
  | error e => exact absurd (h.of_error hs hx) id

theorem Triple.conseq (h : Triple E P x Q) (hP : ∀ s, P' s → P s)
    (hQ : ∀ a s, Q a s → Q' a s) : Triple E P' x Q' := by
  intro s hs
  exact (h s (hP s hs)).mono hQ

theorem Triple.post (h : Triple E P x Q) (hQ : ∀ a s, Q a s → Q' a s) : Triple E P x Q' :=
  h.conseq (fun _ hs => hs) hQ

theorem Triple.pre (h : Triple E P x Q) (hP : ∀ s, P' s → P s) : Triple E P' x Q :=
  h.conseq hP fun _ _ hs => hs

theorem Triple.pure {a : α} {Q : α → σ → Prop} (h : ∀ s, P s → Q a s) :
    Triple E P (pure a : Prog ε σ α) Q := by
  intro s hs
  exact h s hs

theorem Triple.throw {e : ε} (h : E e) : Triple E P (throw e : Prog ε σ α) Q := by
  intro s _
  exact h

theorem Triple.bind {f : α → Prog ε σ β} {R : β → σ → Prop} (hx : Triple E P x Q)
    (hf : ∀ a, Triple E (Q a) (f a) R) : Triple E P (x >>= f) R := by
  intro s hs
  have h := hx s hs
  change Ends E R (Except.bind (x s) fun r => f r.1 r.2)
  cases hr : x s with
  | ok r =>
    rw [hr] at h
    exact hf r.1 r.2 h
  | error e =>
    rw [hr] at h
    exact h

theorem Triple.get {R : σ → σ → Prop} (h : ∀ s, P s → R s s) :
    Triple E P (get : Prog ε σ σ) R := by
  intro s hs
  exact h s hs

theorem Triple.modify {σ : Type} {ε : Type} {E : ε → Prop} {P : σ → Prop} {f : σ → σ}
    {R : σ → Prop} (h : ∀ s, P s → R (f s)) :
    Triple E P (modify f : Prog ε σ PUnit) fun _ => R := by
  intro s hs
  exact h s hs

def focus (view : σ → τ) (put : τ → σ → σ) (x : Prog ε τ α) : Prog ε σ α := fun s =>
  match x (view s) with
  | .ok (a, t) => .ok (a, put t s)
  | .error e => .error e

theorem Triple.focus {view : σ → τ} {put : τ → σ → σ} {x : Prog ε τ α}
    (h : ∀ s, P s → Ends E (fun a t => Q a (put t s)) (x (view s))) :
    Triple E P (focus view put x) Q := by
  intro s hs
  have := h s hs
  unfold Lib.focus
  cases hx : x (view s) with
  | ok r =>
    rw [hx] at this
    exact this
  | error e =>
    rw [hx] at this
    exact this

theorem Triple.assume {p : Prop} (h : p → Triple E P x Q) :
    Triple E (fun s => p ∧ P s) x Q := by
  rintro s ⟨hp, hs⟩
  exact h hp s hs

theorem Triple.and {E' : ε → Prop} (h : Triple E P x Q) (h' : Triple E' P' x Q') :
    Triple E (fun s => P s ∧ P' s) x fun a s => Q a s ∧ Q' a s := by
  rintro s ⟨hs, hs'⟩
  have hx := h s hs
  have hx' := h' s hs'
  cases hr : x s with
  | ok r =>
    rw [hr] at hx hx'
    exact ⟨hx, hx'⟩
  | error e =>
    rw [hr] at hx
    exact hx

theorem Triple.or (h : Triple E P x Q) (h' : Triple E P' x Q) :
    Triple E (fun s => P s ∨ P' s) x Q := by
  rintro s (hs | hs)
  · exact h s hs
  · exact h' s hs

theorem Triple.exists {ι : Type v} {P : ι → σ → Prop} (h : ∀ i, Triple E (P i) x Q) :
    Triple E (fun s => ∃ i, P i s) x Q := by
  rintro s ⟨i, hs⟩
  exact h i s hs

theorem Triple.forM {f : β → Prog ε σ PUnit} {I : List β → σ → Prop}
    (h : ∀ b l, Triple E (I (b :: l)) (f b) fun _ => I l) :
    ∀ l : List β, Triple E (I l) (l.forM f) fun _ => I [] := by
  intro l
  induction l with
  | nil => exact Triple.pure fun _ hs => hs
  | cons b l ih => exact Triple.bind (h b l) fun _ => ih

theorem Triple.forM_mem {f : β → Prog ε σ PUnit} :
    ∀ l : List β, (∀ b ∈ l, Triple E P (f b) fun _ => P) →
      Triple E P (l.forM f) fun _ => P := by
  intro l
  induction l with
  | nil => exact fun _ => Triple.pure fun _ hs => hs
  | cons b l ih =>
    intro h
    exact Triple.bind (h b List.mem_cons_self) fun _ =>
      ih fun c hc => h c (List.mem_cons_of_mem b hc)

theorem Triple.forM_meets {f : β → Prog ε σ PUnit} {I : σ → Prop} {C : σ → β → Prop}
    (h : ∀ b, Triple E (fun s => I s ∧ C s b) (f b) fun _ => I) : ∀ l : List β,
    Triple E (fun s => I s ∧ Meets (fun s b => (f b s).toOption.map Prod.snd) C s l) (l.forM f)
      fun _ => I := by
  intro l
  induction l with
  | nil => exact Triple.pure fun _ hs => hs.1
  | cons b l ih =>
    rintro s ⟨hI, hC, hrest⟩
    have hb := h b s ⟨hI, hC⟩
    dsimp only at hrest
    refine Triple.bind (P := fun s' => s = s') (Q := fun _ s' => I s' ∧
      Meets (fun s b => (f b s).toOption.map Prod.snd) C s' l) ?_ (fun _ => ih) s rfl
    rintro _ rfl
    cases hr : f b s with
    | error e =>
      rw [hr] at hb
      exact hb
    | ok r =>
      rw [hr] at hb hrest
      exact ⟨hb, hrest⟩

/-- Stopping a sequence of steps anywhere: the invariant holds at the first stop,
and after the first step it holds at all later ones. -/
theorem Triple.take_cons {f : β → Prog ε σ PUnit} {I Q : σ → Prop} {b : β} {l : List β}
    (hI : ∀ s, P s → I s) (hb : Triple E P (f b) fun _ => Q)
    (hl : ∀ k, Triple E Q ((l.take k).forM f) fun _ => I) :
    ∀ k, Triple E P (((b :: l).take k).forM f) fun _ => I := by
  intro k
  cases k with
  | zero => exact Triple.pure hI
  | succ k => exact Triple.bind hb fun _ => hl k

theorem Triple.take_nil {f : β → Prog ε σ PUnit} {I : σ → Prop} (hI : ∀ s, P s → I s) :
    ∀ k, Triple E P ((([] : List β).take k).forM f) fun _ => I := by
  intro k
  rw [List.take_nil]
  exact Triple.pure hI

end Lib
