import Mathlib.Algebra.Order.BigOperators.Group.Finset
import Mathlib.Data.List.Nodup
import Iceoryx.Lib.Lifetime

/-! Cells that circulate.  A cell is taken from the free ones for an input, filled, counted and
queued; it is taken from the queue for an output, uncounted and drained, and then given back or
taken for another input. -/

universe u

namespace Lib

/-- Where a cell is; inputs are numbered as they come, and outputs as cells leave the queue. -/
inductive Stage
  | free
  | claimed (n : Nat)
  | filled (n : Nat)
  | counted (n : Nat)
  | queued
  | drawn (k : Nat)
  | uncounted (k : Nat)
  | drained
  deriving DecidableEq, Repr

namespace Stage

def input : Stage → Option Nat
  | .claimed n | .filled n | .counted n => some n
  | _ => none

def output : Stage → Option Nat
  | .drawn k | .uncounted k => some k
  | _ => none

def weight : Stage → Nat
  | .counted _ | .queued | .drawn _ => 1
  | _ => 0

end Stage

/-- `order` has the numbers of the inputs as they were queued, and `outputs` what was read, with
the numbers of the outputs. -/
@[ext] structure Circulation (V : Type u) where
  stage : Nat → Stage
  free : List Nat
  queue : List Nat
  cell : Nat → Option V
  size : Nat
  inputs : List V
  order : List Nat
  draws : Nat
  outputs : List (Nat × V)

namespace Circulation

variable {V : Type u}

def stored (c : Circulation V) (k : Nat) : Option V := c.order[k]?.bind fun n => c.inputs[n]?

inductive Move (c : Circulation V) : Circulation V → Prop
  | claim (i : Nat) (rest : List Nat) (v : V) (h : c.free = i :: rest) :
    Move c { c with
      stage := Function.update c.stage i (.claimed c.inputs.length)
      free := rest
      inputs := c.inputs ++ [v] }
  | fill (i n : Nat) (v : V) (h : c.stage i = .claimed n) (hv : c.inputs[n]? = some v) :
    Move c { c with
      stage := Function.update c.stage i (.filled n)
      cell := Function.update c.cell i (some v) }
  | count (i n : Nat) (h : c.stage i = .filled n) :
    Move c { c with
      stage := Function.update c.stage i (.counted n)
      size := c.size + 1 }
  | enqueue (i n : Nat) (h : c.stage i = .counted n) :
    Move c { c with
      stage := Function.update c.stage i .queued
      queue := c.queue ++ [i]
      order := c.order ++ [n] }
  | draw (i : Nat) (rest : List Nat) (h : c.queue = i :: rest) :
    Move c { c with
      stage := Function.update c.stage i (.drawn c.draws)
      queue := rest
      draws := c.draws + 1 }
  | uncount (i k : Nat) (h : c.stage i = .drawn k) :
    Move c { c with
      stage := Function.update c.stage i (.uncounted k)
      size := c.size - 1 }
  | drain (i k : Nat) (v : V) (h : c.stage i = .uncounted k) (hv : c.cell i = some v) :
    Move c { c with
      stage := Function.update c.stage i .drained
      cell := Function.update c.cell i none
      outputs := c.outputs ++ [(k, v)] }
  | release (i : Nat) (h : c.stage i = .drained) :
    Move c { c with
      stage := Function.update c.stage i .free
      free := c.free ++ [i] }
  | reclaim (i : Nat) (v : V) (h : c.stage i = .drained) :
    Move c { c with
      stage := Function.update c.stage i (.claimed c.inputs.length)
      inputs := c.inputs ++ [v] }

structure Places (capacity : Nat) (c : Circulation V) : Prop where
  free_nodup : c.free.Nodup
  queue_nodup : c.queue.Nodup
  mem_free : ∀ i, i ∈ c.free ↔ i < capacity ∧ c.stage i = .free
  mem_queue : ∀ i, i ∈ c.queue ↔ c.stage i = .queued
  lt : ∀ i, c.stage i ≠ .free → i < capacity

/-- Every input is at one cell or was queued once, and every output is at one cell or was read
once. -/
structure Accounts (c : Circulation V) : Prop where
  inputs : Ledger.Books (fun i => (c.stage i).input) ⟨c.inputs.length, c.order⟩
  outputs : Ledger.Books (fun i => (c.stage i).output) ⟨c.draws, c.outputs.map Prod.fst⟩
  balance : c.order.length = c.draws + c.queue.length

def Holds (c : Circulation V) (i : Nat) : Stage → Prop
  | .filled n | .counted n => ∃ v, c.inputs[n]? = some v ∧ c.cell i = some v
  | .drawn k | .uncounted k => ∃ v, c.stored k = some v ∧ c.cell i = some v
  | .queued => True
  | .free | .claimed _ | .drained => c.cell i = none

structure Contents (c : Circulation V) : Prop where
  holds : ∀ i, c.Holds i (c.stage i)
  queue : ∀ k i, c.queue[k]? = some i → ∃ v, c.stored (c.draws + k) = some v ∧ c.cell i = some v
  outputs : ∀ k v, (k, v) ∈ c.outputs → c.stored k = some v

structure Sound (capacity : Nat) (c : Circulation V) : Prop where
  places : c.Places capacity
  accounts : c.Accounts
  contents : c.Contents
  size : c.size = ∑ i ∈ Finset.range capacity, (c.stage i).weight

variable {capacity i : Nat} {st : Stage} {c c' : Circulation V}

theorem Places.update (h : c.Places capacity) (hstage : c'.stage = Function.update c.stage i st)
    (hi : i < capacity) (hfree : c'.free.Nodup) (hqueue : c'.queue.Nodup)
    (hmem : ∀ j, j ∈ c'.free ↔ (j ≠ i ∧ j ∈ c.free) ∨ (j = i ∧ st = .free))
    (hmem' : ∀ j, j ∈ c'.queue ↔ (j ≠ i ∧ j ∈ c.queue) ∨ (j = i ∧ st = .queued)) :
    c'.Places capacity where
  free_nodup := hfree
  queue_nodup := hqueue
  mem_free j := by
    rw [hmem, hstage]
    by_cases hj : j = i
    · subst hj
      simp [hi]
    · simp [hj, h.mem_free j]
  mem_queue j := by
    rw [hmem', hstage]
    by_cases hj : j = i
    · subst hj
      simp
    · simp [hj, h.mem_queue j]
  lt j hj := by
    by_cases hji : j = i
    · exact hji ▸ hi
    · rw [hstage, Function.update_of_ne hji] at hj
      exact h.lt j hj

theorem Places.aside (h : c.Places capacity) (hstage : c'.stage = Function.update c.stage i st)
    (hfree : c'.free = c.free) (hqueue : c'.queue = c.queue) (hi : c.stage i ≠ .free)
    (hi' : c.stage i ≠ .queued) (hst : st ≠ .free) (hst' : st ≠ .queued) :
    c'.Places capacity := by
  refine h.update hstage (h.lt i hi) (hfree ▸ h.free_nodup) (hqueue ▸ h.queue_nodup)
    (fun j => ?_) fun j => ?_
  · have hnot : ∀ hj : j ∈ c.free, j ≠ i := by
      rintro hj rfl
      exact hi ((h.mem_free j).mp hj).2
    simp only [hfree, hst, and_false, or_false]
    exact ⟨fun hj => ⟨hnot hj, hj⟩, fun hj => hj.2⟩
  · have hnot : ∀ hj : j ∈ c.queue, j ≠ i := by
      rintro hj rfl
      exact hi' ((h.mem_queue j).mp hj)
    simp only [hqueue, hst', and_false, or_false]
    exact ⟨fun hj => ⟨hnot hj, hj⟩, fun hj => hj.2⟩

theorem getElem?_of_prefix {α : Type*} {l l' : List α} (h : l <+: l') {k : Nat} {a : α}
    (ha : l[k]? = some a) : l'[k]? = some a := by
  obtain ⟨t, rfl⟩ := h
  rw [List.getElem?_append_left (List.getElem?_eq_some_iff.mp ha).1, ha]

theorem stored_mono (hinputs : c.inputs <+: c'.inputs) (horder : c.order <+: c'.order) {k : Nat}
    {v : V} (h : c.stored k = some v) : c'.stored k = some v := by
  obtain ⟨n, hn, hv⟩ := Option.bind_eq_some_iff.mp h
  exact Option.bind_eq_some_iff.mpr
    ⟨n, getElem?_of_prefix horder hn, getElem?_of_prefix hinputs hv⟩

theorem Holds.mono {j : Nat} {t : Stage} (h : c.Holds j t) (hinputs : c.inputs <+: c'.inputs)
    (horder : c.order <+: c'.order) (hcell : c'.cell j = c.cell j) : c'.Holds j t := by
  unfold Holds
  rw [hcell]
  cases t with
  | free | claimed | drained | queued => exact h
  | filled n | counted n =>
    obtain ⟨v, hv, hj⟩ := h
    exact ⟨v, getElem?_of_prefix hinputs hv, hj⟩
  | drawn k | uncounted k =>
    obtain ⟨v, hv, hj⟩ := h
    exact ⟨v, stored_mono hinputs horder hv, hj⟩

theorem Contents.update (h : c.Contents) (hstage : c'.stage = Function.update c.stage i st)
    (hcell : ∀ j, j ≠ i → c'.cell j = c.cell j) (hinputs : c.inputs <+: c'.inputs)
    (horder : c.order <+: c'.order) (hholds : c'.Holds i st)
    (hqueue : ∀ k j, c'.queue[k]? = some j →
      ∃ v, c'.stored (c'.draws + k) = some v ∧ c'.cell j = some v)
    (houtputs : ∀ k v, (k, v) ∈ c'.outputs → c'.stored k = some v) : c'.Contents where
  holds j := by
    rw [hstage]
    by_cases hj : j = i
    · rw [hj, Function.update_self]
      exact hholds
    · rw [Function.update_of_ne hj]
      exact (h.holds j).mono hinputs horder (hcell j hj)
  queue := hqueue
  outputs := houtputs

theorem Contents.aside (h : c.Contents) (hstage : c'.stage = Function.update c.stage i st)
    (hcell : ∀ j, j ≠ i → c'.cell j = c.cell j) (hinputs : c.inputs <+: c'.inputs)
    (horder : c.order = c'.order) (hqueue : c'.queue = c.queue) (hdraws : c'.draws = c.draws)
    (houtputs : c'.outputs = c.outputs) (hi : i ∉ c.queue) (hholds : c'.Holds i st) :
    c'.Contents := by
  have hprefix : c.order <+: c'.order := horder ▸ List.prefix_refl _
  refine h.update hstage hcell hinputs hprefix hholds (fun k j hj => ?_) fun k v hv => ?_
  · rw [hqueue] at hj
    obtain ⟨v, hv, hcv⟩ := h.queue k j hj
    have hne : j ≠ i := by
      rintro rfl
      exact hi (List.mem_of_getElem? hj)
    exact ⟨v, stored_mono hinputs hprefix (hdraws ▸ hv), (hcell j hne).trans hcv⟩
  · exact stored_mono hinputs hprefix (h.outputs k v (houtputs ▸ hv))

section Numbers

variable {stage : Nat → Stage}

theorem input_update : (fun j => (Function.update stage i st j).input) =
    Function.update (fun j => (stage j).input) i st.input := by
  funext j
  by_cases hj : j = i
  · subst hj
    simp
  · simp [hj]

theorem output_update : (fun j => (Function.update stage i st j).output) =
    Function.update (fun j => (stage j).output) i st.output := by
  funext j
  by_cases hj : j = i
  · subst hj
    simp
  · simp [hj]

theorem input_same (h : st.input = (stage i).input) :
    (fun j => (Function.update stage i st j).input) = fun j => (stage j).input := by
  rw [input_update, h, Function.update_eq_self]

theorem output_same (h : st.output = (stage i).output) :
    (fun j => (Function.update stage i st j).output) = fun j => (stage j).output := by
  rw [output_update, h, Function.update_eq_self]

theorem weight_update (stage : Nat → Stage) (st : Stage) (hi : i < capacity) :
    ∑ j ∈ Finset.range capacity, (Function.update stage i st j).weight + (stage i).weight =
      ∑ j ∈ Finset.range capacity, (stage j).weight + st.weight := by
  have hmem := Finset.mem_range.mpr hi
  have hrest : ∑ j ∈ (Finset.range capacity).erase i, (Function.update stage i st j).weight =
      ∑ j ∈ (Finset.range capacity).erase i, (stage j).weight := by
    refine Finset.sum_congr rfl fun j hj => ?_
    rw [Function.update_of_ne (Finset.ne_of_mem_erase hj)]
  rw [← Finset.add_sum_erase _ _ hmem, ← Finset.add_sum_erase _ (fun j => (stage j).weight) hmem,
    hrest, Function.update_self]
  omega

end Numbers

namespace Sound

theorem not_mem_queue (h : c.Sound capacity) (hi : c.stage i ≠ .queued) : i ∉ c.queue :=
  fun hmem => hi ((h.places.mem_queue i).mp hmem)

theorem claimed (h : c.Sound capacity) (v : V) (hi : i < capacity)
    (hinput : (c.stage i).input = none) (houtput : (c.stage i).output = none)
    (hweight : (c.stage i).weight = 0) (hcell : c.cell i = none) (hqueued : c.stage i ≠ .queued)
    {rest : List Nat}
    (hplaces : Places capacity { c with
      stage := Function.update c.stage i (.claimed c.inputs.length)
      free := rest
      inputs := c.inputs ++ [v] }) :
    Sound capacity { c with
      stage := Function.update c.stage i (.claimed c.inputs.length)
      free := rest
      inputs := c.inputs ++ [v] } where
  places := hplaces
  accounts := by
    have hsame : (Stage.claimed c.inputs.length).output = (c.stage i).output := houtput.symm
    refine ⟨?_, ?_, h.accounts.balance⟩
    · have hcreate := h.accounts.inputs.create (k := i) hinput
      rw [List.length_append, List.length_singleton, input_update]
      exact hcreate
    · rw [output_same hsame]
      exact h.accounts.outputs
  contents := h.contents.aside rfl (fun _ _ => rfl) (List.prefix_append _ _) rfl rfl rfl rfl
    (h.not_mem_queue hqueued) hcell
  size := by
    have hsum := weight_update c.stage (.claimed c.inputs.length) hi
    rw [hweight] at hsum
    exact h.size.trans hsum.symm

theorem claim (h : c.Sound capacity) {rest : List Nat} (v : V) (hfree : c.free = i :: rest) :
    Sound capacity { c with
      stage := Function.update c.stage i (.claimed c.inputs.length)
      free := rest
      inputs := c.inputs ++ [v] } := by
  obtain ⟨hi, hstage⟩ := (h.places.mem_free i).mp (hfree ▸ List.mem_cons_self)
  have hnodup := h.places.free_nodup
  rw [hfree, List.nodup_cons] at hnodup
  have hholds := h.contents.holds i
  rw [hstage] at hholds
  refine h.claimed v hi (by rw [hstage]; rfl) (by rw [hstage]; rfl) (by rw [hstage]; rfl) hholds
    (by rw [hstage]; exact Stage.noConfusion) ?_
  refine h.places.update rfl hi hnodup.2 h.places.queue_nodup (fun j => ?_) fun j => ?_
  · rw [hfree, List.mem_cons]
    constructor
    · intro hj
      refine Or.inl ⟨?_, Or.inr hj⟩
      rintro rfl
      exact hnodup.1 hj
    · rintro (⟨hne, rfl | hj⟩ | ⟨-, hst⟩)
      · exact absurd rfl hne
      · exact hj
      · cases hst
  · have hnot : j ∈ c.queue → j ≠ i := by
      rintro hj rfl
      cases hstage.symm.trans ((h.places.mem_queue j).mp hj)
    simp only [reduceCtorEq, and_false, or_false]
    exact ⟨fun hj => ⟨hnot hj, hj⟩, fun hj => hj.2⟩

theorem reclaim (h : c.Sound capacity) (v : V) (hstage : c.stage i = .drained) :
    Sound capacity { c with
      stage := Function.update c.stage i (.claimed c.inputs.length)
      inputs := c.inputs ++ [v] } := by
  have hholds := h.contents.holds i
  rw [hstage] at hholds
  refine h.claimed v (h.places.lt i (by rw [hstage]; exact Stage.noConfusion)) (by rw [hstage]; rfl)
    (by rw [hstage]; rfl) (by rw [hstage]; rfl) hholds
    (by rw [hstage]; exact Stage.noConfusion) ?_
  exact h.places.aside rfl rfl rfl (by rw [hstage]; exact Stage.noConfusion)
    (by rw [hstage]; exact Stage.noConfusion) Stage.noConfusion Stage.noConfusion

theorem advance (h : c.Sound capacity) (hstage : c.stage i ≠ .free) (hstage' : c.stage i ≠ .queued)
    (hst : st ≠ .free) (hst' : st ≠ .queued) (hinput : st.input = (c.stage i).input)
    (houtput : st.output = (c.stage i).output) {cell : Nat → Option V} {size : Nat}
    (hcell : ∀ j, j ≠ i → cell j = c.cell j)
    (hholds : Holds { c with cell := cell } i st)
    (hsize : size + (c.stage i).weight = c.size + st.weight) :
    Sound capacity { c with
      stage := Function.update c.stage i st
      cell := cell
      size := size } where
  places := h.places.aside rfl rfl rfl hstage hstage' hst hst'
  accounts := by
    refine ⟨?_, ?_, h.accounts.balance⟩
    · rw [input_same hinput]
      exact h.accounts.inputs
    · rw [output_same houtput]
      exact h.accounts.outputs
  contents := by
    refine h.contents.aside rfl hcell (List.prefix_refl _) rfl rfl rfl rfl
      (h.not_mem_queue hstage') ?_
    cases st <;> exact hholds
  size := by
    have hsum := weight_update c.stage st (h.places.lt i hstage)
    have hold := h.size
    change size = ∑ j ∈ Finset.range capacity, (Function.update c.stage i st j).weight
    omega

theorem fill (h : c.Sound capacity) {n : Nat} {v : V} (hstage : c.stage i = .claimed n)
    (hv : c.inputs[n]? = some v) :
    Sound capacity { c with
      stage := Function.update c.stage i (.filled n)
      cell := Function.update c.cell i (some v) } := by
  refine h.advance (by simp [hstage]) (by simp [hstage]) (by simp) (by simp) (by rw [hstage]; rfl)
    (by rw [hstage]; rfl) (fun j hj => Function.update_of_ne hj ..) ?_ (by rw [hstage]; rfl)
  exact ⟨v, hv, Function.update_self ..⟩

theorem count (h : c.Sound capacity) {n : Nat} (hstage : c.stage i = .filled n) :
    Sound capacity { c with
      stage := Function.update c.stage i (.counted n)
      size := c.size + 1 } := by
  have hholds := h.contents.holds i
  rw [hstage] at hholds
  exact h.advance (by simp [hstage]) (by simp [hstage]) (by simp) (by simp) (by rw [hstage]; rfl)
    (by rw [hstage]; rfl) (fun j hj => rfl) hholds (by rw [hstage]; rfl)

theorem size_pos (h : c.Sound capacity) (hi : i < capacity) (hweight : 0 < (c.stage i).weight) :
    0 < c.size := by
  rw [h.size]
  exact Nat.lt_of_lt_of_le hweight
    (Finset.single_le_sum (f := fun j => (c.stage j).weight) (fun _ _ => Nat.zero_le _)
      (Finset.mem_range.mpr hi))

theorem uncount (h : c.Sound capacity) {k : Nat} (hstage : c.stage i = .drawn k) :
    Sound capacity { c with
      stage := Function.update c.stage i (.uncounted k)
      size := c.size - 1 } := by
  have hpos := h.size_pos (h.places.lt i (by simp [hstage])) (by rw [hstage]; exact Nat.one_pos)
  have hholds := h.contents.holds i
  rw [hstage] at hholds
  refine h.advance (by simp [hstage]) (by simp [hstage]) (by simp) (by simp) (by rw [hstage]; rfl)
    (by rw [hstage]; rfl) (fun j hj => rfl) hholds ?_
  rw [hstage]
  change c.size - 1 + 1 = c.size
  omega

theorem enqueue (h : c.Sound capacity) {n : Nat} (hstage : c.stage i = .counted n) :
    Sound capacity { c with
      stage := Function.update c.stage i .queued
      queue := c.queue ++ [i]
      order := c.order ++ [n] } where
  places := by
    have hi := h.places.lt i (by simp [hstage])
    have hnot := h.not_mem_queue (i := i) (by simp [hstage])
    refine h.places.update rfl hi h.places.free_nodup ?_ (fun j => ?_) fun j => ?_
    · rw [← List.concat_eq_append]
      exact h.places.queue_nodup.concat hnot
    · have hfree : j ∈ c.free → j ≠ i := by
        rintro hj rfl
        cases hstage.symm.trans ((h.places.mem_free j).mp hj).2
      simp only [reduceCtorEq, and_false, or_false]
      exact ⟨fun hj => ⟨hfree hj, hj⟩, fun hj => hj.2⟩
    · simp only [List.mem_append, List.mem_singleton, and_true]
      constructor
      · rintro (hj | rfl)
        · refine Or.inl ⟨?_, hj⟩
          rintro rfl
          exact hnot hj
        · exact Or.inr rfl
      · rintro (⟨-, hj⟩ | rfl)
        · exact Or.inl hj
        · exact Or.inr rfl
  accounts := by
    refine ⟨?_, ?_, ?_⟩
    · have hclear := h.accounts.inputs.clear i
      rw [hstage] at hclear
      rw [input_update]
      exact hclear
    · have hsame : Stage.queued.output = (c.stage i).output := by rw [hstage]; rfl
      rw [output_same hsame]
      exact h.accounts.outputs
    · have hbalance := h.accounts.balance
      simp only [List.length_append, List.length_singleton]
      omega
  contents := by
    have horder := List.prefix_append c.order [n]
    have hinputs := List.prefix_refl c.inputs
    have hstored {k : Nat} {v : V} (hv : c.stored k = some v) :
        stored { c with
          stage := Function.update c.stage i .queued
          queue := c.queue ++ [i]
          order := c.order ++ [n] } k = some v := by
      refine stored_mono ?_ horder hv
      exact hinputs
    refine h.contents.update rfl (fun _ _ => rfl) hinputs horder trivial (fun k j hj => ?_)
      fun k v hv => hstored (h.contents.outputs k v hv)
    have hbalance := h.accounts.balance
    rcases Nat.lt_or_ge k c.queue.length with hk | hk
    · rw [List.getElem?_append_left hk] at hj
      obtain ⟨v, hv, hcell⟩ := h.contents.queue k j hj
      exact ⟨v, hstored hv, hcell⟩
    · -- the cell that has just come
      rw [List.getElem?_append_right hk, List.getElem?_singleton] at hj
      split at hj
      · next hlast =>
        cases hj
        have hholds := h.contents.holds i
        rw [hstage] at hholds
        obtain ⟨v, hv, hcell⟩ := hholds
        refine ⟨v, Option.bind_eq_some_iff.mpr ⟨n, ?_, hv⟩, hcell⟩
        change (c.order ++ [n])[c.draws + k]? = some n
        rw [show c.draws + k = c.order.length by omega, List.getElem?_concat_length]
      · cases hj
  size := by
    have hsum := weight_update c.stage .queued (h.places.lt i (by simp [hstage]))
    have hold := h.size
    rw [hstage] at hsum
    change _ + 1 = _ + 1 at hsum
    change c.size = ∑ j ∈ Finset.range capacity, (Function.update c.stage i .queued j).weight
    omega

theorem draw (h : c.Sound capacity) {rest : List Nat} (hqueue : c.queue = i :: rest) :
    Sound capacity { c with
      stage := Function.update c.stage i (.drawn c.draws)
      queue := rest
      draws := c.draws + 1 } := by
  have hmem : i ∈ c.queue := hqueue ▸ List.mem_cons_self
  have hstage := (h.places.mem_queue i).mp hmem
  have hi := h.places.lt i (by simp [hstage])
  have hnodup := h.places.queue_nodup
  rw [hqueue, List.nodup_cons] at hnodup
  refine ⟨?_, ⟨?_, ?_, ?_⟩, ?_, ?_⟩
  · refine h.places.update rfl hi h.places.free_nodup hnodup.2 (fun j => ?_) fun j => ?_
    · have hfree : j ∈ c.free → j ≠ i := by
        rintro hj rfl
        cases hstage.symm.trans ((h.places.mem_free j).mp hj).2
      simp only [reduceCtorEq, and_false, or_false]
      exact ⟨fun hj => ⟨hfree hj, hj⟩, fun hj => hj.2⟩
    · rw [hqueue, List.mem_cons]
      constructor
      · intro hj
        refine Or.inl ⟨?_, Or.inr hj⟩
        rintro rfl
        exact hnodup.1 hj
      · rintro (⟨hne, rfl | hj⟩ | ⟨-, hst⟩)
        · exact absurd rfl hne
        · exact hj
        · cases hst
  · have hsame : (Stage.drawn c.draws).input = (c.stage i).input := by rw [hstage]; rfl
    rw [input_same hsame]
    exact h.accounts.inputs
  · have hcreate := h.accounts.outputs.create (k := i) (by rw [hstage]; rfl)
    rw [output_update]
    exact hcreate
  · have hbalance := h.accounts.balance
    rw [hqueue, List.length_cons] at hbalance
    change c.order.length = c.draws + 1 + rest.length
    omega
  · refine h.contents.update rfl (fun _ _ => rfl) (List.prefix_refl _) (List.prefix_refl _) ?_
      (fun k j hj => ?_) h.contents.outputs
    · exact h.contents.queue 0 i (by rw [hqueue]; rfl)
    · obtain ⟨v, hv, hcell⟩ := h.contents.queue (k + 1) j (by rw [hqueue]; exact hj)
      refine ⟨v, ?_, hcell⟩
      rw [Nat.add_assoc, Nat.add_comm 1 k]
      exact hv
  · have hsum := weight_update c.stage (.drawn c.draws) hi
    have hold := h.size
    rw [hstage] at hsum
    change _ + 1 = _ + 1 at hsum
    change c.size =
      ∑ j ∈ Finset.range capacity, (Function.update c.stage i (.drawn c.draws) j).weight
    omega

theorem drain (h : c.Sound capacity) {k : Nat} {v : V} (hstage : c.stage i = .uncounted k)
    (hv : c.cell i = some v) :
    Sound capacity { c with
      stage := Function.update c.stage i .drained
      cell := Function.update c.cell i none
      outputs := c.outputs ++ [(k, v)] } := by
  have hi := h.places.lt i (by simp [hstage])
  have hqueue := h.not_mem_queue (i := i) (by simp [hstage])
  have hholds := h.contents.holds i
  rw [hstage] at hholds
  obtain ⟨w, hw, hcell⟩ := hholds
  obtain rfl : w = v := Option.some.inj (hcell.symm.trans hv)
  refine ⟨?_, ⟨?_, ?_, h.accounts.balance⟩, ?_, ?_⟩
  · exact h.places.aside rfl rfl rfl (by simp [hstage]) (by simp [hstage]) (by simp) (by simp)
  · have hsame : Stage.drained.input = (c.stage i).input := by rw [hstage]; rfl
    rw [input_same hsame]
    exact h.accounts.inputs
  · have hclear := h.accounts.outputs.clear i
    rw [hstage] at hclear
    rw [output_update, List.map_append]
    exact hclear
  · refine h.contents.update rfl (fun j hj => Function.update_of_ne hj ..) (List.prefix_refl _)
      (List.prefix_refl _) (Function.update_self ..) (fun k' j hj => ?_) fun k' v' hmem => ?_
    · obtain ⟨v', hv', hcell'⟩ := h.contents.queue k' j hj
      refine ⟨v', hv', (Function.update_of_ne ?_ ..).trans hcell'⟩
      rintro rfl
      exact hqueue (List.mem_of_getElem? hj)
    · rcases List.mem_append.mp hmem with hold | hnew
      · exact h.contents.outputs k' v' hold
      · cases List.mem_singleton.mp hnew
        exact hw
  · have hsum := weight_update c.stage .drained hi
    have hold := h.size
    rw [hstage] at hsum
    change _ + 0 = _ + 0 at hsum
    change c.size = ∑ j ∈ Finset.range capacity, (Function.update c.stage i .drained j).weight
    omega

theorem release (h : c.Sound capacity) (hstage : c.stage i = .drained) :
    Sound capacity { c with
      stage := Function.update c.stage i .free
      free := c.free ++ [i] } := by
  have hi := h.places.lt i (by simp [hstage])
  have hholds := h.contents.holds i
  rw [hstage] at hholds
  have hnot : i ∉ c.free := fun hmem => by cases hstage.symm.trans ((h.places.mem_free i).mp hmem).2
  refine ⟨?_, ⟨?_, ?_, h.accounts.balance⟩, ?_, ?_⟩
  · refine h.places.update rfl hi ?_ h.places.queue_nodup (fun j => ?_) fun j => ?_
    · rw [← List.concat_eq_append]
      exact h.places.free_nodup.concat hnot
    · simp only [List.mem_append, List.mem_singleton, and_true]
      constructor
      · rintro (hj | rfl)
        · refine Or.inl ⟨?_, hj⟩
          rintro rfl
          exact hnot hj
        · exact Or.inr rfl
      · rintro (⟨-, hj⟩ | rfl)
        · exact Or.inl hj
        · exact Or.inr rfl
    · have hqueue : j ∈ c.queue → j ≠ i := by
        rintro hj rfl
        cases hstage.symm.trans ((h.places.mem_queue j).mp hj)
      simp only [reduceCtorEq, and_false, or_false]
      exact ⟨fun hj => ⟨hqueue hj, hj⟩, fun hj => hj.2⟩
  · have hsame : Stage.free.input = (c.stage i).input := by rw [hstage]; rfl
    rw [input_same hsame]
    exact h.accounts.inputs
  · have hsame : Stage.free.output = (c.stage i).output := by rw [hstage]; rfl
    rw [output_same hsame]
    exact h.accounts.outputs
  · exact h.contents.aside rfl (fun _ _ => rfl) (List.prefix_refl _) rfl rfl rfl rfl
      (h.not_mem_queue (by simp [hstage])) hholds
  · have hsum := weight_update c.stage .free hi
    have hold := h.size
    rw [hstage] at hsum
    change _ + 0 = _ + 0 at hsum
    change c.size = ∑ j ∈ Finset.range capacity, (Function.update c.stage i .free j).weight
    omega

theorem move (h : c.Sound capacity) (hmove : c.Move c') : c'.Sound capacity := by
  cases hmove with
  | claim i rest v hfree => exact h.claim v hfree
  | fill i n v hstage hv => exact h.fill hstage hv
  | count i n hstage => exact h.count hstage
  | enqueue i n hstage => exact h.enqueue hstage
  | draw i rest hqueue => exact h.draw hqueue
  | uncount i k hstage => exact h.uncount hstage
  | drain i k v hstage hv => exact h.drain hstage hv
  | release i hstage => exact h.release hstage
  | reclaim i v hstage => exact h.reclaim v hstage

theorem start (capacity : Nat) :
    Sound capacity
      { stage := fun _ => .free
        free := List.range capacity
        queue := []
        cell := fun _ => (none : Option V)
        size := 0
        inputs := []
        order := []
        draws := 0
        outputs := [] } where
  places := ⟨List.nodup_range, List.nodup_nil, by simp, by simp, by simp⟩
  accounts := ⟨.start, .start, rfl⟩
  contents := ⟨fun _ => rfl, by simp, by simp⟩
  size := by simp [Stage.weight]

theorem size_le (h : c.Sound capacity) : c.size ≤ capacity := by
  rw [h.size]
  refine (Finset.sum_le_sum (g := fun _ => 1) fun i _ => ?_).trans (by simp)
  unfold Stage.weight
  split
  · exact Nat.le_refl 1
  · exact Nat.le_refl 1
  · exact Nat.le_refl 1
  · exact Nat.zero_le 1

theorem at_rest (h : c.Sound capacity) (hrest : ∀ i, c.stage i = .free ∨ c.stage i = .queued) :
    c.order.Perm (List.range c.inputs.length) ∧
      (c.outputs.map Prod.fst).Perm (List.range c.draws) ∧ c.size = c.queue.length := by
  refine ⟨h.accounts.inputs.died_perm fun i => ?_, h.accounts.outputs.died_perm fun i => ?_, ?_⟩
  · rcases hrest i with hi | hi <;> rw [hi] <;> rfl
  · rcases hrest i with hi | hi <;> rw [hi] <;> rfl
  · rw [h.size, ← List.toFinset_card_of_nodup h.places.queue_nodup, Finset.card_eq_sum_ones]
    refine (Finset.sum_subset_zero_on_sdiff (fun i hi => ?_) (fun i hi => ?_) fun i hi => ?_).symm
    · exact Finset.mem_range.mpr (h.places.lt i (by
        rw [(h.places.mem_queue i).mp (List.mem_toFinset.mp hi)]
        exact Stage.noConfusion))
    · have hnot : c.stage i ≠ .queued := fun hq =>
        (Finset.mem_sdiff.mp hi).2 (List.mem_toFinset.mpr ((h.places.mem_queue i).mpr hq))
      rw [(hrest i).resolve_right hnot]
      rfl
    · rw [(h.places.mem_queue i).mp (List.mem_toFinset.mp hi)]
      rfl

end Sound

end Circulation

end Lib
