import Mathlib.Data.List.Nodup
import Mathlib.Data.List.Perm.Subperm
import Mathlib.Data.Set.Function
import Mathlib.Logic.Equiv.Basic
import Iceoryx.Lib.Run

/-! `concurrent::TACO`: any number of contexts hand over data by exchanging slots.  One step
is one access to shared memory, or the part of a call that works on the slot that the context
owns. -/

universe u

namespace Iceoryx.Hoofs

open Lib

inductive TacoMode
  | acceptDataFromSameContext
  | denyDataFromSameContext
  deriving DecidableEq, Repr

/-- The number tells the values that are supplied apart; the source keeps the value only. -/
structure Supplied (T : Type u) where
  value : T
  number : Nat

structure Transaction (T : Type u) where
  context : Nat
  data : Option (Supplied T)

variable {T : Type u}

inductive TacoPc (T : Type u)
  | idle
  | writeContext
  | exchange (transactionIndexOld : Nat)
  | update (transactionIndexNew : Nat)
  | check (transactionIndexNew : Nat)
  | move (transactionIndexNew : Nat)
  | destruct (transactionIndexNew : Nat) (data : Supplied T)
  | reset (transactionIndexNew : Nat)

def TacoPc.index : TacoPc T → Option Nat
  | .idle | .writeContext => none
  | .exchange i | .update i | .check i | .move i | .destruct i _ | .reset i => some i

/-- `supplied` lists the values with the contexts that supply them, `exchanged` the numbers of
those whose exchange has taken place, and `returned` the values with the contexts that got
them; the source has none of these. -/
structure Taco (T : Type u) where
  pendingTransaction : Nat
  indices : Nat → Nat
  transactions : Nat → Transaction T
  pc : Nat → TacoPc T
  supplied : List (T × Nat) := []
  exchanged : List Nat := []
  returned : List (Supplied T × Nat) := []

/-- `supply` begins `exchange(data, context)` or `store(data, context)`, which drops what it
gets. -/
inductive TacoAct (T : Type u)
  | supply (data : T)
  | take
  | advance

namespace Taco

def start (numberOfContext : Nat) : Taco T where
  pendingTransaction := numberOfContext
  indices := id
  transactions := fun _ =>
    { context := numberOfContext
      data := none }
  pc := fun _ => .idle

def goto (s : Taco T) (context : Nat) (p : TacoPc T) : Taco T :=
  { s with pc := Function.update s.pc context p }

def write (s : Taco T) (index : Nat) (t : Transaction T) : Taco T :=
  { s with transactions := Function.update s.transactions index t }

def advance (mode : TacoMode) (s : Taco T) (context : Nat) : Option (Taco T) :=
  match s.pc context with
  | .idle => none
  | .writeContext =>
    let index := s.indices context
    some ((s.write index { s.transactions index with context := context }).goto context
      (.exchange index))
  | .exchange old =>
    some (({ s with
      pendingTransaction := old
      exchanged := s.exchanged ++ (s.transactions old).data.toList.map Supplied.number }).goto
        context (.update s.pendingTransaction))
  | .update new =>
    some (({ s with indices := Function.update s.indices context new }).goto context (.check new))
  | .check new =>
    if mode = .acceptDataFromSameContext ∨ (s.transactions new).context ≠ context then
      some (s.goto context (.move new))
    else some (s.goto context (.reset new))
  | .move new =>
    match (s.transactions new).data with
    | some data => some (s.goto context (.destruct new data))
    | none => some (s.goto context .idle)
  | .destruct new data =>
    some (({ s with returned := s.returned ++ [(data, context)] }.write new
      { s.transactions new with data := none }).goto context .idle)
  | .reset new =>
    some ((s.write new { s.transactions new with data := none }).goto context .idle)

def step (mode : TacoMode) (numberOfContext : Nat) (s : Taco T) :
    Nat × TacoAct T → Option (Taco T)
  | (context, .supply data) =>
    match s.pc context with
    | .idle =>
      if context < numberOfContext then
        let index := s.indices context
        some (({ s with supplied := s.supplied ++ [(data, context)] }.write index
          { s.transactions index with
            data := some
              { value := data
                number := s.supplied.length } }).goto context .writeContext)
      else none
    | _ => none
  | (context, .take) =>
    match s.pc context with
    | .idle => if context < numberOfContext then some (s.goto context .writeContext) else none
    | _ => none
  | (context, .advance) => if context < numberOfContext then s.advance mode context else none

/-- The slot that a context works on; between its exchange and its update of `m_indices` this
is the one that it has received. -/
def held (s : Taco T) (context : Nat) : Nat :=
  match s.pc context with
  | .update new => new
  | _ => s.indices context

def accessed (s : Taco T) : Nat × TacoAct T → Option Nat
  | (context, .supply _) => some (s.indices context)
  | (_, .take) => none
  | (context, .advance) =>
    match s.pc context with
    | .idle | .exchange _ | .update _ => none
    | .writeContext => some (s.indices context)
    | .check new | .move new | .destruct new _ | .reset new => some new

/-- `none` stands for the slot that is ready for consumption. -/
def place (s : Taco T) : Option Nat → Nat
  | none => s.pendingTransaction
  | some context => s.held context

def From (s : Taco T) (context : Nat) (t : Transaction T) : Prop :=
  ∀ x, t.data = some x → s.supplied[x.number]? = some (x.value, context)

def Offered (s : Taco T) (t : Transaction T) : Prop :=
  ∀ x, t.data = some x →
    s.supplied[x.number]? = some (x.value, t.context) ∧ x.number ∈ s.exchanged

def Admissible (mode : TacoMode) (context : Nat) (t : Transaction T) : Prop :=
  mode = .denyDataFromSameContext → t.context ≠ context

def SlotOk (mode : TacoMode) (s : Taco T) (context : Nat) (t : Transaction T) : TacoPc T → Prop
  | .idle => t.data = none
  | .writeContext => s.From context t
  | .exchange _ => s.From context t ∧ t.context = context
  | .update _ | .check _ | .reset _ => s.Offered t
  | .move _ => s.Offered t ∧ Admissible mode context t
  | .destruct _ data => s.Offered t ∧ Admissible mode context t ∧ t.data = some data

/-- What is in the slots can still be returned once, what was returned cannot. -/
structure Ledger (mode : TacoMode) (s : Taco T) : Prop where
  supplied : ∀ i x, (s.transactions i).data = some x →
    ∃ c, s.supplied[x.number]? = some (x.value, c)
  unique : ∀ i j x y, (s.transactions i).data = some x → (s.transactions j).data = some y →
    x.number = y.number → i = j
  unreturned : ∀ i x, (s.transactions i).data = some x → ∀ r ∈ s.returned, r.1.number ≠ x.number
  once : (s.returned.map fun r => r.1.number).Nodup
  returned : ∀ r ∈ s.returned, ∃ c, s.supplied[r.1.number]? = some (r.1.value, c) ∧
    r.1.number ∈ s.exchanged ∧ (mode = .denyDataFromSameContext → c ≠ r.2)

def Places (numberOfContext : Nat) : Set (Option Nat) :=
  { o | ∀ c ∈ o, c < numberOfContext }

theorem some_mem_places {numberOfContext context : Nat} (hc : context < numberOfContext) :
    some context ∈ Places numberOfContext := by
  rintro _ ⟨⟩
  exact hc

theorem none_mem_places {numberOfContext : Nat} : none ∈ Places numberOfContext :=
  fun _ hc => nomatch hc

structure Owned (mode : TacoMode) (numberOfContext : Nat) (s : Taco T) : Prop where
  bounded : ∀ o ∈ Places numberOfContext, s.place o ≤ numberOfContext
  injective : Set.InjOn s.place (Places numberOfContext)
  local_eq : ∀ c, c < numberOfContext → ∀ i, (s.pc c).index = some i → i = s.held c
  slot : ∀ c, c < numberOfContext → s.SlotOk mode c (s.transactions (s.held c)) (s.pc c)
  pending : s.Offered (s.transactions s.pendingTransaction)
  ledger : s.Ledger mode

variable {mode : TacoMode} {numberOfContext context : Nat} {s s' : Taco T}

structure Extends (s s' : Taco T) : Prop where
  supplied : ∀ (n : Nat) x, s.supplied[n]? = some x → s'.supplied[n]? = some x
  exchanged : ∀ n ∈ s.exchanged, n ∈ s'.exchanged

theorem From.mono {t : Transaction T} (h : s.From context t) (hext : Extends s s') :
    s'.From context t :=
  fun x hx => hext.supplied _ _ (h x hx)

theorem Offered.mono {t : Transaction T} (h : s.Offered t) (hext : Extends s s') : s'.Offered t :=
  fun x hx => ⟨hext.supplied _ _ (h x hx).1, hext.exchanged _ (h x hx).2⟩

theorem Offered.of_empty {t : Transaction T} (h : t.data = none) : s.Offered t := by
  intro x hx
  rw [h] at hx
  cases hx

theorem SlotOk.mono {t : Transaction T} {p : TacoPc T} (h : s.SlotOk mode context t p)
    (hext : Extends s s') : s'.SlotOk mode context t p := by
  cases p with
  | idle => exact h
  | writeContext => exact From.mono h hext
  | exchange old => exact ⟨From.mono h.1 hext, h.2⟩
  | update new => exact Offered.mono h hext
  | check new => exact Offered.mono h hext
  | move new => exact ⟨Offered.mono h.1 hext, h.2⟩
  | destruct new x => exact ⟨Offered.mono h.1 hext, h.2⟩
  | reset new => exact Offered.mono h hext

theorem Owned.held_ne (h : s.Owned mode numberOfContext) (hc : context < numberOfContext) {d : Nat}
    (hd : d < numberOfContext) (hne : d ≠ context) : s.held d ≠ s.held context := by
  intro heq
  exact hne (Option.some.inj (h.injective (some_mem_places hd) (some_mem_places hc) heq))

theorem Owned.pending_ne (h : s.Owned mode numberOfContext) (hc : context < numberOfContext) :
    s.pendingTransaction ≠ s.held context := by
  intro heq
  cases h.injective none_mem_places (some_mem_places hc) heq

theorem Owned.local_step (h : s.Owned mode numberOfContext) (hc : context < numberOfContext)
    (hplace : s'.place = s.place) (hpc : ∀ d, d ≠ context → s'.pc d = s.pc d)
    (hslots : ∀ i, i ≠ s.held context → s'.transactions i = s.transactions i)
    (hext : Extends s s') (hlocal : ∀ i, (s'.pc context).index = some i → i = s.held context)
    (hslot : s'.SlotOk mode context (s'.transactions (s.held context)) (s'.pc context))
    (hledger : s'.Ledger mode) : s'.Owned mode numberOfContext := by
  have hheld : ∀ d, s'.held d = s.held d := fun d => congrFun hplace (some d)
  have hpending : s'.pendingTransaction = s.pendingTransaction := congrFun hplace none
  refine ⟨?_, ?_, ?_, ?_, ?_, hledger⟩
  · rw [hplace]
    exact h.bounded
  · rw [hplace]
    exact h.injective
  · intro d hd i hi
    rw [hheld]
    by_cases hdc : d = context
    · subst hdc
      exact hlocal i hi
    · rw [hpc d hdc] at hi
      exact h.local_eq d hd i hi
  · intro d hd
    rw [hheld]
    by_cases hdc : d = context
    · subst hdc
      exact hslot
    · rw [hpc d hdc, hslots _ (h.held_ne hc hd hdc)]
      exact (h.slot d hd).mono hext
  · rw [hpending, hslots _ (h.pending_ne hc)]
    exact h.pending.mono hext

theorem Ledger.mono (h : s.Ledger mode) (hext : Extends s s')
    (hdata : ∀ i x, (s'.transactions i).data = some x → (s.transactions i).data = some x)
    (hreturned : s'.returned = s.returned) : s'.Ledger mode where
  supplied := by
    intro i x hx
    obtain ⟨c, hsupplied⟩ := h.supplied i x (hdata i x hx)
    exact ⟨c, hext.supplied _ _ hsupplied⟩
  unique := fun i j x y hx hy => h.unique i j x y (hdata i x hx) (hdata j y hy)
  unreturned := by
    rw [hreturned]
    exact fun i x hx => h.unreturned i x (hdata i x hx)
  once := by
    rw [hreturned]
    exact h.once
  returned := by
    rw [hreturned]
    intro r hr
    obtain ⟨c, hsupplied, hexchanged, hdeny⟩ := h.returned r hr
    exact ⟨c, hext.supplied _ _ hsupplied, hext.exchanged _ hexchanged, hdeny⟩

theorem Ledger.supply (h : s.Ledger mode) (hext : Extends s s') {i : Nat} {x : Supplied T} {c : Nat}
    (hnumber : x.number = s.supplied.length) (hx : s'.supplied[x.number]? = some (x.value, c))
    (hdata : ∀ j y, (s'.transactions j).data = some y →
      (j = i ∧ y = x) ∨ (s.transactions j).data = some y)
    (hreturned : s'.returned = s.returned) : s'.Ledger mode := by
  have hold : ∀ {n : Nat} {v : T × Nat}, s.supplied[n]? = some v → n ≠ x.number := by
    intro n v hn heq
    rw [heq, hnumber, List.getElem?_eq_none_iff.mpr le_rfl] at hn
    cases hn
  have hslot : ∀ {j y}, (s.transactions j).data = some y → y.number ≠ x.number := by
    intro j y hy
    obtain ⟨_, hsupplied⟩ := h.supplied j y hy
    exact hold hsupplied
  refine ⟨?_, ?_, ?_, ?_, ?_⟩
  · intro j y hy
    rcases hdata j y hy with ⟨_, rfl⟩ | hy
    · exact ⟨c, hx⟩
    · obtain ⟨d, hsupplied⟩ := h.supplied j y hy
      exact ⟨d, hext.supplied _ _ hsupplied⟩
  · intro j k y z hy hz heq
    rcases hdata j y hy with ⟨rfl, rfl⟩ | hy
    · rcases hdata k z hz with ⟨rfl, rfl⟩ | hz
      · rfl
      · exact absurd heq.symm (hslot hz)
    · rcases hdata k z hz with ⟨rfl, rfl⟩ | hz
      · exact absurd heq (hslot hy)
      · exact h.unique j k y z hy hz heq
  · rw [hreturned]
    intro j y hy r hr
    rcases hdata j y hy with ⟨_, rfl⟩ | hy
    · obtain ⟨_, hsupplied, _⟩ := h.returned r hr
      exact hold hsupplied
    · exact h.unreturned j y hy r hr
  · rw [hreturned]
    exact h.once
  · rw [hreturned]
    intro r hr
    obtain ⟨d, hsupplied, hexchanged, hdeny⟩ := h.returned r hr
    exact ⟨d, hext.supplied _ _ hsupplied, hext.exchanged _ hexchanged, hdeny⟩

theorem Ledger.give (h : s.Ledger mode) (hext : Extends s s') {i : Nat} {x : Supplied T}
    (hx : (s.transactions i).data = some x) (hoffered : s.Offered (s.transactions i))
    (hadmissible : Admissible mode context (s.transactions i))
    (hdata : ∀ j y, (s'.transactions j).data = some y → j ≠ i ∧ (s.transactions j).data = some y)
    (hreturned : s'.returned = s.returned ++ [(x, context)]) : s'.Ledger mode where
  supplied := by
    intro j y hy
    obtain ⟨c, hsupplied⟩ := h.supplied j y (hdata j y hy).2
    exact ⟨c, hext.supplied _ _ hsupplied⟩
  unique := fun j k y z hy hz => h.unique j k y z (hdata j y hy).2 (hdata k z hz).2
  unreturned := by
    intro j y hy r hr heq
    obtain ⟨hne, hy⟩ := hdata j y hy
    rw [hreturned] at hr
    rcases List.mem_append.mp hr with hr | hr
    · exact h.unreturned j y hy r hr heq
    · rw [List.mem_singleton.mp hr] at heq
      exact hne (h.unique j i y x hy hx heq.symm)
  once := by
    rw [hreturned, List.map_append]
    refine List.nodup_append.mpr ⟨h.once, List.nodup_singleton _, ?_⟩
    intro n hn m hm
    obtain ⟨r, hr, rfl⟩ := List.mem_map.mp hn
    rw [List.mem_singleton.mp hm]
    exact h.unreturned i x hx r hr
  returned := by
    rw [hreturned]
    intro r hr
    rcases List.mem_append.mp hr with hr | hr
    · obtain ⟨c, hsupplied, hexchanged, hdeny⟩ := h.returned r hr
      exact ⟨c, hext.supplied _ _ hsupplied, hext.exchanged _ hexchanged, hdeny⟩
    · rw [List.mem_singleton.mp hr]
      obtain ⟨hsupplied, hexchanged⟩ := hoffered x hx
      exact ⟨_, hext.supplied _ _ hsupplied, hext.exchanged _ hexchanged, hadmissible⟩

@[simp] theorem goto_pc_self (s : Taco T) (context : Nat) (p : TacoPc T) :
    (s.goto context p).pc context = p := Function.update_self _ _ _

theorem goto_pc_of_ne (s : Taco T) {context d : Nat} (h : d ≠ context) (p : TacoPc T) :
    (s.goto context p).pc d = s.pc d := Function.update_of_ne h _ _

@[simp] theorem goto_transactions (s : Taco T) (context : Nat) (p : TacoPc T) :
    (s.goto context p).transactions = s.transactions := rfl

@[simp] theorem write_transactions_self (s : Taco T) (i : Nat) (t : Transaction T) :
    (s.write i t).transactions i = t := Function.update_self _ _ _

theorem write_transactions_of_ne (s : Taco T) {i j : Nat} (h : j ≠ i) (t : Transaction T) :
    (s.write i t).transactions j = s.transactions j := Function.update_of_ne h _ _

theorem place_eq (context : Nat) (hpending : s'.pendingTransaction = s.pendingTransaction)
    (hheld : s'.held context = s.held context) (hpc : ∀ d, d ≠ context → s'.pc d = s.pc d)
    (hindices : ∀ d, d ≠ context → s'.indices d = s.indices d) : s'.place = s.place := by
  funext o
  cases o with
  | none => exact hpending
  | some d =>
    by_cases hd : d = context
    · subst hd
      exact hheld
    · simp only [place, held, hpc d hd, hindices d hd]

theorem Extends.of_eq (hsupplied : s'.supplied = s.supplied)
    (hexchanged : s'.exchanged = s.exchanged) : Extends s s' :=
  ⟨fun _ _ hx => hsupplied ▸ hx, fun _ hn => hexchanged ▸ hn⟩

theorem swap_apply_some_of_ne {c d : Nat} (h : d ≠ c) :
    Equiv.swap none (some c) (some d) = some d :=
  Equiv.swap_apply_of_ne_of_ne (Option.some_ne_none d) fun heq => h (Option.some.inj heq)

theorem mapsTo_swap (hc : context < numberOfContext) :
    Set.MapsTo (Equiv.swap none (some context)) (Places numberOfContext)
      (Places numberOfContext) := by
  intro o ho
  rw [Equiv.swap_apply_def]
  split
  · exact some_mem_places hc
  · split
    · exact none_mem_places
    · exact ho

theorem place_swap (hpending : s'.pendingTransaction = s.held context)
    (hgot : s'.held context = s.pendingTransaction)
    (hheld : ∀ d, d ≠ context → s'.held d = s.held d) :
    s'.place = s.place ∘ Equiv.swap none (some context) := by
  funext o
  cases o with
  | none =>
    rw [Function.comp_apply, Equiv.swap_apply_left]
    exact hpending
  | some d =>
    by_cases hd : d = context
    · subst hd
      rw [Function.comp_apply, Equiv.swap_apply_right]
      exact hgot
    · rw [Function.comp_apply, swap_apply_some_of_ne hd]
      exact hheld d hd

section Steps

variable (h : s.Owned mode numberOfContext) (hc : context < numberOfContext)

include h hc

theorem Owned.supply (hpc : s.pc context = .idle) (data : T) :
    ((({ s with supplied := s.supplied ++ [(data, context)] } : Taco T).write (s.indices context)
      { s.transactions (s.indices context) with
        data := some
          { value := data
            number := s.supplied.length } }).goto context .writeContext).Owned mode
      numberOfContext := by
  have hheld : s.held context = s.indices context := by simp only [held, hpc]
  have hlast : (s.supplied ++ [(data, context)])[s.supplied.length]? = some (data, context) := by
    rw [List.getElem?_append_right le_rfl, Nat.sub_self]
    rfl
  have hext : ∀ {s' : Taco T}, s'.supplied = s.supplied ++ [(data, context)] →
      s'.exchanged = s.exchanged → Extends s s' := by
    intro s' hsupplied hexchanged
    refine ⟨fun n x hx => ?_, fun n hn => hexchanged ▸ hn⟩
    obtain ⟨hlt, _⟩ := List.getElem?_eq_some_iff.mp hx
    rw [hsupplied, List.getElem?_append_left hlt]
    exact hx
  refine h.local_step hc (place_eq context rfl ?_ ?_ fun _ _ => rfl) ?_ ?_
    (hext rfl rfl) ?_ ?_ ?_
  · simp only [held, goto_pc_self, hpc]
    rfl
  · exact fun d hd => goto_pc_of_ne _ hd _
  · exact fun d hd => goto_pc_of_ne _ hd _
  · intro i hi
    rw [hheld] at hi
    exact write_transactions_of_ne _ hi _
  · rw [goto_pc_self]
    nofun
  · rw [goto_pc_self, hheld, goto_transactions, write_transactions_self]
    rintro _ ⟨⟩
    exact hlast
  · refine h.ledger.supply (hext rfl rfl) (i := s.indices context)
      (x := { value := data, number := s.supplied.length }) rfl hlast ?_ rfl
    intro j y hy
    by_cases hj : j = s.indices context
    · subst hj
      rw [goto_transactions, write_transactions_self] at hy
      exact Or.inl ⟨rfl, (Option.some.inj hy).symm⟩
    · rw [goto_transactions, write_transactions_of_ne _ hj] at hy
      exact Or.inr hy

theorem Owned.goto {p : TacoPc T} (hheld : (s.goto context p).held context = s.held context)
    (hlocal : ∀ i, p.index = some i → i = s.held context)
    (hslot : s.SlotOk mode context (s.transactions (s.held context)) p) :
    (s.goto context p).Owned mode numberOfContext := by
  refine h.local_step hc (place_eq context rfl hheld ?_ fun _ _ => rfl) ?_
    (fun _ _ => rfl) (Extends.of_eq rfl rfl) ?_ ?_ ?_
  · exact fun d hd => goto_pc_of_ne s hd p
  · exact fun d hd => goto_pc_of_ne s hd p
  · rw [goto_pc_self]
    exact hlocal
  · rw [goto_pc_self]
    exact hslot
  · exact h.ledger.mono (Extends.of_eq rfl rfl) (fun _ _ hx => hx) rfl

theorem Owned.write {p : TacoPc T} {t : Transaction T}
    (hheld : (s.goto context p).held context = s.held context)
    (hlocal : ∀ i, p.index = some i → i = s.held context)
    (hdata : ∀ x, t.data = some x → (s.transactions (s.held context)).data = some x)
    (hslot : s.SlotOk mode context t p) :
    ((s.write (s.held context) t).goto context p).Owned mode numberOfContext := by
  refine h.local_step hc (place_eq context rfl hheld ?_ fun _ _ => rfl) ?_ ?_
    (Extends.of_eq rfl rfl) ?_ ?_ ?_
  · exact fun d hd => goto_pc_of_ne _ hd p
  · exact fun d hd => goto_pc_of_ne _ hd p
  · exact fun i hi => write_transactions_of_ne s hi t
  · rw [goto_pc_self]
    exact hlocal
  · rw [goto_pc_self, goto_transactions, write_transactions_self]
    exact hslot
  · refine h.ledger.mono (Extends.of_eq rfl rfl) ?_ rfl
    intro i x hx
    by_cases hi : i = s.held context
    · subst hi
      rw [goto_transactions, write_transactions_self] at hx
      exact hdata x hx
    · rw [goto_transactions, write_transactions_of_ne _ hi] at hx
      exact hx

theorem Owned.exchange {old : Nat} (hpc : s.pc context = .exchange old) :
    (({ s with
      pendingTransaction := old
      exchanged := s.exchanged ++ (s.transactions old).data.toList.map Supplied.number } :
        Taco T).goto context (.update s.pendingTransaction)).Owned mode numberOfContext := by
  have hold : old = s.held context := h.local_eq context hc old (by rw [hpc]; rfl)
  have hslot := h.slot context hc
  rw [hpc, ← hold] at hslot
  obtain ⟨hfrom, hcontext⟩ := hslot
  obtain ⟨s', hs'⟩ : ∃ s' : Taco T, s' = ({ s with
      pendingTransaction := old
      exchanged := s.exchanged ++ (s.transactions old).data.toList.map Supplied.number } :
        Taco T).goto context (.update s.pendingTransaction) := ⟨_, rfl⟩
  rw [← hs']
  have hext : Extends s s' := by
    subst hs'
    exact ⟨fun _ _ hx => hx, fun n hn => List.mem_append.mpr (Or.inl hn)⟩
  have hpcs : ∀ d, d ≠ context → s'.pc d = s.pc d := by
    subst hs'
    exact fun d hd => goto_pc_of_ne _ hd _
  have hpending : s'.pendingTransaction = old := by
    subst hs'
    rfl
  have hnow : s'.pc context = .update s.pendingTransaction := by
    subst hs'
    exact goto_pc_self _ _ _
  have hgot : s'.held context = s.pendingTransaction := by
    rw [held, hnow]
  have hheld : ∀ d, d ≠ context → s'.held d = s.held d := by
    intro d hd
    rw [held, held, hpcs d hd]
    subst hs'
    rfl
  have hplace := place_swap (hpending.trans hold) hgot hheld
  have hslots : s'.transactions = s.transactions := by
    subst hs'
    rfl
  refine ⟨?_, ?_, ?_, ?_, ?_, ?_⟩
  · intro o ho
    rw [hplace]
    exact h.bounded _ (mapsTo_swap hc ho)
  · rw [hplace]
    exact h.injective.comp (Equiv.injective _).injOn (mapsTo_swap hc)
  · intro d hd i hi
    by_cases hdc : d = context
    · subst hdc
      rw [hnow] at hi
      rw [hgot]
      exact (Option.some.inj hi).symm
    · rw [hpcs d hdc] at hi
      rw [hheld d hdc]
      exact h.local_eq d hd i hi
  · intro d hd
    rw [hslots]
    by_cases hdc : d = context
    · subst hdc
      rw [hnow, hgot]
      exact Offered.mono h.pending hext
    · rw [hpcs d hdc, hheld d hdc]
      exact (h.slot d hd).mono hext
  · rw [hpending, hslots]
    intro x hx
    rw [hcontext]
    refine ⟨hext.supplied _ _ (hfrom x hx), ?_⟩
    subst hs'
    refine List.mem_append.mpr (Or.inr ?_)
    rw [hx]
    exact List.mem_singleton_self _
  · refine h.ledger.mono hext (fun i x hx => ?_) (by subst hs'; rfl)
    rwa [hslots] at hx

theorem Owned.update {new : Nat} (hpc : s.pc context = .update new) :
    (({ s with indices := Function.update s.indices context new } : Taco T).goto context
      (.check new)).Owned mode numberOfContext := by
  have hnew : new = s.held context := h.local_eq context hc new (by rw [hpc]; rfl)
  have hslot := h.slot context hc
  rw [hpc] at hslot
  refine h.local_step hc (place_eq context rfl ?_ ?_ ?_) ?_ (fun _ _ => rfl)
    (Extends.of_eq rfl rfl) ?_ ?_ ?_
  · simp only [held, goto_pc_self, hpc]
    exact Function.update_self _ _ _
  · exact fun d hd => goto_pc_of_ne _ hd _
  · exact fun d hd => Function.update_of_ne hd _ _
  · exact fun d hd => goto_pc_of_ne _ hd _
  · rw [goto_pc_self]
    rintro _ ⟨⟩
    exact hnew
  · rw [goto_pc_self]
    exact hslot
  · exact h.ledger.mono (Extends.of_eq rfl rfl) (fun _ _ hx => hx) rfl

theorem Owned.destruct {new : Nat} {data : Supplied T} (hpc : s.pc context = .destruct new data) :
    ((({ s with returned := s.returned ++ [(data, context)] } : Taco T).write new
      { s.transactions new with data := none }).goto context .idle).Owned mode
      numberOfContext := by
  have hnew : new = s.held context := h.local_eq context hc new (by rw [hpc]; rfl)
  have hslot := h.slot context hc
  rw [hpc, ← hnew] at hslot
  obtain ⟨hoffered, hadmissible, hdata⟩ := hslot
  refine h.local_step hc (place_eq context rfl ?_ ?_ fun _ _ => rfl) ?_ ?_
    (Extends.of_eq rfl rfl) ?_ ?_ ?_
  · simp only [held, goto_pc_self, hpc]
    rfl
  · exact fun d hd => goto_pc_of_ne _ hd _
  · exact fun d hd => goto_pc_of_ne _ hd _
  · intro i hi
    rw [← hnew] at hi
    exact write_transactions_of_ne _ hi _
  · rw [goto_pc_self]
    nofun
  · rw [goto_pc_self, ← hnew, goto_transactions, write_transactions_self]
    rfl
  · refine h.ledger.give (Extends.of_eq rfl rfl) hdata hoffered hadmissible ?_ rfl
    intro j y hy
    by_cases hj : j = new
    · subst hj
      rw [goto_transactions, write_transactions_self] at hy
      cases hy
    · rw [goto_transactions, write_transactions_of_ne _ hj] at hy
      exact ⟨hj, hy⟩

theorem Owned.advance (hs : s.advance mode context = some s') : s'.Owned mode numberOfContext := by
  have hslot := h.slot context hc
  have hlocal := h.local_eq context hc
  unfold Taco.advance at hs
  cases hpc : s.pc context with
  | idle =>
    simp only [hpc] at hs
    cases hs
  | writeContext =>
    simp only [hpc] at hs hslot
    cases hs
    have hheld : s.held context = s.indices context := by simp only [held, hpc]
    rw [← hheld]
    refine h.write hc ?_ ?_ (fun _ hx => hx) ⟨hslot, rfl⟩
    · simp only [held, goto_pc_self, hpc]
      rfl
    · rintro _ ⟨⟩
      rfl
  | exchange old =>
    simp only [hpc] at hs
    cases hs
    exact h.exchange hc hpc
  | update new =>
    simp only [hpc] at hs
    cases hs
    exact h.update hc hpc
  | check new =>
    simp only [hpc] at hs hslot hlocal
    have hnew : new = s.held context := hlocal new rfl
    split at hs
    · next hmode =>
      cases hs
      refine h.goto hc ?_ ?_ ⟨hslot, ?_⟩
      · simp only [held, goto_pc_self, hpc]
        rfl
      · rintro _ ⟨⟩
        exact hnew
      · intro hdeny
        rcases hmode with haccept | hne
        · rw [hdeny] at haccept
          cases haccept
        · rwa [← hnew]
    · cases hs
      refine h.goto hc ?_ ?_ hslot
      · simp only [held, goto_pc_self, hpc]
        rfl
      · rintro _ ⟨⟩
        exact hnew
  | move new =>
    simp only [hpc] at hs hslot hlocal
    have hnew : new = s.held context := hlocal new rfl
    split at hs
    · next data hdata =>
      cases hs
      rw [hnew] at hdata
      refine h.goto hc ?_ ?_ ⟨hslot.1, hslot.2, hdata⟩
      · simp only [held, goto_pc_self, hpc]
        rfl
      · rintro _ ⟨⟩
        exact hnew
    · next hdata =>
      cases hs
      rw [hnew] at hdata
      refine h.goto hc ?_ nofun hdata
      simp only [held, goto_pc_self, hpc]
      rfl
  | destruct new data =>
    simp only [hpc] at hs
    cases hs
    exact h.destruct hc hpc
  | reset new =>
    simp only [hpc] at hs hlocal
    cases hs
    have hnew : new = s.held context := hlocal new rfl
    rw [hnew]
    refine h.write hc ?_ nofun nofun rfl
    simp only [held, goto_pc_self, hpc]
    rfl

end Steps

theorem Owned.start (mode : TacoMode) (numberOfContext : Nat) :
    (start numberOfContext : Taco T).Owned mode numberOfContext where
  bounded := by
    intro o ho
    cases o with
    | none => exact le_rfl
    | some c => exact Nat.le_of_lt (ho c rfl)
  injective := by
    intro o ho o' ho' heq
    cases o with
    | none =>
      cases o' with
      | none => rfl
      | some d => exact absurd heq (Nat.ne_of_gt (ho' d rfl))
    | some c =>
      cases o' with
      | none => exact absurd heq (Nat.ne_of_lt (ho c rfl))
      | some d => exact congrArg some heq
  local_eq := nofun
  slot := fun _ _ => rfl
  pending := Offered.of_empty rfl
  ledger := ⟨nofun, nofun, nofun, List.nodup_nil, nofun⟩

theorem Owned.step (h : s.Owned mode numberOfContext) {l : Nat × TacoAct T}
    (hs : s.step mode numberOfContext l = some s') : s'.Owned mode numberOfContext := by
  obtain ⟨context, act⟩ := l
  cases act with
  | supply data =>
    simp only [Taco.step] at hs
    split at hs
    · next hpc =>
      split at hs
      · next hc =>
        cases hs
        exact h.supply hc hpc data
      · cases hs
    · cases hs
  | take =>
    simp only [Taco.step] at hs
    split at hs
    · next hpc =>
      split at hs
      · next hc =>
        cases hs
        have hslot := h.slot context hc
        rw [hpc] at hslot
        refine h.goto hc ?_ nofun fun x hx => ?_
        · simp only [held, goto_pc_self, hpc]
          rfl
        · rw [hslot] at hx
          cases hx
      · cases hs
    · cases hs
  | advance =>
    simp only [Taco.step] at hs
    split at hs
    · next hc => exact h.advance hc hs
    · cases hs

theorem Owned.accessed (h : s.Owned mode numberOfContext) {l : Nat × TacoAct T} {i : Nat}
    (hs : (s.step mode numberOfContext l).isSome) (hi : s.accessed l = some i) :
    l.1 < numberOfContext ∧ i = s.held l.1 := by
  obtain ⟨context, act⟩ := l
  cases act with
  | supply data =>
    simp only [Taco.step] at hs
    split at hs
    · next hpc =>
      split at hs
      · next hc =>
        cases hi
        exact ⟨hc, by simp only [held, hpc]⟩
      · cases hs
    · cases hs
  | take => cases hi
  | advance =>
    simp only [Taco.step] at hs
    split at hs
    · next hc =>
      refine ⟨hc, ?_⟩
      have hlocal := h.local_eq context hc
      simp only [Taco.accessed] at hi
      cases hpc : s.pc context with
      | idle =>
        simp only [hpc] at hi
        cases hi
      | exchange old =>
        simp only [hpc] at hi
        cases hi
      | update new =>
        simp only [hpc] at hi
        cases hi
      | writeContext =>
        simp only [hpc] at hi
        cases hi
        simp only [held, hpc]
      | check new =>
        simp only [hpc] at hi hlocal
        exact hlocal i hi
      | move new =>
        simp only [hpc] at hi hlocal
        exact hlocal i hi
      | destruct new data =>
        simp only [hpc] at hi hlocal
        exact hlocal i hi
      | reset new =>
        simp only [hpc] at hi hlocal
        exact hlocal i hi
    · cases hs

theorem Owned.permutation (h : s.Owned mode numberOfContext) :
    (s.pendingTransaction :: (List.range numberOfContext).map s.held).Perm
      (List.range (numberOfContext + 1)) := by
  have hnodup : (s.pendingTransaction :: (List.range numberOfContext).map s.held).Nodup := by
    refine List.nodup_cons.mpr ⟨?_, ?_⟩
    · rw [List.mem_map]
      rintro ⟨c, hc, heq⟩
      exact h.pending_ne (List.mem_range.mp hc) heq.symm
    · refine List.nodup_range.map_on fun c hc d hd heq => ?_
      by_contra hne
      exact h.held_ne (List.mem_range.mp hd) (List.mem_range.mp hc) hne heq
  have hsubset : s.pendingTransaction :: (List.range numberOfContext).map s.held ⊆
      List.range (numberOfContext + 1) := by
    intro i hi
    rw [List.mem_range, Nat.lt_succ_iff]
    rcases List.mem_cons.mp hi with rfl | hi
    · exact h.bounded none none_mem_places
    · obtain ⟨c, hc, rfl⟩ := List.mem_map.mp hi
      exact h.bounded (some c) (some_mem_places (List.mem_range.mp hc))
  refine (List.subperm_of_subset hnodup hsubset).perm_of_length_le ?_
  rw [List.length_cons, List.length_map, List.length_range, List.length_range]

structure Exclusive (mode : TacoMode) (numberOfContext : Nat) (s : Taco T) : Prop where
  permutation : (s.pendingTransaction :: (List.range numberOfContext).map s.held).Perm
    (List.range (numberOfContext + 1))
  exclusive : ∀ l l' i, (s.step mode numberOfContext l).isSome →
    (s.step mode numberOfContext l').isSome → s.accessed l = some i → s.accessed l' = some i →
      l.1 = l'.1
  once : (s.returned.map fun r => r.1.number).Nodup
  returned : ∀ r ∈ s.returned, ∃ c, s.supplied[r.1.number]? = some (r.1.value, c) ∧
    r.1.number ∈ s.exchanged ∧ (mode = .denyDataFromSameContext → c ≠ r.2)

theorem Owned.exclusive (h : s.Owned mode numberOfContext) : s.Exclusive mode numberOfContext where
  permutation := h.permutation
  exclusive := by
    intro l l' i hl hl' hi hi'
    obtain ⟨hc, heq⟩ := h.accessed hl hi
    obtain ⟨hc', heq'⟩ := h.accessed hl' hi'
    by_contra hne
    exact h.held_ne hc' hc hne (heq.symm.trans heq')
  once := h.ledger.once
  returned := h.ledger.returned

theorem exclusive_of_run {ls : List (Nat × TacoAct T)}
    (h : runSteps (step mode numberOfContext) (start numberOfContext) ls = some s) :
    s.Exclusive mode numberOfContext := by
  have howned := runSteps_invariant (C := fun _ _ => True)
    (fun _ _ _ hs _ hstep => Owned.step hs hstep) ls _ s (Owned.start mode numberOfContext)
    (meets_true ls _) h
  exact howned.exclusive

def handover : List (Nat × TacoAct Nat) :=
  [(1, .take), (0, .supply 7), (1, .advance), (0, .advance), (0, .advance), (1, .advance),
    (1, .advance), (0, .advance), (1, .advance), (1, .advance), (1, .advance)]

theorem exclusive_of_run_handover :
    ∃ s, runSteps (step .denyDataFromSameContext 2) (start 2) handover = some s ∧
      (s.returned.map fun r => (r.1.value, r.2)) = [(7, 1)] ∧
      s.Exclusive .denyDataFromSameContext 2 := by
  obtain ⟨s, hs, hreturned⟩ : ∃ s, runSteps (step .denyDataFromSameContext 2) (start 2) handover =
      some s ∧ (s.returned.map fun r => (r.1.value, r.2)) = [(7, 1)] := ⟨_, rfl, rfl⟩
  exact ⟨s, hs, hreturned, exclusive_of_run hs⟩

end Taco

end Iceoryx.Hoofs
