import Iceoryx.Lib.Run
import Iceoryx.Hoofs.Loffli

/-! `LoFFLi::pop` and `LoFFLi::push` executed by any number of threads.  One
step is one access to shared memory: a load of `m_head`, a read or write of one
`m_nextFreeIndex` cell, or one compare-exchange of `m_head`.  The variables
`oldHead` and `newHead` of the two loops are carried in the program counter. -/

namespace Iceoryx.Hoofs.Loffli

inductive Pc
  | idle
  | popLoad
  | popRead (oldHead newHead : Node)
  | popExchange (oldHead newHead : Node)
  | popMark (index : Nat)
  | pushCheck (index : Nat)
  | pushLoad (index : Nat)
  | pushWrite (index : Nat) (oldHead newHead : Node)
  | pushExchange (index : Nat) (oldHead newHead : Node)
  deriving DecidableEq, Repr

/-- The index that a running call holds while it is in neither the list nor the
hands of a caller. -/
def Pc.transit : Pc → Option Nat
  | .popMark i | .pushCheck i | .pushLoad i | .pushWrite i _ _ | .pushExchange i _ _ => some i
  | .idle | .popLoad | .popRead _ _ | .popExchange _ _ => none

def Pc.oldHead : Pc → Option Node
  | .popRead old _ | .popExchange old _ | .pushWrite _ old _ | .pushExchange _ old _ => some old
  | .idle | .popLoad | .popMark _ | .pushCheck _ | .pushLoad _ => none

inductive Act
  | callPop
  | callPush (index : Nat)
  | advance
  | spurious
  deriving DecidableEq, Repr

variable {Tid : Type} [DecidableEq Tid]

structure Threads (Tid : Type) where
  list : Loffli
  pc : Tid → Pc
  owned : Tid → List Nat
  /-- Every `abaCounter` that `m_head` has carried so far. -/
  counters : List Nat

namespace Threads

def start (l : Loffli) : Threads Tid where
  list := l
  pc := fun _ => .idle
  owned := fun _ => []
  counters := [l.head.abaCounter]

def goto (s : Threads Tid) (t : Tid) (p : Pc) : Threads Tid :=
  { s with pc := Function.update s.pc t p }

def give (s : Threads Tid) (t : Tid) (is : List Nat) : Threads Tid :=
  { s with owned := Function.update s.owned t is }

def write (s : Threads Tid) (i v : Nat) : Threads Tid :=
  { s with list := s.list.setNext i v }

def exchange (s : Threads Tid) (n : Node) : Threads Tid :=
  { s with list := { s.list with head := n }, counters := n.abaCounter :: s.counters }

def step (s : Threads Tid) : Tid × Act → Option (Threads Tid)
  | (t, .callPop) =>
    match s.pc t with
    | .idle => some (s.goto t .popLoad)
    | _ => none
  | (t, .callPush i) =>
    match s.pc t with
    | .idle =>
      -- the usage rule: only an index this thread owns is pushed
      if i ∈ s.owned t then some ((s.give t ((s.owned t).erase i)).goto t (.pushCheck i)) else none
    | _ => none
  | (t, .spurious) =>
    match s.pc t with
    | .popExchange _ new => some (s.goto t (.popRead s.list.head new))
    | .pushExchange i _ new => some (s.goto t (.pushWrite i s.list.head new))
    | _ => none
  | (t, .advance) =>
    match s.pc t with
    | .idle => none
    | .popLoad => some (s.goto t (.popRead s.list.head s.list.head))
    | .popRead old new =>
      if old.indexToNextFreeIndex ≥ s.list.size then some (s.goto t .idle)
      else
        let next := s.list.nextFreeIndex old.indexToNextFreeIndex
        some (s.goto t (.popExchange old (bump new next)))
    | .popExchange old new =>
      if s.list.head = old then some ((s.exchange new).goto t (.popMark old.indexToNextFreeIndex))
      else some (s.goto t (.popRead s.list.head new))
    | .popMark i =>
      some (((s.write i s.list.invalidIndex).give t (i :: s.owned t)).goto t .idle)
    | .pushCheck i =>
      if i ≥ s.list.size ∨ s.list.nextFreeIndex i ≠ s.list.invalidIndex then
        -- `push` returns false, the caller keeps the index
        some ((s.give t (i :: s.owned t)).goto t .idle)
      else some (s.goto t (.pushLoad i))
    | .pushLoad i => some (s.goto t (.pushWrite i s.list.head s.list.head))
    | .pushWrite i old new =>
      some ((s.write i old.indexToNextFreeIndex).goto t (.pushExchange i old (bump new i)))
    | .pushExchange i old new =>
      if s.list.head = old then some ((s.exchange new).goto t .idle)
      else some (s.goto t (.pushWrite i s.list.head new))

/-- The exchange that is about to succeed installs an `abaCounter` that `m_head`
has not carried before. -/
def FreshExchange (s : Threads Tid) : Tid × Act → Prop
  | (t, .advance) =>
    match s.pc t with
    | .popExchange old new | .pushExchange _ old new =>
      s.list.head = old → new.abaCounter ∉ s.counters
    | _ => True
  | _ => True

instance (s : Threads Tid) (lab : Tid × Act) : Decidable (s.FreshExchange lab) := by
  unfold FreshExchange
  split
  · split <;> infer_instance
  · infer_instance

inductive Reachable (l : Loffli) : Nat → Nat → Prop
  | here {i} : i < l.size → Reachable l i i
  | next {i j} : i < l.size → Reachable l (l.nextFreeIndex i) j → Reachable l i j

def NoDoubleOwner (s : Threads Tid) : Prop :=
  (∀ t, (s.owned t).Nodup) ∧
  (∀ t t' i, i ∈ s.owned t → i ∈ s.owned t' → t = t') ∧
  (∀ t t' i, i ∈ s.owned t → (s.pc t').transit ≠ some i)

def NoneLost (s : Threads Tid) : Prop :=
  ∀ i < s.list.size, (∃ t, i ∈ s.owned t) ∨ (∃ t, (s.pc t).transit = some i) ∨
    Reachable s.list s.list.head.indexToNextFreeIndex i

def Holds (s : Threads Tid) (t : Tid) (i : Nat) : Prop :=
  i ∈ s.owned t ∨ (s.pc t).transit = some i

/-- What the program counter of a thread promises about shared memory.  The
clause of `popExchange` is the one that needs fresh counters: it says that an
exchange which can still succeed installs the successor of the current head. -/
def PcOk (s : Threads Tid) : Pc → Prop
  | .popExchange old new => old.abaCounter ∈ s.counters ∧
      (s.list.head = old → old.indexToNextFreeIndex < s.list.size ∧
        new.indexToNextFreeIndex = s.list.nextFreeIndex old.indexToNextFreeIndex)
  | .popRead old _ | .pushWrite _ old _ => old.abaCounter ∈ s.counters
  | .pushCheck i => s.list.nextFreeIndex i = s.list.invalidIndex
  | .pushExchange i old new => old.abaCounter ∈ s.counters ∧
      s.list.nextFreeIndex i = old.indexToNextFreeIndex ∧ new.indexToNextFreeIndex = i
  | .idle | .popLoad | .popMark _ | .pushLoad _ => True

structure Inv (s : Threads Tid) (free : List Nat) : Prop where
  chain : Lib.Chain s.list.nextFreeIndex (s.list.size ≤ ·) s.list.head.indexToNextFreeIndex free
  nodup : free.Nodup
  taken : ∀ t i, s.Holds t i → i < s.list.size ∧ i ∉ free
  unique : ∀ t t' i, s.Holds t i → s.Holds t' i → t = t'
  ownedNodup : ∀ t, (s.owned t).Nodup
  ownedTransit : ∀ t i, i ∈ s.owned t → (s.pc t).transit ≠ some i
  cover : ∀ i < s.list.size, i ∈ free ∨ ∃ t, s.Holds t i
  marked : ∀ t, ∀ i ∈ s.owned t, s.list.nextFreeIndex i = s.list.invalidIndex
  headSeen : s.list.head.abaCounter ∈ s.counters
  pcOk : ∀ t, s.PcOk (s.pc t)

variable {s : Threads Tid} {free : List Nat}

@[simp] theorem pcOk_goto (s : Threads Tid) (t : Tid) (p q : Pc) :
    (s.goto t p).PcOk q = s.PcOk q := by cases q <;> rfl

@[simp] theorem pcOk_give (s : Threads Tid) (t : Tid) (os : List Nat) (q : Pc) :
    (s.give t os).PcOk q = s.PcOk q := by cases q <;> rfl

theorem pc_goto (s : Threads Tid) (t t' : Tid) (p : Pc) :
    (s.goto t p).pc t' = if t' = t then p else s.pc t' := Function.update_apply _ _ _ _

omit [DecidableEq Tid] in
theorem PcOk.exchange {p : Pc} {n : Node} (h : s.PcOk p) (hfresh : n.abaCounter ∉ s.counters) :
    (s.exchange n).PcOk p := by
  cases p with
  | idle => trivial
  | popLoad => trivial
  | popRead old new => exact List.mem_cons_of_mem _ h
  | popExchange old new =>
    refine ⟨List.mem_cons_of_mem _ h.1, fun hhead => ?_⟩
    change n = old at hhead
    subst hhead
    exact absurd h.1 hfresh
  | popMark i => trivial
  | pushCheck i => exact h
  | pushLoad i => trivial
  | pushWrite i old new => exact List.mem_cons_of_mem _ h
  | pushExchange i old new => exact ⟨List.mem_cons_of_mem _ h.1, h.2⟩

omit [DecidableEq Tid] in
theorem Inv.head_mem (h : Inv s free)
    (hlt : s.list.head.indexToNextFreeIndex < s.list.size) :
    s.list.head.indexToNextFreeIndex ∈ free := by
  have hchain := h.chain
  cases free with
  | nil => exact absurd hlt (Nat.not_lt.mpr hchain)
  | cons j rest =>
    rw [hchain.1]
    exact List.mem_cons_self

omit [DecidableEq Tid] in
theorem PcOk.write {p : Pc} {j v : Nat} (hinv : Inv s free) (h : s.PcOk p) (hfree : j ∉ free)
    (hp : p.transit ≠ some j) : (s.write j v).PcOk p := by
  have hcell : ∀ i, p.transit = some i → (s.write j v).list.nextFreeIndex i =
      s.list.nextFreeIndex i := by
    intro i hi
    refine Function.update_of_ne ?_ _ _
    rintro rfl
    exact hp hi
  cases p with
  | idle => trivial
  | popLoad => trivial
  | popRead old new => exact h
  | popExchange old new =>
    refine ⟨h.1, fun hhead => ?_⟩
    obtain ⟨hlt, hnew⟩ := h.2 hhead
    refine ⟨hlt, hnew.trans (Function.update_of_ne ?_ _ _).symm⟩
    rintro rfl
    have hold : s.list.head = old := hhead
    subst hold
    exact hfree (hinv.head_mem hlt)
  | popMark i => trivial
  | pushCheck i => exact (hcell i rfl).trans h
  | pushLoad i => trivial
  | pushWrite i old new => exact h
  | pushExchange i old new => exact ⟨h.1, (hcell i rfl).trans h.2.1, h.2.2⟩

theorem Inv.move (h : Inv s free) {t : Tid} {p : Pc} {o : List Nat}
    (hholds : ∀ i, i ∈ o ∨ p.transit = some i ↔ s.Holds t i) (hnodup : o.Nodup)
    (htransit : ∀ i ∈ o, p.transit ≠ some i)
    (hmarked : ∀ i ∈ o, s.list.nextFreeIndex i = s.list.invalidIndex) (hp : s.PcOk p) :
    Inv ((s.give t o).goto t p) free := by
  have hsame : ∀ t' i, ((s.give t o).goto t p).Holds t' i ↔ s.Holds t' i := by
    intro t' i
    by_cases ht : t' = t
    · subst ht
      simpa [Holds, give, goto] using hholds i
    · simp [Holds, give, goto, ht]
  refine ⟨h.chain, h.nodup, ?_, ?_, ?_, ?_, ?_, ?_, h.headSeen, ?_⟩
  · intro t' i hi
    exact h.taken t' i ((hsame t' i).mp hi)
  · intro t₁ t₂ i h₁ h₂
    exact h.unique t₁ t₂ i ((hsame t₁ i).mp h₁) ((hsame t₂ i).mp h₂)
  · intro t'
    by_cases ht : t' = t
    · subst ht
      simpa [give, goto] using hnodup
    · simpa [give, goto, ht] using h.ownedNodup t'
  · intro t' i
    by_cases ht : t' = t
    · subst ht
      simpa [give, goto] using htransit i
    · simpa [give, goto, ht] using h.ownedTransit t' i
  · intro i hi
    refine (h.cover i hi).imp_right ?_
    rintro ⟨t', ht'⟩
    exact ⟨t', (hsame t' i).mpr ht'⟩
  · intro t' i
    by_cases ht : t' = t
    · subst ht
      simpa [give, goto] using hmarked i
    · simpa [give, goto, ht] using h.marked t' i
  · intro t'
    rw [pc_goto, pcOk_goto, pcOk_give]
    split
    · exact hp
    · exact h.pcOk t'

theorem Inv.goto (h : Inv s free) {t : Tid} {p : Pc} (htransit : p.transit = (s.pc t).transit)
    (hp : s.PcOk p) : Inv (s.goto t p) free := by
  have hgive : s.give t (s.owned t) = s := by simp [give]
  have hmove := h.move (t := t) (p := p) (o := s.owned t) (by simp [Holds, htransit])
    (h.ownedNodup t) (by simpa [htransit] using h.ownedTransit t) (h.marked t) hp
  rwa [hgive] at hmove

theorem Inv.finish (h : Inv s free) {t : Tid} {i : Nat} (ht : (s.pc t).transit = some i)
    (hi : s.list.nextFreeIndex i = s.list.invalidIndex) :
    Inv ((s.give t (i :: s.owned t)).goto t .idle) free := by
  have hown : i ∉ s.owned t := fun hmem => h.ownedTransit t i hmem ht
  refine h.move ?_ (List.nodup_cons.mpr ⟨hown, h.ownedNodup t⟩) ?_ ?_ trivial
  · intro j
    rw [Holds, ht]
    simp only [Pc.transit, List.mem_cons, Option.some.injEq, reduceCtorEq, or_false]
    rw [or_comm, eq_comm]
  · simp [Pc.transit]
  · intro j hj
    rcases List.mem_cons.mp hj with rfl | hj
    · exact hi
    · exact h.marked t j hj

theorem Inv.write (h : Inv s free) {t : Tid} {j v : Nat} (ht : (s.pc t).transit = some j)
    (hpc : (s.write j v).PcOk (s.pc t)) : Inv (s.write j v) free := by
  have hheld : s.Holds t j := Or.inr ht
  obtain ⟨hlt, hfree⟩ := h.taken t j hheld
  refine ⟨h.chain.update hfree, h.nodup, h.taken, h.unique, h.ownedNodup, h.ownedTransit,
    h.cover, ?_, h.headSeen, ?_⟩
  · intro t' i hi
    refine (Function.update_of_ne ?_ _ _).trans (h.marked t' i hi)
    rintro rfl
    have htt : t' = t := h.unique t' t i (Or.inl hi) hheld
    subst htt
    exact h.ownedTransit t' i hi ht
  · intro t'
    by_cases htt : t' = t
    · rw [htt]
      exact hpc
    · refine PcOk.write h (h.pcOk t') hfree fun hother => ?_
      exact htt (h.unique t' t j (Or.inr hother) hheld)

theorem Inv.popExchange (h : Inv s free) {t : Tid} {old new : Node}
    (hpc : s.pc t = .popExchange old new) (hhead : s.list.head = old)
    (hfresh : new.abaCounter ∉ s.counters) :
    ∃ rest, Inv ((s.exchange new).goto t (.popMark old.indexToNextFreeIndex)) rest := by
  subst hhead
  have hok : s.PcOk (.popExchange s.list.head new) := hpc ▸ h.pcOk t
  obtain ⟨hlt, hnew⟩ := hok.2 rfl
  have hchain := h.chain
  cases free with
  | nil => exact absurd hlt (Nat.not_lt.mpr hchain)
  | cons i rest =>
    obtain ⟨hi, -, hrest⟩ := hchain
    obtain ⟨hnot, hnodup⟩ := List.nodup_cons.mp h.nodup
    rw [hi] at hnew ⊢
    have hnone : ∀ t', ¬ s.Holds t' i := fun t' ht' => (h.taken t' i ht').2 List.mem_cons_self
    have hsame : ∀ t' j, ((s.exchange new).goto t (.popMark i)).Holds t' j ↔
        s.Holds t' j ∨ (t' = t ∧ j = i) := by
      intro t' j
      by_cases ht : t' = t
      · subst ht
        simp [Holds, exchange, Threads.goto, hpc, Pc.transit, eq_comm]
      · simp [Holds, exchange, Threads.goto, ht]
    refine ⟨rest, ?_, hnodup, ?_, ?_, h.ownedNodup, ?_, ?_, h.marked, ?_, ?_⟩
    · change Lib.Chain s.list.nextFreeIndex (s.list.size ≤ ·) new.indexToNextFreeIndex rest
      rw [hnew]
      exact hrest
    · intro t' j hj
      rcases (hsame t' j).mp hj with hj | ⟨-, rfl⟩
      · exact ⟨(h.taken t' j hj).1, fun hmem => (h.taken t' j hj).2 (List.mem_cons_of_mem _ hmem)⟩
      · exact ⟨hi ▸ hlt, hnot⟩
    · intro t₁ t₂ j h₁ h₂
      rcases (hsame t₁ j).mp h₁ with g₁ | ⟨e₁, rfl⟩
      · rcases (hsame t₂ j).mp h₂ with g₂ | ⟨-, rfl⟩
        · exact h.unique t₁ t₂ j g₁ g₂
        · exact absurd g₁ (hnone t₁)
      · rcases (hsame t₂ j).mp h₂ with g₂ | ⟨e₂, -⟩
        · exact absurd g₂ (hnone t₂)
        · exact e₁.trans e₂.symm
    · intro t' j hj
      by_cases ht : t' = t
      · subst ht
        simp only [exchange, Threads.goto, Function.update_self, Pc.transit]
        rintro ⟨⟩
        exact hnone t' (Or.inl hj)
      · simpa [exchange, Threads.goto, ht] using h.ownedTransit t' j hj
    · intro j hj
      rcases h.cover j hj with hmem | ⟨t', ht'⟩
      · rcases List.mem_cons.mp hmem with rfl | hmem
        · exact Or.inr ⟨t, (hsame t j).mpr (Or.inr ⟨rfl, rfl⟩)⟩
        · exact Or.inl hmem
      · exact Or.inr ⟨t', (hsame t' j).mpr (Or.inl ht')⟩
    · exact List.mem_cons_self
    · intro t'
      rw [pc_goto, pcOk_goto]
      split
      · trivial
      · exact PcOk.exchange (h.pcOk t') hfresh

theorem Inv.pushExchange (h : Inv s free) {t : Tid} {i : Nat} {old new : Node}
    (hpc : s.pc t = .pushExchange i old new) (hhead : s.list.head = old)
    (hfresh : new.abaCounter ∉ s.counters) :
    Inv ((s.exchange new).goto t .idle) (i :: free) := by
  subst hhead
  have hok : s.PcOk (.pushExchange i s.list.head new) := hpc ▸ h.pcOk t
  have hheld : s.Holds t i := Or.inr (by rw [hpc]; rfl)
  obtain ⟨hlt, hfree⟩ := h.taken t i hheld
  have hsame : ∀ t' j, ((s.exchange new).goto t .idle).Holds t' j ↔ s.Holds t' j ∧ j ≠ i := by
    intro t' j
    have hown : j ∈ s.owned t' → j ≠ i := by
      rintro hj rfl
      have htt : t' = t := h.unique t' t j (Or.inl hj) hheld
      subst htt
      exact h.ownedTransit t' j hj (by rw [hpc]; rfl)
    have htransit : t' ≠ t → (s.pc t').transit = some j → j ≠ i := by
      rintro ht hj rfl
      exact ht (h.unique t' t j (Or.inr hj) hheld)
    by_cases ht : t' = t
    · subst ht
      simp only [Holds, exchange, Threads.goto, Function.update_self, Pc.transit, hpc]
      grind
    · simp only [Holds, exchange, Threads.goto, ne_eq, ht, not_false_eq_true,
        Function.update_of_ne]
      grind
  refine ⟨⟨hok.2.2, Nat.not_le.mpr hlt, ?_⟩, List.nodup_cons.mpr ⟨hfree, h.nodup⟩, ?_, ?_,
    h.ownedNodup, ?_, ?_,
    h.marked, List.mem_cons_self, ?_⟩
  · change Lib.Chain s.list.nextFreeIndex (s.list.size ≤ ·) (s.list.nextFreeIndex i) free
    rw [hok.2.1]
    exact h.chain
  · intro t' j hj
    obtain ⟨hj, hne⟩ := (hsame t' j).mp hj
    exact ⟨(h.taken t' j hj).1, by simp [hne, (h.taken t' j hj).2]⟩
  · intro t₁ t₂ j h₁ h₂
    exact h.unique t₁ t₂ j ((hsame t₁ j).mp h₁).1 ((hsame t₂ j).mp h₂).1
  · intro t' j hj
    by_cases ht : t' = t
    · subst ht
      simp [Threads.goto, Pc.transit]
    · simpa [exchange, Threads.goto, ht] using h.ownedTransit t' j hj
  · intro j hj
    by_cases hji : j = i
    · exact Or.inl (by simp [hji])
    · rcases h.cover j hj with hmem | ⟨t', ht'⟩
      · exact Or.inl (List.mem_cons_of_mem _ hmem)
      · exact Or.inr ⟨t', (hsame t' j).mpr ⟨ht', hji⟩⟩
  · intro t'
    rw [pc_goto, pcOk_goto]
    split
    · trivial
    · exact PcOk.exchange (h.pcOk t') hfresh

omit [DecidableEq Tid] in
theorem Inv.start {l : Loffli} {free : List Nat} (h : Rep l free)
    (hall : ∀ i < l.size, i ∈ free) : Inv (start l : Threads Tid) free := by
  refine ⟨h.chain, h.nodup, ?_, ?_, fun _ => List.nodup_nil, ?_, fun i hi => Or.inl (hall i hi),
    ?_, List.mem_cons_self, fun _ => trivial⟩ <;> simp [Threads.start, Holds, Pc.transit]

theorem Inv.callPush {s' : Threads Tid} {t : Tid} {i : Nat} (h : Inv s free)
    (hstep : s.step (t, .callPush i) = some s') : Inv s' free := by
  cases hpc : s.pc t with
  | idle =>
    simp only [Threads.step, hpc] at hstep
    split at hstep
    · next hmem =>
      cases hstep
      have hnodup := h.ownedNodup t
      refine h.move ?_ (hnodup.erase i) ?_ ?_ (h.marked t i hmem)
      · intro j
        rw [hnodup.mem_erase_iff, Holds, hpc]
        simp only [Pc.transit, Option.some.injEq, reduceCtorEq, or_false]
        grind
      · intro j hj
        have hne := (hnodup.mem_erase_iff.mp hj).1
        simp [Pc.transit, hne.symm]
      · intro j hj
        exact h.marked t j (List.mem_of_mem_erase hj)
    · cases hstep
  | _ => simp [Threads.step, hpc] at hstep

theorem Inv.spurious {s' : Threads Tid} {t : Tid} (h : Inv s free)
    (hstep : s.step (t, .spurious) = some s') : Inv s' free := by
  cases hpc : s.pc t with
  | popExchange old new =>
    simp only [Threads.step, hpc, Option.some.injEq] at hstep
    subst hstep
    exact h.goto (by rw [hpc]; rfl) h.headSeen
  | pushExchange i old new =>
    simp only [Threads.step, hpc, Option.some.injEq] at hstep
    subst hstep
    exact h.goto (by rw [hpc]; rfl) h.headSeen
  | _ => simp [Threads.step, hpc] at hstep

section advance

variable {s' : Threads Tid} {t : Tid} {i : Nat} {old new : Node}

theorem Inv.advance_popRead (h : Inv s free) (hpc : s.pc t = .popRead old new)
    (hstep : s.step (t, .advance) = some s') : Inv s' free := by
  have hok := h.pcOk t
  simp only [Threads.step, hpc] at hstep hok
  split at hstep
  · cases hstep
    exact h.goto (by rw [hpc]; rfl) trivial
  · next hlt =>
    cases hstep
    exact h.goto (by rw [hpc]; rfl) ⟨hok, fun _ => ⟨Nat.not_le.mp hlt, rfl⟩⟩

theorem Inv.advance_popExchange (h : Inv s free) (hpc : s.pc t = .popExchange old new)
    (hfresh : s.FreshExchange (t, .advance)) (hstep : s.step (t, .advance) = some s') :
    ∃ free, Inv s' free := by
  simp only [Threads.step, hpc] at hstep
  split at hstep
  · next hhead =>
    cases hstep
    simp only [FreshExchange, hpc] at hfresh
    exact h.popExchange hpc hhead (hfresh hhead)
  · cases hstep
    exact ⟨free, h.goto (by rw [hpc]; rfl) h.headSeen⟩

theorem Inv.advance_popMark (h : Inv s free) (hpc : s.pc t = .popMark i)
    (hstep : s.step (t, .advance) = some s') : Inv s' free := by
  simp only [Threads.step, hpc, Option.some.injEq] at hstep
  subst hstep
  have htransit : (s.pc t).transit = some i := by rw [hpc]; rfl
  have hw := h.write (v := s.list.invalidIndex) htransit (by rw [hpc]; trivial)
  exact hw.finish htransit (Function.update_self _ _ _)

theorem Inv.advance_pushCheck (h : Inv s free) (hpc : s.pc t = .pushCheck i)
    (hstep : s.step (t, .advance) = some s') : Inv s' free := by
  have hok := h.pcOk t
  simp only [Threads.step, hpc] at hstep hok
  split at hstep
  · cases hstep
    exact h.finish (by rw [hpc]; rfl) hok
  · cases hstep
    exact h.goto (by rw [hpc]; rfl) trivial

theorem Inv.advance_pushWrite (h : Inv s free) (hpc : s.pc t = .pushWrite i old new)
    (hstep : s.step (t, .advance) = some s') : Inv s' free := by
  have hok := h.pcOk t
  simp only [Threads.step, hpc, Option.some.injEq] at hstep hok
  subst hstep
  have htransit : (s.pc t).transit = some i := by rw [hpc]; rfl
  have hw := h.write (v := old.indexToNextFreeIndex) htransit (by rw [hpc]; exact hok)
  exact hw.goto htransit.symm ⟨hok, Function.update_self _ _ _, rfl⟩

theorem Inv.advance_pushExchange (h : Inv s free) (hpc : s.pc t = .pushExchange i old new)
    (hfresh : s.FreshExchange (t, .advance)) (hstep : s.step (t, .advance) = some s') :
    ∃ free, Inv s' free := by
  simp only [Threads.step, hpc] at hstep
  split at hstep
  · next hhead =>
    cases hstep
    simp only [FreshExchange, hpc] at hfresh
    exact ⟨i :: free, h.pushExchange hpc hhead (hfresh hhead)⟩
  · cases hstep
    exact ⟨free, h.goto (by rw [hpc]; rfl) h.headSeen⟩

theorem Inv.advance (h : Inv s free) (hfresh : s.FreshExchange (t, .advance))
    (hstep : s.step (t, .advance) = some s') : ∃ free, Inv s' free := by
  cases hpc : s.pc t with
  | idle => simp [Threads.step, hpc] at hstep
  | popLoad =>
    simp only [Threads.step, hpc, Option.some.injEq] at hstep
    subst hstep
    exact ⟨free, h.goto (by rw [hpc]; rfl) h.headSeen⟩
  | popRead old new => exact ⟨free, h.advance_popRead hpc hstep⟩
  | popExchange old new => exact h.advance_popExchange hpc hfresh hstep
  | popMark i => exact ⟨free, h.advance_popMark hpc hstep⟩
  | pushCheck i => exact ⟨free, h.advance_pushCheck hpc hstep⟩
  | pushLoad i =>
    simp only [Threads.step, hpc, Option.some.injEq] at hstep
    subst hstep
    exact ⟨free, h.goto (by rw [hpc]; rfl) h.headSeen⟩
  | pushWrite i old new => exact ⟨free, h.advance_pushWrite hpc hstep⟩
  | pushExchange i old new => exact h.advance_pushExchange hpc hfresh hstep

end advance

theorem Inv.step {s' : Threads Tid} {lab : Tid × Act} (h : ∃ free, Inv s free)
    (hfresh : s.FreshExchange lab) (hstep : s.step lab = some s') : ∃ free, Inv s' free := by
  obtain ⟨free, h⟩ := h
  obtain ⟨t, act⟩ := lab
  cases act with
  | callPop =>
    cases hpc : s.pc t with
    | idle =>
      simp only [Threads.step, hpc, Option.some.injEq] at hstep
      subst hstep
      exact ⟨free, h.goto (by rw [hpc]; rfl) trivial⟩
    | _ => simp [Threads.step, hpc] at hstep
  | callPush i => exact ⟨free, h.callPush hstep⟩
  | spurious => exact ⟨free, h.spurious hstep⟩
  | advance => exact h.advance hfresh hstep

omit [DecidableEq Tid] in
theorem Inv.noDoubleOwner (h : Inv s free) : s.NoDoubleOwner := by
  refine ⟨h.ownedNodup, ?_, ?_⟩
  · intro t t' i hi hi'
    exact h.unique t t' i (Or.inl hi) (Or.inl hi')
  · intro t t' i hi htransit
    have htt : t = t' := h.unique t t' i (Or.inl hi) (Or.inr htransit)
    subst htt
    exact h.ownedTransit t i hi htransit

theorem reachable_of_chain {l : Loffli} {i : Nat} {free : List Nat}
    (h : Lib.Chain l.nextFreeIndex (l.size ≤ ·) i free) : ∀ j ∈ free, Reachable l i j := by
  induction free generalizing i with
  | nil => simp
  | cons k rest ih =>
    obtain ⟨rfl, hlt, hrest⟩ := h
    intro j hj
    rcases List.mem_cons.mp hj with rfl | hj
    · exact .here (Nat.lt_of_not_le hlt)
    · exact .next (Nat.lt_of_not_le hlt) (ih hrest j hj)

omit [DecidableEq Tid] in
theorem Inv.noneLost (h : Inv s free) : s.NoneLost := by
  intro i hi
  rcases h.cover i hi with hmem | ⟨t, hown | htransit⟩
  · exact Or.inr (Or.inr (reachable_of_chain h.chain i hmem))
  · exact Or.inl ⟨t, hown⟩
  · exact Or.inr (Or.inl ⟨t, htransit⟩)

/-- Any number of threads, any capacity, any interleaving: as long as every
successful exchange installs a counter that `m_head` has not carried before, no
index is owned twice and none is lost. -/
theorem free_list_safe_of_fresh_counters {capacity : Nat} {l : Loffli} {labs : List (Tid × Act)}
    {s : Threads Tid} (hinit : init capacity = some l)
    (hfresh : Lib.Meets Threads.step FreshExchange (start l) labs)
    (hrun : Lib.runSteps Threads.step (start l) labs = some s) :
    s.NoDoubleOwner ∧ s.NoneLost := by
  obtain ⟨hsize, hrep⟩ := init_rep hinit
  have hstart : ∃ free, Inv (start l : Threads Tid) free :=
    ⟨_, Inv.start hrep fun i hi => List.mem_range.mpr (hsize ▸ hi)⟩
  obtain ⟨free, h⟩ := Lib.runSteps_invariant
    (fun _ _ _ hI hC hs => Inv.step hI hC hs) labs _ s hstart hfresh hrun
  exact ⟨h.noDoubleOwner, h.noneLost⟩

def popThenPush (t : Nat) (i : Nat) : List (Nat × Act) :=
  [(t, .callPop), (t, .advance), (t, .advance), (t, .advance), (t, .advance),
    (t, .callPush i), (t, .advance), (t, .advance), (t, .advance), (t, .advance)]

def takeTurns : List (Nat × Act) :=
  [(0, .callPop), (1, .callPop), (0, .advance), (1, .advance), (0, .advance), (1, .advance),
    (0, .advance), (1, .advance), (1, .advance), (0, .advance), (1, .advance), (1, .advance),
    (0, .callPush 0), (1, .callPush 1), (1, .advance), (0, .advance), (0, .advance), (1, .advance),
    (0, .advance), (1, .advance), (1, .advance), (0, .advance), (0, .advance), (0, .advance)]

theorem free_list_safe_two_threads :
    ∃ l s, init 2 = some l ∧ Lib.Meets Threads.step FreshExchange (start l) takeTurns ∧
      Lib.runSteps Threads.step (start l) takeTurns = some s ∧
      s.NoDoubleOwner ∧ s.NoneLost := by
  have hmeets : Lib.Meets Threads.step FreshExchange
      (start (Option.get (init 2) (by decide))) takeTurns := by decide
  exact ⟨_, _, rfl, hmeets, rfl,
    free_list_safe_of_fresh_counters (show init 2 = some _ from rfl) hmeets rfl⟩

/-- Thread 0 loads the head and stalls; thread 1 moves the counter on; thread 2
loads that head and stalls; thread 0 then retries with its old counter, sets
`m_head` back, and the counter that thread 2 waits for comes round again. -/
def staleSchedule : List (Nat × Act) :=
  [(0, Act.callPop), (0, Act.advance), (0, Act.advance)] ++ popThenPush 1 0 ++ popThenPush 1 0 ++
  ([(2, .callPop), (2, .advance), (2, .advance),
    (0, .advance), (0, .advance), (0, .advance), (0, .advance),
    (1, .callPop), (1, .advance), (1, .advance), (1, .advance), (1, .advance),
    (0, .callPush 0), (0, .advance), (0, .advance), (0, .advance), (0, .advance),
    (2, .advance), (2, .advance),
    (3, .callPop), (3, .advance), (3, .advance), (3, .advance), (3, .advance)] : List (Nat × Act))

theorem stale_counter_gives_two_owners :
    ∃ l s, init 2 = some l ∧
      Lib.runSteps Threads.step (start l : Threads Nat) staleSchedule = some s ∧
      s.counters.length ≤ uint32Range ∧ ¬ s.NoDoubleOwner := by
  refine ⟨_, _, rfl, rfl, by decide, ?_⟩
  rintro ⟨-, hunique, -⟩
  exact absurd (hunique 1 3 1 (by decide) (by decide)) (by decide)

end Threads

end Iceoryx.Hoofs.Loffli
