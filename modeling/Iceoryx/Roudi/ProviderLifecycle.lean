import Mathlib.Data.List.Nodup
import Iceoryx.Lib.Run
import Iceoryx.Roudi.MemoryProvider

namespace Iceoryx.Roudi

open Hoofs Lib MemoryProvider

/-- `createMemory` and `destroyMemory` are pure virtual; what they return is part of the
operation. -/
inductive ProviderOp
  | addMemoryBlock (block : Nat)
  | create (createMemory : Except MemoryProviderError Nat)
  | announceMemoryAvailable
  | destroy (destroyMemory : Except MemoryProviderError Unit)

def ProviderOp.exec (block : Nat → MemoryBlock) (w : ProviderWorld) :
    ProviderOp → Option (Except MemoryProviderError Unit × ProviderWorld)
  | .addMemoryBlock b => some (w.addMemoryBlock b)
  | .create createMemory => w.create block fun _ _ => createMemory
  | .announceMemoryAvailable => w.announceMemoryAvailable.map fun w' => (.ok (), w')
  | .destroy destroyMemory => some (w.destroy destroyMemory)

namespace ProviderWorld

variable {block : Nat → MemoryBlock} {w w' : ProviderWorld}
  {result : Except MemoryProviderError Unit}

theorem addMemoryBlock_cases {b : Nat} (h : w.addMemoryBlock b = (result, w')) :
    (∃ e, result = .error e ∧ w' = w) ∨
      (w.provider.isAvailable = false ∧ result = .ok () ∧
        w' = { w with
          provider := { w.provider with memoryBlocks := w.provider.memoryBlocks ++ [b] } }) := by
  unfold addMemoryBlock at h
  split at h
  · cases h
    exact Or.inl ⟨_, rfl, rfl⟩
  · next havailable =>
    split at h
    · cases h
      exact Or.inr ⟨by simpa using havailable, rfl, rfl⟩
    · cases h
      exact Or.inl ⟨_, rfl, rfl⟩

theorem create_cases {createMemory : Except MemoryProviderError Nat}
    (h : w.create block (fun _ _ => createMemory) = some (result, w')) :
    (∃ e, result = .error e ∧ w' = w) ∨
      (w.provider.memoryBlocks ≠ [] ∧ w.provider.isAvailable = false ∧ result = .ok () ∧
        createMemory = .ok w'.provider.memory ∧
        w'.provider.memoryBlocks = w.provider.memoryBlocks ∧
        w'.provider.memoryAvailableAnnounced = w.provider.memoryAvailableAnnounced ∧
        w'.calls = w.calls) := by
  unfold create at h
  split at h
  · cases h
    exact Or.inl ⟨_, rfl, rfl⟩
  · next hblocks =>
    split at h
    · cases h
      exact Or.inl ⟨_, rfl, rfl⟩
    · next havailable =>
      cases createMemory with
      | error e =>
        cases h
        exact Or.inl ⟨_, rfl, rfl⟩
      | ok memory =>
        obtain ⟨blockMemory, _, heq⟩ := Option.map_eq_some_iff.mp h
        cases heq
        exact Or.inr ⟨hblocks, by simpa using havailable, rfl, rfl, rfl, rfl, rfl⟩

theorem announceMemoryAvailable_cases (h : w.announceMemoryAvailable = some w') :
    (w.provider.isAvailableAnnounced = true ∧ w' = w) ∨
      (w.provider.isAvailableAnnounced = false ∧
        w' = { w with
          provider := { w.provider with memoryAvailableAnnounced := true }
          calls := w.calls ++
            w.provider.memoryBlocks.map fun b => .onMemoryAvailable b (w.blockMemory b) }) := by
  unfold announceMemoryAvailable at h
  split at h
  · next hannounced =>
    cases h
    exact Or.inl ⟨hannounced, rfl⟩
  · next hannounced =>
    split at h
    · cases h
    · cases h
      exact Or.inr ⟨Bool.eq_false_of_not_eq_true hannounced, rfl⟩

theorem destroy_cases {destroyMemory : Except MemoryProviderError Unit}
    (h : w.destroy destroyMemory = (result, w')) :
    (∃ e, ∃ bs : List Nat, result = .error e ∧
      w' = { w with calls := w.calls ++ bs.map .destroy }) ∨
      (w.provider.isAvailable = true ∧ destroyMemory = .ok () ∧ result = .ok () ∧
        w' = { w with
          provider := { w.provider with memory := 0, size := 0 }
          repository := (w.repository.unregisterPtr w.provider.segmentId).2
          calls := w.calls ++ w.provider.memoryBlocks.map .destroy }) := by
  unfold destroy at h
  split at h
  · cases h
    refine Or.inl ⟨.memoryNotAvailable, [], rfl, ?_⟩
    rw [List.map_nil, List.append_nil]
  · next havailable =>
    cases destroyMemory with
    | error e =>
      cases h
      exact Or.inl ⟨e, w.provider.memoryBlocks, rfl, rfl⟩
    | ok u =>
      cases h
      exact Or.inr ⟨by simpa using havailable, rfl, rfl, rfl⟩

theorem exec_error {op : ProviderOp} {e : MemoryProviderError}
    (h : op.exec block w = some (.error e, w')) :
    w'.provider = w.provider ∧ w'.repository = w.repository ∧ w'.blockMemory = w.blockMemory := by
  cases op with
  | addMemoryBlock b =>
    rcases addMemoryBlock_cases (Option.some.inj h) with ⟨_, _, rfl⟩ | ⟨_, hok, _⟩
    · exact ⟨rfl, rfl, rfl⟩
    · cases hok
  | create createMemory =>
    rcases create_cases h with ⟨_, _, rfl⟩ | ⟨_, _, hok, _⟩
    · exact ⟨rfl, rfl, rfl⟩
    · cases hok
  | announceMemoryAvailable =>
    obtain ⟨_, _, hok⟩ := Option.map_eq_some_iff.mp h
    cases hok
  | destroy destroyMemory =>
    rcases destroy_cases (Option.some.inj h) with ⟨_, _, _, rfl⟩ | ⟨_, _, hok, _⟩
    · exact ⟨rfl, rfl, rfl⟩
    · cases hok

end ProviderWorld

def announcedTo (calls : List BlockCall) (b : Nat) : List Nat :=
  calls.filterMap fun
    | .onMemoryAvailable c address => if c = b then some address else none
    | .destroy _ => none

@[simp] theorem announcedTo_append (calls calls' : List BlockCall) (b : Nat) :
    announcedTo (calls ++ calls') b = announcedTo calls b ++ announcedTo calls' b :=
  List.filterMap_append

@[simp] theorem announcedTo_destroy (bs : List Nat) (b : Nat) :
    announcedTo (bs.map .destroy) b = [] := by
  induction bs with
  | nil => rfl
  | cons c bs ih => exact ih

theorem announcedTo_onMemoryAvailable (bs : List Nat) (memory : Nat → Nat) (b : Nat) :
    announcedTo (bs.map fun c => .onMemoryAvailable c (memory c)) b =
      List.replicate (bs.count b) (memory b) := by
  induction bs with
  | nil => rfl
  | cons c bs ih =>
    rw [List.map_cons, List.count_cons]
    by_cases hcb : c = b
    · subst hcb
      simp only [announcedTo, List.filterMap_cons, if_true, beq_self_eq_true, List.replicate_succ]
      exact congrArg _ ih
    · simp only [announcedTo, List.filterMap_cons, hcb, if_false, beq_iff_eq, Nat.add_zero]
      exact ih

/-- The provider with what its user knows: whether the last successful `create` or `destroy`
was a `create`, which address each block got from it, whether the memory was announced since,
and the calls that were made before. -/
structure Lifecycle where
  world : ProviderWorld
  created : Bool
  allocated : Nat → Nat
  announced : Bool
  mark : Nat

namespace Lifecycle

def start (blockMemory : Nat → Nat) (repository : PointerRepository) (calls : List BlockCall) :
    Lifecycle where
  world := {
    provider := {}
    blockMemory := blockMemory
    repository := repository
    calls := calls }
  created := false
  allocated := blockMemory
  announced := false
  mark := calls.length

def record (s : Lifecycle) (w : ProviderWorld) :
    ProviderOp → Except MemoryProviderError Unit → Lifecycle
  | .create _, .ok () => {
    world := w
    created := true
    allocated := w.blockMemory
    announced := false
    mark := w.calls.length }
  | .announceMemoryAvailable, .ok () => { s with world := w, announced := true }
  | .destroy _, .ok () => { s with world := w, created := false }
  | _, _ => { s with world := w }

def step (block : Nat → MemoryBlock) (s : Lifecycle) (op : ProviderOp) : Option Lifecycle :=
  (op.exec block s.world).map fun r => s.record r.2 op r.1

structure Sound (s : Lifecycle) : Prop where
  available : s.world.provider.isAvailable = s.created
  announced : s.world.provider.isAvailableAnnounced = true → s.world.provider.isAvailable = true
  received : s.created = true → s.announced = true → ∀ b ∈ s.world.provider.memoryBlocks,
    announcedTo (s.world.calls.drop s.mark) b = [s.allocated b]

/-- The memory has an address, it is announced when it is there, to each block once, and
memory that was announced is not destroyed. -/
def Proper (s : Lifecycle) : ProviderOp → Prop
  | .addMemoryBlock _ => True
  | .create createMemory => createMemory = .ok 0 →
    s.world.provider.memoryBlocks = [] ∨ s.world.provider.isAvailable = true
  | .announceMemoryAvailable => s.world.provider.isAvailableAnnounced = true ∨
    (s.world.provider.isAvailable = true ∧ s.world.provider.memoryBlocks.Nodup)
  | .destroy destroyMemory => destroyMemory = .ok () → s.world.provider.isAvailable = true →
    s.world.provider.isAvailableAnnounced = false

structure Regular (s : Lifecycle) : Prop where
  available : s.world.provider.isAvailable = s.created
  mark : s.mark ≤ s.world.calls.length
  quiet : s.created = false → s.world.provider.isAvailableAnnounced = false
  announced : s.created = true → s.world.provider.isAvailableAnnounced = s.announced
  memory : s.created = true → s.world.blockMemory = s.allocated
  received : s.created = true → ∀ b ∈ s.world.provider.memoryBlocks,
    announcedTo (s.world.calls.drop s.mark) b = if s.announced then [s.allocated b] else []

variable {block : Nat → MemoryBlock} {s s' : Lifecycle}

theorem Regular.start (blockMemory : Nat → Nat) (repository : PointerRepository)
    (calls : List BlockCall) : (start blockMemory repository calls).Regular where
  available := rfl
  mark := le_rfl
  quiet := fun _ => rfl
  announced := nofun
  memory := nofun
  received := nofun

theorem Regular.sound (h : s.Regular) : s.Sound := by
  refine ⟨h.available, fun hannounced => ?_, fun hcreated hannounced b hb => ?_⟩
  · rw [h.available]
    by_contra hcreated
    rw [h.quiet (by simpa using hcreated)] at hannounced
    cases hannounced
  · rw [h.received hcreated b hb, hannounced, if_pos rfl]

theorem Regular.destroying (h : s.Regular) (bs : List Nat) :
    Regular { s with world := { s.world with calls := s.world.calls ++ bs.map .destroy } } where
  available := h.available
  mark := by
    rw [List.length_append]
    exact h.mark.trans (Nat.le_add_right _ _)
  quiet := h.quiet
  announced := h.announced
  memory := h.memory
  received := by
    intro hcreated b hb
    rw [List.drop_append_of_le_length h.mark, announcedTo_append, announcedTo_destroy,
      List.append_nil]
    exact h.received hcreated b hb

theorem Regular.addMemoryBlock (h : s.Regular) (havailable : s.world.provider.isAvailable = false)
    (b : Nat) :
    Regular { s with
      world := { s.world with
        provider := { s.world.provider with
          memoryBlocks := s.world.provider.memoryBlocks ++ [b] } } } := by
  have hcreated : s.created = false := h.available ▸ havailable
  exact
    { available := h.available
      mark := h.mark
      quiet := h.quiet
      announced := h.announced
      memory := h.memory
      received := fun htrue => by rw [hcreated] at htrue; cases htrue }

theorem Regular.create (h : s.Regular) {w : ProviderWorld}
    (havailable : s.world.provider.isAvailable = false) (hmemory : w.provider.memory ≠ 0)
    (hannounced : w.provider.memoryAvailableAnnounced =
      s.world.provider.memoryAvailableAnnounced) :
    Regular {
      world := w
      created := true
      allocated := w.blockMemory
      announced := false
      mark := w.calls.length } where
  available := decide_eq_true hmemory
  mark := le_rfl
  quiet := nofun
  announced := fun _ => hannounced.trans (h.quiet (h.available ▸ havailable))
  memory := fun _ => rfl
  received := by
    intro _ b _
    rw [List.drop_length]
    rfl

theorem Regular.destroy (hannounced : s.world.provider.isAvailableAnnounced = false)
    {repository : PointerRepository}
    {calls : List BlockCall} (hmark : s.mark ≤ calls.length) :
    Regular { s with
      world := { s.world with
        provider := { s.world.provider with memory := 0, size := 0 }
        repository := repository
        calls := calls }
      created := false } where
  available := rfl
  mark := hmark
  quiet := fun _ => hannounced
  announced := nofun
  memory := nofun
  received := nofun

theorem drop_announce (h : s.Regular) (hcreated : s.created = true)
    (hannounced : s.world.provider.isAvailableAnnounced = false) {b : Nat}
    (hb : b ∈ s.world.provider.memoryBlocks) :
    Roudi.announcedTo ((s.world.calls ++ s.world.provider.memoryBlocks.map fun c =>
      BlockCall.onMemoryAvailable c (s.world.blockMemory c)).drop s.mark) b =
        List.replicate (s.world.provider.memoryBlocks.count b) (s.allocated b) := by
  have hbefore := h.received hcreated b hb
  rw [← h.announced hcreated, hannounced] at hbefore
  rw [List.drop_append_of_le_length h.mark, announcedTo_append, hbefore,
    announcedTo_onMemoryAvailable, h.memory hcreated]
  rfl

theorem Regular.announce (h : s.Regular) (havailable : s.world.provider.isAvailable = true)
    (hannounced : s.world.provider.isAvailableAnnounced = false)
    (hblocks : s.world.provider.memoryBlocks.Nodup) :
    Regular { s with
      world := { s.world with
        provider := { s.world.provider with memoryAvailableAnnounced := true }
        calls := s.world.calls ++ s.world.provider.memoryBlocks.map fun c =>
          .onMemoryAvailable c (s.world.blockMemory c) }
      announced := true } := by
  have hcreated : s.created = true := h.available ▸ havailable
  exact
    { available := h.available
      mark := by
        rw [List.length_append]
        exact h.mark.trans (Nat.le_add_right _ _)
      quiet := fun hfalse => by rw [hcreated] at hfalse; cases hfalse
      announced := fun _ => rfl
      memory := h.memory
      received := by
        intro _ b hb
        rw [drop_announce h hcreated hannounced hb, List.count_eq_one_of_mem hblocks hb]
        rfl }

theorem Regular.announceAgain (h : s.Regular)
    (hannounced : s.world.provider.isAvailableAnnounced = true) :
    Regular { s with announced := true } := by
  have hcreated : s.created = true := by
    by_contra hfalse
    rw [h.quiet (Bool.eq_false_of_not_eq_true hfalse)] at hannounced
    cases hannounced
  have heq : { s with announced := true } = s := by
    rw [← hannounced, h.announced hcreated]
  rw [heq]
  exact h

theorem Regular.step (h : s.Regular) {op : ProviderOp} (hs : s.step block op = some s') :
    (s.Proper op → s'.Regular) ∧ (s'.Sound → s.Proper op) := by
  obtain ⟨⟨result, w⟩, hexec, rfl⟩ := Option.map_eq_some_iff.mp hs
  cases op with
  | addMemoryBlock b =>
    refine ⟨fun _ => ?_, fun _ => trivial⟩
    rcases ProviderWorld.addMemoryBlock_cases (Option.some.inj hexec) with
      ⟨e, rfl, rfl⟩ | ⟨havailable, rfl, rfl⟩
    · exact h
    · exact h.addMemoryBlock havailable b
  | create createMemory =>
    rcases ProviderWorld.create_cases hexec with
      ⟨e, rfl, rfl⟩ | ⟨hblocks, havailable, rfl, hmemory, hlist, hannounced, hcalls⟩
    · refine ⟨fun _ => h, fun _ hnull => ?_⟩
      subst hnull
      by_contra hnot
      simp only [not_or, Bool.not_eq_true] at hnot
      simp only [ProviderOp.exec, ProviderWorld.create, hnot.1, hnot.2, if_false] at hexec
      obtain ⟨_, _, heq⟩ := Option.map_eq_some_iff.mp hexec
      cases heq
    · constructor
      · intro hproper
        refine h.create havailable (fun hnull => ?_) hannounced
        rw [hnull] at hmemory
        rcases hproper hmemory with hempty | htrue
        · exact hblocks hempty
        · rw [havailable] at htrue
          cases htrue
      · intro hsound hnull
        have htrue := of_decide_eq_true hsound.available
        rw [hmemory] at hnull
        exact absurd (Except.ok.inj hnull) htrue
  | announceMemoryAvailable =>
    obtain ⟨w, hannounce, heq⟩ := Option.map_eq_some_iff.mp hexec
    cases heq
    rcases ProviderWorld.announceMemoryAvailable_cases hannounce with
      ⟨hannounced, rfl⟩ | ⟨hannounced, rfl⟩
    · refine ⟨fun _ => h.announceAgain hannounced, fun _ => Or.inl hannounced⟩
    · constructor
      · rintro (htrue | ⟨havailable, hblocks⟩)
        · rw [hannounced] at htrue
          cases htrue
        · exact h.announce havailable hannounced hblocks
      · intro hsound
        have havailable : s.world.provider.isAvailable = true := hsound.announced rfl
        have hcreated : s.created = true := h.available ▸ havailable
        refine Or.inr ⟨havailable, List.nodup_iff_count_le_one.mpr fun b => ?_⟩
        by_cases hb : b ∈ s.world.provider.memoryBlocks
        · have honce := hsound.received hcreated rfl b hb
          have hlength := congrArg List.length
            ((drop_announce h hcreated hannounced hb).symm.trans honce)
          rw [List.length_replicate] at hlength
          exact hlength.le
        · exact (List.count_eq_zero_of_not_mem hb).trans_le (Nat.zero_le 1)
  | destroy destroyMemory =>
    rcases ProviderWorld.destroy_cases (Option.some.inj hexec) with
      ⟨e, bs, rfl, rfl⟩ | ⟨havailable, rfl, rfl, rfl⟩
    · refine ⟨fun _ => h.destroying bs, fun _ hok htrue => ?_⟩
      subst hok
      simp [ProviderOp.exec, ProviderWorld.destroy, htrue] at hexec
    · constructor
      · intro hproper
        refine Regular.destroy (hproper rfl havailable) ?_
        rw [List.length_append]
        exact h.mark.trans (Nat.le_add_right _ _)
      · intro hsound _ _
        by_contra htrue
        have := hsound.announced (Bool.eq_true_of_not_eq_false htrue)
        cases this

theorem sound_iff {blockMemory : Nat → Nat} {repository : PointerRepository}
    {calls : List BlockCall} {ops : List ProviderOp}
    (h : runSteps (step block) (start blockMemory repository calls) ops = some s') :
    ((∀ n m, runSteps (step block) (start blockMemory repository calls) (ops.take n) = some m →
        m.Sound) ↔
      Meets (step block) Proper (start blockMemory repository calls) ops) ∧
    ∀ (op : ProviderOp) (w w' : ProviderWorld) (e : MemoryProviderError),
      op.exec block w = some (.error e, w') →
        w'.provider = w.provider ∧ w'.repository = w.repository ∧
          w'.blockMemory = w.blockMemory := by
  constructor
  · exact runSteps_always_iff (fun s hs => Regular.sound hs)
      (fun s op s' hs hstep => hs.step hstep) ops _ s'
      (Regular.start blockMemory repository calls) h
  · intro op w w' e hexec
    exact ProviderWorld.exec_error hexec

def oneBlock : Nat → MemoryBlock := fun _ => { size := 16, alignment := 8 }

theorem fresh_capacity : 10 < addressRange := by decide

def fresh : Lifecycle :=
  start (fun _ => 0) (PointerRepository.init 10 fresh_capacity) []

theorem sound_iff_fresh : ∃ s', runSteps (step oneBlock) fresh
      [.addMemoryBlock 0, .create (.ok 64), .announceMemoryAvailable] = some s' ∧
    (∀ n m, runSteps (step oneBlock) fresh
        ([.addMemoryBlock 0, .create (.ok 64), .announceMemoryAvailable].take n) = some m →
      m.Sound) :=
  ⟨_, rfl, (sound_iff rfl).1.mpr ⟨trivial, nofun, Or.inr ⟨rfl, by decide⟩, trivial⟩⟩

theorem announced_after_destroy :
    (∃ s', runSteps (step oneBlock) fresh [.addMemoryBlock 0, .create (.ok 64),
        .announceMemoryAvailable, .destroy (.ok ())] = some s' ∧
      s'.world.provider.isAvailable = false ∧ s'.world.provider.isAvailableAnnounced = true ∧
      ¬ s'.Sound) ∧
    ∃ s', runSteps (step oneBlock) fresh [.addMemoryBlock 0, .create (.ok 64),
        .announceMemoryAvailable, .destroy (.ok ()), .create (.ok 128),
        .announceMemoryAvailable] = some s' ∧
      s'.created = true ∧ s'.announced = true ∧ s'.allocated 0 = 128 ∧
      Roudi.announcedTo (s'.world.calls.drop s'.mark) 0 = [] ∧ ¬ s'.Sound := by
  refine ⟨⟨_, rfl, rfl, rfl, fun h => ?_⟩, ⟨_, rfl, rfl, rfl, rfl, rfl, fun h => ?_⟩⟩
  · exact absurd (h.announced rfl) (by decide)
  · have := h.received rfl rfl 0 (by decide)
    cases this

end Lifecycle

end Iceoryx.Roudi
