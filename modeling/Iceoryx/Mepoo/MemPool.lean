import Mathlib.Data.Set.Insert
import Iceoryx.Mepoo.ChunkHeader

namespace Iceoryx.Mepoo

open Hoofs

inductive Halt
  | contract
  | doubleFree
  | nullptr
  /-- a loop waits for what never happens -/
  | blocked
  deriving DecidableEq, Repr

structure MemPool where
  chunkSize : Nat
  numberOfChunks : Nat
  rawMemory : Nat
  usedChunks : Nat
  minFree : Nat
  freeIndices : Loffli

namespace MemPool

def chunkMemoryAlignment : Nat := 8

/-- The allocators are passed by reference and may be one and the same, so they
are named by their place in `allocators`. -/
def create (chunkSize numberOfChunks : Nat) (managementAllocator chunkMemoryAllocator : Nat)
    (allocators : Nat → Allocator) : Option (MemPool × (Nat → Allocator)) :=
  if chunkMemoryAlignment ≤ chunkSize ∧ 1 ≤ numberOfChunks ∧
      chunkSize % chunkMemoryAlignment = 0 then do
    let (rawMemory, chunks) ← (allocators chunkMemoryAllocator).allocate
      (numberOfChunks * chunkSize) chunkMemoryAlignment
    let allocators := Function.update allocators chunkMemoryAllocator chunks
    let (_, management) ← (allocators managementAllocator).allocate
      (Loffli.requiredIndexMemorySize numberOfChunks) chunkMemoryAlignment
    let allocators := Function.update allocators managementAllocator management
    let freeIndices ← Loffli.init numberOfChunks
    let pool : MemPool :=
      { chunkSize := chunkSize
        numberOfChunks := numberOfChunks
        rawMemory := rawMemory
        usedChunks := 0
        minFree := numberOfChunks
        freeIndices := freeIndices }
    some (pool, allocators)
  else none

def adjustMinFree (p : MemPool) : MemPool :=
  let free := (p.numberOfChunks + uint32Range - p.usedChunks) % uint32Range
  { p with minFree := min free p.minFree }

/-- The product `l_index * m_chunkSize` is one of two `uint32_t`. -/
def getChunk (p : MemPool) : Option (Nat × MemPool) :=
  match p.freeIndices.pop with
  | none => none
  | some (index, freeIndices) =>
    let p := { p with freeIndices := freeIndices, usedChunks := (p.usedChunks + 1) % uint32Range }
    some (p.rawMemory + index * p.chunkSize % uint32Range, p.adjustMinFree)

def freeChunk (p : MemPool) (chunk : Nat) : Except Halt MemPool :=
  if p.rawMemory ≤ chunk ∧ chunk ≤ p.rawMemory + p.chunkSize * (p.numberOfChunks - 1) ∧
      (chunk - p.rawMemory) % p.chunkSize = 0 then
    let index := (chunk - p.rawMemory) / p.chunkSize % uint32Range
    match p.freeIndices.push index with
    | none => .error .doubleFree
    | some freeIndices =>
      .ok { p with
        freeIndices := freeIndices
        usedChunks := (p.usedChunks + uint32Range - 1) % uint32Range }
  else .error .contract

def free (p : MemPool) : List Nat := p.freeIndices.free

/-- The place of the chunk `index`, without the wrap-around of `getChunk`. -/
def chunkAt (p : MemPool) (index : Nat) : Nat := p.rawMemory + index * p.chunkSize

structure Kept (p p' : MemPool) : Prop where
  chunkSize : p'.chunkSize = p.chunkSize
  numberOfChunks : p'.numberOfChunks = p.numberOfChunks
  rawMemory : p'.rawMemory = p.rawMemory

structure Counted (p : MemPool) : Prop where
  rep : p.freeIndices.Rep p.free
  size : p.freeIndices.size = p.numberOfChunks
  used : p.usedChunks + p.free.length = p.numberOfChunks
  bound : p.numberOfChunks < uint32Range

def Fits (chunkSize numberOfChunks : Nat) : Prop :=
  (numberOfChunks - 1) * chunkSize < uint32Range

instance (chunkSize numberOfChunks : Nat) : Decidable (Fits chunkSize numberOfChunks) :=
  inferInstanceAs (Decidable (_ < _))

def NextBelow (p : MemPool) : Prop := ∀ index ∈ p.free.head?, index * p.chunkSize < uint32Range

instance (p : MemPool) : Decidable p.NextBelow :=
  inferInstanceAs (Decidable (∀ index ∈ p.free.head?, _))

structure Ok (p : MemPool) : Prop extends Counted p where
  positive : 0 < p.chunkSize
  aligned : chunkMemoryAlignment ∣ p.chunkSize
  rawAligned : chunkMemoryAlignment ∣ p.rawMemory

variable {p p' : MemPool}

theorem Kept.refl (p : MemPool) : Kept p p := ⟨rfl, rfl, rfl⟩

theorem Kept.trans {p'' : MemPool} (h : Kept p p') (h' : Kept p' p'') : Kept p p'' where
  chunkSize := h'.chunkSize.trans h.chunkSize
  numberOfChunks := h'.numberOfChunks.trans h.numberOfChunks
  rawMemory := h'.rawMemory.trans h.rawMemory

theorem Kept.chunkAt (h : Kept p p') (i : Nat) : p'.chunkAt i = p.chunkAt i := by
  rw [MemPool.chunkAt, h.chunkSize, h.rawMemory]
  rfl

theorem Ok.of_counted (h : p.Ok) (hk : Kept p p') (hc : p'.Counted) : p'.Ok where
  toCounted := hc
  positive := by rw [hk.chunkSize]; exact h.positive
  aligned := by rw [hk.chunkSize]; exact h.aligned
  rawAligned := by rw [hk.rawMemory]; exact h.rawAligned

theorem getChunk_kept {chunk : Nat} (hget : p.getChunk = some (chunk, p')) : Kept p p' := by
  unfold getChunk at hget
  split at hget
  · cases hget
  · cases hget
    exact ⟨rfl, rfl, rfl⟩

theorem freeChunk_kept {chunk : Nat} (hfree : p.freeChunk chunk = .ok p') : Kept p p' := by
  unfold freeChunk at hfree
  split at hfree
  · dsimp only at hfree
    split at hfree
    · cases hfree
    · cases hfree
      exact ⟨rfl, rfl, rfl⟩
  · cases hfree

theorem create_spec {chunkSize numberOfChunks management chunks : Nat}
    {allocators allocators' : Nat → Allocator}
    (h : create chunkSize numberOfChunks management chunks allocators = some (p, allocators')) :
    p.Counted ∧ p.free = List.range numberOfChunks ∧ p.usedChunks = 0 ∧
      p.chunkSize = chunkSize ∧ p.numberOfChunks = numberOfChunks ∧ 0 < chunkSize ∧
      1 ≤ numberOfChunks ∧ chunkMemoryAlignment ∣ chunkSize ∧
      chunkMemoryAlignment ∣ p.rawMemory ∧
      (allocators chunks).startAddress + (allocators chunks).currentPosition ≤ p.rawMemory ∧
      p.rawMemory + numberOfChunks * chunkSize ≤
        (allocators' chunks).startAddress + (allocators' chunks).currentPosition := by
  unfold create at h
  split at h
  · rename_i hguard
    obtain ⟨hsize, hcount, hmul⟩ := hguard
    obtain ⟨⟨raw, a⟩, hraw, h⟩ := Option.bind_eq_some_iff.mp h
    obtain ⟨⟨index, b⟩, hindex, h⟩ := Option.bind_eq_some_iff.mp h
    obtain ⟨l, hinit, h⟩ := Option.bind_eq_some_iff.mp h
    cases h
    obtain ⟨rfl, hend⟩ := Allocator.allocate_spec hraw
    obtain ⟨rfl, hend'⟩ := Allocator.allocate_spec hindex
    obtain ⟨hlsize, hrep⟩ := Loffli.init_rep hinit
    have hfree := hrep.free_eq
    have hbound : numberOfChunks < uint32Range := Loffli.init_lt hinit
    refine ⟨⟨?_, hlsize, ?_, hbound⟩, hfree, rfl, rfl, rfl, ?_, hcount,
      Nat.dvd_of_mod_eq_zero hmul, dvd_align (by decide), le_align _ _, ?_⟩
    · change l.Rep l.free
      rw [hfree]
      exact hrep
    · change 0 + l.free.length = numberOfChunks
      simp [hfree]
    · exact Nat.lt_of_lt_of_le (by decide) hsize
    · simp only at hend hend' ⊢
      by_cases hsame : chunks = management
      · subst hsame
        rw [Function.update_self] at hend' ⊢
        have := le_align (a.startAddress + a.currentPosition) chunkMemoryAlignment
        omega
      · rw [Function.update_of_ne hsame, Function.update_self]
        omega
  · cases h

theorem getChunk_eq_none (h : p.Counted) :
    p.getChunk = none ↔ p.usedChunks = p.numberOfChunks := by
  have hused := h.used
  unfold getChunk
  cases hfree : p.free with
  | nil =>
    have hpop := Loffli.pop_nil (hfree ▸ h.rep)
    simp only [hpop, true_iff]
    simpa [hfree] using hused
  | cons i rest =>
    obtain ⟨l, hpop, _⟩ := Loffli.pop_cons (hfree ▸ h.rep)
    rw [hfree, List.length_cons] at hused
    simp only [hpop, reduceCtorEq, false_iff]
    omega

theorem getChunk_spec {chunk : Nat} (h : p.Counted) (hget : p.getChunk = some (chunk, p')) :
    ∃ i, p.free = i :: p'.free ∧ chunk = p.rawMemory + i * p.chunkSize % uint32Range ∧
      Kept p p' ∧ p'.usedChunks = p.usedChunks + 1 ∧ p'.Counted := by
  have hused := h.used
  cases hfree : p.free with
  | nil =>
    rw [getChunk, Loffli.pop_nil (hfree ▸ h.rep)] at hget
    cases hget
  | cons i rest =>
    obtain ⟨l, hpop, hsize, hrep⟩ := Loffli.pop_cons (hfree ▸ h.rep)
    rw [getChunk, hpop] at hget
    cases hget
    rw [hfree, List.length_cons] at hused
    have hrest : l.free = rest := hrep.free_eq
    have hcount : (p.usedChunks + 1) % uint32Range = p.usedChunks + 1 :=
      Nat.mod_eq_of_lt (by have := h.bound; omega)
    refine ⟨i, ?_, rfl, ⟨rfl, rfl, rfl⟩, hcount, ?_, hsize.trans h.size, ?_, h.bound⟩
    · exact congrArg (i :: ·) hrest.symm
    · change l.Rep l.free
      rw [hrest]
      exact hrep
    · change (p.usedChunks + 1) % uint32Range + l.free.length = p.numberOfChunks
      rw [hcount, hrest]
      omega

theorem create_minFree {chunkSize numberOfChunks management chunks : Nat}
    {allocators allocators' : Nat → Allocator}
    (h : create chunkSize numberOfChunks management chunks allocators = some (p, allocators')) :
    p.minFree = numberOfChunks := by
  unfold create at h
  split at h
  · obtain ⟨_, _, h⟩ := Option.bind_eq_some_iff.mp h
    obtain ⟨_, _, h⟩ := Option.bind_eq_some_iff.mp h
    obtain ⟨_, _, h⟩ := Option.bind_eq_some_iff.mp h
    cases h
    rfl
  · cases h

theorem getChunk_minFree {chunk : Nat} (h : p.Counted) (hget : p.getChunk = some (chunk, p')) :
    p'.minFree = min (p.numberOfChunks - p'.usedChunks) p.minFree := by
  obtain ⟨_, _, _, hkept, _, hcounted⟩ := getChunk_spec h hget
  have hused := hcounted.used
  have hbound := hcounted.bound
  rw [hkept.numberOfChunks] at hused hbound
  have hmin : p'.minFree =
      min ((p.numberOfChunks + uint32Range - p'.usedChunks) % uint32Range) p.minFree := by
    unfold getChunk at hget
    split at hget
    · cases hget
    · cases hget
      rfl
  have hwrap : (p.numberOfChunks + uint32Range - p'.usedChunks) % uint32Range =
      p.numberOfChunks - p'.usedChunks := by
    rw [show p.numberOfChunks + uint32Range - p'.usedChunks =
      p.numberOfChunks - p'.usedChunks + uint32Range by omega, Nat.add_mod_right]
    exact Nat.mod_eq_of_lt (by omega)
  rw [hmin, hwrap]

theorem freeChunk_minFree {chunk : Nat} (hput : p.freeChunk chunk = .ok p') :
    p'.minFree = p.minFree := by
  unfold freeChunk at hput
  split at hput
  · simp only at hput
    split at hput
    · cases hput
    · cases hput
      rfl
  · cases hput

/-- Whatever address it is given, `freeChunk` puts one index that was out back
into the list, or the program ends. -/
theorem freeChunk_inv {chunk : Nat} (h : p.Counted) (hput : p.freeChunk chunk = .ok p') :
    ∃ i, i < p.numberOfChunks ∧ i ∉ p.free ∧ p'.free = i :: p.free ∧
      i = (chunk - p.rawMemory) / p.chunkSize % uint32Range ∧ Kept p p' ∧
      p'.usedChunks + 1 = p.usedChunks ∧ p'.Counted := by
  have hused := h.used
  have hbound := h.bound
  unfold freeChunk at hput
  split at hput
  · simp only at hput
    generalize hi : (chunk - p.rawMemory) / p.chunkSize % uint32Range = i at hput
    cases hpush : p.freeIndices.push i with
    | none =>
      rw [hpush] at hput
      cases hput
    | some l =>
      rw [hpush] at hput
      cases hput
      obtain ⟨hlt, hnot⟩ := Loffli.push_inv h.rep hpush
      obtain ⟨l', hpush', hsize, hrep⟩ := Loffli.push_taken h.rep hlt hnot
      obtain rfl : l = l' := by simpa [hpush] using hpush'
      have hl : l.free = i :: p.free := hrep.free_eq
      rw [h.size] at hlt
      have hlen : (i :: p.free).length ≤ p.numberOfChunks := by
        rw [← h.size, ← hsize]
        exact hrep.length_le
      rw [List.length_cons] at hlen
      have hcount : (p.usedChunks + uint32Range - 1) % uint32Range = p.usedChunks - 1 := by
        rw [show p.usedChunks + uint32Range - 1 = p.usedChunks - 1 + uint32Range by omega,
          Nat.add_mod_right]
        exact Nat.mod_eq_of_lt (by omega)
      refine ⟨i, hlt, hnot, hl, rfl, ⟨rfl, rfl, rfl⟩, ?_, ?_, hsize.trans h.size, ?_, hbound⟩
      · change (p.usedChunks + uint32Range - 1) % uint32Range + 1 = p.usedChunks
        omega
      · change l.Rep l.free
        rw [hl]
        exact hrep
      · change (p.usedChunks + uint32Range - 1) % uint32Range + l.free.length = p.numberOfChunks
        rw [hcount, hl, List.length_cons]
        omega
  · cases hput

def span (p : MemPool) : Set Nat := {a | ∃ i < p.numberOfChunks, a = p.chunkAt i}

def out (p : MemPool) : Set Nat := {a | ∃ i < p.numberOfChunks, i ∉ p.free ∧ a = p.chunkAt i}

theorem Kept.span (h : Kept p p') : p'.span = p.span := by
  ext a
  simp only [MemPool.span, h.numberOfChunks, h.chunkAt]

theorem out_subset_span : p.out ⊆ p.span := by
  rintro a ⟨i, hi, _, ha⟩
  exact ⟨i, hi, ha⟩

theorem Ok.nextBelow (h : p.Ok) (hfits : Fits p.chunkSize p.numberOfChunks) : p.NextBelow := by
  intro index hindex
  have hlt : index < p.numberOfChunks := by
    rw [← h.size]
    exact h.rep.lt index (List.mem_of_head? hindex)
  exact Nat.lt_of_le_of_lt (Nat.mul_le_mul_right _ (Nat.le_sub_one_of_lt hlt)) hfits

theorem Ok.chunkAt_inj (h : p.Ok) {i j : Nat} (heq : p.chunkAt i = p.chunkAt j) : i = j :=
  Nat.eq_of_mul_eq_mul_right h.positive (Nat.add_left_cancel heq)

theorem Ok.aligned_span (h : p.Ok) {a : Nat} (ha : a ∈ p.span) : alignofChunkHeader ∣ a := by
  obtain ⟨i, _, rfl⟩ := ha
  exact Nat.dvd_add h.rawAligned (Nat.dvd_mul_left_of_dvd h.aligned i)

theorem Ok.usedChunks_le (h : p.Ok) : p.usedChunks ≤ p.numberOfChunks := by
  have := h.used
  omega

theorem Ok.mem_free_iff (h : p.Ok) {i : Nat} (hi : i < p.numberOfChunks) :
    i ∈ p.free ↔ p.chunkAt i ∉ p.out := by
  constructor
  · rintro hfree ⟨j, _, hj, heq⟩
    rw [h.chunkAt_inj heq] at hfree
    exact hj hfree
  · intro hout
    by_contra hfree
    exact hout ⟨i, hi, hfree, rfl⟩

theorem Ok.getChunk_spec {chunk : Nat} (h : p.Ok) (hbelow : p.NextBelow)
    (hget : p.getChunk = some (chunk, p')) :
    chunk ∈ p.span ∧ chunk ∉ p.out ∧ p'.out = insert chunk p.out ∧ Kept p p' ∧
      p'.usedChunks = p.usedChunks + 1 ∧ p'.Ok := by
  obtain ⟨i, hfree, hchunk, hkept, hused, hcounted⟩ := MemPool.getChunk_spec h.toCounted hget
  have hi : i < p.numberOfChunks := by
    rw [← h.size]
    exact h.rep.lt i (by simp [hfree])
  obtain rfl : chunk = p.chunkAt i := by
    rw [hchunk, Nat.mod_eq_of_lt (hbelow i (by rw [hfree]; rfl))]
    rfl
  have hnot : i ∉ p'.free := by
    have := h.rep.nodup
    rw [hfree] at this
    exact (List.nodup_cons.mp this).1
  refine ⟨⟨i, hi, rfl⟩, ?_, ?_, hkept, hused, h.of_counted hkept hcounted⟩
  · rintro ⟨j, _, hj, heq⟩
    rw [← h.chunkAt_inj heq, hfree] at hj
    exact hj List.mem_cons_self
  · ext a
    simp only [out, hkept.numberOfChunks, hkept.chunkAt, hfree, Set.mem_insert_iff,
      Set.mem_ofPred_eq, List.mem_cons, not_or]
    constructor
    · rintro ⟨j, hj, hjfree, rfl⟩
      by_cases hji : j = i
      · exact Or.inl (hji ▸ rfl)
      · exact Or.inr ⟨j, hj, ⟨hji, hjfree⟩, rfl⟩
    · rintro (rfl | ⟨j, hj, hjfree, rfl⟩)
      · exact ⟨i, hi, hnot, rfl⟩
      · exact ⟨j, hj, hjfree.2, rfl⟩

theorem Counted.freeChunk_eq {i : Nat} (h : p.Counted) (hpos : 0 < p.chunkSize)
    (hi : i < p.numberOfChunks) (hnot : i ∉ p.free) :
    ∃ p', p.freeChunk (p.chunkAt i) = .ok p' ∧ p'.free = i :: p.free ∧ Kept p p' ∧
      p'.usedChunks + 1 = p.usedChunks ∧ p'.Counted := by
  have hoffset : p.chunkAt i - p.rawMemory = i * p.chunkSize := Nat.add_sub_cancel_left _ _
  have hle : i * p.chunkSize ≤ p.chunkSize * (p.numberOfChunks - 1) := by
    rw [Nat.mul_comm]
    exact Nat.mul_le_mul_left _ (Nat.le_sub_one_of_lt hi)
  have hindex : (p.chunkAt i - p.rawMemory) / p.chunkSize % uint32Range = i := by
    rw [hoffset, Nat.mul_div_cancel _ hpos]
    exact Nat.mod_eq_of_lt (hi.trans h.bound)
  have hguard : p.rawMemory ≤ p.chunkAt i ∧
      p.chunkAt i ≤ p.rawMemory + p.chunkSize * (p.numberOfChunks - 1) ∧
      (p.chunkAt i - p.rawMemory) % p.chunkSize = 0 := by
    refine ⟨Nat.le_add_right _ _, Nat.add_le_add_left hle _, ?_⟩
    rw [hoffset]
    exact Nat.mul_mod_left _ _
  obtain ⟨l, hpush, _⟩ := Loffli.push_taken h.rep (h.size ▸ hi) hnot
  have hput : p.freeChunk (p.chunkAt i) = .ok { p with
      freeIndices := l
      usedChunks := (p.usedChunks + uint32Range - 1) % uint32Range } := by
    rw [freeChunk, if_pos hguard]
    simp only [hindex, hpush]
  obtain ⟨j, _, _, hfree, hj, hkept, hused, hcounted⟩ := freeChunk_inv h hput
  rw [hindex] at hj
  subst hj
  exact ⟨_, hput, hfree, hkept, hused, hcounted⟩

theorem Ok.freeChunk_eq {i : Nat} (h : p.Ok) (hi : i < p.numberOfChunks) (hnot : i ∉ p.free) :
    ∃ p', p.freeChunk (p.chunkAt i) = .ok p' ∧ p'.free = i :: p.free ∧ Kept p p' ∧
      p'.usedChunks + 1 = p.usedChunks ∧ p'.Ok := by
  obtain ⟨p', hput, hfree, hkept, hused, hcounted⟩ := h.toCounted.freeChunk_eq h.positive hi hnot
  exact ⟨p', hput, hfree, hkept, hused, h.of_counted hkept hcounted⟩

theorem Ok.freeChunk_spec {chunk : Nat} (h : p.Ok) (hout : chunk ∈ p.out) :
    ∃ p', p.freeChunk chunk = .ok p' ∧ p'.out = p.out \ {chunk} ∧ Kept p p' ∧
      p'.usedChunks + 1 = p.usedChunks ∧ p'.Ok := by
  obtain ⟨i, hi, hnot, rfl⟩ := hout
  obtain ⟨p', hput, hfree, hkept, hused, hok⟩ := h.freeChunk_eq hi hnot
  refine ⟨p', hput, ?_, hkept, hused, hok⟩
  ext a
  simp only [out, hkept.numberOfChunks, hkept.chunkAt, hfree, Set.mem_sdiff,
    Set.mem_singleton_iff, Set.mem_ofPred_eq, List.mem_cons, not_or]
  constructor
  · rintro ⟨j, hj, ⟨hji, hjfree⟩, rfl⟩
    exact ⟨⟨j, hj, hjfree, rfl⟩, fun heq => hji (h.chunkAt_inj heq)⟩
  · rintro ⟨⟨j, hj, hjfree, rfl⟩, hne⟩
    exact ⟨j, hj, ⟨fun heq => hne (heq ▸ rfl), hjfree⟩, rfl⟩

theorem Counted.usedChunks_eq_zero (h : p.Counted) (hout : p.out = ∅) : p.usedChunks = 0 := by
  have hall : List.range p.numberOfChunks ⊆ p.free := by
    intro i hi
    by_contra hnot
    have : p.chunkAt i ∈ p.out := ⟨i, List.mem_range.mp hi, hnot, rfl⟩
    rw [hout] at this
    exact this
  have hlen := (List.subperm_of_subset List.nodup_range hall).length_le
  have := h.used
  rw [List.length_range] at hlen
  omega

end MemPool

end Iceoryx.Mepoo
