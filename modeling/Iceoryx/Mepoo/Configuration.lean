import Iceoryx.Mepoo.SharedChunk

namespace Iceoryx.Mepoo

open Hoofs Lib

/-- No mempool, the pool of the management blocks included, spans more than
4 GiB. -/
def MePooConfig.Fits (c : MePooConfig) : Prop :=
  (∀ e ∈ c.mempoolConfig,
    MemPool.Fits (MemoryManager.sizeWithChunkHeaderStruct e.size) e.chunkCount) ∧
  MemPool.Fits sizeofChunkManagement (c.mempoolConfig.map MePooConfig.Entry.chunkCount).sum

instance (c : MePooConfig) : Decidable c.Fits :=
  inferInstanceAs (Decidable (_ ∧ _))

def MePooConfig.totalNumberOfChunks (c : MePooConfig) : Nat :=
  (c.mempoolConfig.map MePooConfig.Entry.chunkCount).sum

theorem MePooConfig.Fits.totalNumberOfChunks_lt {c : MePooConfig} (h : c.Fits) :
    c.totalNumberOfChunks < uint32Range := by
  have hmanagement := h.2
  unfold MemPool.Fits sizeofChunkManagement uint32Range at hmanagement
  unfold totalNumberOfChunks uint32Range
  omega

namespace MemoryManager

structure Fresh (p : MemPool) : Prop where
  counted : p.Counted
  free : p.free = List.range p.numberOfChunks
  positive : 0 < p.chunkSize
  aligned : MemPool.chunkMemoryAlignment ∣ p.chunkSize
  rawAligned : MemPool.chunkMemoryAlignment ∣ p.rawMemory

theorem Fresh.usedChunks {p : MemPool} (h : Fresh p) : p.usedChunks = 0 := by
  have hused := h.counted.used
  rw [h.free, List.length_range] at hused
  omega

theorem Fresh.out {p : MemPool} (h : Fresh p) : p.out = ∅ := by
  refine Set.eq_empty_of_forall_notMem ?_
  rintro a ⟨i, hi, hfree, _⟩
  rw [h.free] at hfree
  exact hfree (List.mem_range.mpr hi)

theorem Fresh.ok {p : MemPool} (h : Fresh p) : p.Ok :=
  ⟨h.counted, h.positive, h.aligned, h.rawAligned⟩

def endAddress (p : MemPool) : Nat := p.rawMemory + p.numberOfChunks * p.chunkSize

structure Pools.Built (chunks : Nat) (entries : List MePooConfig.Entry) (c : Pools) : Prop where
  counts : c.memPoolVector.map MemPool.numberOfChunks =
    entries.map MePooConfig.Entry.chunkCount
  sizes : c.memPoolVector.map MemPool.chunkSize =
    entries.map fun e => sizeWithChunkHeaderStruct e.size
  total : c.totalNumberOfChunks =
    (entries.map MePooConfig.Entry.chunkCount).sum % uint32Range
  fresh : ∀ p ∈ c.memPoolVector, Fresh p
  placed : ∀ p ∈ c.memPoolVector, endAddress p ≤
    (c.allocators chunks).startAddress + (c.allocators chunks).currentPosition
  apart : c.memPoolVector.Pairwise fun p p' => endAddress p ≤ p'.rawMemory

theorem create_fresh {chunkSize numberOfChunks management chunks : Nat} {p : MemPool}
    {allocators allocators' : Nat → Allocator}
    (h : MemPool.create chunkSize numberOfChunks management chunks allocators =
      some (p, allocators')) : Fresh p := by
  obtain ⟨hcounted, hfree, _, hsize, hcount, hpos, _, haligned, hraw, _⟩ := MemPool.create_spec h
  refine ⟨hcounted, ?_, hsize ▸ hpos, hsize ▸ haligned, hraw⟩
  rw [hfree, hcount]

theorem addMemPool_built {management chunks : Nat} {entries : List MePooConfig.Entry}
    {entry : MePooConfig.Entry} {c c' : Pools} (h : c.Built chunks entries)
    (hadd : addMemPool management chunks c entry = some c') :
    c'.Built chunks (entries ++ [entry]) := by
  unfold addMemPool at hadd
  split at hadd
  · obtain ⟨⟨p, allocators⟩, hcreate, hadd⟩ := Option.bind_eq_some_iff.mp hadd
    cases hadd
    obtain ⟨_, _, _, hsize, hcount, _, _, _, _, hbegin, hend⟩ := MemPool.create_spec hcreate
    refine ⟨?_, ?_, ?_, ?_, ?_, ?_⟩
    · simp [h.counts, hcount]
    · simp [h.sizes, hsize]
    · simp [h.total]
    · intro q hq
      rcases List.mem_append.mp hq with hq | hq
      · exact h.fresh q hq
      · rw [List.mem_singleton.mp hq]
        exact create_fresh hcreate
    · intro q hq
      change endAddress q ≤ (allocators chunks).startAddress + (allocators chunks).currentPosition
      rcases List.mem_append.mp hq with hq | hq
      · have := h.placed q hq
        omega
      · rw [List.mem_singleton.mp hq, endAddress, hcount, hsize]
        exact hend
    · refine List.pairwise_append.mpr ⟨h.apart, List.pairwise_singleton _ _, ?_⟩
      intro q hq q' hq'
      rw [List.mem_singleton.mp hq']
      exact (h.placed q hq).trans hbegin
  · cases hadd

theorem foldlM_addMemPool_built {management chunks : Nat} :
    ∀ (rest entries : List MePooConfig.Entry) (c c' : Pools), c.Built chunks entries →
      rest.foldlM (addMemPool management chunks) c = some c' →
      c'.Built chunks (entries ++ rest) := by
  intro rest
  induction rest with
  | nil =>
    intro entries c c' h hrun
    cases hrun
    simpa using h
  | cons entry rest ih =>
    intro entries c c' h hrun
    rw [List.foldlM_cons] at hrun
    obtain ⟨d, hadd, hrun⟩ := Option.bind_eq_some_iff.mp hrun
    have := ih (entries ++ [entry]) d c' (addMemPool_built h hadd) hrun
    simpa using this

theorem disjoint_of_apart {pools : List MemPool}
    (h : pools.Pairwise fun p p' => endAddress p ≤ p'.rawMemory)
    (hpos : ∀ p ∈ pools, 0 < p.chunkSize)
    (k k' : Nat) (p p' : MemPool) (a : Nat) (hp : pools[k]? = some p) (hp' : pools[k']? = some p')
    (ha : a ∈ p.span) (ha' : a ∈ p'.span) : k = k' := by
  have hspan : ∀ (i j : Nat) (q q' : MemPool), pools[i]? = some q → pools[j]? = some q' →
      i < j → a ∈ q.span → a ∉ q'.span := by
    rintro i j q q' hi hj hij ⟨x, hx, rfl⟩ ⟨y, _, hy⟩
    obtain ⟨hilt, hqi⟩ := List.getElem?_eq_some_iff.mp hi
    obtain ⟨hjlt, hqj⟩ := List.getElem?_eq_some_iff.mp hj
    have hle := List.pairwise_iff_getElem.mp h i j hilt hjlt hij
    rw [hqi, hqj] at hle
    have hqpos := hpos q (List.mem_of_getElem? hi)
    have hmul : (x + 1) * q.chunkSize ≤ q.numberOfChunks * q.chunkSize :=
      Nat.mul_le_mul_right _ hx
    rw [Nat.add_mul, Nat.one_mul] at hmul
    simp only [endAddress, MemPool.chunkAt] at hle hy
    omega
  rcases Nat.lt_trichotomy k k' with hlt | rfl | hgt
  · exact absurd ha' (hspan k k' p p' hp hp' hlt ha)
  · rfl
  · exact absurd ha (hspan k' k p' p hp' hp hgt ha')

theorem configureMemoryManager_built {mePooConfig : MePooConfig} {management chunks : Nat}
    {allocators allocators' : Nat → Allocator} {mm : MemoryManager}
    (h : configureMemoryManager mePooConfig management chunks allocators = some (mm, allocators')) :
    ∃ c : Pools, c.Built chunks mePooConfig.mempoolConfig ∧
      mm.memPoolVector = c.memPoolVector ∧ Fresh mm.chunkManagementPool ∧
      mm.chunkManagementPool.chunkSize = sizeofChunkManagement ∧
      mm.chunkManagementPool.numberOfChunks = c.totalNumberOfChunks ∧
      ∀ m, (mm.blocks m).referenceCounter = 0 := by
  obtain ⟨c, hpools, h⟩ := Option.bind_eq_some_iff.mp h
  obtain ⟨⟨q, _⟩, hcreate, h⟩ := Option.bind_eq_some_iff.mp h
  cases h
  have hempty : Pools.Built chunks []
      { memPoolVector := [], totalNumberOfChunks := 0, allocators := allocators } :=
    ⟨rfl, rfl, rfl, by simp, by simp, List.Pairwise.nil⟩
  have hbuilt := foldlM_addMemPool_built _ _ _ c hempty hpools
  obtain ⟨_, _, _, hsize, hcount, _⟩ := MemPool.create_spec hcreate
  exact ⟨c, by simpa using hbuilt, rfl, create_fresh hcreate, hsize, hcount, fun _ => rfl⟩

theorem configureMemoryManager_fits {mePooConfig : MePooConfig} {management chunks : Nat}
    {allocators allocators' : Nat → Allocator} {mm : MemoryManager}
    (h : configureMemoryManager mePooConfig management chunks allocators = some (mm, allocators'))
    (hfits : mePooConfig.Fits) : ∀ size ∈ mm.shape, MemPool.Fits size.1 size.2 := by
  obtain ⟨c, hbuilt, hpools, -, hsize, hcount, -⟩ := configureMemoryManager_built h
  intro size hmem
  obtain ⟨p, hp, rfl⟩ := List.mem_map.mp hmem
  rcases List.mem_cons.mp hp with rfl | hp
  · rw [hsize, hcount, hbuilt.total]
    have htotal := Nat.mod_eq_of_lt hfits.totalNumberOfChunks_lt
    rw [MePooConfig.totalNumberOfChunks] at htotal
    rw [htotal]
    exact hfits.2
  · rw [hpools] at hp
    obtain ⟨i, hi⟩ := List.mem_iff_getElem?.mp hp
    have hcount : (c.memPoolVector.map MemPool.numberOfChunks)[i]? = some p.numberOfChunks := by
      simp [hi]
    have hsize : (c.memPoolVector.map MemPool.chunkSize)[i]? = some p.chunkSize := by
      simp [hi]
    rw [hbuilt.counts, List.getElem?_map] at hcount
    rw [hbuilt.sizes, List.getElem?_map] at hsize
    obtain ⟨e, he, hec⟩ := Option.map_eq_some_iff.mp hcount
    rw [he] at hsize
    rw [← hec, ← Option.some.inj hsize]
    exact hfits.1 e (List.mem_of_getElem? he)

theorem configureMemoryManager_ledger {mePooConfig : MePooConfig} {management chunks : Nat}
    {allocators allocators' : Nat → Allocator} {mm : MemoryManager}
    (h : configureMemoryManager mePooConfig management chunks allocators = some (mm, allocators'))
    (hcounts : mePooConfig.totalNumberOfChunks < uint32Range) : Ledger (fun _ => 0) 0 mm := by
  obtain ⟨c, hbuilt, hpools, hfresh, hsize, hcount, hcounter⟩ := configureMemoryManager_built h
  have htotal : c.totalNumberOfChunks = mePooConfig.totalNumberOfChunks :=
    hbuilt.total.trans (Nat.mod_eq_of_lt hcounts)
  have hok : ∀ p ∈ mm.memPoolVector, p.Ok :=
    fun p hp => (hbuilt.fresh p (hpools ▸ hp)).ok
  have hempty : ∀ p ∈ mm.memPoolVector, p.out = ∅ := by
    intro p hp
    exact (hbuilt.fresh p (hpools ▸ hp)).out
  refine ⟨?_, hok, hfresh.ok, ?_, ?_, ?_, ?_, ?_, ?_, ?_, ?_⟩
  · simpa using hcounter
  · rw [hpools]
    exact disjoint_of_apart hbuilt.apart fun p hp => (hbuilt.fresh p hp).positive
  · rw [hcount, htotal, hpools, hbuilt.counts, MePooConfig.totalNumberOfChunks]
  · rw [hfresh.usedChunks]
    refine (List.sum_eq_zero fun n hn => ?_).symm
    obtain ⟨p, hp, rfl⟩ := List.mem_map.mp hn
    exact (hbuilt.fresh p (hpools ▸ hp)).usedChunks
  · simp [hfresh.out]
  · simp
  · simp
  · intro k p a hp ha
    rw [hempty p (List.mem_of_getElem? hp)] at ha
    exact absurd ha (Set.notMem_empty a)
  · simp

end MemoryManager

end Iceoryx.Mepoo
