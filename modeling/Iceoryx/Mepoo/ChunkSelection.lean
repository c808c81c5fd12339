import Iceoryx.Lib.Run
import Iceoryx.Mepoo.Configuration

namespace Iceoryx.Mepoo

open Hoofs Lib

def ChunkSettings.Created (c : ChunkSettings) : Prop :=
  ∃ size alignment headerSize headerAlignment,
    ChunkSettings.create size alignment headerSize headerAlignment = .ok c

theorem ChunkSettings.Created.wellFormed {c : ChunkSettings} (h : c.Created) : c.WellFormed := by
  obtain ⟨_, _, _, _, h⟩ := h
  exact ChunkSettings.create_wellFormed h

namespace MemoryManager

structure BestFit (mm : MemoryManager) (required k : Nat) (p : MemPool) : Prop where
  pool : mm.memPoolVector[k]? = some p
  fits : required ≤ p.chunkSize
  smallest : ∀ p' ∈ mm.memPoolVector, required ≤ p'.chunkSize → p.chunkSize ≤ p'.chunkSize

structure TookOne (p p' : MemPool) : Prop extends MemPool.Kept p p' where
  free : ∃ index, p.free = index :: p'.free
  used : p'.usedChunks = p.usedChunks + 1

structure Allocated (required : Nat) (mm : MemoryManager) (m : Nat) (mm' : MemoryManager) :
    Prop where
  payload : ∃ k p p', mm.BestFit required k p ∧ TookOne p p' ∧
    mm'.memPoolVector = mm.memPoolVector.set k p' ∧ (mm'.blocks m).mempool = k ∧
      (mm'.headers (mm'.blocks m).chunkHeader).chunkSize = p.chunkSize
  management : TookOne mm.chunkManagementPool mm'.chunkManagementPool
  referenceCounter : (mm'.blocks m).referenceCounter = 1

structure SelectsBestFit (c : ChunkSettings) (mm : MemoryManager) : Prop where
  returns : ∃ r mm', getChunk c mm = .ok (r, mm')
  success : ∀ m mm', getChunk c mm = .ok (.ok m, mm') → mm.Allocated c.requiredChunkSize m mm'
  failure : ∀ e mm', getChunk c mm = .ok (.error e, mm') → mm' = mm
  noMempools : getChunk c mm = .ok (.error .noMempoolsAvailable, mm) ↔ mm.memPoolVector = []
  noMempoolForSize : getChunk c mm = .ok (.error .noMempoolForRequestedChunkSize, mm) ↔
    mm.memPoolVector ≠ [] ∧ ∀ p ∈ mm.memPoolVector, p.chunkSize < c.requiredChunkSize
  outOfChunks : getChunk c mm = .ok (.error .mempoolOutOfChunks, mm) ↔
    ∃ k p, mm.BestFit c.requiredChunkSize k p ∧ p.free = []

/-- What allocations and releases keep up, whatever the blocks hold.  The sum `total` of all chunk
counts has gone through a `uint32_t` before the management pool was made. -/
structure Stock (total : Nat) (mm : MemoryManager) : Prop where
  counted : ∀ p ∈ mm.memPoolVector, p.Counted
  aligned : ∀ p ∈ mm.memPoolVector,
    alignofChunkHeader ∣ p.chunkSize ∧ alignofChunkHeader ∣ p.rawMemory
  sized : ∀ p ∈ mm.memPoolVector, sizeofChunkHeader ≤ p.chunkSize ∧ p.chunkSize < uint32Range
  increasing : (mm.memPoolVector.map MemPool.chunkSize).Pairwise (· < ·)
  management : mm.chunkManagementPool.Counted
  balance : mm.chunkManagementPool.usedChunks = (mm.memPoolVector.map MemPool.usedChunks).sum
  chunks : (mm.memPoolVector.map MemPool.numberOfChunks).sum = total
  blocks : mm.chunkManagementPool.numberOfChunks = total % uint32Range

end MemoryManager

structure ManagerRun where
  memoryManager : MemoryManager
  held : List Nat

namespace ManagerRun

open MemoryManager

inductive Operation
  | getChunk (chunkSettings : { c : ChunkSettings // c.Created })
  | copy (m : Nat)
  | release (m : Nat)

def start (mm : MemoryManager) : ManagerRun where
  memoryManager := mm
  held := []

/-- `none` where the program ends, or nobody holds what is copied or released. -/
def step (s : ManagerRun) : Operation → Option ManagerRun
  | .getChunk chunkSettings =>
    match MemoryManager.getChunk chunkSettings.1 s.memoryManager with
    | .error _ => none
    | .ok (.error _, mm) => some { s with memoryManager := mm }
    | .ok (.ok m, mm) => some { memoryManager := mm, held := m :: s.held }
  | .copy m =>
    if m ∈ s.held then
      match SharedChunk.incrementReferenceCounter m s.memoryManager with
      | .error _ => none
      | .ok (_, mm) => some { memoryManager := mm, held := m :: s.held }
    else none
  | .release m =>
    if m ∈ s.held then
      match SharedChunk.decrementReferenceCounter m s.memoryManager with
      | .error _ => none
      | .ok (_, mm) => some { memoryManager := mm, held := s.held.erase m }
    else none

end ManagerRun

namespace MemoryManager

variable {total : Nat} {mm mm' : MemoryManager} {c : ChunkSettings} {k m : Nat}
  {p p' q : MemPool}

theorem tookOne_of_getChunk {chunk : Nat} (h : p.Counted) (hget : p.getChunk = some (chunk, p')) :
    TookOne p p' ∧ p'.Counted := by
  obtain ⟨i, hfree, -, hkept, hused, hcounted⟩ := MemPool.getChunk_spec h hget
  exact ⟨⟨hkept, ⟨i, hfree⟩, hused⟩, hcounted⟩

theorem getChunk_eq_none_iff_free (h : p.Counted) : p.getChunk = none ↔ p.free = [] := by
  have hused := h.used
  rw [MemPool.getChunk_eq_none h, ← List.length_eq_zero_iff]
  omega

theorem Stock.replace (h : Stock total mm) (hp : mm.memPoolVector[k]? = some p)
    (hkept : MemPool.Kept p p') (hcounted : p'.Counted)
    (hqkept : MemPool.Kept mm.chunkManagementPool q) (hq : q.Counted)
    (hused : q.usedChunks + p.usedChunks = mm.chunkManagementPool.usedChunks + p'.usedChunks)
    (hpools : mm'.memPoolVector = mm.memPoolVector.set k p')
    (hmanagement : mm'.chunkManagementPool = q) : Stock total mm' := by
  have hmem := List.mem_of_getElem? hp
  have hsizes : mm'.memPoolVector.map MemPool.chunkSize =
      mm.memPoolVector.map MemPool.chunkSize := by
    rw [hpools, map_set_of_eq hp hkept.chunkSize]
  have hall : ∀ {P : MemPool → Prop}, (∀ r ∈ mm.memPoolVector, P r) → P p' →
      ∀ r ∈ mm'.memPoolVector, P r := by
    intro P hold hnew r hr
    rw [hpools] at hr
    exact (List.mem_or_eq_of_mem_set hr).elim (hold r) fun heq => heq ▸ hnew
  refine ⟨hall h.counted hcounted, hall h.aligned ?_, hall h.sized ?_, ?_, ?_, ?_, ?_, ?_⟩
  · rw [hkept.chunkSize, hkept.rawMemory]
    exact h.aligned p hmem
  · rw [hkept.chunkSize]
    exact h.sized p hmem
  · rw [hsizes]
    exact h.increasing
  · rw [hmanagement]
    exact hq
  · have hsum := sum_map_set MemPool.usedChunks p p' mm.memPoolVector k hp
    have hbalance := h.balance
    rw [hmanagement, hpools]
    omega
  · rw [hpools, map_set_of_eq hp hkept.numberOfChunks]
    exact h.chunks
  · rw [hmanagement, hqkept.numberOfChunks]
    exact h.blocks

theorem Stock.chunkSize_lt (h : Stock total mm) {i j : Nat} (hi : i < mm.memPoolVector.length)
    (hj : j < mm.memPoolVector.length) (hij : i < j) :
    mm.memPoolVector[i].chunkSize < mm.memPoolVector[j].chunkSize := by
  have := List.pairwise_iff_getElem.mp h.increasing i j (by simpa using hi) (by simpa using hj)
    hij
  rwa [List.getElem_map, List.getElem_map] at this

theorem Stock.bestFit_of_findIdx (h : Stock total mm) {required : Nat}
    (hfind : mm.memPoolVector.findIdx? (fun p => p.chunkSize ≥ required) = some k) :
    ∃ p, mm.BestFit required k p := by
  obtain ⟨hk, hsize, hbefore⟩ := List.findIdx?_eq_some_iff_getElem.mp hfind
  refine ⟨mm.memPoolVector[k], List.getElem?_eq_getElem hk, of_decide_eq_true hsize, ?_⟩
  intro p' hp' hfits
  obtain ⟨i, hi, rfl⟩ := List.mem_iff_getElem.mp hp'
  rcases Nat.lt_trichotomy i k with hlt | rfl | hgt
  · exact absurd (decide_eq_true hfits) (hbefore i hlt)
  · exact Nat.le_refl _
  · exact Nat.le_of_lt (h.chunkSize_lt hk hi hgt)

theorem Stock.bestFit_unique (h : Stock total mm) {required k' : Nat}
    (hp : mm.BestFit required k p) (hp' : mm.BestFit required k' p') : k = k' ∧ p = p' := by
  obtain ⟨hk, hpk⟩ := List.getElem?_eq_some_iff.mp hp.pool
  obtain ⟨hk', hpk'⟩ := List.getElem?_eq_some_iff.mp hp'.pool
  have hle := hp.smallest p' (List.mem_of_getElem? hp'.pool) hp'.fits
  have hge := hp'.smallest p (List.mem_of_getElem? hp.pool) hp.fits
  have heq : k = k' := by
    rcases Nat.lt_trichotomy k k' with hlt | heq | hgt
    · have := h.chunkSize_lt hk hk' hlt
      rw [hpk, hpk'] at this
      omega
    · exact heq
    · have := h.chunkSize_lt hk' hk hgt
      rw [hpk, hpk'] at this
      omega
  subst heq
  exact ⟨rfl, hpk.symm.trans hpk'⟩

theorem Stock.getChunk_cases (h : Stock total mm) (hc : c.WellFormed) :
    (mm.memPoolVector = [] ∧ getChunk c mm = .ok (.error .noMempoolsAvailable, mm)) ∨
    (mm.memPoolVector ≠ [] ∧ (∀ p ∈ mm.memPoolVector, p.chunkSize < c.requiredChunkSize) ∧
      getChunk c mm = .ok (.error .noMempoolForRequestedChunkSize, mm)) ∨
    ∃ k p, mm.BestFit c.requiredChunkSize k p ∧
      ((p.free = [] ∧ getChunk c mm = .ok (.error .mempoolOutOfChunks, mm)) ∨
      (p.free ≠ [] ∧ mm.chunkManagementPool.free = [] ∧ getChunk c mm = .error .nullptr) ∨
      (p.free ≠ [] ∧ ∃ m mm', getChunk c mm = .ok (.ok m, mm') ∧
        mm.Allocated c.requiredChunkSize m mm' ∧ Stock total mm')) := by
  unfold getChunk
  cases hfind : mm.memPoolVector.findIdx? fun p => p.chunkSize ≥ c.requiredChunkSize with
  | none =>
    have hsmall : ∀ p ∈ mm.memPoolVector, p.chunkSize < c.requiredChunkSize := fun p hp =>
      Nat.not_le.mp (of_decide_eq_false (List.findIdx?_eq_none_iff.mp hfind p hp))
    by_cases hempty : mm.memPoolVector = []
    · rw [if_pos (List.length_eq_zero_iff.mpr hempty)]
      exact Or.inl ⟨hempty, rfl⟩
    · rw [if_neg (mt List.length_eq_zero_iff.mp hempty)]
      exact Or.inr (Or.inl ⟨hempty, hsmall, rfl⟩)
  | some k =>
    obtain ⟨p, hfit⟩ := h.bestFit_of_findIdx hfind
    refine Or.inr (Or.inr ⟨k, p, hfit, ?_⟩)
    have hmem := List.mem_of_getElem? hfit.pool
    have hcounted := h.counted p hmem
    cases hget : p.getChunk with
    | none =>
      refine Or.inl ⟨(getChunk_eq_none_iff_free hcounted).mp hget, ?_⟩
      simp only [hfit.pool, Option.bind_some, hget, Option.map_none]
    | some r =>
      obtain ⟨chunk, p'⟩ := r
      obtain ⟨htook, hcounted'⟩ := tookOne_of_getChunk hcounted hget
      have hfree : p.free ≠ [] := fun hnil =>
        nomatch hget.symm.trans ((getChunk_eq_none_iff_free hcounted).mpr hnil)
      have haligned : alignofChunkHeader ∣ chunk := by
        obtain ⟨i, -, rfl, -⟩ := MemPool.getChunk_spec hcounted hget
        obtain ⟨hsize, hraw⟩ := h.aligned p hmem
        refine Nat.dvd_add hraw ((Nat.dvd_mod_iff ?_).mpr (Nat.dvd_mul_left_of_dvd hsize i))
        decide
      obtain ⟨header, hheader, hsize, -⟩ := ChunkHeader.create_eq_some haligned hc hfit.fits
      right
      cases hblock : mm.chunkManagementPool.getChunk with
      | none =>
        refine Or.inl ⟨hfree, (getChunk_eq_none_iff_free h.management).mp hblock, ?_⟩
        simp only [hfit.pool, Option.bind_some, hget, Option.map_some, constructChunk, hheader,
          setMemPool_chunkManagementPool, hblock]
      | some r =>
        obtain ⟨m, q⟩ := r
        obtain ⟨hqtook, hq⟩ := tookOne_of_getChunk h.management hblock
        have hconstruct : (mm.setMemPool k p').constructChunk k chunk p.chunkSize c =
            .ok (m, (((mm.setMemPool k p').writeHeader chunk header).setManagementPool q).writeBlock
              m { chunkHeader := chunk, referenceCounter := 1, mempool := k }) := by
          simp only [constructChunk, hheader, setMemPool_chunkManagementPool, hblock]
        simp only [hfit.pool, Option.bind_some, hget, Option.map_some, hconstruct]
        refine Or.inr ⟨hfree, m, _, rfl, ?_, ?_⟩
        · refine ⟨⟨k, p, p', hfit, htook, rfl, ?_, ?_⟩, hqtook, ?_⟩
          · rw [writeBlock_self]
          · rw [writeBlock_self]
            exact (congrArg ChunkHeader.chunkSize (Function.update_self _ _ _)).trans hsize
          · rw [writeBlock_self]
        · refine h.replace hfit.pool htook.toKept hcounted' hqtook.toKept hq ?_ rfl rfl
          rw [htook.used, hqtook.used]
          omega

theorem Stock.usedChunks_lt (h : Stock total mm) (hp : p ∈ mm.memPoolVector)
    (hfree : p.free ≠ []) : mm.chunkManagementPool.usedChunks < total := by
  have hle : ∀ r ∈ mm.memPoolVector, r.usedChunks ≤ r.numberOfChunks := fun r hr => by
    have := (h.counted r hr).used
    omega
  have hlt : p.usedChunks < p.numberOfChunks := by
    have := (h.counted p hp).used
    have := List.length_pos_iff.mpr hfree
    omega
  rw [h.balance, ← h.chunks]
  exact List.sum_lt_sum _ _ hle ⟨p, hp, hlt⟩

theorem Stock.exists_free (h : Stock total mm) (hlt : mm.chunkManagementPool.usedChunks < total) :
    ∃ p ∈ mm.memPoolVector, p.free ≠ [] := by
  rw [h.balance, ← h.chunks] at hlt
  obtain ⟨p, hp, hused⟩ := List.exists_lt_of_sum_lt _ _ hlt
  refine ⟨p, hp, fun hnil => ?_⟩
  have := (h.counted p hp).used
  rw [hnil, List.length_nil] at this
  omega

theorem Stock.usedBlocks_lt (h : Stock total mm) (htotal : uint32Range ≤ total) :
    mm.chunkManagementPool.usedChunks < total := by
  have hused := h.management.used
  have hmod : total % uint32Range < uint32Range := Nat.mod_lt _ (by decide)
  rw [h.blocks] at hused
  omega

theorem BestFit.mem (h : mm.BestFit c.requiredChunkSize k p) : p ∈ mm.memPoolVector :=
  List.mem_of_getElem? h.pool

theorem selectsBestFit_of_nil (hempty : mm.memPoolVector = []) : mm.SelectsBestFit c := by
  have hnone : ∀ p, p ∉ mm.memPoolVector := fun p hp => List.not_mem_nil (hempty ▸ hp)
  have hget : getChunk c mm = .ok (.error .noMempoolsAvailable, mm) := by
    simp only [getChunk, hempty, List.findIdx?_nil, List.length_nil, if_true]
  exact {
    returns := ⟨_, _, hget⟩
    success := fun m mm' hok => nomatch hget.symm.trans hok
    failure := fun e mm' herr => by
      cases hget.symm.trans herr
      rfl
    noMempools := iff_of_true hget hempty
    noMempoolForSize := iff_of_false (fun herr => nomatch hget.symm.trans herr)
      fun hlarge => hlarge.1 hempty
    outOfChunks := iff_of_false (fun herr => nomatch hget.symm.trans herr)
      fun ⟨_, p, hfit, _⟩ => hnone p hfit.mem
  }

theorem Stock.selectsBestFit (h : Stock total mm) (htotal : total < uint32Range)
    (hc : c.WellFormed) : mm.SelectsBestFit c := by
  rcases h.getChunk_cases hc with ⟨hempty, hget⟩ | ⟨hne, hsmall, hget⟩ | ⟨k, p, hfit, hrest⟩
  · exact selectsBestFit_of_nil hempty
  · exact {
      returns := ⟨_, _, hget⟩
      success := fun m mm' hok => nomatch hget.symm.trans hok
      failure := fun e mm' herr => by
        cases hget.symm.trans herr
        rfl
      noMempools := iff_of_false (fun herr => nomatch hget.symm.trans herr) hne
      noMempoolForSize := iff_of_true hget ⟨hne, hsmall⟩
      outOfChunks := iff_of_false (fun herr => nomatch hget.symm.trans herr)
        fun ⟨_, p, hfit, _⟩ => Nat.not_le.mpr (hsmall p hfit.mem) hfit.fits
    }
  · have hne : mm.memPoolVector ≠ [] := List.ne_nil_of_mem hfit.mem
    have hlarge : ¬ ∀ p ∈ mm.memPoolVector, p.chunkSize < c.requiredChunkSize := fun hsmall =>
      Nat.not_le.mpr (hsmall p hfit.mem) hfit.fits
    have hexhausted : (∃ k' p', mm.BestFit c.requiredChunkSize k' p' ∧ p'.free = []) ↔
        p.free = [] := by
      constructor
      · rintro ⟨k', p', hfit', hfree⟩
        rwa [(h.bestFit_unique hfit hfit').2]
      · exact fun hfree => ⟨k, p, hfit, hfree⟩
    rcases hrest with ⟨hfree, hget⟩ | ⟨hfree, hblock, -⟩ | ⟨hfree, m, mm', hget, hallocated, -⟩
    · exact {
        returns := ⟨_, _, hget⟩
        success := fun m mm' hok => nomatch hget.symm.trans hok
        failure := fun e mm' herr => by
          cases hget.symm.trans herr
          rfl
        noMempools := iff_of_false (fun herr => nomatch hget.symm.trans herr) hne
        noMempoolForSize := iff_of_false (fun herr => nomatch hget.symm.trans herr)
          fun hsmall => hlarge hsmall.2
        outOfChunks := iff_of_true hget (hexhausted.mpr hfree)
      }
    · -- there is a block for every payload chunk
      have hlt := h.usedChunks_lt hfit.mem hfree
      have hused := h.management.used
      rw [hblock, List.length_nil, h.blocks, Nat.mod_eq_of_lt htotal] at hused
      omega
    · exact {
        returns := ⟨_, _, hget⟩
        success := fun m' mm'' hok => by
          cases hget.symm.trans hok
          exact hallocated
        failure := fun e mm' herr => nomatch hget.symm.trans herr
        noMempools := iff_of_false (fun herr => nomatch hget.symm.trans herr) hne
        noMempoolForSize := iff_of_false (fun herr => nomatch hget.symm.trans herr)
          fun hsmall => hlarge hsmall.2
        outOfChunks := iff_of_false (fun herr => nomatch hget.symm.trans herr)
          fun hnone => hfree (hexhausted.mp hnone)
      }

theorem Stock.incrementReferenceCounter (m : Nat) :
    Triple (fun _ => True) (Stock total) (SharedChunk.incrementReferenceCounter m)
      fun _ => Stock total := fun _ h =>
  ⟨h.counted, h.aligned, h.sized, h.increasing, h.management, h.balance, h.chunks, h.blocks⟩

theorem Stock.freeChunk (m : Nat) :
    Triple (fun _ => True) (Stock total) (SharedChunk.freeChunk m) fun _ => Stock total := by
  intro mm h
  unfold SharedChunk.freeChunk
  dsimp only
  split
  · trivial
  · next p hp =>
    split
    · trivial
    · next p' hput =>
      split
      · trivial
      · next q hblock =>
        obtain ⟨-, -, -, -, -, hkept, hused, hcounted⟩ :=
          MemPool.freeChunk_inv (h.counted p (List.mem_of_getElem? hp)) hput
        obtain ⟨-, -, -, -, -, hqkept, hqused, hq⟩ := MemPool.freeChunk_inv h.management hblock
        exact h.replace hp hkept hcounted hqkept hq (by omega) rfl rfl

theorem Stock.decrementReferenceCounter (m : Nat) :
    Triple (fun _ => True) (Stock total) (SharedChunk.decrementReferenceCounter m)
      fun _ => Stock total := by
  intro mm h
  have hwrite : ∀ b, Stock total (mm.writeBlock m b) := fun b =>
    ⟨h.counted, h.aligned, h.sized, h.increasing, h.management, h.balance, h.chunks, h.blocks⟩
  unfold SharedChunk.decrementReferenceCounter
  dsimp only
  split
  · exact Stock.freeChunk m _ (hwrite _)
  · exact hwrite _

structure Pools.Ordered (c : Pools) : Prop where
  sized : ∀ p ∈ c.memPoolVector, sizeofChunkHeader ≤ p.chunkSize ∧ p.chunkSize < uint32Range
  increasing : (c.memPoolVector.map MemPool.chunkSize).Pairwise (· < ·)

theorem addMemPool_ordered {management chunks : Nat} {entry : MePooConfig.Entry} {c c' : Pools}
    (h : c.Ordered) (hadd : addMemPool management chunks c entry = some c') : c'.Ordered := by
  unfold addMemPool at hadd
  split at hadd
  · next hguard =>
    obtain ⟨-, -, hbound, hlast⟩ := hguard
    obtain ⟨⟨p, allocators⟩, hcreate, hadd⟩ := Option.bind_eq_some_iff.mp hadd
    cases hadd
    obtain ⟨-, -, -, hsize, -⟩ := MemPool.create_spec hcreate
    constructor
    · intro q hq
      rcases List.mem_append.mp hq with hq | hq
      · exact h.sized q hq
      · rw [List.mem_singleton.mp hq, hsize]
        refine ⟨Nat.le_add_left _ _, ?_⟩
        unfold sizeWithChunkHeaderStruct
        unfold uint32Range at hbound ⊢
        unfold sizeofChunkHeader at hbound ⊢
        omega
    · rw [List.map_append, ← List.isChain_iff_pairwise, List.isChain_append]
      refine ⟨List.isChain_iff_pairwise.mpr h.increasing, List.isChain_singleton _, ?_⟩
      intro x hx y hy
      rw [List.getLast?_map] at hx
      obtain ⟨last, hmem, rfl⟩ := Option.map_eq_some_iff.mp hx
      cases hy
      rw [hsize]
      exact hlast last hmem
  · cases hadd

theorem foldlM_addMemPool_ordered {management chunks : Nat} (entries : List MePooConfig.Entry)
    {c c' : Pools} (h : c.Ordered)
    (hrun : entries.foldlM (addMemPool management chunks) c = some c') : c'.Ordered := by
  induction entries generalizing c with
  | nil =>
    cases hrun
    exact h
  | cons entry entries ih =>
    rw [List.foldlM_cons] at hrun
    obtain ⟨d, hadd, hrun⟩ := Option.bind_eq_some_iff.mp hrun
    exact ih (addMemPool_ordered h hadd) hrun

theorem configureMemoryManager_stock {mePooConfig : MePooConfig} {management chunks : Nat}
    {allocators allocators' : Nat → Allocator}
    (h : configureMemoryManager mePooConfig management chunks allocators = some (mm, allocators')) :
    Stock (mePooConfig.mempoolConfig.map MePooConfig.Entry.chunkCount).sum mm := by
  have hordered : (∀ p ∈ mm.memPoolVector, sizeofChunkHeader ≤ p.chunkSize ∧
      p.chunkSize < uint32Range) ∧ (mm.memPoolVector.map MemPool.chunkSize).Pairwise (· < ·) := by
    obtain ⟨c, hpools, h⟩ := Option.bind_eq_some_iff.mp h
    obtain ⟨⟨q, _⟩, -, h⟩ := Option.bind_eq_some_iff.mp h
    cases h
    have hc : c.Ordered := foldlM_addMemPool_ordered _
      ⟨fun p hp => absurd hp List.not_mem_nil, List.Pairwise.nil⟩ hpools
    exact ⟨hc.sized, hc.increasing⟩
  obtain ⟨c, hbuilt, hpools, hfresh, -, hcount, -⟩ := configureMemoryManager_built h
  have hnew : ∀ p ∈ mm.memPoolVector, Fresh p := fun p hp => hbuilt.fresh p (hpools ▸ hp)
  exact {
    counted := fun p hp => (hnew p hp).counted
    aligned := fun p hp => ⟨(hnew p hp).aligned, (hnew p hp).rawAligned⟩
    sized := hordered.1
    increasing := hordered.2
    management := hfresh.counted
    balance := by
      rw [hfresh.usedChunks]
      refine (List.sum_eq_zero fun n hn => ?_).symm
      obtain ⟨p, hp, rfl⟩ := List.mem_map.mp hn
      exact (hnew p hp).usedChunks
    chunks := by rw [hpools, hbuilt.counts]
    blocks := hcount.trans hbuilt.total
  }

def plain (size : Nat) : ChunkSettings where
  userPayloadSize := size
  userPayloadAlignment := 1
  userHeaderSize := 0
  userHeaderAlignment := 1
  requiredChunkSize := sizeofChunkHeader + size

theorem plain_created {size : Nat} (h : sizeofChunkHeader + size < uint32Range) :
    (plain size).Created := by
  have hsmall : ¬ sizeofChunkHeader + size > uint32Range - 1 := by omega
  refine ⟨size, 1, 0, 1, ?_⟩
  rw [ChunkSettings.create, if_neg (by decide), if_neg (by decide), if_neg (by decide)]
  exact if_neg hsmall

theorem Stock.exists_bestFit (h : Stock total mm) (hp : p ∈ mm.memPoolVector) :
    ∃ (c : ChunkSettings) (k : Nat), c.Created ∧ mm.BestFit c.requiredChunkSize k p := by
  obtain ⟨hheader, hbound⟩ := h.sized p hp
  obtain ⟨size, hsize⟩ := Nat.exists_eq_add_of_le hheader
  obtain ⟨k, hk⟩ := List.mem_iff_getElem?.mp hp
  refine ⟨plain size, k, plain_created (hsize ▸ hbound), hk, Nat.le_of_eq hsize.symm, ?_⟩
  intro p' _ hfits
  rw [hsize]
  exact hfits

end MemoryManager

namespace ManagerRun

open MemoryManager

variable {total : Nat} {s s' : ManagerRun} {op : Operation}

theorem stock_step (h : Stock total s.memoryManager) (hstep : s.step op = some s') :
    Stock total s'.memoryManager := by
  cases op with
  | getChunk c =>
    rw [step] at hstep
    rcases h.getChunk_cases c.2.wellFormed with
      ⟨-, hget⟩ | ⟨-, -, hget⟩ | ⟨k, p, -, ⟨-, hget⟩ | ⟨-, -, hget⟩ | ⟨-, m, mm', hget, -, hmm'⟩⟩
    · rw [hget] at hstep
      cases hstep
      exact h
    · rw [hget] at hstep
      cases hstep
      exact h
    · rw [hget] at hstep
      cases hstep
      exact h
    · rw [hget] at hstep
      cases hstep
    · rw [hget] at hstep
      cases hstep
      exact hmm'
  | copy m =>
    rw [step] at hstep
    split at hstep
    · split at hstep
      · cases hstep
      · next r mm' hrun =>
        cases hstep
        exact (Stock.incrementReferenceCounter m).of_ok h hrun
    · cases hstep
  | release m =>
    rw [step] at hstep
    split at hstep
    · split at hstep
      · cases hstep
      · next r mm' hrun =>
        cases hstep
        exact (Stock.decrementReferenceCounter m).of_ok h hrun
    · cases hstep

theorem stock_run (h : Stock total s.memoryManager) (ops : List Operation)
    (hrun : runSteps step s ops = some s') : Stock total s'.memoryManager :=
  runSteps_invariant (C := fun _ _ => True) (I := fun s => Stock total s.memoryManager)
    (fun _ _ _ hs _ hstep => stock_step hs hstep) ops s s' h (meets_true ops s) hrun

theorem exists_getChunk (h : Stock total s.memoryManager)
    (hlt : s.memoryManager.chunkManagementPool.usedChunks < total) :
    ∃ c : { c : ChunkSettings // c.Created },
      (s.memoryManager.chunkManagementPool.free = [] ∧
        MemoryManager.getChunk c.1 s.memoryManager = .error .nullptr) ∨
      ∃ s', s.step (.getChunk c) = some s' ∧ s'.memoryManager.chunkManagementPool.usedChunks =
        s.memoryManager.chunkManagementPool.usedChunks + 1 := by
  obtain ⟨p, hp, hfree⟩ := h.exists_free hlt
  obtain ⟨c, k, hc, hfit⟩ := h.exists_bestFit hp
  refine ⟨⟨c, hc⟩, ?_⟩
  rcases h.getChunk_cases hc.wellFormed with ⟨hempty, -⟩ | ⟨-, hsmall, -⟩ | ⟨k', p', hfit', hrest⟩
  · exact absurd (hempty ▸ hp) List.not_mem_nil
  · exact absurd (hsmall p hp) (Nat.not_lt.mpr hfit.fits)
  · obtain ⟨rfl, rfl⟩ := h.bestFit_unique hfit hfit'
    rcases hrest with ⟨hnil, -⟩ | ⟨-, hblock, hget⟩ | ⟨-, m, mm', hget, hallocated, -⟩
    · exact absurd hnil hfree
    · exact Or.inl ⟨hblock, hget⟩
    · refine Or.inr ⟨{ memoryManager := mm', held := m :: s.held }, ?_, hallocated.management.used⟩
      rw [step, hget]

theorem exists_nullptr (htotal : uint32Range ≤ total) (n : Nat) (h : Stock total s.memoryManager)
    (hn : s.memoryManager.chunkManagementPool.free.length = n) :
    ∃ ops s', runSteps step s ops = some s' ∧ ∃ c : { c : ChunkSettings // c.Created },
      MemoryManager.getChunk c.1 s'.memoryManager = .error .nullptr := by
  induction n generalizing s with
  | zero =>
    obtain ⟨c, ⟨-, hget⟩ | ⟨s', hstep, hused'⟩⟩ := exists_getChunk h (h.usedBlocks_lt htotal)
    · exact ⟨[], s, rfl, c, hget⟩
    · have hs' := stock_step h hstep
      have hused := h.management.used
      have := hs'.management.used
      rw [hs'.blocks, ← h.blocks] at this
      omega
  | succ n ih =>
    obtain ⟨c, ⟨-, hget⟩ | ⟨s', hstep, hused'⟩⟩ := exists_getChunk h (h.usedBlocks_lt htotal)
    · exact ⟨[], s, rfl, c, hget⟩
    · have hs' := stock_step h hstep
      have hn' : s'.memoryManager.chunkManagementPool.free.length = n := by
        have hused := h.management.used
        have := hs'.management.used
        rw [hs'.blocks, ← h.blocks] at this
        omega
      obtain ⟨ops, s'', hrun, hget⟩ := ih hs' hn'
      refine ⟨.getChunk c :: ops, s'', ?_, hget⟩
      rw [runSteps, hstep]
      exact hrun

/-- For a manager that was configured, and one that was not: `getChunk` takes the best fitting
chunk, whatever was allocated and released before, exactly if the `uint32_t` sum of the chunk
counts does not overflow. -/
theorem getChunk_selects_bestFit {mePooConfig : MePooConfig} {management chunks : Nat}
    {allocators allocators' : Nat → Allocator} {mm : MemoryManager}
    (h : configureMemoryManager mePooConfig management chunks allocators = some (mm, allocators')) :
    (∀ (mm' : MemoryManager) (c : ChunkSettings), mm'.memPoolVector = [] → mm'.SelectsBestFit c) ∧
    ((∀ ops s, runSteps step (start mm) ops = some s → ∀ c : ChunkSettings, c.Created →
        s.memoryManager.SelectsBestFit c) ↔
      (mePooConfig.mempoolConfig.map MePooConfig.Entry.chunkCount).sum < uint32Range) := by
  have hstart : Stock _ (start mm).memoryManager := configureMemoryManager_stock h
  refine ⟨fun mm' c hempty => selectsBestFit_of_nil hempty, ?_, ?_⟩
  · intro hall
    by_contra hlarge
    obtain ⟨ops, s, hrun, c, hget⟩ := exists_nullptr (Nat.not_lt.mp hlarge) _ hstart rfl
    obtain ⟨r, mm', hok⟩ := (hall ops s hrun c.1 c.2).returns
    exact nomatch hget.symm.trans hok
  · intro htotal ops s hrun c hc
    exact (stock_run hstart ops hrun).selectsBestFit htotal hc.wellFormed

def largeAllocators : Nat → Allocator
  | 0 => { startAddress := 2 ^ 20, length := 2 ^ 40, currentPosition := 0 }
  | _ => { startAddress := 2 ^ 50, length := 2 ^ 40, currentPosition := 0 }

def smallPools : MePooConfig where
  mempoolConfig := [⟨8, 2⟩, ⟨16, 3⟩]
  bounded := by decide

theorem getChunk_selects_bestFit_smallPools : ∃ mm allocators',
    configureMemoryManager smallPools 0 1 largeAllocators = some (mm, allocators') ∧
    ∀ ops s, runSteps step (start mm) ops = some s → ∀ c : ChunkSettings, c.Created →
      s.memoryManager.SelectsBestFit c := by
  obtain ⟨⟨mm, allocators'⟩, h⟩ := Option.isSome_iff_exists.mp
    (show (configureMemoryManager smallPools 0 1 largeAllocators).isSome by decide +kernel)
  exact ⟨mm, allocators', h, (getChunk_selects_bestFit h).2.mpr (by decide)⟩

def hugePools : MePooConfig where
  mempoolConfig := [⟨8, 2 ^ 31⟩, ⟨16, 2 ^ 31 + 1⟩]
  bounded := by decide

def haltsAfterOne : Option Bool :=
  (configureMemoryManager hugePools 0 1 largeAllocators).bind fun r =>
    (runSteps step (start r.1) [.getChunk ⟨plain 8, plain_created (by decide)⟩]).map fun s =>
      match MemoryManager.getChunk (plain 8) s.memoryManager with
      | .error .nullptr => true
      | _ => false

theorem second_getChunk_halts : ∃ mm allocators' s,
    configureMemoryManager hugePools 0 1 largeAllocators = some (mm, allocators') ∧
    runSteps step (start mm) [.getChunk ⟨plain 8, plain_created (by decide)⟩] = some s ∧
    ¬ s.memoryManager.SelectsBestFit (plain 8) := by
  have hrun : haltsAfterOne = some true := by decide +kernel
  obtain ⟨⟨mm, allocators'⟩, hconfigure, hrun⟩ := Option.bind_eq_some_iff.mp hrun
  obtain ⟨s, hs, hget⟩ := Option.map_eq_some_iff.mp hrun
  refine ⟨mm, allocators', s, hconfigure, hs, fun hselects => ?_⟩
  obtain ⟨r, mm', hok⟩ := hselects.returns
  rw [hok] at hget
  cases hget

end ManagerRun

end Iceoryx.Mepoo
