import Mathlib.Algebra.BigOperators.Group.List.Basic
import Mathlib.Data.List.Sort
import Iceoryx.Mepoo.MemoryManager

namespace Iceoryx.Mepoo

open Hoofs

namespace MePooConfig

/-- What `std::sort` promises about the order by size. -/
structure SortsBySize (sort : List Entry → List Entry) : Prop where
  perm : ∀ entries, (sort entries).Perm entries
  sorted : ∀ entries, (sort entries).Pairwise fun a b => a.size ≤ b.size

def pushBack (c : MePooConfig) (entry : Entry) : MePooConfig :=
  if h : c.mempoolConfig.length < maxNumberOfMempools then
    { mempoolConfig := c.mempoolConfig ++ [entry]
      bounded := by rwa [List.length_append] }
  else c

def empty : MePooConfig where
  mempoolConfig := []
  bounded := Nat.zero_le _

structure Optimizing where
  config : MePooConfig
  newEntry : Entry

namespace Optimizing

def start : Optimizing where
  config := empty
  newEntry := { size := 0, chunkCount := 0 }

/-- An entry of size 0 stands for none. -/
def flush (s : Optimizing) : MePooConfig :=
  if s.newEntry.size ≠ 0 then s.config.pushBack s.newEntry else s.config

def step (s : Optimizing) (entry : Entry) : Optimizing :=
  if entry.size ≠ s.newEntry.size then
    { config := s.flush
      newEntry := { size := entry.size, chunkCount := entry.chunkCount } }
  else
    { s with
      newEntry :=
        { s.newEntry with
          chunkCount := (s.newEntry.chunkCount + entry.chunkCount) % uint32Range } }

end Optimizing

def optimize (sort : List Entry → List Entry) (c : MePooConfig) : MePooConfig :=
  ((sort c.mempoolConfig).foldl Optimizing.step .start).flush

@[ext] theorem ext {c c' : MePooConfig} (h : c.mempoolConfig = c'.mempoolConfig) : c = c' := by
  cases c
  cases c'
  cases h
  rfl

def chunkCountOf (entries : List Entry) (size : Nat) : Nat :=
  ((entries.filter fun e => e.size = size).map Entry.chunkCount).sum

variable {entries entries' : List Entry} {entry : Entry} {size : Nat}

theorem chunkCountOf_concat :
    chunkCountOf (entries ++ [entry]) size =
      chunkCountOf entries size + if entry.size = size then entry.chunkCount else 0 := by
  rw [chunkCountOf, List.filter_append, List.map_append, List.sum_append, List.filter_singleton]
  by_cases h : entry.size = size <;> simp [h, chunkCountOf]

theorem chunkCountOf_cons :
    chunkCountOf (entry :: entries) size =
      (if entry.size = size then entry.chunkCount else 0) + chunkCountOf entries size := by
  by_cases h : entry.size = size <;> simp [h, chunkCountOf]

theorem chunkCountOf_perm (h : entries.Perm entries') (size : Nat) :
    chunkCountOf entries size = chunkCountOf entries' size :=
  ((h.filter _).map _).sum_eq

theorem chunkCountOf_eq_zero (h : ∀ e ∈ entries, e.size ≠ size) :
    chunkCountOf entries size = 0 := by
  rw [chunkCountOf, List.filter_eq_nil_iff.mpr]
  · rfl
  · intro e he
    rw [decide_eq_true_eq]
    exact h e he

abbrev Increasing (entries : List Entry) : Prop := entries.Pairwise fun a b => a.size < b.size

theorem Increasing.chunkCountOf (h : Increasing entries) (he : entry ∈ entries) :
    chunkCountOf entries entry.size = entry.chunkCount := by
  induction entries with
  | nil => cases he
  | cons e entries ih =>
    obtain ⟨hlt, hrest⟩ := List.pairwise_cons.mp h
    rw [chunkCountOf_cons]
    rcases List.mem_cons.mp he with rfl | he
    · rw [if_pos rfl, chunkCountOf_eq_zero fun x hx => (hlt x hx).ne', Nat.add_zero]
    · rw [if_neg (hlt entry he).ne, Nat.zero_add, ih hrest he]

/-- `merged` has one entry for each size of `entries` except 0, with all the chunks of that size. -/
structure Merges (entries merged : List Entry) : Prop where
  increasing : Increasing merged
  mem : ∀ e, e ∈ merged ↔
    0 < e.size ∧ (∃ x ∈ entries, x.size = e.size) ∧ e.chunkCount = chunkCountOf entries e.size

theorem Merges.unique {merged merged' : List Entry} (h : Merges entries merged)
    (h' : Merges entries merged') : merged = merged' := by
  have hirrefl : Std.Irrefl fun a b : Entry => a.size < b.size := ⟨fun a => Nat.lt_irrefl a.size⟩
  have hantisymm : Std.Antisymm fun a b : Entry => a.size < b.size :=
    ⟨fun _ _ hab hba => absurd (hab.trans hba) (Nat.lt_irrefl _)⟩
  exact h.increasing.eq_of_mem_iff h'.increasing fun e => by rw [h.mem, h'.mem]

theorem Merges.perm {merged : List Entry} (h : Merges entries merged)
    (hperm : entries.Perm entries') : Merges entries' merged where
  increasing := h.increasing
  mem := by
    intro e
    rw [h.mem, chunkCountOf_perm hperm]
    simp only [hperm.mem_iff]

theorem Merges.self {merged : List Entry} (h : Merges entries merged) : Merges merged merged where
  increasing := h.increasing
  mem := by
    intro e
    constructor
    · intro he
      exact ⟨((h.mem e).mp he).1, ⟨e, he, rfl⟩, (h.increasing.chunkCountOf he).symm⟩
    · rintro ⟨_, ⟨x, hx, hsize⟩, hcount⟩
      rw [← hsize, h.increasing.chunkCountOf hx] at hcount
      obtain rfl : x = e := by
        cases x
        cases e
        simp only at hsize hcount
        rw [hsize, hcount]
      exact hx

theorem Merges.chunkCountOf_eq {merged : List Entry} (h : Merges entries merged)
    (hsize : 0 < size) : chunkCountOf merged size = chunkCountOf entries size := by
  by_cases hex : ∃ x ∈ entries, x.size = size
  · have hmem : (⟨size, chunkCountOf entries size⟩ : Entry) ∈ merged :=
      (h.mem _).mpr ⟨hsize, hex, rfl⟩
    exact h.increasing.chunkCountOf hmem
  · rw [chunkCountOf_eq_zero fun e he heq => hex ⟨e, he, heq⟩,
      chunkCountOf_eq_zero fun e he heq => ?_]
    obtain ⟨x, hx, hxe⟩ := ((h.mem e).mp he).2.1
    exact hex ⟨x, hx, hxe.trans heq⟩

theorem Merges.concat_new {merged : List Entry} (h : Merges entries merged)
    (hpos : 0 < entry.size) (hlt : ∀ x ∈ entries, x.size < entry.size) :
    Merges (entries ++ [entry]) (merged ++ [entry]) where
  increasing := by
    refine List.pairwise_append.mpr ⟨h.increasing, List.pairwise_singleton _ _, ?_⟩
    intro a ha b hb
    obtain ⟨x, hx, hsize⟩ := ((h.mem a).mp ha).2.1
    rw [List.mem_singleton.mp hb, ← hsize]
    exact hlt x hx
  mem := by
    intro e
    rw [List.mem_append, List.mem_singleton, h.mem, chunkCountOf_concat]
    by_cases hsize : entry.size = e.size
    · have hnone : ¬ ∃ x ∈ entries, x.size = e.size := by
        rintro ⟨x, hx, heq⟩
        exact absurd (hlt x hx) (by omega)
      have hzero : chunkCountOf entries e.size = 0 :=
        chunkCountOf_eq_zero fun x hx heq => hnone ⟨x, hx, heq⟩
      rw [if_pos hsize, hzero, Nat.zero_add]
      constructor
      · rintro (⟨_, hex, _⟩ | rfl)
        · exact absurd hex hnone
        · exact ⟨hpos, ⟨e, List.mem_append_right _ (List.mem_singleton_self e), rfl⟩, rfl⟩
      · rintro ⟨_, _, hcount⟩
        right
        cases e
        cases entry
        simp only at hsize hcount
        rw [hsize, hcount]
    · have hiff : (∃ x ∈ entries ++ [entry], x.size = e.size) ↔ ∃ x ∈ entries, x.size = e.size := by
        simp only [List.mem_append, List.mem_singleton, or_and_right, exists_or, exists_eq_left,
          hsize, or_false]
      rw [if_neg hsize, Nat.add_zero, hiff, or_iff_left]
      rintro rfl
      exact hsize rfl

theorem Merges.concat_same {merged : List Entry} {last : Entry}
    (h : Merges entries (merged ++ [last])) (hsize : entry.size = last.size) :
    Merges (entries ++ [entry])
      (merged ++ [{ last with chunkCount := last.chunkCount + entry.chunkCount }]) where
  increasing := by
    obtain ⟨hmerged, _, hlt⟩ := List.pairwise_append.mp h.increasing
    refine List.pairwise_append.mpr ⟨hmerged, List.pairwise_singleton _ _, ?_⟩
    intro a ha b hb
    rw [List.mem_singleton.mp hb]
    exact hlt a ha last (List.mem_singleton_self last)
  mem := by
    intro e
    have hlast := (h.mem last).mp (List.mem_append_right _ (List.mem_singleton_self last))
    have hother : e ∈ merged ↔ e.size ≠ last.size ∧ e ∈ merged ++ [last] := by
      rw [List.mem_append, List.mem_singleton]
      constructor
      · intro he
        exact ⟨((List.pairwise_append.mp h.increasing).2.2 e he last
          (List.mem_singleton_self last)).ne, Or.inl he⟩
      · rintro ⟨hne, he | rfl⟩
        · exact he
        · exact absurd rfl hne
    rw [List.mem_append, List.mem_singleton, hother, h.mem, chunkCountOf_concat, hsize]
    by_cases heq : last.size = e.size
    · rw [if_pos heq, ← heq, ← hlast.2.2]
      constructor
      · rintro (⟨hne, _⟩ | rfl)
        · exact absurd rfl hne
        · exact ⟨hlast.1, ⟨entry, List.mem_append_right _ (List.mem_singleton_self entry), hsize⟩,
            rfl⟩
      · rintro ⟨_, _, hcount⟩
        right
        cases e
        cases last
        simp only at heq hcount
        rw [heq, hcount]
    · have hiff : (∃ x ∈ entries ++ [entry], x.size = e.size) ↔ ∃ x ∈ entries, x.size = e.size := by
        simp only [List.mem_append, List.mem_singleton, or_and_right, exists_or, exists_eq_left,
          hsize, heq, or_false]
      rw [if_neg heq, Nat.add_zero, hiff]
      constructor
      · rintro (⟨_, he⟩ | rfl)
        · exact he
        · exact absurd rfl heq
      · exact fun he => Or.inl ⟨fun h => heq h.symm, he⟩

theorem Merges.concat_zero {merged : List Entry} (h : Merges entries merged)
    (hzero : entry.size = 0) : Merges (entries ++ [entry]) merged where
  increasing := h.increasing
  mem := by
    intro e
    rw [h.mem, chunkCountOf_concat, hzero]
    refine and_congr_right fun hpos => ?_
    simp only [List.mem_append, List.mem_singleton, or_and_right, exists_or, exists_eq_left, hzero,
      hpos.ne, or_false, if_false, Nat.add_zero]

theorem Merges.length_le {merged : List Entry} (h : Merges entries merged) :
    merged.length ≤ entries.length := by
  have hnodup : (merged.map Entry.size).Nodup :=
    (List.pairwise_map.mpr h.increasing).imp Nat.ne_of_lt
  have hsub : merged.map Entry.size ⊆ entries.map Entry.size := by
    intro size hsize
    obtain ⟨e, he, rfl⟩ := List.mem_map.mp hsize
    obtain ⟨x, hx, heq⟩ := ((h.mem e).mp he).2.1
    exact List.mem_map.mpr ⟨x, hx, heq⟩
  have hle := (hnodup.subperm hsub).length_le
  rwa [List.length_map, List.length_map] at hle

theorem merges_nil : Merges [] [] where
  increasing := List.Pairwise.nil
  mem := by
    intro e
    refine iff_of_false List.not_mem_nil ?_
    rintro ⟨_, ⟨x, hx, _⟩, _⟩
    exact absurd hx List.not_mem_nil

namespace Optimizing

/-- What the loop would leave if it ended here. -/
def flushed (s : Optimizing) : List Entry :=
  if s.newEntry.size ≠ 0 then s.config.mempoolConfig ++ [s.newEntry] else s.config.mempoolConfig

variable {s : Optimizing} {pre : List Entry}

theorem flush_mempoolConfig (h : s.flushed.length ≤ maxNumberOfMempools) :
    s.flush.mempoolConfig = s.flushed := by
  unfold flushed at h ⊢
  unfold flush
  split
  · next hsize =>
    rw [if_pos hsize, List.length_append] at h
    rw [pushBack, dif_pos (Nat.lt_of_succ_le h)]
  · rfl

structure Inv (pre : List Entry) (s : Optimizing) : Prop where
  merges : Merges pre s.flushed
  last : ∀ x ∈ pre, x.size ≤ s.newEntry.size

theorem inv_start : Inv [] start where
  merges := merges_nil
  last := fun _ h => absurd h List.not_mem_nil

theorem Inv.newEntry_le (h : Inv pre s) {bound : Nat} (hle : ∀ x ∈ pre, x.size ≤ bound) :
    s.newEntry.size ≤ bound := by
  by_cases hzero : s.newEntry.size = 0
  · rw [hzero]
    exact Nat.zero_le bound
  · have hmem : s.newEntry ∈ s.flushed := by
      rw [flushed, if_pos hzero]
      exact List.mem_append_right _ (List.mem_singleton_self _)
    obtain ⟨x, hx, hsize⟩ := ((h.merges.mem _).mp hmem).2.1
    exact hsize ▸ hle x hx

theorem Inv.step (h : Inv pre s) (hle : ∀ x ∈ pre, x.size ≤ entry.size)
    (hroom : pre.length ≤ maxNumberOfMempools)
    (hsum : ∀ size, 0 < size → chunkCountOf (pre ++ [entry]) size < uint32Range) :
    Inv (pre ++ [entry]) (s.step entry) := by
  have hcarried := h.newEntry_le hle
  have hflush := flush_mempoolConfig (h.merges.length_le.trans hroom)
  have hlast : ∀ x ∈ pre ++ [entry], x.size ≤ entry.size := by
    intro x hx
    rcases List.mem_append.mp hx with hx | hx
    · exact hle x hx
    · rw [List.mem_singleton.mp hx]
  unfold Optimizing.step
  split
  · next hne =>
    have hpos : entry.size ≠ 0 := by omega
    refine ⟨?_, hlast⟩
    rw [flushed, if_pos hpos, hflush]
    refine h.merges.concat_new (Nat.pos_of_ne_zero hpos) fun x hx => ?_
    exact (h.last x hx).trans_lt (lt_of_le_of_ne hcarried (Ne.symm hne))
  · next heq =>
    have hsize : entry.size = s.newEntry.size := not_not.mp heq
    refine ⟨?_, fun x hx => (hlast x hx).trans hsize.le⟩
    by_cases hzero : s.newEntry.size = 0
    · have hentries := h.merges
      rw [flushed, if_neg (not_not.mpr hzero)] at hentries
      rw [flushed, if_neg (not_not.mpr hzero)]
      exact hentries.concat_zero (hsize.trans hzero)
    · have hentries := h.merges
      rw [flushed, if_pos hzero] at hentries
      have hcount := ((hentries.mem s.newEntry).mp
        (List.mem_append_right _ (List.mem_singleton_self _))).2.2
      have hless := hsum s.newEntry.size (Nat.pos_of_ne_zero hzero)
      rw [chunkCountOf_concat, if_pos hsize, ← hcount] at hless
      rw [flushed, if_pos hzero, Nat.mod_eq_of_lt hless]
      exact hentries.concat_same hsize

theorem inv_foldl (hsorted : pre.Pairwise fun a b => a.size ≤ b.size)
    (hroom : pre.length ≤ maxNumberOfMempools)
    (hsum : ∀ size, 0 < size → chunkCountOf pre size < uint32Range) :
    Inv pre (pre.foldl step start) := by
  induction pre using List.reverseRecOn with
  | nil => exact inv_start
  | append_singleton pre entry ih =>
    obtain ⟨hpre, _, hle⟩ := List.pairwise_append.mp hsorted
    rw [List.length_append, List.length_singleton] at hroom
    have hinv := ih hpre (Nat.le_of_succ_le hroom) fun size hpos => by
      have := hsum size hpos
      rw [chunkCountOf_concat] at this
      exact Nat.lt_of_le_of_lt (Nat.le_add_right _ _) this
    rw [List.foldl_append]
    exact hinv.step (fun x hx => hle x hx entry (List.mem_singleton_self entry))
      (Nat.le_of_succ_le hroom) hsum

end Optimizing

variable {sort sort' : List Entry → List Entry} {c c' : MePooConfig}

def Countable (c : MePooConfig) : Prop :=
  ∀ size, 0 < size → chunkCountOf c.mempoolConfig size < uint32Range

theorem merges_optimize (hsort : SortsBySize sort) (hsum : c.Countable) :
    Merges c.mempoolConfig (c.optimize sort).mempoolConfig := by
  have hperm := hsort.perm c.mempoolConfig
  have hroom : (sort c.mempoolConfig).length ≤ maxNumberOfMempools :=
    hperm.length_eq.trans_le c.bounded
  have hinv := Optimizing.inv_foldl (hsort.sorted c.mempoolConfig) hroom fun size hpos => by
    rw [chunkCountOf_perm hperm]
    exact hsum size hpos
  rw [optimize, Optimizing.flush_mempoolConfig (hinv.merges.length_le.trans hroom)]
  exact hinv.merges.perm hperm

theorem Merges.optimize_eq (hsort : SortsBySize sort) (hsum : c.Countable)
    (h : Merges c.mempoolConfig c'.mempoolConfig) : c.optimize sort = c' := by
  ext1
  exact (merges_optimize hsort hsum).unique h

theorem Countable.optimize (hsort : SortsBySize sort) (hsum : c.Countable) :
    (c.optimize sort).Countable := by
  intro size hpos
  rw [(merges_optimize hsort hsum).chunkCountOf_eq hpos]
  exact hsum size hpos

theorem optimize_optimize (hsort : SortsBySize sort) (hsum : c.Countable) :
    (c.optimize sort).optimize sort = c.optimize sort :=
  (merges_optimize hsort hsum).self.optimize_eq hsort (hsum.optimize hsort)

theorem optimize_perm (hsort : SortsBySize sort) (hsort' : SortsBySize sort')
    (hsum : c.Countable) (hperm : c'.mempoolConfig.Perm c.mempoolConfig) :
    c'.optimize sort' = c.optimize sort := by
  refine ((merges_optimize hsort hsum).perm hperm.symm).optimize_eq hsort' fun size hpos => ?_
  rw [chunkCountOf_perm hperm]
  exact hsum size hpos

end MePooConfig

namespace MemoryManager

open MePooConfig

inductive AddMemPoolError
  | contract
  | configMustBeOrderedByIncreasingSize
  | memPool
  deriving DecidableEq, Repr

def addMemPoolOrError (managementAllocator chunkMemoryAllocator : Nat) (c : Pools)
    (entry : Entry) : Except AddMemPoolError Pools :=
  if MemPool.chunkMemoryAlignment ≤ entry.size ∧ 1 ≤ entry.chunkCount ∧
      entry.size ≤ uint32Range - 1 - sizeofChunkHeader then
    if ∃ last ∈ c.memPoolVector.getLast?, sizeWithChunkHeaderStruct entry.size ≤ last.chunkSize then
      .error .configMustBeOrderedByIncreasingSize
    else
      match MemPool.create (sizeWithChunkHeaderStruct entry.size) entry.chunkCount
          managementAllocator chunkMemoryAllocator c.allocators with
      | none => .error .memPool
      | some (pool, allocators) =>
        .ok
          { memPoolVector := c.memPoolVector ++ [pool]
            totalNumberOfChunks := (c.totalNumberOfChunks + entry.chunkCount) % uint32Range
            allocators := allocators }
  else .error .contract

variable {management chunks : Nat} {c c' : Pools} {entry : Entry} {entries : List Entry}

theorem toOption_addMemPoolOrError :
    (addMemPoolOrError management chunks c entry).toOption =
      addMemPool management chunks c entry := by
  unfold addMemPoolOrError addMemPool
  by_cases hrange : MemPool.chunkMemoryAlignment ≤ entry.size ∧ 1 ≤ entry.chunkCount ∧
      entry.size ≤ uint32Range - 1 - sizeofChunkHeader
  · rw [if_pos hrange]
    by_cases horder : ∃ last ∈ c.memPoolVector.getLast?,
        sizeWithChunkHeaderStruct entry.size ≤ last.chunkSize
    · obtain ⟨last, hlast, hle⟩ := horder
      rw [if_pos ⟨last, hlast, hle⟩, if_neg fun h => absurd (h.2.2.2 last hlast) (not_lt.mpr hle)]
      rfl
    · rw [if_neg horder, if_pos ⟨hrange.1, hrange.2.1, hrange.2.2, fun last hlast =>
        lt_of_not_ge fun hle => horder ⟨last, hlast, hle⟩⟩]
      cases MemPool.create (sizeWithChunkHeaderStruct entry.size) entry.chunkCount management
        chunks c.allocators <;> rfl
  · rw [if_neg hrange, if_neg fun h => hrange ⟨h.1, h.2.1, h.2.2.1⟩]
    rfl

def Below (c : Pools) (entries : List Entry) : Prop :=
  ∀ last ∈ c.memPoolVector.getLast?, ∀ e ∈ entries,
    last.chunkSize < sizeWithChunkHeaderStruct e.size

theorem addMemPoolOrError_below (management chunks : Nat) (hbelow : Below c (entry :: entries))
    (hlt : ∀ e ∈ entries, entry.size < e.size) :
    addMemPoolOrError management chunks c entry ≠ .error .configMustBeOrderedByIncreasingSize ∧
      ∀ c', addMemPoolOrError management chunks c entry = .ok c' → Below c' entries := by
  unfold addMemPoolOrError
  split
  · rw [if_neg]
    · split
      · exact ⟨nofun, nofun⟩
      · next pool allocators hcreate =>
        refine ⟨nofun, ?_⟩
        rintro _ ⟨⟩ last hlast e he
        rw [List.getLast?_concat] at hlast
        cases hlast
        obtain ⟨_, _, _, hsize, _⟩ := MemPool.create_spec hcreate
        rw [hsize]
        exact Nat.add_lt_add_right (hlt e he) _
    · rintro ⟨last, hlast, hle⟩
      exact absurd (hbelow last hlast entry List.mem_cons_self) (not_lt.mpr hle)
  · exact ⟨nofun, nofun⟩

theorem foldlM_addMemPoolOrError (hincreasing : Increasing entries) (hbelow : Below c entries) :
    entries.foldlM (addMemPoolOrError management chunks) c ≠
      .error .configMustBeOrderedByIncreasingSize := by
  induction entries generalizing c with
  | nil => exact nofun
  | cons entry entries ih =>
    obtain ⟨hlt, hrest⟩ := List.pairwise_cons.mp hincreasing
    obtain ⟨hne, hnext⟩ := addMemPoolOrError_below management chunks hbelow hlt
    rw [List.foldlM_cons]
    cases hadd : addMemPoolOrError management chunks c entry with
    | error e =>
      rw [hadd] at hne
      exact hne
    | ok c' => exact ih hrest (hnext c' hadd)

end MemoryManager

namespace MePooConfig

variable {sort : List Entry → List Entry} {c : MePooConfig}

structure Normalises (sort : List Entry → List Entry) (c : MePooConfig) : Prop where
  increasing : Increasing (c.optimize sort).mempoolConfig
  positive : ∀ e ∈ (c.optimize sort).mempoolConfig, 0 < e.size
  sizes : ∀ size, 0 < size → ((∃ e ∈ (c.optimize sort).mempoolConfig, e.size = size) ↔
    ∃ e ∈ c.mempoolConfig, e.size = size)
  counts : ∀ e ∈ (c.optimize sort).mempoolConfig, e.chunkCount = chunkCountOf c.mempoolConfig e.size
  idempotent : (c.optimize sort).optimize sort = c.optimize sort
  unordered : ∀ (sort' : List Entry → List Entry) (c' : MePooConfig), SortsBySize sort' →
    c'.mempoolConfig.Perm c.mempoolConfig → c'.optimize sort' = c.optimize sort
  ordered : ∀ (management chunks : Nat) (allocators : Nat → Allocator),
    (c.optimize sort).mempoolConfig.foldlM (MemoryManager.addMemPoolOrError management chunks)
      { memPoolVector := [], totalNumberOfChunks := 0, allocators := allocators } ≠
      .error .configMustBeOrderedByIncreasingSize

/-- `optimize` brings a configuration into the form that `addMemPool` asks for, with the same
chunks of every size. -/
theorem optimize_normalises (hsort : SortsBySize sort) (hsum : c.Countable) :
    Normalises sort c where
  increasing := (merges_optimize hsort hsum).increasing
  positive := fun e he => (((merges_optimize hsort hsum).mem e).mp he).1
  sizes := by
    intro size hpos
    constructor
    · rintro ⟨e, he, rfl⟩
      exact (((merges_optimize hsort hsum).mem e).mp he).2.1
    · intro hex
      exact ⟨⟨size, chunkCountOf c.mempoolConfig size⟩,
        ((merges_optimize hsort hsum).mem _).mpr ⟨hpos, hex, rfl⟩, rfl⟩
  counts := fun e he => (((merges_optimize hsort hsum).mem e).mp he).2.2
  idempotent := optimize_optimize hsort hsum
  unordered := fun _ _ hsort' hperm => optimize_perm hsort hsort' hsum hperm
  ordered := fun _ _ _ =>
    MemoryManager.foldlM_addMemPoolOrError (merges_optimize hsort hsum).increasing nofun

def exampleSort (entries : List Entry) : List Entry :=
  entries.insertionSort fun a b => a.size ≤ b.size

theorem exampleSort_sortsBySize : SortsBySize exampleSort where
  perm := List.perm_insertionSort _
  sorted := by
    have htotal : Std.Total fun a b : Entry => a.size ≤ b.size :=
      ⟨fun a b => Nat.le_total a.size b.size⟩
    have htrans : IsTrans Entry fun a b => a.size ≤ b.size :=
      ⟨fun _ _ _ hab hbc => Nat.le_trans hab hbc⟩
    exact List.pairwise_insertionSort _

def exampleConfig : MePooConfig where
  mempoolConfig := [⟨1024, 5⟩, ⟨128, 10⟩, ⟨0, 7⟩, ⟨1024, 2⟩, ⟨128, 1⟩]
  bounded := by decide

theorem optimize_normalises_example : Normalises exampleSort exampleConfig := by
  refine optimize_normalises exampleSort_sortsBySize fun size _ => ?_
  have hle : chunkCountOf exampleConfig.mempoolConfig size ≤ 25 := by
    simp only [chunkCountOf_cons, exampleConfig]
    have hnil : chunkCountOf [] size = 0 := rfl
    rw [hnil]
    repeat' split
    all_goals omega
  exact hle.trans_lt (by decide)

end MePooConfig

end Iceoryx.Mepoo
