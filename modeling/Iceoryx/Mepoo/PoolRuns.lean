import Iceoryx.Lib.Run
import Iceoryx.Mepoo.MemPool

namespace Iceoryx.Mepoo

open Hoofs Lib

/-- `live` are the chunks that are out, `returned` every address that `getChunk` has handed out,
and `freeCounts` how many chunks were free at each moment so far. -/
structure PoolRun where
  pool : MemPool
  live : List Nat
  returned : List Nat
  freeCounts : List Nat

namespace PoolRun

inductive Operation
  | getChunk
  | freeChunk (chunk : Nat)
  deriving DecidableEq, Repr

def start (p : MemPool) : PoolRun where
  pool := p
  live := []
  returned := []
  freeCounts := [p.numberOfChunks]

def took (s : PoolRun) (chunk : Nat) (pool : MemPool) : PoolRun where
  pool := pool
  live := chunk :: s.live
  returned := chunk :: s.returned
  freeCounts := (pool.numberOfChunks - (s.live.length + 1)) :: s.freeCounts

def gaveBack (s : PoolRun) (chunk : Nat) (pool : MemPool) : PoolRun where
  pool := pool
  live := s.live.erase chunk
  returned := s.returned
  freeCounts := (pool.numberOfChunks - (s.live.length - 1)) :: s.freeCounts

def step (s : PoolRun) : Operation → Option PoolRun
  | .getChunk =>
    match s.pool.getChunk with
    | none => some s
    | some (chunk, pool) => some (s.took chunk pool)
  | .freeChunk chunk =>
    if chunk ∈ s.live then
      match s.pool.freeChunk chunk with
      | .error _ => none
      | .ok pool => some (s.gaveBack chunk pool)
    else none

/-- The index that `getChunk` is about to take lies below 4 GiB in the pool. -/
def Within (s : PoolRun) : Operation → Prop
  | .getChunk => ∀ index ∈ s.pool.free.head?, index * s.pool.chunkSize < uint32Range
  | .freeChunk _ => True

structure Sound (p : MemPool) (s : PoolRun) : Prop where
  placed : ∀ chunk ∈ s.returned, ∃ index < p.numberOfChunks, chunk = p.chunkAt index
  apart : s.live.Pairwise fun a b => a + p.chunkSize ≤ b ∨ b + p.chunkSize ≤ a
  accepted : ∀ chunk ∈ s.live, ∃ pool, s.pool.freeChunk chunk = .ok pool ∧
    ∃ pool', pool.getChunk = some (chunk, pool')
  exhausted : s.pool.getChunk = none ↔ s.live.length = p.numberOfChunks
  used : s.pool.usedChunks = s.live.length
  minFree : s.pool.minFree ∈ s.freeCounts ∧ ∀ count ∈ s.freeCounts, s.pool.minFree ≤ count

structure Inv (p : MemPool) (s : PoolRun) : Prop where
  kept : MemPool.Kept p s.pool
  counted : s.pool.Counted
  taken : ∃ taken : List Nat, s.live = taken.map p.chunkAt ∧
    (taken ++ s.pool.free).Perm (List.range p.numberOfChunks) ∧
    ∀ index ∈ taken, index * p.chunkSize < uint32Range
  placed : ∀ chunk ∈ s.returned, ∃ index < p.numberOfChunks, chunk = p.chunkAt index
  now : p.numberOfChunks - s.live.length ∈ s.freeCounts
  minFree : s.pool.minFree ∈ s.freeCounts ∧ ∀ count ∈ s.freeCounts, s.pool.minFree ≤ count

variable {p : MemPool} {s s' : PoolRun}

theorem chunkAt_injective (hpos : 0 < p.chunkSize) : Function.Injective p.chunkAt := by
  intro i j h
  exact Nat.eq_of_mul_eq_mul_right hpos (Nat.add_left_cancel h)

theorem chunkAt_apart {i j : Nat} (h : i ≠ j) :
    p.chunkAt i + p.chunkSize ≤ p.chunkAt j ∨ p.chunkAt j + p.chunkSize ≤ p.chunkAt i := by
  have hnext : ∀ k, p.chunkAt k + p.chunkSize = p.chunkAt (k + 1) := fun k => by
    simp only [MemPool.chunkAt]
    ring
  have hmono : ∀ {k l : Nat}, k ≤ l → p.chunkAt k ≤ p.chunkAt l := fun hkl =>
    Nat.add_le_add_left (Nat.mul_le_mul_right _ hkl) _
  rw [hnext, hnext]
  rcases Nat.lt_or_gt_of_ne h with h | h
  · exact Or.inl (hmono h)
  · exact Or.inr (hmono h)

theorem getChunk_within {pool : MemPool} {chunk : Nat} (hc : s.pool.Counted)
    (hwithin : s.Within .getChunk) (hget : s.pool.getChunk = some (chunk, pool)) :
    ∃ i, s.pool.free = i :: pool.free ∧ i * s.pool.chunkSize < uint32Range ∧
      chunk = s.pool.chunkAt i ∧ MemPool.Kept s.pool pool ∧ pool.Counted := by
  obtain ⟨i, hfree, hchunk, hkept, _, hcounted⟩ := MemPool.getChunk_spec hc hget
  have hi : i * s.pool.chunkSize < uint32Range := hwithin i (by rw [hfree]; rfl)
  refine ⟨i, hfree, hi, ?_, hkept, hcounted⟩
  rw [hchunk, Nat.mod_eq_of_lt hi]
  rfl

theorem inv_start (hc : p.Counted) (hfree : p.free = List.range p.numberOfChunks)
    (hmin : p.minFree = p.numberOfChunks) : Inv p (start p) where
  kept := MemPool.Kept.refl p
  counted := hc
  taken := by
    refine ⟨[], rfl, ?_, fun _ h => absurd h List.not_mem_nil⟩
    rw [← hfree]
    exact List.Perm.refl _
  placed := fun _ h => absurd h List.not_mem_nil
  now := List.mem_singleton.mpr rfl
  minFree := by
    refine ⟨List.mem_singleton.mpr hmin, ?_⟩
    intro count hcount
    rw [List.mem_singleton.mp hcount]
    exact hmin.le

theorem Inv.length_live (h : Inv p s) :
    s.live.length + s.pool.free.length = p.numberOfChunks := by
  obtain ⟨taken, hlive, hperm, _⟩ := h.taken
  rw [hlive, List.length_map, ← List.length_append, hperm.length_eq, List.length_range]

theorem Inv.used (h : Inv p s) : s.pool.usedChunks = s.live.length := by
  have hlive := h.length_live
  have hused := h.counted.used
  rw [h.kept.numberOfChunks] at hused
  omega

theorem Inv.getChunk {pool : MemPool} {chunk : Nat} (h : Inv p s)
    (hwithin : s.Within .getChunk) (hget : s.pool.getChunk = some (chunk, pool)) :
    Inv p (s.took chunk pool) := by
  obtain ⟨i, hfree, hi, rfl, hkept, hcounted⟩ := getChunk_within h.counted hwithin hget
  obtain ⟨taken, hlive, hperm, hbelow⟩ := h.taken
  rw [h.kept.chunkSize] at hi
  have hperm' : (i :: taken ++ pool.free).Perm (List.range p.numberOfChunks) := by
    rw [hfree] at hperm
    exact List.perm_middle.symm.trans hperm
  have hin : i < p.numberOfChunks :=
    List.mem_range.mp (hperm'.subset (List.mem_append_left _ List.mem_cons_self))
  have hn : pool.numberOfChunks = p.numberOfChunks :=
    hkept.numberOfChunks.trans h.kept.numberOfChunks
  have husedNow : pool.usedChunks = s.live.length + 1 := by
    obtain ⟨_, _, _, _, hused, _⟩ := MemPool.getChunk_spec h.counted hget
    rw [hused, h.used]
  have hmin : pool.minFree = min (p.numberOfChunks - (s.live.length + 1)) s.pool.minFree := by
    rw [MemPool.getChunk_minFree h.counted hget, husedNow, h.kept.numberOfChunks]
  refine ⟨⟨?_, hn, ?_⟩, hcounted, ⟨i :: taken, ?_, hperm', ?_⟩, ?_, ?_, ?_, ?_⟩
  · exact hkept.chunkSize.trans h.kept.chunkSize
  · exact hkept.rawMemory.trans h.kept.rawMemory
  · rw [took, List.map_cons, hlive, h.kept.chunkAt]
  · intro index hindex
    rcases List.mem_cons.mp hindex with rfl | hindex
    · exact hi
    · exact hbelow index hindex
  · intro chunk hchunk
    rcases List.mem_cons.mp hchunk with rfl | hchunk
    · exact ⟨i, hin, h.kept.chunkAt i⟩
    · exact h.placed chunk hchunk
  · rw [took, hn]
    exact List.mem_cons_self
  · rw [took, hmin, hn]
    rcases min_choice (p.numberOfChunks - (s.live.length + 1)) s.pool.minFree with he | he
    · rw [he]
      exact List.mem_cons_self
    · rw [he]
      exact List.mem_cons_of_mem _ h.minFree.1
  · intro count hcount
    rw [took, hn] at hcount
    rw [took, hmin]
    rcases List.mem_cons.mp hcount with rfl | hcount
    · exact min_le_left _ _
    · exact (min_le_right _ _).trans (h.minFree.2 count hcount)

theorem Inv.freeChunk_eq {chunk : Nat} (h : Inv p s) (hpos : 0 < p.chunkSize)
    (hlive : chunk ∈ s.live) :
    ∃ i pool, chunk = p.chunkAt i ∧ i * p.chunkSize < uint32Range ∧
      s.pool.freeChunk chunk = .ok pool ∧ pool.free = i :: s.pool.free ∧
      MemPool.Kept s.pool pool ∧ pool.Counted := by
  obtain ⟨taken, htaken, hperm, hbelow⟩ := h.taken
  rw [htaken] at hlive
  obtain ⟨i, hi, rfl⟩ := List.mem_map.mp hlive
  have hin : i < s.pool.numberOfChunks := by
    rw [h.kept.numberOfChunks]
    exact List.mem_range.mp (hperm.subset (List.mem_append_left _ hi))
  have hout : i ∉ s.pool.free := by
    have hnodup := hperm.nodup_iff.mpr List.nodup_range
    exact (List.disjoint_of_nodup_append hnodup) hi
  obtain ⟨pool, hput, hfree, hkept, _, hcounted⟩ :=
    h.counted.freeChunk_eq (h.kept.chunkSize ▸ hpos) hin hout
  rw [h.kept.chunkAt] at hput
  exact ⟨i, pool, rfl, hbelow i hi, hput, hfree, hkept, hcounted⟩

theorem Inv.freeChunk {pool : MemPool} {chunk : Nat} (h : Inv p s) (hpos : 0 < p.chunkSize)
    (hlive : chunk ∈ s.live) (hput : s.pool.freeChunk chunk = .ok pool) :
    Inv p (s.gaveBack chunk pool) := by
  obtain ⟨i, pool', rfl, _, hput', hfree, hkept, hcounted⟩ := h.freeChunk_eq hpos hlive
  rw [hput'] at hput
  cases hput
  obtain ⟨taken, htaken, hperm, hbelow⟩ := h.taken
  have hn : pool.numberOfChunks = p.numberOfChunks :=
    hkept.numberOfChunks.trans h.kept.numberOfChunks
  have hi : i ∈ taken := by
    rw [htaken] at hlive
    obtain ⟨j, hj, heq⟩ := List.mem_map.mp hlive
    rwa [← chunkAt_injective hpos heq]
  have hmin := MemPool.freeChunk_minFree hput'
  refine ⟨⟨?_, hn, ?_⟩, hcounted, ⟨taken.erase i, ?_, ?_, ?_⟩, h.placed, ?_, ?_, ?_⟩
  · exact hkept.chunkSize.trans h.kept.chunkSize
  · exact hkept.rawMemory.trans h.kept.rawMemory
  · rw [gaveBack, htaken, List.map_erase (chunkAt_injective hpos)]
  · rw [gaveBack, hfree]
    refine List.perm_middle.trans (List.Perm.trans ?_ hperm)
    exact (List.perm_cons_erase hi).symm.append_right _
  · intro index hindex
    exact hbelow index (List.mem_of_mem_erase hindex)
  · rw [gaveBack, hn, List.length_erase_of_mem hlive]
    exact List.mem_cons_self
  · rw [gaveBack, hmin]
    exact List.mem_cons_of_mem _ h.minFree.1
  · intro count hcount
    rw [gaveBack, hmin]
    rcases List.mem_cons.mp hcount with rfl | hcount
    · have hnow := h.minFree.2 _ h.now
      rw [hn]
      omega
    · exact h.minFree.2 count hcount

theorem step_getChunk {chunk : Nat} {pool : MemPool}
    (hget : s.pool.getChunk = some (chunk, pool)) :
    s.step .getChunk = some (s.took chunk pool) := by
  rw [step, hget]

theorem Inv.step {op : Operation} (h : Inv p s) (hpos : 0 < p.chunkSize) (hwithin : s.Within op)
    (hstep : s.step op = some s') : Inv p s' := by
  cases op with
  | getChunk =>
    rw [PoolRun.step] at hstep
    split at hstep
    · cases hstep
      exact h
    · rename_i chunk pool hget
      cases hstep
      exact h.getChunk hwithin hget
  | freeChunk chunk =>
    rw [PoolRun.step] at hstep
    split at hstep
    · rename_i hlive
      split at hstep
      · cases hstep
      · rename_i pool hput
        cases hstep
        exact h.freeChunk hpos hlive hput
    · cases hstep

theorem Inv.sound (h : Inv p s) (hpos : 0 < p.chunkSize) : Sound p s where
  placed := h.placed
  apart := by
    obtain ⟨taken, htaken, hperm, _⟩ := h.taken
    have hnodup : taken.Nodup := (hperm.nodup_iff.mpr List.nodup_range).of_append_left
    rw [htaken, List.pairwise_map]
    exact hnodup.imp chunkAt_apart
  accepted := by
    intro chunk hlive
    obtain ⟨i, pool, rfl, hi, hput, hfree, hkept, hcounted⟩ := h.freeChunk_eq hpos hlive
    refine ⟨pool, hput, ?_⟩
    cases hget : pool.getChunk with
    | none =>
      have hall := (MemPool.getChunk_eq_none hcounted).mp hget
      have hused := hcounted.used
      rw [hfree, List.length_cons] at hused
      omega
    | some r =>
      obtain ⟨j, hj, hchunk, _⟩ := MemPool.getChunk_spec hcounted hget
      rw [hfree, List.cons.injEq] at hj
      obtain ⟨rfl, _⟩ := hj
      have hplace : r.1 = p.chunkAt i := by
        rw [hchunk, hkept.rawMemory, hkept.chunkSize, h.kept.rawMemory, h.kept.chunkSize,
          Nat.mod_eq_of_lt hi]
        rfl
      exact ⟨r.2, by rw [← hplace]⟩
  exhausted := by
    rw [MemPool.getChunk_eq_none h.counted, h.used, h.kept.numberOfChunks]
  used := h.used
  minFree := h.minFree

theorem sound_of_meets (hstart : Inv p (start p)) (hpos : 0 < p.chunkSize) (ops : List Operation)
    (hmeets : Meets step Within (start p) ops) (hrun : runSteps step (start p) ops = some s) :
    Sound p s := by
  have hinv : Inv p s := runSteps_invariant (C := Within) (I := Inv p)
    (fun _ _ _ hs hwithin hstep => hs.step hpos hwithin hstep) ops _ _ hstart hmeets hrun
  exact hinv.sound hpos

theorem run_getChunk (hstart : Inv p (start p)) (hfree : p.free = List.range p.numberOfChunks)
    {k : Nat} (hk : k ≤ p.numberOfChunks) (hbelow : ∀ i < k, i * p.chunkSize < uint32Range) :
    ∃ s, runSteps step (start p) (List.replicate k .getChunk) = some s ∧ Inv p s ∧
      s.pool.free = List.range' k (p.numberOfChunks - k) ∧ (0 < k → p.chunkAt 0 ∈ s.live) := by
  induction k with
  | zero =>
    refine ⟨start p, rfl, hstart, ?_, fun h => absurd h (Nat.lt_irrefl 0)⟩
    rw [← Nat.sub_zero p.numberOfChunks, ← List.range_eq_range'] at *
    exact hfree
  | succ k ih =>
    obtain ⟨s, hrun, hinv, hindices, hfirst⟩ :=
      ih (Nat.le_of_succ_le hk) fun i hi => hbelow i (Nat.lt_succ_of_lt hi)
    have hhead : s.pool.free = k :: List.range' (k + 1) (p.numberOfChunks - (k + 1)) := by
      rw [hindices, show p.numberOfChunks - k = p.numberOfChunks - (k + 1) + 1 by omega,
        List.range'_succ]
    have hwithin : s.Within .getChunk := by
      intro i hi
      rw [hhead] at hi
      cases hi
      rw [hinv.kept.chunkSize]
      exact hbelow k (Nat.lt_succ_self k)
    cases hget : s.pool.getChunk with
    | none =>
      have hall := (MemPool.getChunk_eq_none hinv.counted).mp hget
      have hused := hinv.counted.used
      rw [hhead, List.length_cons] at hused
      omega
    | some r =>
      obtain ⟨chunk, pool⟩ := r
      obtain ⟨i, hi, _, hchunk, _⟩ := getChunk_within hinv.counted hwithin hget
      rw [hhead, List.cons.injEq] at hi
      obtain ⟨rfl, hrest⟩ := hi
      refine ⟨s.took chunk pool, ?_, hinv.getChunk hwithin hget, hrest.symm, ?_⟩
      · rw [List.replicate_succ', runSteps_append, hrun, Option.bind_some, runSteps,
          step_getChunk hget]
        rfl
      · intro _
        rcases Nat.eq_zero_or_pos k with rfl | hpos
        · rw [hchunk, hinv.kept.chunkAt]
          exact List.mem_cons_self
        · exact List.mem_cons_of_mem _ (hfirst hpos)

/-- Past 4 GiB the offset starts again at the bottom of the pool, where the first chunk is. -/
theorem overlap_of_not_fits (hstart : Inv p (start p))
    (hfree : p.free = List.range p.numberOfChunks) (hpos : 0 < p.chunkSize)
    (hlarge : ¬ MemPool.Fits p.chunkSize p.numberOfChunks) :
    ∃ ops s, runSteps step (start p) ops = some s ∧ ¬ Sound p s := by
  have hreach : ∃ i, uint32Range ≤ i * p.chunkSize := ⟨_, Nat.not_lt.mp hlarge⟩
  obtain ⟨i, hi, hleast⟩ : ∃ i, uint32Range ≤ i * p.chunkSize ∧
      ∀ j < i, j * p.chunkSize < uint32Range :=
    ⟨Nat.find hreach, Nat.find_spec hreach, fun j hj => Nat.not_le.mp (Nat.find_min hreach hj)⟩
  have hi0 : 0 < i := by
    rcases Nat.eq_zero_or_pos i with rfl | h
    · rw [Nat.zero_mul] at hi
      exact absurd hi (by decide)
    · exact h
  have hin : i < p.numberOfChunks := by
    by_contra hge
    exact hlarge (hleast (p.numberOfChunks - 1) (by omega))
  obtain ⟨s, hrun, hinv, hindices, hfirst⟩ := run_getChunk hstart hfree hin.le hleast
  have hwrap : i * p.chunkSize % uint32Range < p.chunkSize := by
    have hbefore := hleast (i - 1) (by omega)
    have hsplit : i * p.chunkSize = (i - 1) * p.chunkSize + p.chunkSize := by
      rw [← Nat.succ_mul]
      congr 1
      omega
    have hmod : i * p.chunkSize % uint32Range ≤ i * p.chunkSize - uint32Range := by
      rw [Nat.mod_eq_sub_mod hi]
      exact Nat.mod_le _ _
    omega
  cases hget : s.pool.getChunk with
  | none =>
    have hall := (MemPool.getChunk_eq_none hinv.counted).mp hget
    have hused := hinv.counted.used
    rw [hindices, List.length_range', hinv.kept.numberOfChunks] at hused
    rw [hinv.kept.numberOfChunks] at hall
    omega
  | some r =>
    obtain ⟨chunk, pool⟩ := r
    obtain ⟨j, hj, hchunk, _⟩ := MemPool.getChunk_spec hinv.counted hget
    rw [hindices, show p.numberOfChunks - i = p.numberOfChunks - (i + 1) + 1 by omega,
      List.range'_succ, List.cons.injEq] at hj
    obtain ⟨rfl, _⟩ := hj
    rw [hinv.kept.rawMemory, hinv.kept.chunkSize] at hchunk
    refine ⟨List.replicate i .getChunk ++ [Operation.getChunk], s.took chunk pool, ?_, ?_⟩
    · rw [runSteps_append, hrun, Option.bind_some, runSteps, step_getChunk hget]
      rfl
    · intro hsound
      have hapart := (List.pairwise_cons.mp hsound.apart).1 _ (hfirst hi0)
      rw [hchunk, MemPool.chunkAt, Nat.zero_mul] at hapart
      omega

theorem inv_start_of_create {chunkSize numberOfChunks management chunks : Nat}
    {allocators allocators' : Nat → Allocator}
    (h : MemPool.create chunkSize numberOfChunks management chunks allocators =
      some (p, allocators')) : Inv p (start p) := by
  obtain ⟨hc, hfree, _, _, hn, _⟩ := MemPool.create_spec h
  have hmin := MemPool.create_minFree h
  subst hn
  exact inv_start hc hfree hmin

/-- While `getChunk` takes no index from beyond 4 GiB, whatever the order of the calls, a pool
hands out chunks that lie apart, takes each of them back and counts them; it does so in every run
exactly if no chunk of the pool begins 4 GiB or more behind the first. -/
theorem pool_hands_out_disjoint_chunks {chunkSize numberOfChunks management chunks : Nat}
    {allocators allocators' : Nat → Allocator}
    (h : MemPool.create chunkSize numberOfChunks management chunks allocators =
      some (p, allocators')) :
    (∀ ops s, Meets step Within (start p) ops → runSteps step (start p) ops = some s →
      Sound p s) ∧
    ((∀ ops s, runSteps step (start p) ops = some s → Sound p s) ↔
      MemPool.Fits chunkSize numberOfChunks) := by
  have hstart := inv_start_of_create h
  obtain ⟨_, hfree, _, rfl, rfl, hpos, _⟩ := MemPool.create_spec h
  refine ⟨fun ops s hmeets hrun => sound_of_meets hstart hpos ops hmeets hrun, ?_, ?_⟩
  · intro hall
    by_contra hlarge
    obtain ⟨ops, s, hrun, hunsound⟩ := overlap_of_not_fits hstart hfree hpos hlarge
    exact hunsound (hall ops s hrun)
  · intro hfits ops s hrun
    -- every index of such a pool lies below 4 GiB
    have hinv : Inv p s := by
      refine runSteps_invariant (C := fun _ _ => True) (I := Inv p) ?_ ops _ _ hstart
        (meets_true ops _) hrun
      intro t op t' ht _ hstep
      refine ht.step hpos ?_ hstep
      cases op with
      | getChunk =>
        intro index hindex
        have hlt := ht.counted.rep.lt index (List.mem_of_mem_head? hindex)
        rw [ht.counted.size, ht.kept.numberOfChunks] at hlt
        rw [ht.kept.chunkSize]
        exact Nat.lt_of_le_of_lt (Nat.mul_le_mul_right _ (Nat.le_sub_one_of_lt hlt)) hfits
      | freeChunk chunk => trivial
    exact hinv.sound hpos

def exampleAllocators : Nat → Allocator
  | 0 => { startAddress := 2 ^ 20, length := 2 ^ 10, currentPosition := 0 }
  | _ => { startAddress := 2 ^ 40, length := 2 ^ 33, currentPosition := 0 }

theorem pool_hands_out_disjoint_chunks_small : ∃ p allocators',
    MemPool.create 64 2 0 1 exampleAllocators = some (p, allocators') ∧
    ∀ ops s, runSteps step (start p) ops = some s → Sound p s := by
  obtain ⟨⟨p, allocators'⟩, h⟩ := Option.isSome_iff_exists.mp
    (show (MemPool.create 64 2 0 1 exampleAllocators).isSome by decide)
  exact ⟨p, allocators', h, (pool_hands_out_disjoint_chunks h).2.mpr (by decide)⟩

def liveAfter (chunkSize numberOfChunks count : Nat) : Option (List Nat) :=
  (MemPool.create chunkSize numberOfChunks 0 1 exampleAllocators).bind fun r =>
    (runSteps step (start r.1) (List.replicate count .getChunk)).map (·.live)

theorem liveAfter_eq_some {chunkSize numberOfChunks count : Nat} {live : List Nat}
    (h : liveAfter chunkSize numberOfChunks count = some live) : ∃ p allocators' s,
    MemPool.create chunkSize numberOfChunks 0 1 exampleAllocators = some (p, allocators') ∧
    runSteps step (start p) (List.replicate count .getChunk) = some s ∧ s.live = live := by
  obtain ⟨⟨p, allocators'⟩, hcreate, h⟩ := Option.bind_eq_some_iff.mp h
  obtain ⟨s, hrun, hlive⟩ := Option.map_eq_some_iff.mp h
  exact ⟨p, allocators', s, hcreate, hrun, hlive⟩

theorem third_chunk_overlaps : ∃ p allocators' s,
    MemPool.create (2 ^ 31) 3 0 1 exampleAllocators = some (p, allocators') ∧
    runSteps step (start p) (List.replicate 3 .getChunk) = some s ∧
    s.live = [2 ^ 40, 2 ^ 40 + 2 ^ 31, 2 ^ 40] ∧ ¬ Sound p s := by
  have hrun : liveAfter (2 ^ 31) 3 3 = some [2 ^ 40, 2 ^ 40 + 2 ^ 31, 2 ^ 40] := by
    decide +kernel
  obtain ⟨p, allocators', s, hcreate, hrun, hlive⟩ := liveAfter_eq_some hrun
  refine ⟨p, allocators', s, hcreate, hrun, hlive, ?_⟩
  intro hsound
  obtain ⟨_, _, _, hsize, _⟩ := MemPool.create_spec hcreate
  have hapart := hsound.apart
  rw [hlive] at hapart
  have hfirst := (List.pairwise_cons.mp hapart).1 (2 ^ 40) (by decide)
  omega

end PoolRun

end Iceoryx.Mepoo
