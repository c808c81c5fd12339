import Mathlib.Algebra.Order.BigOperators.Group.List
import Iceoryx.Mepoo.MemoryManager

namespace Iceoryx

namespace Hoofs.Allocator

/-- The blocks lie inside the memory of the allocator, aligned and apart; the
newest comes first. -/
structure Tidy (alignment : Nat) (a : Allocator) : Prop where
  start : alignment ∣ a.startAddress
  aligned : ∀ b ∈ a.blocks, alignment ∣ b.1
  inside : ∀ b ∈ a.blocks, a.startAddress ≤ b.1 ∧ b.1 + b.2 ≤ a.startAddress + a.currentPosition
  apart : a.blocks.Pairwise fun b b' => b'.1 + b'.2 ≤ b.1
  bound : a.currentPosition ≤ a.length

structure Room (alignment need : Nat) (a : Allocator) : Prop extends Tidy alignment a where
  room : align a.currentPosition alignment + need ≤ a.length

structure Same (a a' : Allocator) : Prop where
  startAddress : a'.startAddress = a.startAddress
  length : a'.length = a.length

theorem Same.refl (a : Allocator) : Same a a := ⟨rfl, rfl⟩

theorem Same.trans {a b c : Allocator} (h : Same a b) (h' : Same b c) : Same a c :=
  ⟨h'.startAddress.trans h.startAddress, h'.length.trans h.length⟩

theorem align_add_align {alignment : Nat} (hpos : 0 < alignment) (n size : Nat) :
    align (align n alignment + size) alignment = align n alignment + align size alignment :=
  align_add_of_dvd (dvd_align hpos)

theorem allocate_room {a : Allocator} {alignment size need : Nat} (hpos : 0 < alignment)
    (hsize : 0 < size) (h : a.Room alignment (align size alignment + need)) :
    ∃ address a', a.allocate size alignment = some (address, a') ∧ a'.Room alignment need ∧
      Same a a' := by
  have hroom := h.room
  have hle := le_align size alignment
  have hcur := le_align a.currentPosition alignment
  have hposition : align (a.startAddress + a.currentPosition) alignment - a.startAddress =
      align a.currentPosition alignment := by
    rw [align_add_of_dvd h.start]
    omega
  have hfits : a.length ≥ align a.currentPosition alignment + size := by omega
  have hrun : a.allocate size alignment = some (a.startAddress + align a.currentPosition alignment,
      { a with
        currentPosition := align a.currentPosition alignment + size
        blocks := (a.startAddress + align a.currentPosition alignment, size) :: a.blocks }) := by
    rw [allocate, if_pos hsize]
    simp only [hposition, if_pos hfits]
  refine ⟨_, _, hrun, ?_, ⟨rfl, rfl⟩⟩
  refine ⟨⟨h.start, ?_, ?_, ?_, hfits⟩, ?_⟩
  · intro b hb
    rcases List.mem_cons.mp hb with rfl | hb
    · exact Nat.dvd_add h.start (dvd_align hpos)
    · exact h.aligned b hb
  · intro b hb
    rcases List.mem_cons.mp hb with rfl | hb
    · exact ⟨Nat.le_add_right _ _, Nat.le_of_eq (Nat.add_assoc _ _ _)⟩
    · obtain ⟨hbegin, hend⟩ := h.inside b hb
      exact ⟨hbegin, by simp only; omega⟩
  · refine List.pairwise_cons.mpr ⟨fun b hb => ?_, h.apart⟩
    have := (h.inside b hb).2
    simp only
    omega
  · simp only [align_add_align hpos]
    omega

end Hoofs.Allocator

namespace Mepoo

open Hoofs

namespace MemoryManager

def requiredChunkMemorySize (mePooConfig : MePooConfig) : Nat :=
  mePooConfig.mempoolConfig.foldl (fun memorySize mempoolConfig =>
    (memorySize + align (mempoolConfig.chunkCount * sizeWithChunkHeaderStruct mempoolConfig.size)
      MemPool.chunkMemoryAlignment) % uint64Range) 0

def requiredManagementMemorySize (mePooConfig : MePooConfig) : Nat :=
  let (memorySize, sumOfAllChunks) := mePooConfig.mempoolConfig.foldl (fun acc mempool =>
    ((acc.1 + align (Loffli.requiredIndexMemorySize mempool.chunkCount)
        MemPool.chunkMemoryAlignment) % uint64Range,
      (acc.2 + mempool.chunkCount) % uint32Range)) (0, 0)
  let memorySize := (memorySize + align (sumOfAllChunks * sizeofChunkManagement)
    MemPool.chunkMemoryAlignment) % uint64Range
  (memorySize + align (Loffli.requiredIndexMemorySize sumOfAllChunks)
    MemPool.chunkMemoryAlignment) % uint64Range

end MemoryManager

/-- The configurations that no check of `configureMemoryManager` rejects,
whatever the memory. -/
structure MePooConfig.Accepted (c : MePooConfig) : Prop where
  nonempty : c.mempoolConfig ≠ []
  increasing : c.mempoolConfig.Pairwise fun e e' => e.size < e'.size
  aligned : ∀ e ∈ c.mempoolConfig, MemPool.chunkMemoryAlignment ∣ e.size
  atLeast : ∀ e ∈ c.mempoolConfig, MemPool.chunkMemoryAlignment ≤ e.size
  atMost : ∀ e ∈ c.mempoolConfig, e.size ≤ uint32Range - 1 - sizeofChunkHeader
  count : ∀ e ∈ c.mempoolConfig, 1 ≤ e.chunkCount
  total : (c.mempoolConfig.map MePooConfig.Entry.chunkCount).sum < uint32Range - 2

theorem foldl_add_mod {A : Type} (f : A → Nat) (n : Nat) :
    ∀ (l : List A) (a : Nat), a < n →
      l.foldl (fun acc x => (acc + f x) % n) a = (a + (l.map f).sum) % n := by
  intro l
  induction l with
  | nil =>
    intro a ha
    simpa using (Nat.mod_eq_of_lt ha).symm
  | cons x l ih =>
    intro a ha
    rw [List.foldl_cons, ih _ (Nat.mod_lt _ (by omega))]
    simp [Nat.add_assoc]

theorem foldl_pair {A B C : Type} (f : B → A → B) (g : C → A → C) :
    ∀ (l : List A) (b : B) (c : C),
      l.foldl (fun acc x => (f acc.1 x, g acc.2 x)) (b, c) = (l.foldl f b, l.foldl g c) := by
  intro l
  induction l with
  | nil => exact fun _ _ => rfl
  | cons x l ih => exact fun b c => ih (f b x) (g c x)

namespace MemoryManager

def chunkNeed (entries : List MePooConfig.Entry) : Nat :=
  (entries.map fun e => align (e.chunkCount * sizeWithChunkHeaderStruct e.size)
    MemPool.chunkMemoryAlignment).sum

def indexNeed (entries : List MePooConfig.Entry) : Nat :=
  (entries.map fun e => align (Loffli.requiredIndexMemorySize e.chunkCount)
    MemPool.chunkMemoryAlignment).sum

abbrev Room := Allocator.Room MemPool.chunkMemoryAlignment

theorem create_of_allocate {chunkSize numberOfChunks management chunks raw index : Nat}
    {allocators : Nat → Allocator} {a b : Allocator}
    (hsize : MemPool.chunkMemoryAlignment ≤ chunkSize)
    (haligned : MemPool.chunkMemoryAlignment ∣ chunkSize) (hcount : 1 ≤ numberOfChunks)
    (hbound : numberOfChunks < uint32Range - 2)
    (hraw : (allocators chunks).allocate (numberOfChunks * chunkSize)
      MemPool.chunkMemoryAlignment = some (raw, a))
    (hindex : (Function.update allocators chunks a management).allocate
      (Loffli.requiredIndexMemorySize numberOfChunks) MemPool.chunkMemoryAlignment =
      some (index, b)) :
    ∃ p, MemPool.create chunkSize numberOfChunks management chunks allocators =
      some (p, Function.update (Function.update allocators chunks a) management b) ∧
      p.chunkSize = chunkSize := by
  have hguard : MemPool.chunkMemoryAlignment ≤ chunkSize ∧ 1 ≤ numberOfChunks ∧
      chunkSize % MemPool.chunkMemoryAlignment = 0 :=
    ⟨hsize, hcount, Nat.mod_eq_zero_of_dvd haligned⟩
  have hinit : 0 < numberOfChunks ∧ numberOfChunks < uint32Range - 1 - 1 := by omega
  unfold MemPool.create Loffli.init
  rw [if_pos hguard, if_pos hinit]
  simp only [hraw, hindex, Option.bind_eq_bind, Option.bind_some]
  exact ⟨_, rfl, rfl⟩

theorem create_room {chunkSize numberOfChunks management chunks x y : Nat}
    {allocators : Nat → Allocator} (hne : management ≠ chunks)
    (hsize : MemPool.chunkMemoryAlignment ≤ chunkSize)
    (haligned : MemPool.chunkMemoryAlignment ∣ chunkSize) (hcount : 1 ≤ numberOfChunks)
    (hbound : numberOfChunks < uint32Range - 2)
    (hchunks : Room (align (numberOfChunks * chunkSize) MemPool.chunkMemoryAlignment + x)
      (allocators chunks))
    (hmanagement : Room (align (Loffli.requiredIndexMemorySize numberOfChunks)
      MemPool.chunkMemoryAlignment + y) (allocators management)) :
    ∃ p allocators', MemPool.create chunkSize numberOfChunks management chunks allocators =
      some (p, allocators') ∧ p.chunkSize = chunkSize ∧
      (Room x (allocators' chunks) ∧ Allocator.Same (allocators chunks) (allocators' chunks)) ∧
      (Room y (allocators' management) ∧
        Allocator.Same (allocators management) (allocators' management)) := by
  have hpos : 0 < numberOfChunks * chunkSize := by
    refine Nat.mul_pos hcount (Nat.lt_of_lt_of_le ?_ hsize)
    decide
  obtain ⟨raw, a, hraw, ha, hsame⟩ := Allocator.allocate_room (by decide) hpos hchunks
  obtain ⟨index, b, hindex, hb, hsame'⟩ := Allocator.allocate_room (by decide)
    (by simp [Loffli.requiredIndexMemorySize]) hmanagement
  rw [← Function.update_of_ne hne a allocators] at hindex
  obtain ⟨p, hcreate, hp⟩ := create_of_allocate hsize haligned hcount hbound hraw hindex
  refine ⟨p, _, hcreate, hp, ?_, ?_⟩
  · rw [Function.update_of_ne hne.symm, Function.update_self]
    exact ⟨ha, hsame⟩
  · rw [Function.update_self]
    exact ⟨hb, hsame'⟩

theorem create_room_self (chunkSize need : Nat) {numberOfChunks management : Nat}
    {allocators : Nat → Allocator} (hsize : MemPool.chunkMemoryAlignment ≤ chunkSize)
    (haligned : MemPool.chunkMemoryAlignment ∣ chunkSize) (hcount : 1 ≤ numberOfChunks)
    (hbound : numberOfChunks < uint32Range - 2)
    (hroom : Room (align (numberOfChunks * chunkSize) MemPool.chunkMemoryAlignment +
      (align (Loffli.requiredIndexMemorySize numberOfChunks) MemPool.chunkMemoryAlignment + need))
      (allocators management)) :
    ∃ p allocators', MemPool.create chunkSize numberOfChunks management management allocators =
      some (p, allocators') ∧ Room need (allocators' management) ∧
      Allocator.Same (allocators management) (allocators' management) ∧
      ∀ i, i ≠ management → allocators' i = allocators i := by
  have hpos : 0 < numberOfChunks * chunkSize := by
    refine Nat.mul_pos hcount (Nat.lt_of_lt_of_le ?_ hsize)
    decide
  obtain ⟨raw, a, hraw, ha, hsame⟩ := Allocator.allocate_room (by decide) hpos hroom
  obtain ⟨index, b, hindex, hb, hsame'⟩ := Allocator.allocate_room (by decide)
    (by simp [Loffli.requiredIndexMemorySize]) ha
  rw [← Function.update_self management a allocators] at hindex
  obtain ⟨p, hcreate, _⟩ := create_of_allocate hsize haligned hcount hbound hraw hindex
  refine ⟨p, _, hcreate, ?_, ?_, ?_⟩
  · rw [Function.update_self]
    exact hb
  · rw [Function.update_self]
    exact hsame.trans hsame'
  · intro i hi
    rw [Function.update_of_ne hi, Function.update_of_ne hi]

theorem foldlM_addMemPool_room {management chunks x y : Nat} (hne : management ≠ chunks) :
    ∀ (rest : List MePooConfig.Entry) (c : Pools),
      (∀ e ∈ rest, MemPool.chunkMemoryAlignment ∣ e.size ∧ MemPool.chunkMemoryAlignment ≤ e.size ∧
        e.size ≤ uint32Range - 1 - sizeofChunkHeader ∧ 1 ≤ e.chunkCount) →
      rest.Pairwise (fun e e' => e.size < e'.size) →
      (∀ last ∈ c.memPoolVector.getLast?, ∀ e ∈ rest,
        last.chunkSize < sizeWithChunkHeaderStruct e.size) →
      c.totalNumberOfChunks + (rest.map MePooConfig.Entry.chunkCount).sum < uint32Range - 2 →
      Room (chunkNeed rest + x) (c.allocators chunks) →
      Room (indexNeed rest + y) (c.allocators management) →
      ∃ c', rest.foldlM (addMemPool management chunks) c = some c' ∧
        c'.totalNumberOfChunks = c.totalNumberOfChunks +
          (rest.map MePooConfig.Entry.chunkCount).sum ∧
        (Room x (c'.allocators chunks) ∧
          Allocator.Same (c.allocators chunks) (c'.allocators chunks)) ∧
        (Room y (c'.allocators management) ∧
          Allocator.Same (c.allocators management) (c'.allocators management)) := by
  intro rest
  induction rest with
  | nil =>
    intro c _ _ _ _ hchunks hmanagement
    exact ⟨c, rfl, rfl, ⟨by simpa [chunkNeed] using hchunks, Allocator.Same.refl _⟩,
      ⟨by simpa [indexNeed] using hmanagement, Allocator.Same.refl _⟩⟩
  | cons entry rest ih =>
    intro c hentries hincreasing hlast htotal hchunks hmanagement
    obtain ⟨haligned, hatLeast, hatMost, hcount⟩ := hentries entry List.mem_cons_self
    obtain ⟨hfirst, hincreasing⟩ := List.pairwise_cons.mp hincreasing
    simp only [chunkNeed, indexNeed, List.map_cons, List.sum_cons, Nat.add_assoc]
      at hchunks hmanagement htotal
    obtain ⟨p, allocators, hcreate, hp, ⟨hc, hcsame⟩, hm, hmsame⟩ := create_room hne
      (Nat.le_add_right_of_le hatLeast) (Nat.dvd_add haligned (by decide)) hcount (by omega)
      hchunks hmanagement
    have hadd : addMemPool management chunks c entry = some
        { memPoolVector := c.memPoolVector ++ [p]
          totalNumberOfChunks := c.totalNumberOfChunks + entry.chunkCount
          allocators := allocators } := by
      have hguard : MemPool.chunkMemoryAlignment ≤ entry.size ∧ 1 ≤ entry.chunkCount ∧
          entry.size ≤ uint32Range - 1 - sizeofChunkHeader ∧
          ∀ last ∈ c.memPoolVector.getLast?, last.chunkSize < sizeWithChunkHeaderStruct entry.size :=
        ⟨hatLeast, hcount, hatMost, fun last h => hlast last h entry List.mem_cons_self⟩
      rw [addMemPool, if_pos hguard]
      have hwrap : (c.totalNumberOfChunks + entry.chunkCount) % uint32Range =
          c.totalNumberOfChunks + entry.chunkCount := Nat.mod_eq_of_lt (by omega)
      simp only [sizeWithChunkHeaderStruct] at hcreate ⊢
      simp only [hcreate, Option.bind_eq_bind, Option.bind_some, hwrap]
    obtain ⟨c', hrun, hsum, ⟨hc', hcsame'⟩, hm', hmsame'⟩ := ih
      { memPoolVector := c.memPoolVector ++ [p]
        totalNumberOfChunks := c.totalNumberOfChunks + entry.chunkCount
        allocators := allocators }
      (fun e he => hentries e (List.mem_cons_of_mem _ he)) hincreasing
      (by
        intro last hlast e he
        rw [List.getLast?_append_of_ne_nil _ (by simp)] at hlast
        obtain rfl : p = last := by simpa using hlast
        rw [hp]
        exact Nat.add_lt_add_right (hfirst e he) _)
      (by simp only; omega) hc hm
    refine ⟨c', ?_, ?_, ⟨hc', hcsame.trans hcsame'⟩, hm', hmsame.trans hmsame'⟩
    · rw [List.foldlM_cons, hadd]
      exact hrun
    · rw [hsum]
      simp [Nat.add_assoc]

theorem chunkNeed_le {n : Nat} :
    ∀ entries : List MePooConfig.Entry,
      (∀ e ∈ entries, MemPool.chunkMemoryAlignment ∣ e.size ∧
        sizeWithChunkHeaderStruct e.size ≤ n) →
      chunkNeed entries ≤ n * (entries.map MePooConfig.Entry.chunkCount).sum := by
  intro entries
  induction entries with
  | nil => simp [chunkNeed]
  | cons e entries ih =>
    intro h
    obtain ⟨haligned, hle⟩ := h e List.mem_cons_self
    have hdvd : MemPool.chunkMemoryAlignment ∣ e.chunkCount * sizeWithChunkHeaderStruct e.size :=
      Nat.dvd_mul_left_of_dvd (Nat.dvd_add haligned (by decide)) _
    have hrest := ih fun e he => h e (List.mem_cons_of_mem _ he)
    have hfirst : e.chunkCount * sizeWithChunkHeaderStruct e.size ≤ n * e.chunkCount := by
      rw [Nat.mul_comm]
      exact Nat.mul_le_mul_right _ hle
    simp only [chunkNeed, List.map_cons, List.sum_cons, align_eq_self hdvd, Nat.mul_add] at hrest ⊢
    omega

theorem indexNeed_le :
    ∀ entries : List MePooConfig.Entry, (∀ e ∈ entries, 1 ≤ e.chunkCount) →
      indexNeed entries ≤ 16 * (entries.map MePooConfig.Entry.chunkCount).sum := by
  intro entries
  induction entries with
  | nil => simp [indexNeed]
  | cons e entries ih =>
    intro h
    have hrest := ih fun e he => h e (List.mem_cons_of_mem _ he)
    have hfirst : align (Loffli.requiredIndexMemorySize e.chunkCount)
        MemPool.chunkMemoryAlignment + 4 ≤
        Loffli.requiredIndexMemorySize e.chunkCount + MemPool.chunkMemoryAlignment :=
      align_le_of_dvd (Nat.dvd_mul_left 4 _) (by decide) (by decide)
    have hcount := h e List.mem_cons_self
    simp only [indexNeed, List.map_cons, List.sum_cons, Nat.mul_add] at hrest ⊢
    simp only [Loffli.requiredIndexMemorySize, MemPool.chunkMemoryAlignment] at hfirst hrest ⊢
    omega

theorem requiredChunkMemorySize_eq {c : MePooConfig} (h : c.Accepted) :
    requiredChunkMemorySize c = chunkNeed c.mempoolConfig := by
  have hle := chunkNeed_le (n := uint32Range) c.mempoolConfig fun e he => by
    refine ⟨h.aligned e he, ?_⟩
    have := h.atMost e he
    unfold sizeWithChunkHeaderStruct sizeofChunkHeader uint32Range at *
    omega
  have htotal := h.total
  have hlt : chunkNeed c.mempoolConfig < uint64Range := by
    unfold uint32Range at hle htotal
    unfold uint64Range
    omega
  rw [requiredChunkMemorySize, foldl_add_mod _ _ _ _ (by decide), Nat.zero_add]
  exact Nat.mod_eq_of_lt hlt

theorem requiredManagementMemorySize_eq {c : MePooConfig} (h : c.Accepted) :
    requiredManagementMemorySize c = indexNeed c.mempoolConfig +
      (align ((c.mempoolConfig.map MePooConfig.Entry.chunkCount).sum * sizeofChunkManagement)
        MemPool.chunkMemoryAlignment +
      align (Loffli.requiredIndexMemorySize
        (c.mempoolConfig.map MePooConfig.Entry.chunkCount).sum)
        MemPool.chunkMemoryAlignment) := by
  have hindex := indexNeed_le c.mempoolConfig h.count
  have htotal := h.total
  have hfold := foldl_pair
    (fun a (e : MePooConfig.Entry) => (a + align (Loffli.requiredIndexMemorySize e.chunkCount)
      MemPool.chunkMemoryAlignment) % uint64Range)
    (fun a (e : MePooConfig.Entry) => (a + e.chunkCount) % uint32Range) c.mempoolConfig 0 0
  rw [foldl_add_mod _ _ _ _ (by decide), foldl_add_mod _ _ _ _ (by decide), Nat.zero_add,
    Nat.zero_add] at hfold
  change _ = (indexNeed c.mempoolConfig % _, (c.mempoolConfig.map MePooConfig.Entry.chunkCount).sum
    % _) at hfold
  simp only [requiredManagementMemorySize, hfold]
  generalize (c.mempoolConfig.map MePooConfig.Entry.chunkCount).sum = total at *
  have hpad : ∀ n, align n MemPool.chunkMemoryAlignment + 1 ≤ n + MemPool.chunkMemoryAlignment :=
    fun n => align_le_of_dvd (one_dvd n) (one_dvd _) (by decide)
  have hblocks := hpad (total * sizeofChunkManagement)
  have hlist := hpad (Loffli.requiredIndexMemorySize total)
  rw [Nat.mod_eq_of_lt (a := total) (by omega)]
  simp only [Loffli.requiredIndexMemorySize, MemPool.chunkMemoryAlignment, sizeofChunkManagement,
    uint32Range, uint64Range] at *
  omega

theorem room_of_empty {startAddress : Nat} (length : Nat)
    (h : MemPool.chunkMemoryAlignment ∣ startAddress) :
    Room length { startAddress := startAddress, length := length, currentPosition := 0 } := by
  refine ⟨⟨h, by simp, by simp, List.Pairwise.nil, Nat.zero_le _⟩, ?_⟩
  simp [align]

theorem Room.blocks {need : Nat} {a a' : Allocator} (h : Room need a') (hsame : a.Same a') :
    (∀ b ∈ a'.blocks, MemPool.chunkMemoryAlignment ∣ b.1 ∧ a.startAddress ≤ b.1 ∧
      b.1 + b.2 ≤ a.startAddress + a.length) ∧
      a'.blocks.Pairwise fun b b' => b'.1 + b'.2 ≤ b.1 := by
  refine ⟨fun b hb => ?_, h.apart⟩
  obtain ⟨hbegin, hend⟩ := h.inside b hb
  have hbound := h.bound
  rw [hsame.startAddress] at hbegin hend
  rw [hsame.length] at hbound
  exact ⟨h.aligned b hb, hbegin, by omega⟩

/-- Exactly the predicted memory is enough, and what is handed out of it is
aligned, inside and apart. -/
theorem configureMemoryManager_sized {mePooConfig : MePooConfig} (h : mePooConfig.Accepted)
    {management chunks : Nat} (hne : management ≠ chunks) {allocators : Nat → Allocator}
    (managementMemory chunkMemory : Nat)
    (hmaligned : MemPool.chunkMemoryAlignment ∣ managementMemory)
    (hcaligned : MemPool.chunkMemoryAlignment ∣ chunkMemory)
    (hm : allocators management =
      { startAddress := managementMemory
        length := requiredManagementMemorySize mePooConfig
        currentPosition := 0 })
    (hc : allocators chunks =
      { startAddress := chunkMemory
        length := requiredChunkMemorySize mePooConfig
        currentPosition := 0 }) :
    ∃ mm allocators', configureMemoryManager mePooConfig management chunks allocators =
        some (mm, allocators') ∧
      ∀ i, i = management ∨ i = chunks →
        (∀ b ∈ (allocators' i).blocks, MemPool.chunkMemoryAlignment ∣ b.1 ∧
          (allocators i).startAddress ≤ b.1 ∧
          b.1 + b.2 ≤ (allocators i).startAddress + (allocators i).length) ∧
        (allocators' i).blocks.Pairwise fun b b' => b'.1 + b'.2 ≤ b.1 := by
  have htotal := h.total
  have hnonempty : 1 ≤ (mePooConfig.mempoolConfig.map MePooConfig.Entry.chunkCount).sum := by
    obtain ⟨e, he⟩ := List.exists_mem_of_ne_nil _ h.nonempty
    exact (h.count e he).trans (List.single_le_sum (by simp) _ (List.mem_map_of_mem he))
  have hcroom : Room (chunkNeed mePooConfig.mempoolConfig + 0) (allocators chunks) := by
    rw [hc, requiredChunkMemorySize_eq h]
    exact room_of_empty _ hcaligned
  have hmroom := room_of_empty (requiredManagementMemorySize mePooConfig) hmaligned
  rw [← hm, requiredManagementMemorySize_eq h] at hmroom
  obtain ⟨c, hpools, hsum, ⟨hcdone, hcsame⟩, hmdone, hmsame⟩ := foldlM_addMemPool_room hne
    mePooConfig.mempoolConfig
    { memPoolVector := [], totalNumberOfChunks := 0, allocators := allocators }
    (fun e he => ⟨h.aligned e he, h.atLeast e he, h.atMost e he, h.count e he⟩) h.increasing
    (by simp) (by simpa using htotal) hcroom hmroom
  simp only [Nat.zero_add] at hsum hcsame hmsame
  rw [← hsum] at hmdone htotal hnonempty
  obtain ⟨p, allocators', hcreate, hlast, hlastsame, hother⟩ := create_room_self
    sizeofChunkManagement 0 (by decide) (by decide) hnonempty htotal hmdone
  have hconfigure : ∃ mm, configureMemoryManager mePooConfig management chunks allocators =
      some (mm, allocators') := by
    rw [configureMemoryManager, hpools]
    simp only [Option.bind_eq_bind, Option.bind_some, generateChunkManagementPool, hcreate]
    exact ⟨_, rfl⟩
  obtain ⟨mm, hconfigure⟩ := hconfigure
  refine ⟨mm, allocators', hconfigure, ?_⟩
  rintro i (rfl | rfl)
  · exact Room.blocks hlast (hmsame.trans hlastsame)
  · rw [hother i hne.symm]
    exact Room.blocks hcdone hcsame

def twoPools : MePooConfig where
  mempoolConfig := [{ size := 8, chunkCount := 2 }, { size := 128, chunkCount := 3 }]
  bounded := by decide

theorem twoPools_accepted : twoPools.Accepted where
  nonempty := by decide
  increasing := by decide
  aligned := by decide
  atLeast := by decide
  atMost := by decide
  count := by decide
  total := by decide

def twoBlocks (i : Nat) : Allocator where
  startAddress := if i = 0 then 4096 else 65536
  length := if i = 0 then requiredManagementMemorySize twoPools
    else requiredChunkMemorySize twoPools
  currentPosition := 0

theorem configureMemoryManager_sized_twoPools :
    ∃ mm allocators', configureMemoryManager twoPools 0 1 twoBlocks = some (mm, allocators') ∧
      ∀ i, i = 0 ∨ i = 1 →
        (∀ b ∈ (allocators' i).blocks, MemPool.chunkMemoryAlignment ∣ b.1 ∧
          (twoBlocks i).startAddress ≤ b.1 ∧
          b.1 + b.2 ≤ (twoBlocks i).startAddress + (twoBlocks i).length) ∧
        (allocators' i).blocks.Pairwise fun b b' => b'.1 + b'.2 ≤ b.1 :=
  configureMemoryManager_sized twoPools_accepted (by decide) 4096 65536 (by decide) (by decide)
    rfl rfl

end MemoryManager

end Mepoo

end Iceoryx
