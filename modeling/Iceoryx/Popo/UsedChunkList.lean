import Mathlib.Algebra.BigOperators.Group.Multiset.Basic
import Iceoryx.Mepoo.SharedChunk

/-! `popo::UsedChunkList`: the chunks an application holds.  The entries live in
`m_listData`; a used list and a free list are threaded through `m_listIndices`.
`INVALID_INDEX` is the capacity. -/

namespace Iceoryx.Popo

open Mepoo Lib

structure UsedChunkList where
  capacity : Nat
  usedListHead : Nat
  freeListHead : Nat
  listIndices : Nat → Nat
  listData : List (Option Nat)

namespace UsedChunkList

def init (capacity : Nat) : UsedChunkList where
  capacity := capacity
  usedListHead := capacity
  freeListHead := 0
  listIndices := fun i => if i < capacity then i + 1 else capacity
  listData := List.replicate capacity none

/-- `insert` owns its by-value parameter: the caller has made the copy, the end
of the call destroys it. -/
def insert (l : UsedChunkList) (chunk : Nat) :
    Prog Halt MemoryManager (Bool × UsedChunkList) :=
  if l.freeListHead ≠ l.capacity then do
    let nextFree := l.listIndices l.freeListHead
    let l := { l with
      listIndices := Function.update l.listIndices l.freeListHead l.usedListHead
      usedListHead := l.freeListHead }
    -- `DataElement_t(chunk)` copies its argument and keeps the copy
    SharedChunk.incrementReferenceCounter chunk
    let l := { l with
      listData := l.listData.set l.usedListHead (some chunk)
      freeListHead := nextFree }
    SharedChunk.decrementReferenceCounter chunk
    pure (true, l)
  else do
    SharedChunk.decrementReferenceCounter chunk
    pure (false, l)

def findEntry (mm : MemoryManager) (l : UsedChunkList) (chunkHeader : Nat) :
    Nat → Nat → Nat → Except Halt (Option (Nat × Nat × Nat))
  | 0, _, _ => .error .blocked
  | fuel + 1, previous, current =>
    if current = l.capacity then .ok none
    else
      match l.listData[current]?.join with
      | some m =>
        if (mm.blocks m).chunkHeader = chunkHeader then .ok (some (previous, current, m))
        else findEntry mm l chunkHeader fuel current (l.listIndices current)
      | none => findEntry mm l chunkHeader fuel current (l.listIndices current)

def unlink (l : UsedChunkList) (previous current : Nat) : UsedChunkList :=
  let l := { l with listData := l.listData.set current none }
  let l :=
    if current = l.usedListHead then { l with usedListHead := l.listIndices current }
    else { l with
      listIndices := Function.update l.listIndices previous (l.listIndices current) }
  { l with
    listIndices := Function.update l.listIndices current l.freeListHead
    freeListHead := current }

/-- The reference that `remove` hands out through its second parameter. -/
def remove (l : UsedChunkList) (chunkHeader : Nat) :
    Prog Halt MemoryManager (Option Nat × UsedChunkList) := fun mm =>
  match findEntry mm l chunkHeader (l.capacity + 1) l.capacity l.usedListHead with
  | .error e => .error e
  | .ok none => .ok ((none, l), mm)
  | .ok (some (previous, current, m)) => .ok ((some m, l.unlink previous current), mm)

def releaseEntry : Option Nat → Prog Halt MemoryManager PUnit
  | none => pure ⟨⟩
  | some m => SharedChunk.decrementReferenceCounter m

def cleanup (l : UsedChunkList) : Prog Halt MemoryManager UsedChunkList := do
  l.listData.forM releaseEntry
  pure (init l.capacity)

def slots (l : UsedChunkList) : Multiset Nat :=
  (l.listData.map fun d => d.elim 0 fun m => {m}).sum

/-- The used list runs through `used`, the free list through `free`, and
together they are all the entries. -/
structure Threaded (l : UsedChunkList) (used free : List Nat) : Prop where
  usedChain : Chain l.listIndices (· = l.capacity) l.usedListHead used
  freeChain : Chain l.listIndices (· = l.capacity) l.freeListHead free
  perm : (used ++ free).Perm (List.range l.capacity)
  length : l.listData.length = l.capacity
  data : ∀ i, (∃ m, l.listData[i]? = some (some m)) ↔ i ∈ used

def Ok (l : UsedChunkList) : Prop := ∃ used free, l.Threaded used free

variable {l : UsedChunkList} {used free : List Nat} {E : Halt → Prop} {H : Nat → Nat}
  {refs : Multiset Nat}

theorem Threaded.nodup (h : l.Threaded used free) : (used ++ free).Nodup :=
  h.perm.nodup_iff.mpr List.nodup_range

theorem Threaded.lt (h : l.Threaded used free) {i : Nat} (hi : i ∈ used ++ free) :
    i < l.capacity :=
  List.mem_range.mp (h.perm.mem_iff.mp hi)

theorem Threaded.empty_of_notMem (h : l.Threaded used free) {i : Nat} (hi : i < l.capacity)
    (hnot : i ∉ used) : l.listData[i]? = some none := by
  have hlen : i < l.listData.length := h.length ▸ hi
  rw [List.getElem?_eq_getElem hlen]
  cases hd : l.listData[i] with
  | none => rfl
  | some m =>
    refine absurd ((h.data i).mp ⟨m, ?_⟩) hnot
    rw [List.getElem?_eq_getElem hlen, hd]

theorem chain_init (capacity : Nat) : ∀ k i, i + k = capacity →
    Chain (init capacity).listIndices (· = capacity) i (List.range' i k) := by
  intro k
  induction k with
  | zero =>
    intro i hi
    exact hi
  | succ k ih =>
    intro i hi
    have hnext : (init capacity).listIndices i = i + 1 := if_pos (by omega)
    refine ⟨rfl, by omega, ?_⟩
    rw [hnext]
    exact ih (i + 1) (by omega)

theorem init_threaded (capacity : Nat) :
    (init capacity).Threaded [] (List.range capacity) where
  usedChain := rfl
  freeChain := by
    rw [List.range_eq_range']
    exact chain_init capacity capacity 0 (by omega)
  perm := List.Perm.refl _
  length := List.length_replicate
  data := by simp [init, List.getElem?_replicate]

theorem init_ok (capacity : Nat) : (init capacity).Ok :=
  ⟨_, _, init_threaded capacity⟩

@[simp] theorem init_slots (capacity : Nat) : (init capacity).slots = 0 := by
  simp [slots, init]

theorem slots_set {i : Nat} {d : Option Nat} (hi : l.listData[i]? = some d)
    (l' : UsedChunkList) (d' : Option Nat) (hdata : l'.listData = l.listData.set i d') :
    l'.slots + (d.elim 0 fun m => {m}) = l.slots + (d'.elim 0 fun m => {m}) := by
  unfold slots
  rw [hdata]
  exact sum_map_set _ d d' l.listData i hi

def inserted (l : UsedChunkList) (m : Nat) : UsedChunkList :=
  { l with
    listIndices := Function.update l.listIndices l.freeListHead l.usedListHead
    usedListHead := l.freeListHead
    listData := l.listData.set l.freeListHead (some m)
    freeListHead := l.listIndices l.freeListHead }

theorem inserted_threaded {f : Nat} {rest : List Nat} (m : Nat)
    (h : l.Threaded used (f :: rest)) :
    (l.inserted m).Threaded (f :: used) rest ∧ (l.inserted m).slots = m ::ₘ l.slots := by
  obtain ⟨hf, hstop, hrest⟩ := h.freeChain
  have hnodup : (f :: (used ++ rest)).Nodup := List.perm_middle.nodup_iff.mp h.nodup
  obtain ⟨hnot, _⟩ := List.nodup_cons.mp hnodup
  obtain ⟨hused, hfree⟩ := not_or.mp (mt List.mem_append.mpr hnot)
  have hlt : f < l.capacity := h.lt (by simp)
  have hempty := h.empty_of_notMem hlt hused
  have hslots : (l.inserted m).slots = m ::ₘ l.slots := by
    have := slots_set hempty (l.inserted m) (some m) (by rw [inserted, hf])
    simpa [add_comm] using this
  refine ⟨⟨?_, ?_, ?_, ?_, ?_⟩, hslots⟩
  · change Chain (Function.update l.listIndices l.freeListHead l.usedListHead) _
      l.freeListHead (f :: used)
    rw [hf]
    exact h.usedChain.push hused hstop
  · change Chain (Function.update l.listIndices l.freeListHead l.usedListHead) _
      (l.listIndices l.freeListHead) rest
    rw [hf]
    exact hrest.update hfree
  · exact List.perm_middle.symm.trans h.perm
  · exact List.length_set.trans h.length
  · intro i
    change (∃ x, (l.listData.set l.freeListHead (some m))[i]? = some (some x)) ↔ _
    rw [hf, List.getElem?_set, List.mem_cons]
    by_cases hi : f = i
    · subst hi
      simp [h.length, hlt]
    · simp only [hi, if_false, Ne.symm hi, false_or]
      exact h.data i

theorem keepsShape_insert (l : UsedChunkList) (m : Nat) :
    MemoryManager.KeepsShape (l.insert m) := by
  intro sizes
  unfold insert
  split
  · exact Triple.bind (MemoryManager.keepsShape_increment m sizes) fun _ =>
      Triple.bind (MemoryManager.keepsShape_decrement m sizes) fun _ => Triple.pure fun _ h => h
  · exact Triple.bind (MemoryManager.keepsShape_decrement m sizes) fun _ =>
      Triple.pure fun _ h => h

theorem keepsShape_remove (l : UsedChunkList) (chunkHeader : Nat) :
    MemoryManager.KeepsShape (l.remove chunkHeader) := by
  intro sizes mm h
  unfold remove
  split
  · exact True.intro
  · exact h
  · exact h

theorem keepsShape_cleanup (l : UsedChunkList) : MemoryManager.KeepsShape l.cleanup := by
  intro sizes
  have hentry : ∀ o, Triple (fun _ => True) (fun mm : MemoryManager => mm.shape = sizes)
      (releaseEntry o) fun _ mm => mm.shape = sizes := by
    intro o
    cases o with
    | none => exact Triple.pure fun _ h => h
    | some m => exact MemoryManager.keepsShape_decrement m sizes
  exact Triple.bind (Triple.forM_mem l.listData fun o _ => hentry o) fun _ =>
    Triple.pure fun _ h => h

theorem insert_triple (h : l.Ok) (m : Nat) :
    Triple E (MemoryManager.Ledger H (m ::ₘ refs)) (l.insert m) fun r mm =>
      (r.1 = true ∧ r.2.Ok ∧ r.2.slots = m ::ₘ l.slots ∧
        MemoryManager.Ledger H (m ::ₘ refs) mm) ∨
      (r = (false, l) ∧ MemoryManager.Ledger H refs mm) := by
  obtain ⟨used, free, h⟩ := h
  unfold insert
  by_cases hfull : l.freeListHead ≠ l.capacity
  · rw [if_pos hfull]
    cases free with
    | nil => exact absurd h.freeChain hfull
    | cons f rest =>
      obtain ⟨hthreaded, hslots⟩ := inserted_threaded m h
      refine Triple.bind (MemoryManager.increment_triple (Multiset.mem_cons_self m refs))
        fun _ => Triple.bind MemoryManager.decrement_triple fun _ => Triple.pure ?_
      intro mm hmm
      exact Or.inl ⟨rfl, ⟨_, _, hthreaded⟩, hslots, hmm⟩
  · rw [if_neg hfull]
    refine Triple.bind MemoryManager.decrement_triple fun _ => Triple.pure ?_
    intro mm hmm
    exact Or.inr ⟨rfl, hmm⟩

theorem Threaded.mem_slots (h : l.Threaded used free) {m : Nat} :
    m ∈ l.slots ↔ ∃ i ∈ used, l.listData[i]? = some (some m) := by
  unfold slots
  rw [mem_sum_map]
  constructor
  · rintro ⟨d, hd, hm⟩
    obtain ⟨i, hi⟩ := List.mem_iff_getElem?.mp hd
    cases d with
    | none => simp at hm
    | some x =>
      obtain rfl : m = x := by simpa using hm
      exact ⟨i, (h.data i).mp ⟨m, hi⟩, hi⟩
  · rintro ⟨i, _, hi⟩
    exact ⟨some m, List.mem_of_getElem? hi, by simp⟩

/-- The loop of `remove` stops at the first entry of the used list with the
header, after the entry that links to it, or runs through the whole list. -/
theorem findEntry_spec {mm : MemoryManager} {chunkHeader : Nat} :
    ∀ (cells : List Nat) (fuel previous current : Nat), cells.length < fuel →
      Chain l.listIndices (· = l.capacity) current cells →
      (∀ i ∈ cells, ∃ m, l.listData[i]? = some (some m)) →
      (findEntry mm l chunkHeader fuel previous current = .ok none ∧
        ∀ i ∈ cells, ∀ m, l.listData[i]? = some (some m) →
          (mm.blocks m).chunkHeader ≠ chunkHeader) ∨
      ∃ before i after m prev, cells = before ++ i :: after ∧
        findEntry mm l chunkHeader fuel previous current = .ok (some (prev, i, m)) ∧
        l.listData[i]? = some (some m) ∧ (mm.blocks m).chunkHeader = chunkHeader ∧
        ((before = [] ∧ prev = previous) ∨ ∃ init, before = init ++ [prev]) := by
  intro cells
  induction cells with
  | nil =>
    intro fuel previous current hfuel hchain _
    have hend : current = l.capacity := hchain
    cases fuel with
    | zero => simp at hfuel
    | succ fuel => exact Or.inl ⟨by simp [findEntry, hend], by simp⟩
  | cons j rest ih =>
    intro fuel previous current hfuel hchain hdata
    obtain ⟨rfl, hstop, hrest⟩ := hchain
    obtain ⟨m, hm⟩ := hdata current List.mem_cons_self
    cases fuel with
    | zero => simp at hfuel
    | succ fuel =>
      by_cases hheader : (mm.blocks m).chunkHeader = chunkHeader
      · refine Or.inr ⟨[], current, rest, m, previous, rfl, ?_, hm, hheader, Or.inl ⟨rfl, rfl⟩⟩
        simp [findEntry, hstop, hm, hheader]
      · have hnext : findEntry mm l chunkHeader (fuel + 1) previous current =
            findEntry mm l chunkHeader fuel current (l.listIndices current) := by
          simp [findEntry, hstop, hm, hheader]
        rw [hnext]
        have hfuel' : rest.length < fuel := by simpa using hfuel
        rcases ih fuel current (l.listIndices current) hfuel' hrest
            (fun i hi => hdata i (List.mem_cons_of_mem _ hi)) with
          ⟨hfind, hnone⟩ | ⟨before, i, after, x, prev, rfl, hfind, hx, hxh, hprev⟩
        · refine Or.inl ⟨hfind, ?_⟩
          intro i hi x hx
          rcases List.mem_cons.mp hi with rfl | hi
          · obtain rfl : m = x := by simpa [hm] using hx
            exact hheader
          · exact hnone i hi x hx
        · refine Or.inr ⟨current :: before, i, after, x, prev, rfl, hfind, hx, hxh, Or.inr ?_⟩
          rcases hprev with ⟨rfl, rfl⟩ | ⟨init, rfl⟩
          · exact ⟨[], rfl⟩
          · exact ⟨current :: init, rfl⟩

theorem unlink_capacity (previous current : Nat) :
    (l.unlink previous current).capacity = l.capacity := by
  unfold unlink
  simp only
  split <;> rfl

theorem unlink_listData (previous current : Nat) :
    (l.unlink previous current).listData = l.listData.set current none := by
  unfold unlink
  simp only
  split <;> rfl

theorem unlink_head (l : UsedChunkList) (previous : Nat) :
    l.unlink previous l.usedListHead =
      { l with
        listData := l.listData.set l.usedListHead none
        usedListHead := l.listIndices l.usedListHead
        listIndices := Function.update l.listIndices l.usedListHead l.freeListHead
        freeListHead := l.usedListHead } := by
  simp [unlink]

theorem unlink_inner {previous current : Nat} (h : current ≠ l.usedListHead) :
    l.unlink previous current =
      { l with
        listData := l.listData.set current none
        listIndices := Function.update
          (Function.update l.listIndices previous (l.listIndices current)) current l.freeListHead
        freeListHead := current } := by
  simp [unlink, h]

theorem unlink_chains {before after : List Nat} {i previous : Nat}
    (hchain : Chain l.listIndices (· = l.capacity) l.usedListHead (before ++ i :: after))
    (hfree : Chain l.listIndices (· = l.capacity) l.freeListHead free)
    (hnodup : ((before ++ i :: after) ++ free).Nodup)
    (hprev : (before = [] ∧ previous = l.capacity) ∨ ∃ init, before = init ++ [previous]) :
    Chain (l.unlink previous i).listIndices (· = l.capacity) (l.unlink previous i).usedListHead
      (before ++ after) ∧
    Chain (l.unlink previous i).listIndices (· = l.capacity) (l.unlink previous i).freeListHead
      (i :: free) := by
  have hstop : ¬ i = l.capacity := hchain.not_stop i (by simp)
  have hifree : i ∉ free := by
    intro hmem
    exact List.disjoint_of_nodup_append hnodup (by simp) hmem
  have husedNodup : (before ++ i :: after).Nodup := hnodup.of_append_left
  have hiused : i ∉ before ++ after :=
    (List.nodup_cons.mp (List.perm_middle.nodup_iff.mp husedNodup)).1
  rcases hprev with ⟨rfl, rfl⟩ | ⟨init, rfl⟩
  · obtain ⟨rfl, _, hrest⟩ := hchain
    rw [unlink_head]
    exact ⟨hrest.update (by simpa using hiused), hfree.push hifree hstop⟩
  · have hhead : i ≠ l.usedListHead := by
      intro heq
      apply hiused
      cases init with
      | nil =>
        have : l.usedListHead = previous := hchain.1
        simp [heq, this]
      | cons a init =>
        have : l.usedListHead = a := hchain.1
        simp [heq, this]
    have hpfree : previous ∉ free := by
      intro hmem
      exact List.disjoint_of_nodup_append hnodup (by simp) hmem
    rw [unlink_inner hhead]
    simp only [List.append_assoc, List.singleton_append] at *
    exact ⟨(hchain.unlink husedNodup).update hiused, (hfree.update hpfree).push hifree hstop⟩

theorem unlink_threaded {before after : List Nat} {i m previous : Nat}
    (h : l.Threaded (before ++ i :: after) free) (hm : l.listData[i]? = some (some m))
    (hprev : (before = [] ∧ previous = l.capacity) ∨ ∃ init, before = init ++ [previous]) :
    (l.unlink previous i).Threaded (before ++ after) (i :: free) ∧
      l.slots = m ::ₘ (l.unlink previous i).slots := by
  have hlt : i < l.capacity := h.lt (by simp)
  have hiused : i ∉ before ++ after :=
    (List.nodup_cons.mp (List.perm_middle.nodup_iff.mp h.nodup.of_append_left)).1
  have hdata : (l.unlink previous i).listData = l.listData.set i none := unlink_listData _ _
  have hcapacity : (l.unlink previous i).capacity = l.capacity := unlink_capacity _ _
  have hslots := slots_set hm (l.unlink previous i) none hdata
  obtain ⟨hused, hfree⟩ := unlink_chains h.usedChain h.freeChain h.nodup hprev
  refine ⟨⟨hcapacity ▸ hused, hcapacity ▸ hfree, ?_, ?_, ?_⟩, by simpa [add_comm] using hslots.symm⟩
  · rw [hcapacity]
    refine List.Perm.trans ?_ h.perm
    rw [List.append_assoc, List.append_assoc, List.cons_append]
    exact List.Perm.append_left before List.perm_middle
  · rw [hcapacity, hdata, List.length_set]
    exact h.length
  · intro j
    rw [hdata, List.getElem?_set]
    by_cases hj : i = j
    · subst hj
      simp [h.length, hlt, hiused]
    · have hmem : j ∈ before ++ after ↔ j ∈ before ++ i :: after := by
        simp [Ne.symm hj]
      simp only [hj, if_false, hmem]
      exact h.data j

theorem Threaded.length_le (h : l.Threaded used free) : used.length ≤ l.capacity := by
  have := h.perm.length_eq
  simp only [List.length_append, List.length_range] at this
  omega

theorem Threaded.card_slots (h : l.Threaded used free) : l.slots.card = used.length := by
  let size (i : Nat) : Nat := (l.listData[i]?.join.elim 0 fun m => ({m} : Multiset Nat)).card
  have hdata : (l.listData.map fun d => (d.elim 0 fun m => ({m} : Multiset Nat)).card) =
      (List.range l.capacity).map size := by
    refine List.ext_getElem (by simp [h.length]) fun i hi _ => ?_
    have hlt : i < l.listData.length := by simpa using hi
    simp [size, List.getElem?_eq_getElem hlt]
  have hused : used.map size = used.map fun _ => 1 := by
    refine List.map_congr_left fun i hi => ?_
    obtain ⟨m, hm⟩ := (h.data i).mpr hi
    simp [size, hm]
  have hfree : free.map size = free.map fun _ => 0 := by
    refine List.map_congr_left fun i hi => ?_
    have hnot : i ∉ used := fun hmem => List.disjoint_of_nodup_append h.nodup hmem hi
    simp [size, h.empty_of_notMem (h.lt (List.mem_append_right used hi)) hnot]
  rw [slots, card_sum_map, hdata, ← (h.perm.map size).sum_eq, List.map_append, hused, hfree]
  simp

theorem Threaded.hasFreeSpace_iff (h : l.Threaded used free) :
    l.freeListHead ≠ l.capacity ↔ l.slots.card < l.capacity := by
  have hlen := h.perm.length_eq
  rw [List.length_append, List.length_range] at hlen
  rw [h.card_slots]
  cases free with
  | nil =>
    have hend : l.freeListHead = l.capacity := h.freeChain
    rw [List.length_nil] at hlen
    omega
  | cons f rest =>
    obtain ⟨hf, hstop, _⟩ := h.freeChain
    rw [List.length_cons] at hlen
    exact iff_of_true (hf ▸ hstop) (by omega)

theorem remove_returns (h : l.Ok) (mm : MemoryManager) (chunkHeader : Nat) :
    (l.remove chunkHeader mm = .ok ((none, l), mm) ∧
      ∀ m ∈ l.slots, (mm.blocks m).chunkHeader ≠ chunkHeader) ∨
    ∃ m l', l.remove chunkHeader mm = .ok ((some m, l'), mm) ∧
      (mm.blocks m).chunkHeader = chunkHeader ∧ l'.Ok ∧ l'.capacity = l.capacity ∧
      l.slots = m ::ₘ l'.slots := by
  obtain ⟨used, free, h⟩ := h
  unfold remove
  rcases findEntry_spec used (l.capacity + 1) l.capacity l.usedListHead
      (Nat.lt_succ_of_le h.length_le) h.usedChain (fun i hi => (h.data i).mpr hi) with
    ⟨hfind, hnone⟩ | ⟨before, i, after, m, previous, rfl, hfind, hm, hmh, hprev⟩
  · rw [hfind]
    refine Or.inl ⟨rfl, fun m hm => ?_⟩
    obtain ⟨i, hi, hdata⟩ := h.mem_slots.mp hm
    exact hnone i hi m hdata
  · rw [hfind]
    obtain ⟨hthreaded, hslots⟩ := unlink_threaded h hm hprev
    exact Or.inr ⟨m, _, rfl, hmh, ⟨_, _, hthreaded⟩, unlink_capacity _ _, hslots⟩

theorem remove_triple (h : l.Ok) (chunkHeader : Nat) (hrefs : ∀ m ∈ l.slots, m ∈ refs) :
    Triple E (MemoryManager.Ledger H refs) (l.remove chunkHeader) fun r mm =>
      MemoryManager.Ledger H refs mm ∧
      ((r = (none, l) ∧ ∀ m ∈ l.slots, H m ≠ chunkHeader) ∨
        ∃ m, r.1 = some m ∧ H m = chunkHeader ∧ r.2.Ok ∧ l.slots = m ::ₘ r.2.slots) := by
  intro mm hmm
  have hheader : ∀ m ∈ l.slots, (mm.blocks m).chunkHeader = H m :=
    fun m hm => hmm.header m (hrefs m hm)
  rcases remove_returns h mm chunkHeader with
    ⟨hremove, hnone⟩ | ⟨m, l', hremove, hmh, hok, _, hslots⟩
  · rw [hremove]
    exact ⟨hmm, Or.inl ⟨rfl, fun m hm => hheader m hm ▸ hnone m hm⟩⟩
  · rw [hremove]
    refine ⟨hmm, Or.inr ⟨m, rfl, ?_, hok, hslots⟩⟩
    rw [← hheader m (hslots ▸ Multiset.mem_cons_self m _)]
    exact hmh

theorem cleanup_triple (l : UsedChunkList) :
    Triple E (MemoryManager.Ledger H (l.slots + refs)) l.cleanup fun r mm =>
      r = init l.capacity ∧ MemoryManager.Ledger H refs mm := by
  have hentry : ∀ (d : Option Nat) (rest : List (Option Nat)),
      Triple E (MemoryManager.Ledger H
          (((d :: rest).map fun d => d.elim 0 fun m => ({m} : Multiset Nat)).sum + refs))
        (releaseEntry d) fun _ => MemoryManager.Ledger H
          ((rest.map fun d => d.elim 0 fun m => ({m} : Multiset Nat)).sum + refs) := by
    intro d rest
    cases d with
    | none => exact Triple.pure fun mm hmm => by simpa using hmm
    | some m =>
      refine MemoryManager.decrement_triple.pre fun mm hmm => ?_
      simpa using hmm
  have hloop := Triple.forM (I := fun rest => MemoryManager.Ledger H
    ((rest.map fun d => d.elim 0 fun m => ({m} : Multiset Nat)).sum + refs)) hentry l.listData
  refine Triple.bind hloop fun _ => Triple.pure fun mm hmm => ?_
  exact ⟨rfl, by simpa using hmm⟩

end UsedChunkList

end Iceoryx.Popo
