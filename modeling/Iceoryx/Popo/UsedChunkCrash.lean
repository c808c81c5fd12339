import Iceoryx.Mepoo.Configuration
import Iceoryx.Popo.UsedChunkList

namespace Iceoryx.Popo

open Mepoo Lib

namespace UsedChunkList

inductive Write
  | listIndices (i value : Nat)
  | usedListHead (value : Nat)
  | freeListHead (value : Nat)
  | listData (i : Nat) (value : Option Nat)
  | fetchAdd (m : Nat)
  | fetchSub (m : Nat)
  | freeChunk (m : Nat)
  deriving DecidableEq, Repr

/-- An application with one list.  `locals` are the references that its local
variables, parameters and temporaries hold. -/
structure Application where
  list : UsedChunkList
  memory : MemoryManager
  locals : Multiset Nat

namespace Application

def setList (a : Application) (l : UsedChunkList) : Application := { a with list := l }

def write : Write → Prog Halt Application PUnit
  | .listIndices i value => modify fun a =>
    a.setList { a.list with listIndices := Function.update a.list.listIndices i value }
  | .usedListHead value => modify fun a => a.setList { a.list with usedListHead := value }
  | .freeListHead value => modify fun a => a.setList { a.list with freeListHead := value }
  | .listData i value => modify fun a =>
    { a with
      list := { a.list with listData := a.list.listData.set i value }
      locals := a.locals + (a.list.listData[i]?.join.toList : Multiset Nat) - value.toList }
  | .fetchAdd m => fun a =>
    match SharedChunk.incrementReferenceCounter m a.memory with
    | .error e => .error e
    | .ok (_, mm) => .ok (⟨⟩, { a with memory := mm, locals := m ::ₘ a.locals })
  | .fetchSub m => modify fun a =>
    let b := a.memory.blocks m
    { a with
      memory := a.memory.writeBlock m { b with referenceCounter := b.referenceCounter - 1 }
      locals := a.locals.erase m }
  | .freeChunk m => focus Application.memory (fun mm a => { a with memory := mm })
    (SharedChunk.freeChunk m)

end Application

def releaseWrites (referenceCounter m : Nat) : List Write :=
  .fetchSub m :: if referenceCounter = 1 then [.freeChunk m] else []

def insertWrites (l : UsedChunkList) (mm : MemoryManager) (chunk : Nat) : List Write :=
  let referenceCounter := (mm.blocks chunk).referenceCounter
  if l.freeListHead ≠ l.capacity then
    [.listIndices l.freeListHead l.usedListHead, .usedListHead l.freeListHead, .fetchAdd chunk,
      .listData l.freeListHead (some chunk), .freeListHead (l.listIndices l.freeListHead)] ++
      releaseWrites (referenceCounter + 1) chunk
  else releaseWrites referenceCounter chunk

def removeWrites (l : UsedChunkList) (mm : MemoryManager) (chunkHeader : Nat) : List Write :=
  match findEntry mm l chunkHeader (l.capacity + 1) l.capacity l.usedListHead with
  | .ok (some (previous, current, _)) =>
    [.listData current none,
      if current = l.usedListHead then .usedListHead (l.listIndices current)
      else .listIndices previous (l.listIndices current),
      .listIndices current l.freeListHead, .freeListHead current]
  | _ => []

inductive Call
  | insert (chunk : Nat)
  | remove (chunkHeader : Nat)
  deriving DecidableEq, Repr

namespace Application

def writes (a : Application) : Call → List Write
  | .insert chunk => a.list.insertWrites a.memory chunk
  | .remove chunkHeader => a.list.removeWrites a.memory chunkHeader

def crash (c : Call) (k : Nat) : Prog Halt Application PUnit := fun a =>
  ((a.writes c).take k).forM write a

def call : Call → Prog Halt Application PUnit
  | .insert chunk => fun a =>
    match a.list.insert chunk a.memory with
    | .error e => .error e
    | .ok ((_, l), mm) => .ok (⟨⟩, { list := l, memory := mm, locals := a.locals.erase chunk })
  | .remove chunkHeader => fun a =>
    match a.list.remove chunkHeader a.memory with
    | .error e => .error e
    | .ok ((chunk, l), mm) =>
      .ok (⟨⟩, { list := l, memory := mm, locals := chunk.toList + a.locals })

end Application

/-- The ledger, but for a block whose counter is zero already while it is still
out of its pool. -/
def LedgerBut (H : Nat → Nat) (dead : Option Nat) (refs : Multiset Nat) (mm : MemoryManager) :
    Prop :=
  match dead with
  | none => MemoryManager.Ledger H refs mm
  | some m => ∃ mm₀ b, MemoryManager.Ledger H (m ::ₘ refs) mm₀ ∧ m ∉ refs ∧
      b.referenceCounter = 0 ∧ mm = mm₀.writeBlock m b

variable {E : Halt → Prop} {H : Nat → Nat} {dead : Option Nat} {refs : Multiset Nat}
  {mm : MemoryManager} {l : UsedChunkList}

theorem LedgerBut.counter (h : LedgerBut H dead refs mm) (x : Nat) :
    (mm.blocks x).referenceCounter = refs.count x := by
  cases dead with
  | none => exact MemoryManager.Ledger.counter h x
  | some m =>
    obtain ⟨mm₀, b, hledger, hm, hb, rfl⟩ := h
    by_cases hx : x = m
    · subst hx
      simp [Multiset.count_eq_zero.mpr hm, hb]
    · rw [MemoryManager.writeBlock_of_ne hx, hledger.counter, Multiset.count_cons_of_ne hx]

theorem LedgerBut.out (h : LedgerBut H dead refs mm) {x : Nat} (hx : x ∈ refs) :
    x ∈ mm.chunkManagementPool.out ∧
      ∃ p ∈ mm.memPoolVector, (mm.blocks x).chunkHeader ∈ p.out := by
  have hledger : ∀ {refs mm}, MemoryManager.Ledger H refs mm → x ∈ refs →
      x ∈ mm.chunkManagementPool.out ∧
        ∃ p ∈ mm.memPoolVector, (mm.blocks x).chunkHeader ∈ p.out := by
    intro refs mm h hx
    obtain ⟨p, hp, hout⟩ := h.owner x hx
    exact ⟨(h.block x).mp hx, p, List.mem_of_getElem? hp, by rwa [h.header x hx]⟩
  cases dead with
  | none => exact hledger h hx
  | some m =>
    obtain ⟨mm₀, b, h, hm, _, rfl⟩ := h
    have hne : x ≠ m := fun e => hm (e ▸ hx)
    rw [MemoryManager.writeBlock_of_ne hne]
    exact hledger h (Multiset.mem_cons_of_mem hx)

theorem LedgerBut.freed {refs' : Multiset Nat} {mm' : MemoryManager}
    (h : LedgerBut H dead refs mm) (h' : LedgerBut H dead refs' mm') (hsub : ∀ x ∈ refs', x ∈ refs)
    {x : Nat} (hx : x ∈ refs) (hnot : x ∉ refs') :
    x ∉ mm'.chunkManagementPool.out ∧
      ∀ p ∈ mm'.memPoolVector, (mm.blocks x).chunkHeader ∉ p.out := by
  have hledger : ∀ {refs refs' mm mm'}, MemoryManager.Ledger H refs mm →
      MemoryManager.Ledger H refs' mm' → (∀ x ∈ refs', x ∈ refs) → x ∈ refs → x ∉ refs' →
      x ∉ mm'.chunkManagementPool.out ∧
        ∀ p ∈ mm'.memPoolVector, (mm.blocks x).chunkHeader ∉ p.out := by
    intro refs refs' mm mm' h h' hsub hx hnot
    refine ⟨fun hout => hnot ((h'.block x).mpr hout), fun p hp hout => ?_⟩
    obtain ⟨y, hy, heq⟩ := (h'.mem_out_iff hp (MemPool.out_subset_span hout)).mp hout
    rw [h'.header y hy, h.header x hx] at heq
    exact hnot (h.unique y (hsub y hy) x hx heq ▸ hy)
  cases dead with
  | none => exact hledger h h' hsub hx hnot
  | some m =>
    obtain ⟨mm₀, b, h, hm, _, rfl⟩ := h
    obtain ⟨mm₁, b', h', _, _, rfl⟩ := h'
    have hne : x ≠ m := fun e => hm (e ▸ hx)
    rw [MemoryManager.writeBlock_of_ne hne]
    have hsub' : ∀ y ∈ m ::ₘ refs', y ∈ m ::ₘ refs := by
      intro y hy
      rcases Multiset.mem_cons.mp hy with rfl | hy
      · exact Multiset.mem_cons_self _ _
      · exact Multiset.mem_cons_of_mem (hsub y hy)
    have hfreed := hledger h h' hsub' (Multiset.mem_cons_of_mem hx) (by simp [hne, hnot])
    exact hfreed

theorem releaseEntries_writeBlock {m : Nat} (b : ChunkManagement) :
    ∀ (data : List (Option Nat)) (mm : MemoryManager), some m ∉ data →
      data.forM releaseEntry (mm.writeBlock m b) =
        (data.forM releaseEntry mm).map fun r => (r.1, r.2.writeBlock m b) := by
  intro data
  induction data with
  | nil => exact fun _ _ => rfl
  | cons d data ih =>
    intro mm hnot
    obtain ⟨hd, hdata⟩ := not_or.mp (mt List.mem_cons.mpr hnot)
    have hfirst : releaseEntry d (mm.writeBlock m b) =
        (releaseEntry d mm).map fun r => (r.1, r.2.writeBlock m b) := by
      cases d with
      | none => rfl
      | some x => exact MemoryManager.decrement_writeBlock (fun e => hd (congrArg some e.symm)) b
    change Except.bind (releaseEntry d (mm.writeBlock m b)) (fun r => data.forM releaseEntry r.2) =
      (Except.bind (releaseEntry d mm) fun r => data.forM releaseEntry r.2).map _
    rw [hfirst]
    cases releaseEntry d mm with
    | error e => rfl
    | ok r => exact ih r.2 hdata

theorem LedgerBut.cleanup (h : LedgerBut H dead (l.slots + refs) mm) :
    ∃ mm', l.cleanup mm = .ok (init l.capacity, mm') ∧ LedgerBut H dead refs mm' := by
  cases dead with
  | none =>
    obtain ⟨_, mm', hrun, rfl, hledger⟩ := (cleanup_triple l).returns h
    exact ⟨mm', hrun, hledger⟩
  | some m =>
    obtain ⟨mm₀, b, h, hm, hb, rfl⟩ := h
    obtain ⟨hslots, hrefs⟩ := not_or.mp (mt Multiset.mem_add.mpr hm)
    rw [← Multiset.add_cons] at h
    obtain ⟨_, mm₁, hrun, rfl, hledger⟩ := (cleanup_triple l).returns h
    have hdata : some m ∉ l.listData := by
      intro hmem
      exact hslots (mem_sum_map.mpr ⟨some m, hmem, by simp⟩)
    refine ⟨mm₁.writeBlock m b, ?_, mm₁, b, hledger, hrefs, hb, rfl⟩
    change (Except.bind (l.listData.forM releaseEntry (mm₀.writeBlock m b)) fun r =>
      .ok (init l.capacity, r.2)) = _
    change (Except.bind (l.listData.forM releaseEntry mm₀) fun r =>
      .ok (init l.capacity, r.2)) = _ at hrun
    rw [releaseEntries_writeBlock b l.listData mm₀ hdata]
    cases hloop : l.listData.forM releaseEntry mm₀ with
    | error e =>
      rw [hloop] at hrun
      cases hrun
    | ok r =>
      rw [hloop] at hrun
      cases hrun
      rfl

def dataSlots (data : List (Option Nat)) : Multiset Nat :=
  (data.map fun d => d.elim 0 fun m => {m}).sum

theorem Threaded.freeEntry {used free : List Nat} (h : l.Threaded used free)
    (hroom : l.freeListHead ≠ l.capacity) : l.listData[l.freeListHead]? = some none := by
  cases free with
  | nil => exact absurd h.freeChain hroom
  | cons f rest =>
    obtain ⟨hf, _, _⟩ := h.freeChain
    have hused : f ∉ used :=
      fun hmem => List.disjoint_of_nodup_append h.nodup hmem List.mem_cons_self
    rw [hf]
    exact h.empty_of_notMem (h.lt (by simp)) hused

namespace Application

/-- An application at any moment of a call: its entries are `data`, its local
variables hold `L`, all others hold `others`. -/
structure Holds (capacity : Nat) (H : Nat → Nat) (others : Multiset Nat) (dead : Option Nat)
    (L : Multiset Nat) (data : List (Option Nat)) (a : Application) : Prop where
  capacity : a.list.capacity = capacity
  entries : a.list.listData = data
  locals : a.locals = L
  ledger : LedgerBut H dead (dataSlots data + (L + others)) a.memory

def Consistent (capacity : Nat) (H : Nat → Nat) (others : Multiset Nat) (a : Application) :
    Prop :=
  ∃ dead L data, Holds capacity H others dead L data a

variable {capacity : Nat} {others L : Multiset Nat} {data : List (Option Nat)} {m i : Nat}

theorem Holds.consistent {a : Application} (h : Holds capacity H others dead L data a) :
    Consistent capacity H others a :=
  ⟨dead, L, data, h⟩

theorem writeLinks_triple (f : UsedChunkList → UsedChunkList)
    (hf : ∀ l, (f l).capacity = l.capacity ∧ (f l).listData = l.listData) :
    Triple E (Holds capacity H others dead L data)
      (modify fun a => a.setList (f a.list) : Prog Halt Application PUnit)
      fun _ => Holds capacity H others dead L data := by
  refine Triple.modify fun a h => ⟨?_, ?_, h.locals, h.ledger⟩
  · exact (hf a.list).1.trans h.capacity
  · exact (hf a.list).2.trans h.entries

theorem writeListIndices_triple (value : Nat) :
    Triple E (Holds capacity H others dead L data) (write (.listIndices i value))
      fun _ => Holds capacity H others dead L data :=
  writeLinks_triple (fun l => { l with listIndices := Function.update l.listIndices i value })
    fun _ => ⟨rfl, rfl⟩

theorem writeUsedListHead_triple (value : Nat) :
    Triple E (Holds capacity H others dead L data) (write (.usedListHead value))
      fun _ => Holds capacity H others dead L data :=
  writeLinks_triple (fun l => { l with usedListHead := value }) fun _ => ⟨rfl, rfl⟩

theorem writeFreeListHead_triple (value : Nat) :
    Triple E (Holds capacity H others dead L data) (write (.freeListHead value))
      fun _ => Holds capacity H others dead L data :=
  writeLinks_triple (fun l => { l with freeListHead := value }) fun _ => ⟨rfl, rfl⟩

theorem dataSlots_set {d : Option Nat} (hi : data[i]? = some d) (d' : Option Nat) :
    dataSlots (data.set i d') + (d.elim 0 fun m => {m}) =
      dataSlots data + (d'.elim 0 fun m => {m}) :=
  sum_map_set _ d d' data i hi

theorem fillEntry_triple (hi : data[i]? = some none) :
    Triple E (Holds capacity H others dead (m ::ₘ L) data) (write (.listData i (some m)))
      fun _ => Holds capacity H others dead L (data.set i (some m)) := by
  refine Triple.modify fun a h => ⟨h.capacity, ?_, ?_, ?_⟩
  · simp [h.entries]
  · simp [h.entries, h.locals, hi]
  · have hslots := dataSlots_set hi (some m)
    simp only [Option.elim_none, add_zero, Option.elim_some] at hslots
    have hledger := h.ledger
    rw [hslots, add_assoc, ← add_assoc {m} L others, Multiset.singleton_add]
    exact hledger

theorem clearEntry_triple (hi : data[i]? = some (some m)) :
    Triple E (Holds capacity H others dead L data) (write (.listData i none))
      fun _ => Holds capacity H others dead (m ::ₘ L) (data.set i none) := by
  refine Triple.modify fun a h => ⟨h.capacity, ?_, ?_, ?_⟩
  · simp [h.entries]
  · simp only [h.entries, h.locals, hi, Option.join_some, Option.toList_some, Option.toList_none,
      Multiset.coe_singleton, Multiset.coe_nil, tsub_zero]
    rw [add_comm, Multiset.singleton_add]
  · have hslots := dataSlots_set hi none
    simp only [Option.elim_none, add_zero, Option.elim_some] at hslots
    have hledger := h.ledger
    rw [← hslots, add_assoc, ← add_assoc {m} L others, Multiset.singleton_add] at hledger
    exact hledger

theorem fetchAdd_triple (hm : m ∈ dataSlots data + (L + others)) :
    Triple E (Holds capacity H others none L data) (write (.fetchAdd m))
      fun _ => Holds capacity H others none (m ::ₘ L) data := by
  intro a h
  obtain ⟨_, mm, hrun, hmm⟩ := (MemoryManager.increment_triple hm).returns h.ledger
  simp only [write, hrun]
  refine ⟨h.capacity, h.entries, by simp [h.locals], ?_⟩
  change MemoryManager.Ledger H (dataSlots data + (m ::ₘ L + others)) mm
  rwa [Multiset.cons_add, Multiset.add_cons]

theorem Holds.ledger_cons {a : Application}
    (h : Holds capacity H others none (m ::ₘ L) data a) :
    MemoryManager.Ledger H (m ::ₘ (dataSlots data + (L + others))) a.memory := by
  have hledger : MemoryManager.Ledger H (dataSlots data + (m ::ₘ L + others)) a.memory := h.ledger
  rwa [Multiset.cons_add, Multiset.add_cons] at hledger

theorem fetchSub_triple (hm : m ∈ dataSlots data + (L + others)) :
    Triple E (Holds capacity H others none (m ::ₘ L) data) (write (.fetchSub m))
      fun _ => Holds capacity H others none L data := by
  refine Triple.modify fun a h => ⟨h.capacity, h.entries, ?_, ?_⟩
  · simp [h.locals]
  · exact h.ledger_cons.drop hm

def Dying (capacity : Nat) (H : Nat → Nat) (others L : Multiset Nat) (data : List (Option Nat))
    (m : Nat) (a : Application) : Prop :=
  ∃ mm, a.list.capacity = capacity ∧ a.list.listData = data ∧ a.locals = L ∧
    MemoryManager.Ledger H (m ::ₘ (dataSlots data + (L + others))) mm ∧
    m ∉ dataSlots data + (L + others) ∧
    a.memory = mm.writeBlock m { mm.blocks m with referenceCounter := 0 }

theorem Dying.consistent {a : Application} (h : Dying capacity H others L data m a) :
    Consistent capacity H others a := by
  obtain ⟨mm, hcapacity, hdata, hlocals, hledger, hm, hmemory⟩ := h
  exact ⟨some m, L, data, hcapacity, hdata, hlocals, mm, _, hledger, hm, rfl, hmemory⟩

theorem lastFetchSub_triple (hm : m ∉ dataSlots data + (L + others)) :
    Triple E (Holds capacity H others none (m ::ₘ L) data) (write (.fetchSub m))
      fun _ => Dying capacity H others L data m := by
  refine Triple.modify fun a h => ⟨a.memory, h.capacity, h.entries, ?_, h.ledger_cons, hm, ?_⟩
  · simp [h.locals]
  · have hcounter := h.ledger_cons.counter m
    rw [Multiset.count_cons_self, Multiset.count_eq_zero.mpr hm] at hcounter
    simp [hcounter]

theorem freeChunk_triple :
    Triple E (Dying capacity H others L data m) (write (.freeChunk m))
      fun _ => Holds capacity H others none L data := by
  refine Triple.focus fun a h => ?_
  obtain ⟨mm, hcapacity, hdata, hlocals, hledger, hm, hmemory⟩ := h
  obtain ⟨mm', hrun, hmm'⟩ := hledger.freeChunk_eq hm
  rw [hmemory, hrun]
  exact ⟨hcapacity, hdata, hlocals, hmm'⟩

theorem releaseWrites_consistent {n : Nat}
    (hn : n = (m ::ₘ (dataSlots data + (L + others))).count m) : ∀ k,
    Triple E (Holds capacity H others none (m ::ₘ L) data) (((releaseWrites n m).take k).forM write)
      fun _ => Consistent capacity H others := by
  rw [Multiset.count_cons_self] at hn
  by_cases hm : m ∈ dataSlots data + (L + others)
  · have hpos := Multiset.count_pos.mpr hm
    rw [releaseWrites, if_neg (by omega)]
    exact Triple.take_cons (fun _ h => h.consistent) (fetchSub_triple hm)
      (Triple.take_nil fun _ h => h.consistent)
  · have hzero := Multiset.count_eq_zero.mpr hm
    rw [releaseWrites, if_pos (by omega)]
    exact Triple.take_cons (fun _ h => h.consistent) (lastFetchSub_triple hm)
      (Triple.take_cons (fun _ h => h.consistent) freeChunk_triple
        (Triple.take_nil fun _ h => h.consistent))

structure Ready (capacity : Nat) (H : Nat → Nat) (others : Multiset Nat) (a : Application) :
    Prop where
  capacity : a.list.capacity = capacity
  list : a.list.Ok
  ledger : MemoryManager.Ledger H (a.list.slots + (a.locals + others)) a.memory

/-- The argument of `insert` is a `SharedChunk` that the caller gives away. -/
def Allows (a : Application) : Call → Prop
  | .insert chunk => chunk ∈ a.locals
  | .remove _ => True

theorem Ready.holds {a : Application} (h : Ready capacity H others a) :
    Holds capacity H others none a.locals a.list.listData a :=
  ⟨h.capacity, rfl, rfl, h.ledger⟩

theorem insertWrites_consistent {a : Application} (h : Ready capacity H others a)
    (hm : m ∈ a.locals) (k : Nat) :
    Ends E (fun _ => Consistent capacity H others)
      (((a.list.insertWrites a.memory m).take k).forM write a) := by
  obtain ⟨used, free, hthreaded⟩ := h.list
  have hholds := h.holds
  have hcounter := h.ledger.counter m
  obtain ⟨L, hL⟩ := Multiset.exists_cons_of_mem hm
  rw [hL] at hholds hcounter
  unfold insertWrites
  by_cases hfull : a.list.freeListHead ≠ a.list.capacity
  · rw [if_pos hfull]
    have hempty := hthreaded.freeEntry hfull
    have hslots := dataSlots_set hempty (some m)
    simp only [Option.elim_none, add_zero, Option.elim_some] at hslots
    refine Triple.take_cons (fun _ h => h.consistent) (writeListIndices_triple _)
      (Triple.take_cons (fun _ h => h.consistent) (writeUsedListHead_triple _)
      (Triple.take_cons (fun _ h => h.consistent) (fetchAdd_triple (by simp))
      (Triple.take_cons (fun _ h => h.consistent) (fillEntry_triple hempty)
      (Triple.take_cons (fun _ h => h.consistent) (writeFreeListHead_triple _)
      (releaseWrites_consistent ?_))))) k a hholds
    rw [hslots, hcounter]
    simp only [slots, dataSlots, Multiset.count_add, Multiset.count_cons_self,
      Multiset.count_singleton_self]
    omega
  · rw [if_neg hfull]
    refine releaseWrites_consistent ?_ k a hholds
    rw [hcounter, Multiset.cons_add, Multiset.add_cons]
    rfl

theorem removeWrites_consistent {a : Application} (h : Ready capacity H others a)
    (chunkHeader k : Nat) :
    Ends E (fun _ => Consistent capacity H others)
      (((a.list.removeWrites a.memory chunkHeader).take k).forM write a) := by
  obtain ⟨used, free, hthreaded⟩ := h.list
  have hholds := h.holds
  unfold removeWrites
  rcases findEntry_spec used (a.list.capacity + 1) a.list.capacity a.list.usedListHead
      (Nat.lt_succ_of_le hthreaded.length_le) hthreaded.usedChain
      (fun i hi => (hthreaded.data i).mpr hi) with
    ⟨hfind, _⟩ | ⟨before, i, after, m, previous, rfl, hfind, hm, _, _⟩
  · rw [hfind]
    exact Triple.take_nil (fun _ h => h.consistent) k a hholds
  · rw [hfind]
    have hrelink : Triple E
        (Holds capacity H others none (m ::ₘ a.locals) (a.list.listData.set i none))
        (write (if i = a.list.usedListHead then .usedListHead (a.list.listIndices i)
          else .listIndices previous (a.list.listIndices i)))
        fun _ => Holds capacity H others none (m ::ₘ a.locals) (a.list.listData.set i none) := by
      split
      · exact writeUsedListHead_triple _
      · exact writeListIndices_triple _
    exact Triple.take_cons (fun _ h => h.consistent) (clearEntry_triple hm)
      (Triple.take_cons (fun _ h => h.consistent) hrelink
      (Triple.take_cons (fun _ h => h.consistent) (writeListIndices_triple _)
      (Triple.take_cons (fun _ h => h.consistent) (writeFreeListHead_triple _)
      (Triple.take_nil fun _ h => h.consistent)))) k a hholds

theorem decrement_of_ne_one {m : Nat} (h : (mm.blocks m).referenceCounter ≠ 1) :
    SharedChunk.decrementReferenceCounter m mm = .ok (⟨⟩, mm.writeBlock m
      { mm.blocks m with referenceCounter := (mm.blocks m).referenceCounter - 1 }) := by
  unfold SharedChunk.decrementReferenceCounter
  simp only [h, if_false]

theorem forM_write_ok {w : Write} {ws : List Write} {a a' : Application}
    (h : write w a = .ok (⟨⟩, a')) : (w :: ws).forM write a = ws.forM write a' := by
  change Except.bind (write w a) (fun r => ws.forM write r.2) = _
  rw [h]
  rfl

theorem releaseWrites_eq (a : Application) (m : Nat) :
    (releaseWrites (a.memory.blocks m).referenceCounter m).forM write a =
      (SharedChunk.decrementReferenceCounter m a.memory).map fun r =>
        (⟨⟩, { a with memory := r.2, locals := a.locals.erase m }) := by
  unfold releaseWrites
  by_cases hone : (a.memory.blocks m).referenceCounter = 1
  · rw [if_pos hone]
    rw [forM_write_ok rfl]
    have hfree : ∀ b : Application, [Write.freeChunk m].forM write b =
        (SharedChunk.freeChunk m b.memory).map fun r => (⟨⟩, { b with memory := r.2 }) := by
      intro b
      change Except.bind (focus Application.memory (fun mm a => { a with memory := mm })
        (SharedChunk.freeChunk m) b) (fun r => .ok (PUnit.unit, r.2)) = _
      unfold focus
      cases SharedChunk.freeChunk m b.memory with
      | error e => rfl
      | ok r => rfl
    rw [hfree]
    unfold SharedChunk.decrementReferenceCounter
    simp only [hone, if_true]
  · rw [if_neg hone, decrement_of_ne_one hone]
    rfl

theorem filled_eq (a : Application) (m : Nat) (ws : List Write) :
    ([Write.listIndices a.list.freeListHead a.list.usedListHead, .usedListHead a.list.freeListHead,
      .fetchAdd m, .listData a.list.freeListHead (some m),
      .freeListHead (a.list.listIndices a.list.freeListHead)] ++ ws).forM write a =
    ws.forM write
      { list := a.list.inserted m
        memory := a.memory.writeBlock m { a.memory.blocks m with
          referenceCounter := (a.memory.blocks m).referenceCounter + 1 }
        locals := m ::ₘ a.locals +
          (a.list.listData[a.list.freeListHead]?.join.toList : Multiset Nat) -
          ([m] : Multiset Nat) } := by
  simp only [List.cons_append, List.nil_append]
  rw [forM_write_ok rfl, forM_write_ok rfl, forM_write_ok rfl, forM_write_ok rfl,
    forM_write_ok rfl]
  rfl

theorem crash_all {a : Application} {c : Call} (h : Ready capacity H others a)
    (hallows : a.Allows c) : crash c (a.writes c).length a = call c a := by
  obtain ⟨used, free, hthreaded⟩ := h.list
  rw [crash, List.take_length]
  cases c with
  | insert chunk =>
    obtain ⟨L, hL⟩ := Multiset.exists_cons_of_mem hallows
    have hcounter := h.ledger.counter chunk
    rw [hL, Multiset.cons_add, Multiset.add_cons, Multiset.count_cons_self] at hcounter
    simp only [writes, insertWrites, Application.call, insert]
    by_cases hfull : a.list.freeListHead ≠ a.list.capacity
    · have hempty : a.list.listData[a.list.freeListHead]? = some none := hthreaded.freeEntry hfull
      rw [if_pos hfull, if_pos hfull, Prog.bind_apply]
      have hfill := filled_eq a chunk (releaseWrites
        ((a.memory.blocks chunk).referenceCounter + 1) chunk)
      simp only [List.cons_append, List.nil_append] at hfill ⊢
      rw [hfill]
      simp only [hempty, Option.join_some, Option.toList_none, Multiset.coe_nil, add_zero,
        Multiset.coe_singleton, Multiset.sub_singleton, Multiset.erase_cons_head]
      have hincrement : SharedChunk.incrementReferenceCounter chunk a.memory =
          .ok (⟨⟩, a.memory.writeBlock chunk { a.memory.blocks chunk with
            referenceCounter := (a.memory.blocks chunk).referenceCounter + 1 }) := rfl
      rw [hincrement]
      generalize hmm : a.memory.writeBlock chunk { a.memory.blocks chunk with
        referenceCounter := (a.memory.blocks chunk).referenceCounter + 1 } = mm
      have hcount : (a.memory.blocks chunk).referenceCounter + 1 =
          (mm.blocks chunk).referenceCounter := by
        rw [← hmm, MemoryManager.writeBlock_self]
      rw [hcount,
        releaseWrites_eq { list := a.list.inserted chunk, memory := mm, locals := a.locals }]
      simp only [Except.bind, Prog.bind_apply]
      cases SharedChunk.decrementReferenceCounter chunk mm with
      | error e => rfl
      | ok r => rfl
    · rw [if_neg hfull, if_neg hfull, releaseWrites_eq, Prog.bind_apply]
      cases SharedChunk.decrementReferenceCounter chunk a.memory with
      | error e => rfl
      | ok r => rfl
  | remove chunkHeader =>
    simp only [writes, removeWrites, Application.call, remove]
    rcases findEntry_spec used (a.list.capacity + 1) a.list.capacity a.list.usedListHead
      (Nat.lt_succ_of_le hthreaded.length_le) hthreaded.usedChain
      (fun i hi => (hthreaded.data i).mpr hi) with
    ⟨hfind, _⟩ | ⟨before, i, after, m, previous, rfl, hfind, hm, _, _⟩
    · rw [hfind]
      simp only [Option.toList_none, Multiset.coe_nil, zero_add]
      rfl
    · rw [hfind]
      have hlocals : a.locals + (a.list.listData[i]?.join.toList : Multiset Nat) -
          ((none : Option Nat).toList : Multiset Nat) = (some m).toList + a.locals := by
        simp only [hm, Option.join_some, Option.toList_none, Multiset.coe_nil, tsub_zero]
        exact add_comm _ _
      simp only
      rw [forM_write_ok rfl]
      simp only [hlocals]
      by_cases hi : i = a.list.usedListHead
      · rw [if_pos hi, forM_write_ok rfl, forM_write_ok rfl, forM_write_ok rfl]
        simp only [unlink, if_pos hi]
        rfl
      · rw [if_neg hi, forM_write_ok rfl, forM_write_ok rfl, forM_write_ok rfl]
        simp only [unlink, if_neg hi]
        rfl

/-- Any sequence of calls of `insert` and `remove`; in between the application and
all others do what they like with their references, as long as they count them. -/
inductive Reached (capacity : Nat) : Multiset Nat → Application → Prop
  | start {H : Nat → Nat} {others : Multiset Nat} {a : Application} :
    a.list = init capacity → MemoryManager.Ledger H (a.locals + others) a.memory →
    Reached capacity others a
  | environment {H : Nat → Nat} {others others' : Multiset Nat} {a a' : Application} :
    Reached capacity others a → a'.list = a.list →
    MemoryManager.Ledger H (a'.list.slots + (a'.locals + others')) a'.memory →
    Reached capacity others' a'
  | call {others : Multiset Nat} {a a' : Application} (c : Call) :
    Reached capacity others a → a.Allows c → call c a = .ok (⟨⟩, a') → Reached capacity others a'

theorem insert_capacity {chunk : Nat} {mm' : MemoryManager} {r : Bool × UsedChunkList}
    (h : l.insert chunk mm = .ok (r, mm')) : r.2.capacity = l.capacity := by
  have hinsert : Triple (fun _ => True) (fun _ => True) (l.insert chunk)
      fun r _ => r.2.capacity = l.capacity := by
    unfold insert
    split
    · exact Triple.bind Triple.trivial fun _ => Triple.bind Triple.trivial fun _ =>
        Triple.pure fun _ _ => rfl
    · exact Triple.bind Triple.trivial fun _ => Triple.pure fun _ _ => rfl
  exact hinsert.of_ok True.intro h

theorem remove_capacity {chunkHeader : Nat} {mm' : MemoryManager} {r : Option Nat × UsedChunkList}
    (h : l.remove chunkHeader mm = .ok (r, mm')) : r.2.capacity = l.capacity := by
  unfold remove at h
  split at h
  · cases h
  · cases h
    rfl
  · cases h
    exact unlink_capacity _ _

theorem Ready.call {a a' : Application} {c : Call} (h : Ready capacity H others a)
    (hallows : a.Allows c) (hcall : call c a = .ok (⟨⟩, a')) : Ready capacity H others a' := by
  cases c with
  | insert chunk =>
    obtain ⟨L, hL⟩ := Multiset.exists_cons_of_mem hallows
    have hledger := h.ledger
    rw [hL, Multiset.cons_add, Multiset.add_cons] at hledger
    simp only [Application.call] at hcall
    cases hrun : a.list.insert chunk a.memory with
    | error e =>
      rw [hrun] at hcall
      cases hcall
    | ok r =>
      obtain ⟨⟨inserted, l⟩, mm⟩ := r
      rw [hrun] at hcall
      cases hcall
      have hcapacity := (insert_capacity hrun).trans h.capacity
      have hlocals : a.locals.erase chunk = L := by rw [hL, Multiset.erase_cons_head]
      rcases (insert_triple (E := fun _ => True) h.list chunk).of_ok hledger hrun with
        ⟨_, hok, hslots, hmm⟩ | ⟨hfull, hmm⟩
      · refine ⟨hcapacity, hok, ?_⟩
        simp only at hslots
        simp only [hlocals, hslots, Multiset.cons_add]
        exact hmm
      · cases hfull
        refine ⟨hcapacity, h.list, ?_⟩
        simp only [hlocals]
        exact hmm
  | remove chunkHeader =>
    simp only [Application.call] at hcall
    cases hrun : a.list.remove chunkHeader a.memory with
    | error e =>
      rw [hrun] at hcall
      cases hcall
    | ok r =>
      obtain ⟨⟨chunk, l⟩, mm⟩ := r
      rw [hrun] at hcall
      cases hcall
      have hcapacity := (remove_capacity hrun).trans h.capacity
      obtain ⟨hmm, ⟨hnone, _⟩ | ⟨m, hsome, _, hok, hslots⟩⟩ :=
        (remove_triple (E := fun _ => True) h.list chunkHeader
          fun m hm => Multiset.mem_add.mpr (Or.inl hm)).of_ok h.ledger hrun
      · cases hnone
        refine ⟨hcapacity, h.list, ?_⟩
        simpa using hmm
      · simp only at hsome hok hslots
        subst hsome
        refine ⟨hcapacity, hok, ?_⟩
        simp only [Option.toList_some, Multiset.coe_singleton, Multiset.singleton_add,
          Multiset.cons_add, Multiset.add_cons]
        rw [hslots, Multiset.cons_add] at hmm
        exact hmm

theorem Reached.ready {a : Application} (h : Reached capacity others a) :
    ∃ H, Ready capacity H others a := by
  induction h with
  | @start H others a hlist hledger =>
    refine ⟨H, by rw [hlist]; rfl, by rw [hlist]; exact init_ok capacity, ?_⟩
    rw [hlist, init_slots, zero_add]
    exact hledger
  | @environment H others others' a a' _ hlist hledger ih =>
    obtain ⟨_, hready⟩ := ih
    exact ⟨H, hlist ▸ hready.capacity, hlist ▸ hready.list, hledger⟩
  | call c _ hallows hcall ih =>
    obtain ⟨H, hready⟩ := ih
    exact ⟨H, hready.call hallows hcall⟩

/-- What `cleanup` leaves behind of a crashed application: `locals` and the slots
of its list are the references that were still counted for it. -/
structure Recovered (others : Multiset Nat) (a : Application) (l : UsedChunkList)
    (mm : MemoryManager) : Prop where
  initial : l = init a.list.capacity
  counted : ∀ m, (a.memory.blocks m).referenceCounter =
    others.count m + (a.locals + a.list.slots).count m
  released : ∀ m, (mm.blocks m).referenceCounter + a.list.slots.count m =
    (a.memory.blocks m).referenceCounter
  spared : ∀ m ∈ others, m ∈ mm.chunkManagementPool.out ∧
    ∃ p ∈ mm.memPoolVector, (mm.blocks m).chunkHeader ∈ p.out
  freed : ∀ m ∈ a.list.slots, m ∉ others → m ∉ a.locals → m ∉ mm.chunkManagementPool.out ∧
    ∀ p ∈ mm.memPoolVector, (a.memory.blocks m).chunkHeader ∉ p.out

theorem Consistent.cleanup {a : Application} (h : Consistent capacity H others a) :
    ∃ mm, a.list.cleanup a.memory = .ok (init capacity, mm) ∧
      Recovered others a (init capacity) mm := by
  obtain ⟨dead, L, data, hcapacity, rfl, rfl, hledger⟩ := h
  have hledger : LedgerBut H dead (a.list.slots + (a.locals + others)) a.memory := hledger
  obtain ⟨mm, hrun, hmm⟩ := hledger.cleanup
  rw [hcapacity] at hrun
  refine ⟨mm, hrun, by rw [hcapacity], fun m => ?_, fun m => ?_, fun m hm => ?_,
    fun m hm hothers hlocals => ?_⟩
  · rw [hledger.counter]
    simp only [Multiset.count_add]
    omega
  · rw [hledger.counter, hmm.counter, Multiset.count_add m a.list.slots, Nat.add_comm]
  · exact hmm.out (Multiset.mem_add.mpr (Or.inr hm))
  · refine hledger.freed hmm (fun x hx => Multiset.mem_add.mpr (Or.inr hx))
      (Multiset.mem_add.mpr (Or.inl hm)) ?_
    simp [hothers, hlocals]

theorem cleanup_after_crash {a : Application} {c : Call} (h : Reached capacity others a)
    (hallows : a.Allows c) (k : Nat) :
    ∃ a', crash c k a = .ok (⟨⟩, a') ∧
      ∃ l mm, a'.list.cleanup a'.memory = .ok (l, mm) ∧ l = init capacity ∧
        Recovered others a' l mm := by
  obtain ⟨H, hready⟩ := h.ready
  have hcrash : Ends (fun _ => False) (fun _ => Consistent capacity H others) (crash c k a) := by
    cases c with
    | insert chunk => exact insertWrites_consistent hready hallows k
    | remove chunkHeader => exact removeWrites_consistent hready chunkHeader k
  cases hrun : crash c k a with
  | error e =>
    rw [hrun] at hcrash
    exact absurd hcrash id
  | ok r =>
    rw [hrun] at hcrash
    obtain ⟨mm, hcleanup, hrecovered⟩ := Consistent.cleanup hcrash
    exact ⟨r.2, rfl, _, mm, hcleanup, rfl, hrecovered⟩

def crashConfig : MePooConfig where
  mempoolConfig := [{ size := 64, chunkCount := 2 }]
  bounded := by decide

def crashMemory (i : Nat) : Hoofs.Allocator where
  startAddress := if i = 0 then 4096 else 65536
  length := 4096
  currentPosition := 0

theorem firstChunk : ∃ H, ∃ a : Application, a.list = init 2 ∧ a.locals = {4112} ∧
    MemoryManager.Ledger H a.locals a.memory := by
  have hget : (MemoryManager.configureMemoryManager crashConfig 0 1 crashMemory).bind (fun r =>
      (ChunkSettings.create 8 8 0 1).toOption.bind fun chunkSettings =>
        (MemoryManager.getChunk chunkSettings r.1).toOption.bind fun q => q.1.toOption) =
      some 4112 := by
    decide +kernel
  obtain ⟨⟨mm, _⟩, hmm, hget⟩ := Option.bind_eq_some_iff.mp hget
  obtain ⟨chunkSettings, hsettings, hget⟩ := Option.bind_eq_some_iff.mp hget
  obtain ⟨⟨result, mm'⟩, hrun, hresult⟩ := Option.bind_eq_some_iff.mp hget
  obtain rfl := eq_ok_of_toOption hresult
  have hledger := MemoryManager.configureMemoryManager_ledger hmm (by decide)
  have hwithin := hledger.within (MemoryManager.configureMemoryManager_fits hmm (by decide))
    chunkSettings
  obtain ⟨address, _, _, hledger'⟩ := (MemoryManager.getChunk_triple (E := fun _ => True)
    (ChunkSettings.create_wellFormed (eq_ok_of_toOption hsettings))).of_ok ⟨hledger, hwithin⟩
    (eq_ok_of_toOption hrun)
  exact ⟨_, { list := init 2, memory := mm', locals := {4112} }, rfl, rfl, hledger'⟩

theorem reached_firstChunk : ∃ a : Application, a.locals = {4112} ∧ Reached 2 0 a := by
  obtain ⟨H, a, hlist, hlocals, hledger⟩ := firstChunk
  rw [← add_zero a.locals] at hledger
  exact ⟨a, hlocals, Reached.start hlist hledger⟩

theorem cleanup_after_crash_during_insert : ∃ a a' : Application,
    Reached 2 0 a ∧ a.Allows (.insert 4112) ∧ crash (.insert 4112) 3 a = .ok (⟨⟩, a') ∧
      ∃ l mm, a'.list.cleanup a'.memory = .ok (l, mm) ∧ l = init 2 ∧ Recovered 0 a' l mm := by
  obtain ⟨a, hlocals, h⟩ := reached_firstChunk
  have hallows : a.Allows (.insert 4112) := by
    change 4112 ∈ a.locals
    simp [hlocals]
  obtain ⟨a', hcrash, hcleanup⟩ := cleanup_after_crash h hallows 3
  exact ⟨a, a', h, hallows, hcrash, hcleanup⟩

end Application

end UsedChunkList

end Iceoryx.Popo
