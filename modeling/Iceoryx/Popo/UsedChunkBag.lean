import Iceoryx.Lib.Bag
import Iceoryx.Lib.Refine
import Iceoryx.Popo.UsedChunkCrash

namespace Iceoryx.Popo

open Mepoo Lib

namespace UsedChunkList

variable {E : Halt → Prop} {H : Nat → Nat} {refs : Multiset Nat} {mm : MemoryManager}
  {l : UsedChunkList} {used free : List Nat} {m : Nat}

/-- `insert` with a copy of the caller's chunk as its by-value parameter. -/
def insertCopy (l : UsedChunkList) (chunk : Nat) :
    Prog Halt MemoryManager (Bool × UsedChunkList) := do
  SharedChunk.incrementReferenceCounter chunk
  l.insert chunk

theorem increment_decrement (h : (mm.blocks m).referenceCounter ≠ 0) :
    ∃ mm', SharedChunk.incrementReferenceCounter m mm = .ok (⟨⟩, mm') ∧
      SharedChunk.decrementReferenceCounter m mm' = .ok (⟨⟩, mm) := by
  refine ⟨_, rfl, ?_⟩
  rw [Application.decrement_of_ne_one (by rw [MemoryManager.writeBlock_self]; simp only; omega),
    MemoryManager.writeBlock_self]
  simp only [Nat.add_sub_cancel, MemoryManager.writeBlock, Function.update_idem,
    Function.update_eq_self]

theorem insertCopy_full (hfull : l.freeListHead = l.capacity)
    (h : (mm.blocks m).referenceCounter ≠ 0) :
    l.insertCopy m mm = .ok ((false, l), mm) := by
  obtain ⟨mm', hincrement, hdecrement⟩ := increment_decrement h
  rw [insertCopy, Prog.bind_apply, hincrement, Except.bind, insert, if_neg (not_not.mpr hfull),
    Prog.bind_apply, hdecrement]
  rfl

theorem insertCopy_room (hroom : l.freeListHead ≠ l.capacity) (hm : m ∈ refs) :
    Triple E (MemoryManager.Ledger H refs) (l.insertCopy m) fun r mm =>
      r = (true, l.inserted m) ∧ MemoryManager.Ledger H (m ::ₘ refs) mm := by
  refine Triple.bind (MemoryManager.increment_triple hm) fun _ => ?_
  rw [insert, if_pos hroom]
  exact Triple.bind (MemoryManager.increment_triple (Multiset.mem_cons_self m refs)) fun _ =>
    Triple.bind MemoryManager.decrement_triple fun _ => Triple.pure fun mm hmm => ⟨rfl, hmm⟩

namespace Application

inductive Operation
  | insert (chunk chunkHeader : Nat)
  | remove (chunkHeader : Nat)
  | cleanup
  /-- the rest of the program, with its memory and its references afterwards -/
  | elsewhere (memory : MemoryManager) (locals : Multiset Nat)

inductive Answer
  | inserted (result : Bool)
  | removed (result : Bool)
  | done

def perform (a : Application) : Operation → Option (Answer × Application)
  | .insert chunk _ =>
    match a.list.insertCopy chunk a.memory with
    | .error _ => none
    | .ok ((inserted, l), mm) => some (.inserted inserted, { a with list := l, memory := mm })
  | .remove chunkHeader =>
    match a.list.remove chunkHeader a.memory with
    | .error _ => none
    | .ok ((chunk, l), mm) =>
      some (.removed chunk.isSome, { list := l, memory := mm, locals := chunk.toList + a.locals })
  | .cleanup =>
    match a.list.cleanup a.memory with
    | .error _ => none
    | .ok (l, mm) => some (.done, { a with list := l, memory := mm })
  | .elsewhere memory locals => some (.done, { a with memory := memory, locals := locals })

/-- Only chunks one holds can be inserted, and the rest of the program counts its references and
leaves alone what is stored. -/
def Permits (a : Application) : Operation → Prop
  | .insert chunk chunkHeader =>
    chunk ∈ a.locals ∧ (a.memory.blocks chunk).chunkHeader = chunkHeader
  | .elsewhere memory locals =>
    (∃ H, MemoryManager.Ledger H (a.list.slots + locals) memory) ∧
      ∀ m ∈ a.list.slots, (memory.blocks m).chunkHeader = (a.memory.blocks m).chunkHeader
  | .remove _ | .cleanup => True

def bagStep (b : Bag Nat) : Operation → Option (Answer × Bag Nat)
  | .insert _ chunkHeader => some (.inserted (b.insert chunkHeader).1, (b.insert chunkHeader).2)
  | .remove chunkHeader => some (.removed (b.remove chunkHeader).1, (b.remove chunkHeader).2)
  | .cleanup => some (.done, Bag.empty b.capacity)
  | .elsewhere _ _ => some (.done, b)

def stored (a : Application) : Multiset Nat :=
  a.list.slots.map fun m => (a.memory.blocks m).chunkHeader

structure Stores (a : Application) (b : Bag Nat) : Prop where
  capacity : a.list.capacity = b.capacity
  threaded : ∃ used free, a.list.Threaded used free
  elements : a.stored = b.elements
  ledger : ∃ H, MemoryManager.Ledger H (a.list.slots + a.locals) a.memory

def Effect (a : Application) : Operation → Answer → Application → Prop
  | .insert chunk _, .inserted true, a' =>
    a'.list.slots = chunk ::ₘ a.list.slots ∧ a'.locals = a.locals
  | .insert _ _, .inserted false, a' => a' = a
  | .remove chunkHeader, .removed true, a' => ∃ m, (a.memory.blocks m).chunkHeader = chunkHeader ∧
    a.list.slots = m ::ₘ a'.list.slots ∧ a'.locals = m ::ₘ a.locals ∧ a'.memory = a.memory
  | .remove _, .removed false, a' => a' = a
  | .cleanup, .done, a' => a'.list = init a.list.capacity ∧ a'.locals = a.locals ∧
    ∀ m, (a'.memory.blocks m).referenceCounter + a.list.slots.count m =
      (a.memory.blocks m).referenceCounter
  | .elsewhere _ _, .done, a' => a'.list = a.list
  | _, _, _ => False

variable {a : Application} {b : Bag Nat}

theorem stored_congr {a' : Application} (hslots : a'.list.slots = a.list.slots)
    (hheader : ∀ m ∈ a.list.slots, (a'.memory.blocks m).chunkHeader =
      (a.memory.blocks m).chunkHeader) : a'.stored = a.stored := by
  rw [stored, stored, hslots]
  exact Multiset.map_congr rfl hheader

theorem Stores.card (h : a.Stores b) : b.elements.card = a.list.slots.card := by
  rw [← h.elements, stored, Multiset.card_map]

theorem Stores.insert (h : a.Stores b) {chunk chunkHeader : Nat}
    (hop : a.Permits (.insert chunk chunkHeader)) :
    ∃ out a' b', perform a (.insert chunk chunkHeader) = some (out, a') ∧ bagStep b (.insert chunk chunkHeader) = some (out, b') ∧
      a'.Stores b' ∧ a.Effect (.insert chunk chunkHeader) out a' := by
  obtain ⟨used, free, hthreaded⟩ := h.threaded
  obtain ⟨H, hledger⟩ := h.ledger
  have hcard := h.card
  obtain ⟨hmem, hheader⟩ := hop
  have hcounted : chunk ∈ a.list.slots + a.locals := Multiset.mem_add.mpr (Or.inr hmem)
  by_cases hroom : a.list.freeListHead ≠ a.list.capacity
  · obtain ⟨_, mm, hinsert, rfl, hmm⟩ := (insertCopy_room hroom hcounted).returns hledger
    have hlt := hthreaded.hasFreeSpace_iff.mp hroom
    rw [← hcard, h.capacity] at hlt
    obtain ⟨hresult, helements⟩ := Bag.insert_room (a := chunkHeader) hlt
    have hok : ∃ used free, (a.list.inserted chunk).Threaded used free ∧
        (a.list.inserted chunk).slots = chunk ::ₘ a.list.slots := by
      cases free with
      | nil => exact absurd hthreaded.freeChain hroom
      | cons f rest => exact ⟨_, _, inserted_threaded chunk hthreaded⟩
    obtain ⟨used', free', hthreaded', hslots⟩ := hok
    have hsame : ∀ m ∈ a.list.slots + a.locals,
        (mm.blocks m).chunkHeader = (a.memory.blocks m).chunkHeader := fun m hm =>
      (hmm.header m (Multiset.mem_cons_of_mem hm)).trans (hledger.header m hm).symm
    refine ⟨.inserted true, { a with list := a.list.inserted chunk, memory := mm },
      (b.insert chunkHeader).2, ?_, ?_, ⟨?_, ⟨used', free', hthreaded'⟩, ?_, H, ?_⟩, hslots, rfl⟩
    · rw [perform, hinsert]
    · rw [bagStep, hresult]
    · rw [Bag.insert_capacity]
      exact h.capacity
    · rw [helements, stored, hslots, Multiset.map_cons, ← h.elements, hsame chunk hcounted,
        hheader]
      exact congrArg _ (Multiset.map_congr rfl fun m hm =>
        hsame m (Multiset.mem_add.mpr (Or.inl hm)))
    · rw [hslots, Multiset.cons_add]
      exact hmm
  · have hfull : b.elements.card = b.capacity := by
      have hnot := mt hthreaded.hasFreeSpace_iff.mpr hroom
      have hbounded := b.bounded
      rw [← hcard, h.capacity] at hnot
      omega
    have hcounter : (a.memory.blocks chunk).referenceCounter ≠ 0 := by
      rw [hledger.counter]
      exact Multiset.count_ne_zero.mpr hcounted
    refine ⟨.inserted false, a, b, ?_, ?_, h, rfl⟩
    · rw [perform, insertCopy_full (not_not.mp hroom) hcounter]
    · rw [bagStep, Bag.insert_full hfull]

theorem Stores.remove (h : a.Stores b) (chunkHeader : Nat) :
    ∃ out a' b', perform a (.remove chunkHeader) = some (out, a') ∧ bagStep b (.remove chunkHeader) = some (out, b') ∧
      a'.Stores b' ∧ a.Effect (.remove chunkHeader) out a' := by
  obtain ⟨H, hledger⟩ := h.ledger
  rcases remove_returns h.threaded a.memory chunkHeader with
    ⟨hremove, hnone⟩ | ⟨m, l, hremove, hheader, hok, hcapacity, hslots⟩
  · have hmissing : chunkHeader ∉ b.elements := by
      rw [← h.elements]
      intro hmem
      obtain ⟨m, hm, hheader⟩ := Multiset.mem_map.mp hmem
      exact hnone m hm hheader
    refine ⟨.removed false, a, b, ?_, ?_, h, rfl⟩
    · rw [perform, hremove]
      simp only [Option.toList_none, Multiset.coe_nil, zero_add, Option.isSome_none]
    · rw [bagStep, Bag.remove_notMem hmissing]
  · have helements : b.elements =
        chunkHeader ::ₘ l.slots.map fun m => (a.memory.blocks m).chunkHeader := by
      rw [← h.elements, stored, hslots, Multiset.map_cons, hheader]
    obtain ⟨hresult, hrest⟩ := Bag.remove_mem helements
    refine ⟨.removed true, { a with list := l, locals := m ::ₘ a.locals },
      (b.remove chunkHeader).2, ?_, ?_, ⟨?_, hok, hrest.symm, H, ?_⟩, m, hheader, hslots, rfl,
      rfl⟩
    · rw [perform, hremove]
      simp only [Option.toList_some, Multiset.coe_singleton, Multiset.singleton_add,
        Option.isSome_some]
    · rw [bagStep, hresult]
    · rw [Bag.remove_capacity, ← h.capacity]
      exact hcapacity
    · rw [hslots, Multiset.cons_add, ← Multiset.add_cons] at hledger
      exact hledger

theorem Stores.cleanup (h : a.Stores b) :
    ∃ out a' b', perform a .cleanup = some (out, a') ∧ bagStep b .cleanup = some (out, b') ∧
      a'.Stores b' ∧ a.Effect .cleanup out a' := by
  obtain ⟨H, hledger⟩ := h.ledger
  obtain ⟨_, mm, hcleanup, rfl, hmm⟩ := (cleanup_triple a.list).returns hledger
  refine ⟨.done, { a with list := init a.list.capacity, memory := mm }, Bag.empty b.capacity,
    ?_, rfl, ⟨h.capacity, init_ok _, ?_, H, ?_⟩, rfl, rfl, fun m => ?_⟩
  · rw [perform, hcleanup]
  · rw [stored, init_slots, Multiset.map_zero]
    rfl
  · rw [init_slots, zero_add]
    exact hmm
  · rw [hmm.counter, hledger.counter, Multiset.count_add, Nat.add_comm]

theorem Stores.step (h : a.Stores b) {op : Operation} (hop : a.Permits op) :
    ∃ out a' b', perform a op = some (out, a') ∧ bagStep b op = some (out, b') ∧ a'.Stores b' ∧
      a.Effect op out a' := by
  cases op with
  | insert chunk chunkHeader => exact h.insert hop
  | remove chunkHeader => exact h.remove chunkHeader
  | cleanup => exact h.cleanup
  | elsewhere memory locals =>
    obtain ⟨hledger', hsame⟩ := hop
    refine ⟨.done, { a with memory := memory, locals := locals }, b, rfl, rfl,
      ⟨h.capacity, h.threaded, ?_, hledger'⟩, rfl⟩
    rw [← h.elements]
    exact stored_congr rfl hsame

theorem perform_simulates : Simulates perform bagStep Permits Stores := by
  intro a b op out b' h hop hspec
  obtain ⟨_, a', _, hperform, hbag, hstores, _⟩ := h.step hop
  rw [hbag] at hspec
  cases hspec
  exact ⟨a', hperform, hstores⟩

theorem stores_init {capacity : Nat} (hlist : a.list = init capacity)
    (hledger : MemoryManager.Ledger H a.locals a.memory) : a.Stores (Bag.empty capacity) := by
  refine ⟨?_, ?_, ?_, H, ?_⟩
  · rw [hlist]
    rfl
  · rw [hlist]
    exact init_ok capacity
  · rw [stored, hlist, init_slots, Multiset.map_zero]
    rfl
  · rw [hlist, init_slots, zero_add]
    exact hledger

/-- Every sequence of permitted operations is answered as by a bag of the same capacity.  Wherever
it ends, the two lists are in order and every reference is counted, and the next operation has the
effect on the entries and the references that its answer tells. -/
theorem usedChunkList_refines_bag {capacity : Nat} (hlist : a.list = init capacity)
    (hledger : MemoryManager.Ledger H a.locals a.memory) (ops : List Operation)
    (hpermits : Admits perform Permits a ops) :
    ∃ outs a' b, runOps perform a ops = some (outs, a') ∧
      runOps bagStep (Bag.empty capacity) ops = some (outs, b) ∧ a'.Stores b ∧
      ∀ op, a'.Permits op → ∃ out a'' b', perform a' op = some (out, a'') ∧
        bagStep b op = some (out, b') ∧ a''.Stores b' ∧ a'.Effect op out a'' := by
  have htotal : ∀ (b : Bag Nat) (op : Operation), (bagStep b op).isSome := by
    intro b op
    cases op <;> rfl
  obtain ⟨outs, b, hbag⟩ := runOps_total htotal ops (Bag.empty capacity)
  obtain ⟨a', hrun, hstores⟩ :=
    perform_simulates.run ops a _ b outs (stores_init hlist hledger) hpermits hbag
  exact ⟨outs, a', b, hrun, hbag, hstores, fun op hop => hstores.step hop⟩

theorem usedChunkList_refines_bag_once : ∃ a : Application, ∃ outs a' b,
    runOps perform a [.insert 4112 (a.memory.blocks 4112).chunkHeader, .remove 0, .cleanup] =
      some (outs, a') ∧
    runOps bagStep (Bag.empty 2)
      [.insert 4112 (a.memory.blocks 4112).chunkHeader, .remove 0, .cleanup] = some (outs, b) ∧
    a'.Stores b := by
  obtain ⟨H, a, hlist, hlocals, hledger⟩ := firstChunk
  have hmem : 4112 ∈ a.locals := by
    rw [hlocals]
    exact Multiset.mem_singleton_self 4112
  obtain ⟨outs, a', b, hrun, hbag, hstores, _⟩ := usedChunkList_refines_bag hlist hledger
    [.insert 4112 (a.memory.blocks 4112).chunkHeader, .remove 0, .cleanup]
    ⟨⟨hmem, rfl⟩, fun _ _ => ⟨trivial, fun _ _ => ⟨trivial, fun _ _ => trivial⟩⟩⟩
  exact ⟨a, outs, a', b, hrun, hbag, hstores⟩

end Application

end UsedChunkList

end Iceoryx.Popo
