import Iceoryx.Mepoo.PoolRuns
import Iceoryx.Mepoo.SharedChunk

/-! `mepoo::SharedPointer`: an object of type `T` in the payload of a chunk, and the `SharedChunk`s
that keep it there.  The pointers of one `TypedMemPool` share its two pools, the blocks and headers
in them, and the trace of what happens to the objects. -/

namespace Iceoryx.Mepoo

open Hoofs Lib

/-- What happens to the chunk of the management block `m`: one more `SharedPointer` names it, or
one fewer; its object is constructed or destroyed; it is returned to the pool. -/
inductive ObjectEvent
  | named (m : Nat)
  | unnamed (m : Nat)
  | constructed (m : Nat)
  | destroyed (m : Nat)
  | returned (m : Nat)
  deriving DecidableEq, Repr

structure TypedMemPool where
  memPool : MemPool
  chunkManagementPool : MemPool
  blocks : Nat → ChunkManagement
  headers : Nat → ChunkHeader
  chunkSettings : ChunkSettings
  trace : List ObjectEvent

namespace TypedMemPool

def memory (t : TypedMemPool) : MemoryManager where
  memPoolVector := [t.memPool]
  chunkManagementPool := t.chunkManagementPool
  blocks := t.blocks
  headers := t.headers

def setMemory (mm : MemoryManager) (t : TypedMemPool) : TypedMemPool :=
  { t with
    memPool := mm.memPoolVector.headD t.memPool
    chunkManagementPool := mm.chunkManagementPool
    blocks := mm.blocks
    headers := mm.headers }

def emit (e : ObjectEvent) : Prog Halt TypedMemPool PUnit :=
  modify fun t => { t with trace := t.trace ++ [e] }

def copyChunk : Option Nat → Prog Halt TypedMemPool PUnit
  | none => pure ⟨⟩
  | some m => focus memory setMemory (SharedChunk.incrementReferenceCounter m)

def destroyChunk : Option Nat → Prog Halt TypedMemPool PUnit
  | none => pure ⟨⟩
  | some m => do
    let t ← get
    focus memory setMemory (SharedChunk.decrementReferenceCounter m)
    if (t.blocks m).referenceCounter = 1 then emit (.returned m) else pure ⟨⟩

end TypedMemPool

inductive SharedPointerError
  | sharedChunkIsEmpty
  deriving DecidableEq, Repr

structure SharedPointer where
  isInitialized : Bool
  chunk : Option Nat
  deriving DecidableEq, Repr

namespace SharedPointer

open TypedMemPool

def emitFor (event : Nat → ObjectEvent) : Option Nat → Prog Halt TypedMemPool PUnit
  | none => pure ⟨⟩
  | some m => emit (event m)

def construct (chunk : Option Nat) : Prog Halt TypedMemPool SharedPointer := do
  copyChunk chunk
  emitFor .named chunk
  emitFor .constructed chunk
  pure { isInitialized := chunk.isSome, chunk := chunk }

def copyConstruct (rhs : SharedPointer) : Prog Halt TypedMemPool SharedPointer := do
  copyChunk rhs.chunk
  emitFor .named rhs.chunk
  pure rhs

def moveConstruct (rhs : SharedPointer) : SharedPointer × SharedPointer :=
  (rhs, { isInitialized := false, chunk := none })

def deleteManagedObjectIfNecessary (p : SharedPointer) : Prog Halt TypedMemPool PUnit := do
  let t ← get
  match p.chunk with
  | none => pure ⟨⟩
  | some m => if (t.blocks m).referenceCounter = 2 then emit (.destroyed m) else pure ⟨⟩

def destroy (p : SharedPointer) : Prog Halt TypedMemPool PUnit := do
  p.deleteManagedObjectIfNecessary
  emitFor .unnamed p.chunk
  destroyChunk p.chunk

/-- For two different objects; an assignment to itself does nothing. -/
def copyAssign (lhs rhs : SharedPointer) : Prog Halt TypedMemPool SharedPointer := do
  lhs.deleteManagedObjectIfNecessary
  emitFor .unnamed lhs.chunk
  destroyChunk lhs.chunk
  copyChunk rhs.chunk
  emitFor .named rhs.chunk
  pure rhs

def moveAssign (lhs rhs : SharedPointer) :
    Prog Halt TypedMemPool (SharedPointer × SharedPointer) := do
  lhs.deleteManagedObjectIfNecessary
  emitFor .unnamed lhs.chunk
  destroyChunk lhs.chunk
  pure rhs.moveConstruct

/-- `Creation::create`, with `verify`: the new object is moved into the `success` and from there
into the `expected`, and what is left of it is destroyed. -/
def create (chunk : Option Nat) :
    Prog Halt TypedMemPool (Except SharedPointerError SharedPointer) := do
  let newObject ← construct chunk
  if newObject.isInitialized then
    let (success, newObject) := newObject.moveConstruct
    let (expected, success) := success.moveConstruct
    success.destroy
    newObject.destroy
    pure (.ok expected)
  else
    newObject.destroy
    pure (.error .sharedChunkIsEmpty)

def naming (m : Nat) : SharedPointer where
  isInitialized := true
  chunk := some m

def refs (p : SharedPointer) : Multiset Nat := p.chunk.elim 0 ({·})

end SharedPointer

namespace TypedMemPool

/-- What the constructor establishes: two pools that hand out the same indices, the one for chunks
that are large enough and the other for management blocks. -/
structure WellFormed (t : TypedMemPool) : Prop where
  memPool : t.memPool.Counted
  management : t.chunkManagementPool.Counted
  numberOfChunks : t.chunkManagementPool.numberOfChunks = t.memPool.numberOfChunks
  free : t.chunkManagementPool.free = t.memPool.free
  positive : 0 < t.memPool.chunkSize
  aligned : MemPool.chunkMemoryAlignment ∣ t.memPool.chunkSize
  rawAligned : MemPool.chunkMemoryAlignment ∣ t.memPool.rawMemory
  blockSize : t.chunkManagementPool.chunkSize = sizeofChunkManagement
  settings : t.chunkSettings.WellFormed
  large : t.chunkSettings.requiredChunkSize ≤ t.memPool.chunkSize

/-- `refs` are all the references to management blocks there are; the chunks that they manage are
the ones that are out of the pool, which was `initial` when it was constructed. -/
structure Books (initial : MemPool) (refs : Multiset Nat) (t : TypedMemPool) : Prop
    extends WellFormed t where
  kept : MemPool.Kept initial t.memPool
  block : ∀ m ∈ refs, ∃ i < t.memPool.numberOfChunks, i ∉ t.memPool.free ∧
    m = t.chunkManagementPool.chunkAt i ∧
    t.blocks m =
      { chunkHeader := t.memPool.chunkAt i, referenceCounter := refs.count m, mempool := 0 }
  taken : ∀ i < t.memPool.numberOfChunks, i ∉ t.memPool.free →
    t.chunkManagementPool.chunkAt i ∈ refs

variable {E : Halt → Prop} {initial : MemPool} {refs : Multiset Nat} {t t' : TypedMemPool} {m : Nat}

theorem WellFormed.blockPositive (h : t.WellFormed) : 0 < t.chunkManagementPool.chunkSize := by
  rw [h.blockSize]
  decide

theorem WellFormed.of_kept (h : t.WellFormed) (hp : MemPool.Kept t.memPool t'.memPool)
    (hq : MemPool.Kept t.chunkManagementPool t'.chunkManagementPool)
    (hs : t'.chunkSettings = t.chunkSettings) (hpc : t'.memPool.Counted)
    (hqc : t'.chunkManagementPool.Counted)
    (hfree : t'.chunkManagementPool.free = t'.memPool.free) : t'.WellFormed where
  memPool := hpc
  management := hqc
  numberOfChunks := by rw [hq.numberOfChunks, hp.numberOfChunks, h.numberOfChunks]
  free := hfree
  positive := by rw [hp.chunkSize]; exact h.positive
  aligned := by rw [hp.chunkSize]; exact h.aligned
  rawAligned := by rw [hp.rawMemory]; exact h.rawAligned
  blockSize := by rw [hq.chunkSize, h.blockSize]
  settings := by rw [hs]; exact h.settings
  large := by rw [hs, hp.chunkSize]; exact h.large

theorem WellFormed.blockAt_injective (h : t.WellFormed) :
    Function.Injective t.chunkManagementPool.chunkAt :=
  PoolRun.chunkAt_injective h.blockPositive

theorem WellFormed.usedChunks_eq (h : t.WellFormed) :
    t.chunkManagementPool.usedChunks = t.memPool.usedChunks := by
  have hp := h.memPool.used
  have hq := h.management.used
  rw [h.free, h.numberOfChunks] at hq
  omega

theorem Books.usedChunks_eq (h : Books initial refs t) :
    t.memPool.usedChunks = (refs.toFinset.image fun m => (t.blocks m).chunkHeader).card := by
  have himage : (refs.toFinset.image fun m => (t.blocks m).chunkHeader) =
      (Finset.range t.memPool.numberOfChunks \ t.memPool.free.toFinset).image
        t.memPool.chunkAt := by
    ext a
    simp only [Finset.mem_image, Multiset.mem_toFinset, Finset.mem_sdiff, Finset.mem_range,
      List.mem_toFinset]
    constructor
    · rintro ⟨m, hm, rfl⟩
      obtain ⟨i, hi, hfree, _, hblock⟩ := h.block m hm
      exact ⟨i, ⟨hi, hfree⟩, by rw [hblock]⟩
    · rintro ⟨i, ⟨hi, hfree⟩, rfl⟩
      have hm := h.taken i hi hfree
      obtain ⟨j, _, _, hj, hblock⟩ := h.block _ hm
      exact ⟨_, hm, by rw [hblock, h.blockAt_injective hj]⟩
  have hsub : t.memPool.free.toFinset ⊆ Finset.range t.memPool.numberOfChunks := by
    intro i hi
    rw [Finset.mem_range, ← h.memPool.size]
    exact h.memPool.rep.lt i (List.mem_toFinset.mp hi)
  have hused := h.memPool.used
  rw [himage, Finset.card_image_of_injective _ (PoolRun.chunkAt_injective h.positive),
    Finset.card_sdiff_of_subset hsub, Finset.card_range,
    List.toFinset_card_of_nodup h.memPool.rep.nodup]
  omega

theorem Books.setTrace (h : Books initial refs t) (trace : List ObjectEvent) :
    Books initial refs { t with trace := trace } where
  toWellFormed := h.toWellFormed.of_kept (MemPool.Kept.refl _) (MemPool.Kept.refl _) rfl
    h.memPool h.management h.free
  kept := h.kept
  block := h.block
  taken := h.taken

theorem Books.setCounter {refs' : Multiset Nat} {n : Nat} (h : Books initial refs t)
    (hmem : ∀ x, x ∈ refs' ↔ x ∈ refs)
    (hcount : ∀ x, refs'.count x = if x = m then n else refs.count x) :
    Books initial refs' { t with
      blocks := Function.update t.blocks m { t.blocks m with referenceCounter := n } } where
  toWellFormed := h.toWellFormed.of_kept (MemPool.Kept.refl _) (MemPool.Kept.refl _) rfl
    h.memPool h.management h.free
  kept := h.kept
  block := by
    intro x hx
    obtain ⟨i, hi, hfree, hxi, hblock⟩ := h.block x ((hmem x).mp hx)
    refine ⟨i, hi, hfree, hxi, ?_⟩
    rw [hcount]
    by_cases hxm : x = m
    · subst hxm
      simp only [Function.update_self, hblock, if_true]
    · simp only [Function.update_of_ne hxm, hblock, hxm, if_false]
  taken := fun i hi hfree => (hmem _).mpr (h.taken i hi hfree)

theorem copyChunk_some (t : TypedMemPool) (m : Nat) :
    copyChunk (some m) t = .ok (⟨⟩, { t with
      blocks := Function.update t.blocks m
        { t.blocks m with referenceCounter := (t.blocks m).referenceCounter + 1 } }) := rfl

theorem destroyChunk_some (t : TypedMemPool) (h : (t.blocks m).referenceCounter ≠ 1) :
    destroyChunk (some m) t = .ok (⟨⟩, { t with
      blocks := Function.update t.blocks m
        { t.blocks m with referenceCounter := (t.blocks m).referenceCounter - 1 } }) := by
  have hrun : SharedChunk.decrementReferenceCounter m t.memory = .ok (⟨⟩, t.memory.writeBlock m
      { t.blocks m with referenceCounter := (t.blocks m).referenceCounter - 1 }) := if_neg h
  simp only [destroyChunk, Prog.bind_apply]
  change Except.bind (focus memory setMemory _ t) _ = _
  simp only [focus, hrun, Except.bind, if_neg h]
  rfl

theorem copyChunk_triple (hm : m ∈ refs) :
    Triple E (Books initial refs) (copyChunk (some m)) fun _ => Books initial (m ::ₘ refs) := by
  intro t h
  rw [copyChunk_some]
  refine h.setCounter (fun x => ?_) fun x => ?_
  · simp only [Multiset.mem_cons, or_iff_right_iff_imp]
    rintro rfl
    exact hm
  · obtain ⟨_, _, _, _, hblock⟩ := h.block m hm
    rw [Multiset.count_cons, hblock]
    split
    · next hx => rw [hx]
    · rfl

theorem Books.freeChunk (h : Books initial (m ::ₘ refs) t) (hm : m ∉ refs) :
    Ends E (fun _ => Books initial refs) (destroyChunk (some m) t) := by
  obtain ⟨i, hi, hfree, hmi, hblock⟩ := h.block m (Multiset.mem_cons_self m refs)
  rw [Multiset.count_cons_self, Multiset.count_eq_zero.mpr hm] at hblock
  obtain ⟨p, hput, hpfree, hpkept, _, hpc⟩ := h.memPool.freeChunk_eq h.positive hi hfree
  obtain ⟨q, hqput, hqfree, hqkept, _, hqc⟩ := h.management.freeChunk_eq h.blockPositive
    (h.numberOfChunks ▸ hi) (h.free ▸ hfree)
  rw [← hmi] at hqput
  have hrun : SharedChunk.decrementReferenceCounter m t.memory = .ok (⟨⟩,
      { memPoolVector := [p]
        chunkManagementPool := q
        blocks := Function.update t.blocks m { t.blocks m with referenceCounter := 0 }
        headers := t.headers }) := by
    simp only [SharedChunk.decrementReferenceCounter, SharedChunk.freeChunk, memory, hblock,
      MemoryManager.writeBlock, Function.update_self, if_true, List.getElem?_cons_zero, hput, hqput]
    rfl
  have hone : (t.blocks m).referenceCounter = 1 := by rw [hblock]
  simp only [destroyChunk, Prog.bind_apply]
  change Ends E _ (Except.bind (focus memory setMemory _ t) _)
  simp only [focus, hrun, Except.bind, if_pos hone]
  refine Books.setTrace ?_ _
  have hother : ∀ x ∈ refs, x ≠ m := fun x hx e => hm (e ▸ hx)
  refine ⟨h.toWellFormed.of_kept hpkept hqkept rfl hpc hqc ?_, h.kept.trans hpkept,
    fun x hx => ?_, fun j hj hjfree => ?_⟩
  · change q.free = p.free
    rw [hqfree, hpfree, h.free]
  · obtain ⟨j, hj, hjfree, hxj, hxblock⟩ := h.block x (Multiset.mem_cons_of_mem hx)
    change ∃ j < p.numberOfChunks, j ∉ p.free ∧ x = q.chunkAt j ∧
      Function.update t.blocks m _ x =
        { chunkHeader := p.chunkAt j, referenceCounter := refs.count x, mempool := 0 }
    rw [hpkept.numberOfChunks, hpfree]
    refine ⟨j, hj, ?_, ?_, ?_⟩
    · rw [List.mem_cons, not_or]
      refine ⟨fun e => hother x hx ?_, hjfree⟩
      rw [hxj, e, hmi]
    · rw [hqkept.chunkAt]
      exact hxj
    · rw [Function.update_of_ne (hother x hx), hxblock, hpkept.chunkAt,
        Multiset.count_cons_of_ne (hother x hx)]
  · change q.chunkAt j ∈ refs
    change j < p.numberOfChunks at hj
    change j ∉ p.free at hjfree
    rw [hpfree, List.mem_cons, not_or] at hjfree
    rw [hpkept.numberOfChunks] at hj
    rw [hqkept.chunkAt]
    refine (Multiset.mem_cons.mp (h.taken j hj hjfree.2)).resolve_left fun e => hjfree.1 ?_
    exact h.blockAt_injective (e.trans hmi)

theorem destroyChunk_triple :
    Triple E (Books initial (m ::ₘ refs)) (destroyChunk (some m)) fun _ => Books initial refs := by
  intro t h
  by_cases hm : m ∈ refs
  · obtain ⟨_, _, _, _, hblock⟩ := h.block m (Multiset.mem_cons_self m refs)
    rw [Multiset.count_cons_self] at hblock
    have hpos := Multiset.count_pos.mpr hm
    have hne : (t.blocks m).referenceCounter ≠ 1 := by
      rw [hblock]
      exact (Nat.lt_add_of_pos_left hpos).ne'
    rw [destroyChunk_some t hne]
    refine h.setCounter (fun x => ?_) fun x => ?_
    · rw [Multiset.mem_cons]
      refine ⟨Or.inr, ?_⟩
      rintro (rfl | hx)
      · exact hm
      · exact hx
    · rw [hblock]
      by_cases hx : x = m
      · subst hx
        rw [if_pos rfl]
        rfl
      · rw [if_neg hx, Multiset.count_cons_of_ne hx]
  · exact h.freeChunk hm

theorem emit_triple (e : ObjectEvent) :
    Triple E (Books initial refs) (emit e) fun _ => Books initial refs :=
  Triple.modify fun _ h => h.setTrace _

end TypedMemPool

namespace SharedPointer

open TypedMemPool

variable {E : Halt → Prop} {initial : MemPool} {refs : Multiset Nat}

theorem refs_of_some {p : SharedPointer} {m : Nat} (h : p.chunk = some m) : p.refs = {m} := by
  rw [SharedPointer.refs, h]
  rfl

theorem refs_of_none {p : SharedPointer} (h : p.chunk = none) : p.refs = 0 := by
  rw [SharedPointer.refs, h]
  rfl

theorem emitFor_triple (event : Nat → ObjectEvent) (chunk : Option Nat) :
    Triple E (Books initial refs) (emitFor event chunk) fun _ => Books initial refs := by
  cases chunk with
  | none => exact Triple.pure fun _ h => h
  | some m => exact emit_triple _

theorem deleteManagedObjectIfNecessary_triple (p : SharedPointer) :
    Triple E (Books initial refs) p.deleteManagedObjectIfNecessary fun _ => Books initial refs := by
  unfold deleteManagedObjectIfNecessary
  refine Triple.bind (Q := fun _ => Books initial refs) (Triple.get fun _ h => h) fun t => ?_
  cases p.chunk with
  | none => exact Triple.pure fun _ h => h
  | some m =>
    by_cases hlast : (t.blocks m).referenceCounter = 2
    · simp only [hlast, if_true]
      exact emit_triple _
    · simp only [hlast, if_false]
      exact Triple.pure fun _ h => h

theorem copyConstruct_triple {p : SharedPointer} (h : ∀ m ∈ p.chunk, m ∈ refs) :
    Triple E (Books initial refs) p.copyConstruct fun q t =>
      q = p ∧ Books initial (p.refs + refs) t := by
  have hcopy : Triple E (Books initial refs) (copyChunk p.chunk) fun _ =>
      Books initial (p.refs + refs) := by
    cases hp : p.chunk with
    | none =>
      rw [refs_of_none hp, zero_add]
      exact Triple.pure fun _ h => h
    | some m =>
      rw [refs_of_some hp, Multiset.singleton_add]
      exact copyChunk_triple (h m hp)
  refine Triple.bind hcopy fun _ => ?_
  exact Triple.bind (emitFor_triple _ _) fun _ => Triple.pure fun _ h => ⟨rfl, h⟩

theorem destroy_triple (p : SharedPointer) :
    Triple E (Books initial (p.refs + refs)) p.destroy fun _ => Books initial refs := by
  refine Triple.bind (p.deleteManagedObjectIfNecessary_triple) fun _ => ?_
  refine Triple.bind (emitFor_triple _ _) fun _ => ?_
  cases hp : p.chunk with
  | none =>
    rw [refs_of_none hp, zero_add]
    exact Triple.pure fun _ h => h
  | some m =>
    rw [refs_of_some hp, Multiset.singleton_add]
    exact destroyChunk_triple

theorem copyAssign_eq (lhs rhs : SharedPointer) :
    lhs.copyAssign rhs = (do lhs.destroy; rhs.copyConstruct) := by
  simp only [copyAssign, destroy, copyConstruct, bind_assoc]

theorem moveAssign_eq (lhs rhs : SharedPointer) :
    lhs.moveAssign rhs = (do lhs.destroy; pure rhs.moveConstruct) := by
  simp only [moveAssign, destroy, bind_assoc]

theorem copyAssign_triple {lhs rhs : SharedPointer} (h : ∀ m ∈ rhs.chunk, m ∈ refs) :
    Triple E (Books initial (lhs.refs + refs)) (lhs.copyAssign rhs) fun p t =>
      p = rhs ∧ Books initial (rhs.refs + refs) t := by
  rw [copyAssign_eq]
  exact Triple.bind lhs.destroy_triple fun _ => copyConstruct_triple h

theorem moveAssign_triple (lhs rhs : SharedPointer) :
    Triple E (Books initial (lhs.refs + refs)) (lhs.moveAssign rhs) fun p t =>
      p = rhs.moveConstruct ∧ Books initial refs t := by
  rw [moveAssign_eq]
  exact Triple.bind lhs.destroy_triple fun _ => Triple.pure fun _ h => ⟨rfl, h⟩

theorem construct_eq (m : Nat) :
    construct (some m) = (do
      let p ← copyConstruct (naming m)
      emit (.constructed m)
      pure p) := by
  simp only [construct, copyConstruct, naming, emitFor, bind_assoc, pure_bind, Option.isSome_some]

theorem construct_triple {m : Nat} (hm : m ∈ refs) :
    Triple E (Books initial refs) (construct (some m)) fun p t =>
      p = naming m ∧ Books initial (m ::ₘ refs) t := by
  rw [construct_eq]
  refine Triple.bind (copyConstruct_triple fun x hx => ?_) fun p => Triple.assume fun hp => ?_
  · cases hx
    exact hm
  subst hp
  exact Triple.bind (emit_triple _) fun _ => Triple.pure fun _ h => ⟨rfl, h⟩

@[simp] theorem destroy_none (b : Bool) :
    destroy { isInitialized := b, chunk := none } = pure ⟨⟩ := rfl

/-- Of the pointer that is created and its moved-from predecessors, only one names the block. -/
theorem create_eq (m : Nat) :
    create (some m) = (do return .ok (← construct (some m))) := by
  simp only [create, construct_eq, copyConstruct, naming, moveConstruct, destroy_none, pure_bind,
    bind_assoc, if_true]

end SharedPointer

end Iceoryx.Mepoo
