import Iceoryx.Lib.Run
import Iceoryx.Mepoo.SharedPointer

/-! `mepoo::TypedMemPool`: creating objects that `SharedPointer`s manage, and the pool together with
the pointers that are alive, over any sequence of calls.  An error handler that returns is assumed,
so that the error which the call then returns is in the model. -/

namespace Iceoryx.Mepoo

open Hoofs Lib

inductive TypedMemPoolError
  | outOfChunks
  | fatalErrorReachedInconsistentState
  deriving DecidableEq, Repr

namespace TypedMemPool

def requiredChunkSize (chunkSettings : ChunkSettings) : Nat :=
  align chunkSettings.requiredChunkSize MemPool.chunkMemoryAlignment

/-- `blocks` and `headers` are what the memory of the pools held before. -/
def create (sizeofT alignofT numberOfChunks managementAllocator chunkMemoryAllocator : Nat)
    (allocators : Nat → Allocator) (blocks : Nat → ChunkManagement)
    (headers : Nat → ChunkHeader) : Option (TypedMemPool × (Nat → Allocator)) :=
  match ChunkSettings.create sizeofT alignofT 0 1 with
  | .error _ => none
  | .ok chunkSettings => do
    let (memPool, allocators) ← MemPool.create (requiredChunkSize chunkSettings % uint32Range)
      numberOfChunks managementAllocator chunkMemoryAllocator allocators
    let (chunkManagementPool, allocators) ← MemPool.create sizeofChunkManagement
      numberOfChunks managementAllocator managementAllocator allocators
    let pool : TypedMemPool :=
      { memPool := memPool
        chunkManagementPool := chunkManagementPool
        blocks := blocks
        headers := headers
        chunkSettings := chunkSettings
        trace := [] }
    some (pool, allocators)

def acquireChunkManagementPointer : Prog Halt TypedMemPool (Except TypedMemPoolError Nat) :=
  fun t =>
    match t.memPool.getChunk with
    | none => .ok (.error .outOfChunks, t)
    | some (chunkHeader, memPool) =>
      match t.chunkManagementPool.getChunk with
      | none => .ok (.error .fatalErrorReachedInconsistentState, { t with memPool := memPool })
      | some (chunkManagement, chunkManagementPool) =>
        match ChunkHeader.create chunkHeader memPool.chunkSize t.chunkSettings with
        | none => .error .contract
        | some header =>
          .ok (.ok chunkManagement, { t with
            memPool := memPool
            chunkManagementPool := chunkManagementPool
            headers := Function.update t.headers chunkHeader header
            blocks := Function.update t.blocks chunkManagement
              { chunkHeader := chunkHeader, referenceCounter := 1, mempool := 0 } })

/-- The end of both creations: the temporary `SharedChunk` goes first, then the pointer in the
`expected` is copied into the `success` and moved into the value that is returned, and the local
one is destroyed. -/
def wrap (chunkManagement : Nat) :
    Prog Halt TypedMemPool (Except TypedMemPoolError SharedPointer) := do
  let newObject ← SharedPointer.create (some chunkManagement)
  destroyChunk (some chunkManagement)
  match newObject with
  | .error _ => pure (.error .fatalErrorReachedInconsistentState)
  | .ok newObject =>
    let success ← newObject.copyConstruct
    let (returned, success) := success.moveConstruct
    success.destroy
    newObject.destroy
    pure (.ok returned)

def createObject : Prog Halt TypedMemPool (Except TypedMemPoolError SharedPointer) := do
  match ← acquireChunkManagementPointer with
  | .error e => pure (.error e)
  | .ok chunkManagement => wrap chunkManagement

/-- `created` is what `T::create` returns. -/
def createObjectWithCreationPattern {E : Type} (created : Except E Unit) :
    Prog Halt TypedMemPool (Except (TypedMemPoolError ⊕ E) SharedPointer) := do
  match ← acquireChunkManagementPointer with
  | .error e => pure (.error (.inl e))
  | .ok chunkManagement =>
    match created with
    | .error e => pure (.error (.inr e))
    | .ok _ => return (← wrap chunkManagement).mapError .inl

def getUsedChunks (t : TypedMemPool) : Nat := t.memPool.usedChunks

def Low (t : TypedMemPool) : Prop :=
  ∀ index ∈ t.memPool.free.head?, index * t.memPool.chunkSize < uint32Range ∧
    index * t.chunkManagementPool.chunkSize < uint32Range

variable {E : Halt → Prop} {initial : MemPool} {refs : Multiset Nat} {t t' : TypedMemPool} {m : Nat}

theorem create_wellFormed {sizeofT alignofT numberOfChunks management chunks : Nat}
    {allocators allocators' : Nat → Allocator} {blocks : Nat → ChunkManagement}
    {headers : Nat → ChunkHeader}
    (h : create sizeofT alignofT numberOfChunks management chunks allocators blocks headers =
      some (t, allocators')) :
    t.WellFormed ∧ t.memPool.free = List.range numberOfChunks ∧
      t.memPool.numberOfChunks = numberOfChunks ∧ t.trace = [] := by
  unfold create at h
  cases hsettings : ChunkSettings.create sizeofT alignofT 0 1 with
  | error e =>
    rw [hsettings] at h
    cases h
  | ok settings =>
    rw [hsettings] at h
    obtain ⟨⟨p, a⟩, hp, h⟩ := Option.bind_eq_some_iff.mp h
    obtain ⟨⟨q, b⟩, hq, h⟩ := Option.bind_eq_some_iff.mp h
    cases h
    have hwf := ChunkSettings.create_wellFormed hsettings
    obtain ⟨hpc, hpfree, _, hpsize, hpn, hpos, _, hdvd, hraw, _⟩ := MemPool.create_spec hp
    obtain ⟨hqc, hqfree, _, hqsize, hqn, _⟩ := MemPool.create_spec hq
    have hlarge : settings.requiredChunkSize ≤
        requiredChunkSize settings % uint32Range := by
      have hle : settings.requiredChunkSize ≤ requiredChunkSize settings := le_align _ _
      have hlt : requiredChunkSize settings + 1 ≤ settings.requiredChunkSize + 8 :=
        align_le_of_dvd (Nat.one_dvd _) (Nat.one_dvd _) (by decide)
      have hmul : 8 ∣ requiredChunkSize settings := dvd_align (by decide)
      have hbound := hwf.bounded
      simp only [uint32Range] at hpos hbound ⊢
      -- a size of exactly 4 GiB would have become zero
      omega
    exact ⟨
      { memPool := hpc
        management := hqc
        numberOfChunks := hqn.trans hpn.symm
        free := hqfree.trans hpfree.symm
        positive := hpsize ▸ hpos
        aligned := hpsize ▸ hdvd
        rawAligned := hraw
        blockSize := hqsize
        settings := hwf
        large := hpsize ▸ hlarge }, hpfree, hpn, rfl⟩

theorem WellFormed.acquire (h : t.WellFormed) :
    (t.memPool.usedChunks = t.memPool.numberOfChunks ∧
      acquireChunkManagementPointer t = .ok (.error .outOfChunks, t)) ∨
    t.memPool.usedChunks ≠ t.memPool.numberOfChunks ∧
    ∃ i m t', t.memPool.free = i :: t'.memPool.free ∧
      m = t.chunkManagementPool.rawMemory + i * t.chunkManagementPool.chunkSize % uint32Range ∧
      acquireChunkManagementPointer t = .ok (.ok m, t') ∧ t'.WellFormed ∧
      MemPool.Kept t.memPool t'.memPool ∧
      MemPool.Kept t.chunkManagementPool t'.chunkManagementPool ∧
      t'.memPool.usedChunks = t.memPool.usedChunks + 1 ∧ t'.trace = t.trace ∧
      t'.blocks = Function.update t.blocks m
        { chunkHeader := t.memPool.rawMemory + i * t.memPool.chunkSize % uint32Range
          referenceCounter := 1
          mempool := 0 } := by
  unfold acquireChunkManagementPointer
  cases hget : t.memPool.getChunk with
  | none => exact Or.inl ⟨(MemPool.getChunk_eq_none h.memPool).mp hget, rfl⟩
  | some r =>
    obtain ⟨chunk, p⟩ := r
    obtain ⟨i, hfree, hchunk, hpkept, hpused, hpc⟩ := MemPool.getChunk_spec h.memPool hget
    cases hqget : t.chunkManagementPool.getChunk with
    | none =>
      have hp := hpc.used
      have hq := (MemPool.getChunk_eq_none h.management).mp hqget
      rw [h.usedChunks_eq, h.numberOfChunks] at hq
      rw [hpkept.numberOfChunks] at hp
      omega
    | some r =>
      obtain ⟨m, q⟩ := r
      obtain ⟨j, hqfree, hm, hqkept, _, hqc⟩ := MemPool.getChunk_spec h.management hqget
      rw [h.free, hfree] at hqfree
      obtain ⟨rfl, hpq⟩ := List.cons_eq_cons.mp hqfree
      have haligned : alignofChunkHeader ∣ chunk := by
        rw [hchunk]
        refine Nat.dvd_add h.rawAligned ?_
        exact (Nat.dvd_mod_iff (by decide)).mpr (Nat.dvd_mul_left_of_dvd h.aligned i)
      obtain ⟨header, hheader, _⟩ := ChunkHeader.create_eq_some haligned h.settings
        (h.large.trans_eq hpkept.chunkSize.symm)
      refine Or.inr ⟨fun hfull => ?_, i, m, { t with
        memPool := p
        chunkManagementPool := q
        headers := Function.update t.headers chunk header
        blocks := Function.update t.blocks m
          { chunkHeader := chunk, referenceCounter := 1, mempool := 0 } },
        hfree, hm, ?_, ?_, hpkept, hqkept, hpused, rfl, ?_⟩
      · rw [(MemPool.getChunk_eq_none h.memPool).mpr hfull] at hget
        cases hget
      · simp only [hheader]
      · exact h.of_kept hpkept hqkept rfl hpc hqc hpq.symm
      · rw [hchunk]

theorem Books.take {i : Nat} (h : Books initial refs t)
    (hfree : t.memPool.free = i :: t'.memPool.free) (hwf : t'.WellFormed)
    (hp : MemPool.Kept t.memPool t'.memPool)
    (hq : MemPool.Kept t.chunkManagementPool t'.chunkManagementPool)
    (hm : m = t.chunkManagementPool.chunkAt i)
    (hblocks : t'.blocks = Function.update t.blocks m
      { chunkHeader := t.memPool.chunkAt i, referenceCounter := 1, mempool := 0 }) :
    Books initial (m ::ₘ refs) t' where
  toWellFormed := hwf
  kept := h.kept.trans hp
  block := by
    have hi : i < t.memPool.numberOfChunks ∧ i ∉ t'.memPool.free := by
      have hnodup := h.memPool.rep.nodup
      have hlt := h.memPool.rep.lt i (by rw [hfree]; exact List.mem_cons_self)
      rw [hfree] at hnodup
      exact ⟨h.memPool.size ▸ hlt, (List.nodup_cons.mp hnodup).1⟩
    have hnot : m ∉ refs := by
      intro hmem
      obtain ⟨j, _, hj, hmj, _⟩ := h.block m hmem
      rw [hm] at hmj
      rw [hfree, ← h.blockAt_injective hmj] at hj
      exact hj List.mem_cons_self
    intro x hx
    rw [hp.numberOfChunks, hblocks]
    by_cases hxm : x = m
    · subst hxm
      refine ⟨i, hi.1, hi.2, by rw [hq.chunkAt]; exact hm, ?_⟩
      rw [Function.update_self, hp.chunkAt, Multiset.count_cons_self,
        Multiset.count_eq_zero.mpr hnot]
    · obtain ⟨j, hj, hjfree, hxj, hblock⟩ :=
        h.block x ((Multiset.mem_cons.mp hx).resolve_left hxm)
      rw [hfree, List.mem_cons, not_or] at hjfree
      refine ⟨j, hj, hjfree.2, by rw [hq.chunkAt]; exact hxj, ?_⟩
      rw [Function.update_of_ne hxm, hp.chunkAt, Multiset.count_cons_of_ne hxm, hblock]
  taken := by
    intro j hj hjfree
    rw [hp.numberOfChunks] at hj
    rw [hq.chunkAt, Multiset.mem_cons]
    by_cases hji : j = i
    · exact Or.inl (by rw [hji, hm])
    · refine Or.inr (h.taken j hj ?_)
      rw [hfree, List.mem_cons, not_or]
      exact ⟨hji, hjfree⟩

theorem Books.acquire (h : Books initial refs t) (hlow : t.Low) :
    (t.memPool.usedChunks = t.memPool.numberOfChunks ∧
      acquireChunkManagementPointer t = .ok (.error .outOfChunks, t)) ∨
    t.memPool.usedChunks ≠ t.memPool.numberOfChunks ∧
    ∃ m t', acquireChunkManagementPointer t = .ok (.ok m, t') ∧
      t'.memPool.usedChunks = t.memPool.usedChunks + 1 ∧ Books initial (m ::ₘ refs) t' := by
  refine h.toWellFormed.acquire.imp_right ?_
  rintro ⟨hroom, i, m, t', hfree, hm, hrun, hwf, hp, hq, hused, _, hblocks⟩
  obtain ⟨hlow, hlow'⟩ := hlow i (by rw [hfree]; rfl)
  rw [Nat.mod_eq_of_lt hlow'] at hm
  rw [Nat.mod_eq_of_lt hlow] at hblocks
  exact ⟨hroom, m, t', hrun, hused, h.take hfree hwf hp hq hm hblocks⟩

theorem wrap_triple :
    Triple E (Books initial (m ::ₘ refs)) (wrap m) fun r t =>
      ∃ p, r = .ok p ∧ Books initial (p.refs + refs) t := by
  have hself := Multiset.mem_cons_self m refs
  have hcreate : Triple E (Books initial (m ::ₘ refs)) (SharedPointer.create (some m)) fun r t =>
      r = .ok (.naming m) ∧ Books initial (m ::ₘ m ::ₘ refs) t := by
    rw [SharedPointer.create_eq]
    exact Triple.bind (SharedPointer.construct_triple hself) fun p =>
      Triple.pure fun _ h => ⟨by rw [h.1], h.2⟩
  refine Triple.bind hcreate fun r => Triple.assume fun hr => ?_
  refine Triple.bind destroyChunk_triple fun _ => ?_
  subst hr
  refine Triple.bind (SharedPointer.copyConstruct_triple fun x hx => ?_) fun q =>
    Triple.assume fun hq => ?_
  · cases hx
    exact hself
  subst hq
  refine Triple.bind (Q := fun _ => Books initial (m ::ₘ m ::ₘ refs)) ?_ fun _ => ?_
  · exact Triple.pure fun _ h => h
  · refine Triple.bind (SharedPointer.destroy_triple (.naming m)) fun _ => ?_
    exact Triple.pure fun _ h => ⟨_, rfl, h⟩

theorem createObject_error {e : TypedMemPoolError}
    (h : acquireChunkManagementPointer t = .ok (.error e, t')) :
    createObject t = .ok (.error e, t') := by
  unfold createObject
  rw [Prog.bind_apply, h]
  rfl

theorem createObject_ok (h : acquireChunkManagementPointer t = .ok (.ok m, t')) :
    createObject t = wrap m t' := by
  unfold createObject
  rw [Prog.bind_apply, h]
  rfl

theorem createObjectWithCreationPattern_error {E : Type} (created : Except E Unit)
    {e : TypedMemPoolError} (h : acquireChunkManagementPointer t = .ok (.error e, t')) :
    createObjectWithCreationPattern created t = .ok (.error (.inl e), t') := by
  unfold createObjectWithCreationPattern
  rw [Prog.bind_apply, h]
  rfl

theorem createObjectWithCreationPattern_failed {E : Type} (e : E)
    (h : acquireChunkManagementPointer t = .ok (.ok m, t')) :
    createObjectWithCreationPattern (.error e) t = .ok (.error (.inr e), t') := by
  unfold createObjectWithCreationPattern
  rw [Prog.bind_apply, h]
  rfl

theorem createObjectWithCreationPattern_ok {E : Type} {t'' : TypedMemPool}
    {r : Except TypedMemPoolError SharedPointer}
    (h : acquireChunkManagementPointer t = .ok (.ok m, t')) (hwrap : wrap m t' = .ok (r, t'')) :
    createObjectWithCreationPattern (E := E) (.ok ()) t = .ok (r.mapError .inl, t'') := by
  unfold createObjectWithCreationPattern
  rw [Prog.bind_apply, h]
  change Except.bind (wrap m t') _ = _
  rw [hwrap]
  rfl

theorem Books.createObject (h : Books initial refs t) (hlow : t.Low) :
    (t.memPool.usedChunks = t.memPool.numberOfChunks ∧
      TypedMemPool.createObject t = .ok (.error .outOfChunks, t)) ∨
    t.memPool.usedChunks ≠ t.memPool.numberOfChunks ∧
    ∃ p t', TypedMemPool.createObject t = .ok (.ok p, t') ∧
      Books initial (p.refs + refs) t' := by
  rcases h.acquire hlow with ⟨hfull, hrun⟩ | ⟨hroom, m, t', hrun, _, hbooks⟩
  · exact Or.inl ⟨hfull, createObject_error hrun⟩
  · obtain ⟨r, t'', hwrap, p, rfl, hbooks⟩ := Triple.returns wrap_triple hbooks
    exact Or.inr ⟨hroom, p, t'', (createObject_ok hrun).trans hwrap, hbooks⟩

/-- The outcomes of `createObjectWithCreationPattern`; the last one is the leak. -/
theorem Books.createObjectWithCreationPattern {E : Type} (created : Except E Unit)
    (h : Books initial refs t) (hlow : t.Low) :
    (t.memPool.usedChunks = t.memPool.numberOfChunks ∧
      TypedMemPool.createObjectWithCreationPattern created t =
        .ok (.error (.inl .outOfChunks), t)) ∨
    t.memPool.usedChunks ≠ t.memPool.numberOfChunks ∧
    ((∃ p t', created = .ok () ∧
      TypedMemPool.createObjectWithCreationPattern created t = .ok (.ok p, t') ∧
      Books initial (p.refs + refs) t') ∨
    ∃ e t', created = .error e ∧
      TypedMemPool.createObjectWithCreationPattern created t = .ok (.error (.inr e), t') ∧
      t'.memPool.usedChunks = t.memPool.usedChunks + 1) := by
  rcases h.acquire hlow with ⟨hfull, hrun⟩ | ⟨hroom, m, t', hrun, hused, hbooks⟩
  · exact Or.inl ⟨hfull, createObjectWithCreationPattern_error created hrun⟩
  · refine Or.inr ⟨hroom, ?_⟩
    cases created with
    | error e =>
      exact Or.inr ⟨e, t', rfl, createObjectWithCreationPattern_failed e hrun, hused⟩
    | ok _ =>
      obtain ⟨r, t'', hwrap, p, rfl, hbooks⟩ := Triple.returns wrap_triple hbooks
      exact Or.inl ⟨p, t'', rfl, createObjectWithCreationPattern_ok hrun hwrap, hbooks⟩

end TypedMemPool

/-- What a creation returned, the pool before it, and how many chunks were named then. -/
structure Creation (E : Type) where
  result : Except (TypedMemPoolError ⊕ E) SharedPointer
  before : TypedMemPool
  named : Nat

structure Creation.Sound {E : Type} (n : Nat) (after : TypedMemPool) (c : Creation E) : Prop where
  unchanged : ∀ e, c.result = .error e →
    after.memPool = c.before.memPool ∧ after.chunkManagementPool = c.before.chunkManagementPool
  outOfChunks : c.result = .error (.inl .outOfChunks) ↔ c.named = n
  consistent : c.result ≠ .error (.inl .fatalErrorReachedInconsistentState)

structure PointerRun (E : Type) where
  pool : TypedMemPool
  pointers : List SharedPointer
  creation : Option (Creation E)

namespace PointerRun

open TypedMemPool

variable {E : Type}

inductive Operation (E : Type)
  | createObject
  | createObjectWithCreationPattern (created : Except E Unit)
  | copyConstruct (i : Nat)
  | moveConstruct (i : Nat)
  | copyAssign (i j : Nat)
  | moveAssign (i j : Nat)
  | destroy (i : Nat)

def start (t : TypedMemPool) : PointerRun E where
  pool := t
  pointers := []
  creation := none

def refs (s : PointerRun E) : Multiset Nat := (s.pointers.map SharedPointer.refs).sum

def namedChunks (s : PointerRun E) : Finset Nat :=
  s.refs.toFinset.image fun m => (s.pool.blocks m).chunkHeader

def created (s : PointerRun E) (result : Except (TypedMemPoolError ⊕ E) SharedPointer)
    (pool : TypedMemPool) : PointerRun E where
  pool := pool
  pointers := s.pointers ++ result.toOption.toList
  creation := some { result := result, before := s.pool, named := s.namedChunks.card }

def create (s : PointerRun E)
    (x : Prog Halt TypedMemPool (Except (TypedMemPoolError ⊕ E) SharedPointer)) :
    Option (PointerRun E) := do
  let (result, pool) ← (x s.pool).toOption
  some (s.created result pool)

def put (pool : TypedMemPool) (pointers : List SharedPointer) : PointerRun E where
  pool := pool
  pointers := pointers
  creation := none

def step (s : PointerRun E) : Operation E → Option (PointerRun E)
  | .createObject => s.create ((·.mapError .inl) <$> createObject)
  | .createObjectWithCreationPattern created =>
    s.create (createObjectWithCreationPattern created)
  | .copyConstruct i => do
    let rhs ← s.pointers[i]?
    let (p, pool) ← (rhs.copyConstruct s.pool).toOption
    some (put pool (s.pointers ++ [p]))
  | .moveConstruct i => do
    let rhs ← s.pointers[i]?
    some (put s.pool (s.pointers.set i rhs.moveConstruct.2 ++ [rhs.moveConstruct.1]))
  | .copyAssign i j => do
    let lhs ← s.pointers[i]?
    let rhs ← s.pointers[j]?
    if i = j then some (put s.pool s.pointers)
    else
      let (lhs, pool) ← (lhs.copyAssign rhs s.pool).toOption
      some (put pool (s.pointers.set i lhs))
  | .moveAssign i j => do
    let lhs ← s.pointers[i]?
    let rhs ← s.pointers[j]?
    if i = j then some (put s.pool s.pointers)
    else
      let ((lhs, rhs), pool) ← (lhs.moveAssign rhs s.pool).toOption
      some (put pool ((s.pointers.set j rhs).set i lhs))
  | .destroy i => do
    let p ← s.pointers[i]?
    let (_, pool) ← (p.destroy s.pool).toOption
    some (put pool (s.pointers.eraseIdx i))

def Enabled (s : PointerRun E) : Operation E → Prop
  | .createObject => True
  | .createObjectWithCreationPattern _ => True
  | .copyConstruct i => i < s.pointers.length
  | .moveConstruct i => i < s.pointers.length
  | .copyAssign i j => i < s.pointers.length ∧ j < s.pointers.length
  | .moveAssign i j => i < s.pointers.length ∧ j < s.pointers.length
  | .destroy i => i < s.pointers.length

instance (s : PointerRun E) : DecidablePred s.Enabled
  | .createObject | .createObjectWithCreationPattern _ => inferInstanceAs (Decidable True)
  | .copyConstruct _ | .moveConstruct _ | .destroy _ => inferInstanceAs (Decidable (_ < _))
  | .copyAssign _ _ | .moveAssign _ _ => inferInstanceAs (Decidable (_ ∧ _))

/-- `T::create` does not fail while there is a chunk to lose. -/
def NoLeak (s : PointerRun E) : Operation E → Prop
  | .createObjectWithCreationPattern (.error _) =>
    s.pool.memPool.usedChunks = s.pool.memPool.numberOfChunks
  | _ => True

instance (s : PointerRun E) : DecidablePred s.NoLeak
  | .createObjectWithCreationPattern (.error _) => inferInstanceAs (Decidable (_ = _))
  | .createObjectWithCreationPattern (.ok _) => inferInstanceAs (Decidable True)
  | .createObject | .copyConstruct _ | .moveConstruct _ | .copyAssign _ _ | .moveAssign _ _
  | .destroy _ => inferInstanceAs (Decidable True)

def Within (s : PointerRun E) : Operation E → Prop
  | .createObject => s.pool.Low
  | .createObjectWithCreationPattern _ => s.pool.Low
  | _ => True

structure Accounted (n : Nat) (s : PointerRun E) : Prop where
  used : s.pool.getUsedChunks = s.namedChunks.card
  management : s.pool.chunkManagementPool.usedChunks = s.namedChunks.card
  creation : ∀ c ∈ s.creation, c.Sound n s.pool

structure Inv (initial : MemPool) (s : PointerRun E) : Prop where
  books : Books initial s.refs s.pool
  creation : ∀ c ∈ s.creation, c.Sound initial.numberOfChunks s.pool

variable {initial : MemPool} {s s' : PointerRun E}

theorem inv_start {t : TypedMemPool} (h : t.WellFormed)
    (hfree : t.memPool.free = List.range t.memPool.numberOfChunks) :
    Inv t.memPool (start t : PointerRun E) where
  books :=
    { h with
      kept := MemPool.Kept.refl _
      block := fun _ hm => absurd hm (Multiset.notMem_zero _)
      taken := fun _ hi hnot => absurd (hfree ▸ List.mem_range.mpr hi) hnot }
  creation := fun _ hc => nomatch hc

theorem card_namedChunks (h : Books initial s.refs s.pool) :
    s.namedChunks.card = s.pool.memPool.usedChunks :=
  h.usedChunks_eq.symm

theorem Inv.accounted (h : Inv initial s) : Accounted initial.numberOfChunks s where
  used := (card_namedChunks h.books).symm
  management := (h.books.usedChunks_eq).symm ▸ h.books.toWellFormed.usedChunks_eq
  creation := h.creation

theorem sum_refs_append (l l' : List SharedPointer) :
    ((l ++ l').map SharedPointer.refs).sum =
      (l.map SharedPointer.refs).sum + (l'.map SharedPointer.refs).sum := by
  rw [List.map_append, List.sum_append]

theorem sum_refs_eraseIdx {l : List SharedPointer} {i : Nat} {p : SharedPointer}
    (h : l[i]? = some p) :
    (l.map SharedPointer.refs).sum = p.refs + ((l.eraseIdx i).map SharedPointer.refs).sum := by
  obtain ⟨hi, rfl⟩ := List.getElem?_eq_some_iff.mp h
  rw [← ((List.getElem_cons_eraseIdx_perm hi).map SharedPointer.refs).sum_eq, List.map_cons,
    List.sum_cons]

theorem mem_sum_refs {l : List SharedPointer} {p : SharedPointer} {m : Nat} (hp : p ∈ l)
    (hm : m ∈ p.chunk) : m ∈ (l.map SharedPointer.refs).sum := by
  obtain ⟨i, hi⟩ := List.mem_iff_getElem?.mp hp
  rw [sum_refs_eraseIdx hi, SharedPointer.refs_of_some hm]
  exact Multiset.mem_add.mpr (Or.inl (Multiset.mem_singleton_self m))

theorem inv_put {t : TypedMemPool} {pointers : List SharedPointer}
    (h : Books initial (pointers.map SharedPointer.refs).sum t) :
    Inv initial (put t pointers : PointerRun E) where
  books := h
  creation := fun _ hc => nomatch hc

theorem create_eq_some {result : Except (TypedMemPoolError ⊕ E) SharedPointer}
    {x : Prog Halt TypedMemPool (Except (TypedMemPoolError ⊕ E) SharedPointer)}
    {t : TypedMemPool} (hx : x s.pool = .ok (result, t)) :
    s.create x = some (s.created result t) := by
  rw [create, hx]
  rfl

theorem step_createObject {r : Except TypedMemPoolError SharedPointer} {t : TypedMemPool}
    (h : createObject s.pool = .ok (r, t)) :
    s.step .createObject = some (s.created (r.mapError .inl) t) := by
  refine create_eq_some ?_
  change Except.map _ (createObject s.pool) = _
  rw [h]
  rfl

theorem Inv.created_error (h : Inv initial s)
    (hfull : s.pool.memPool.usedChunks = s.pool.memPool.numberOfChunks) :
    Inv initial (s.created (.error (.inl .outOfChunks)) s.pool) where
  books := by
    rw [created, refs, sum_refs_append]
    exact (add_zero s.refs).symm ▸ h.books
  creation := by
    rintro _ ⟨⟩
    refine ⟨fun _ _ => ⟨rfl, rfl⟩, iff_of_true rfl ?_, fun e => nomatch e⟩
    rw [card_namedChunks h.books, hfull, h.books.kept.numberOfChunks]

theorem Inv.created_ok (h : Inv initial s) {p : SharedPointer} {t : TypedMemPool}
    (hroom : s.pool.memPool.usedChunks ≠ s.pool.memPool.numberOfChunks)
    (hbooks : Books initial (p.refs + s.refs) t) : Inv initial (s.created (.ok p) t) where
  books := by
    rw [created, refs, sum_refs_append, add_comm]
    change Books initial (p.refs + 0 + s.refs) t
    rw [add_zero]
    exact hbooks
  creation := by
    rintro _ ⟨⟩
    refine ⟨(fun _ e => nomatch e), iff_of_false (fun e => nomatch e) ?_, fun e => nomatch e⟩
    rw [card_namedChunks h.books, ← h.books.kept.numberOfChunks]
    exact hroom

theorem Inv.createObject (h : Inv initial s) (hlow : s.pool.Low) :
    ∃ s', s.step .createObject = some s' ∧ Inv initial s' := by
  rcases h.books.createObject hlow with ⟨hfull, hrun⟩ | ⟨hroom, p, t, hrun, hbooks⟩
  · exact ⟨_, step_createObject hrun, h.created_error hfull⟩
  · exact ⟨_, step_createObject hrun, h.created_ok hroom hbooks⟩

theorem Inv.createObjectWithCreationPattern (h : Inv initial s) {created : Except E Unit}
    (hleak : s.NoLeak (.createObjectWithCreationPattern created)) (hlow : s.pool.Low) :
    ∃ s', s.step (.createObjectWithCreationPattern created) = some s' ∧ Inv initial s' := by
  rcases h.books.createObjectWithCreationPattern created hlow with
    ⟨hfull, hrun⟩ | ⟨hroom, ⟨p, t, _, hrun, hbooks⟩ | ⟨e, t, rfl, _, _⟩⟩
  · exact ⟨_, create_eq_some hrun, h.created_error hfull⟩
  · exact ⟨_, create_eq_some hrun, h.created_ok hroom hbooks⟩
  · exact absurd hleak hroom

theorem Inv.copyConstruct (h : Inv initial s) {i : Nat} (hi : i < s.pointers.length) :
    ∃ s', s.step (.copyConstruct i) = some s' ∧ Inv initial s' := by
  have hrhs := List.getElem?_eq_getElem hi
  obtain ⟨p, t, hrun, rfl, hbooks⟩ := Triple.returns (SharedPointer.copyConstruct_triple fun m hm =>
    mem_sum_refs (List.mem_of_getElem? hrhs) hm) h.books
  refine ⟨put t (s.pointers ++ [s.pointers[i]]), ?_, inv_put ?_⟩
  · simp only [step, hrhs, hrun, Except.toOption, Option.bind_eq_bind, Option.bind_some]
  · rw [sum_refs_append, add_comm, List.map_singleton, List.sum_singleton]
    exact hbooks

theorem Inv.moveConstruct (h : Inv initial s) {i : Nat} (hi : i < s.pointers.length) :
    ∃ s', s.step (.moveConstruct i) = some s' ∧ Inv initial s' := by
  have hrhs := List.getElem?_eq_getElem hi
  have hset := sum_map_set SharedPointer.refs _ s.pointers[i].moveConstruct.2 s.pointers i hrhs
  rw [SharedPointer.refs_of_none (p := s.pointers[i].moveConstruct.2) rfl, add_zero] at hset
  simp only [step, hrhs, Option.bind_eq_bind, Option.bind_some]
  refine ⟨_, rfl, inv_put ?_⟩
  rw [sum_refs_append, List.map_singleton, List.sum_singleton]
  exact hset.symm ▸ h.books

theorem Inv.destroy (h : Inv initial s) {i : Nat} (hi : i < s.pointers.length) :
    ∃ s', s.step (.destroy i) = some s' ∧ Inv initial s' := by
  have hp := List.getElem?_eq_getElem hi
  have hbooks := h.books
  rw [refs, sum_refs_eraseIdx hp] at hbooks
  obtain ⟨_, t, hrun, hbooks⟩ := Triple.returns (SharedPointer.destroy_triple _) hbooks
  refine ⟨put t (s.pointers.eraseIdx i), ?_, inv_put hbooks⟩
  simp only [step, hp, hrun, Except.toOption, Option.bind_eq_bind, Option.bind_some]

theorem Inv.copyAssign (h : Inv initial s) {i j : Nat} (hi : i < s.pointers.length)
    (hj : j < s.pointers.length) :
    ∃ s', s.step (.copyAssign i j) = some s' ∧ Inv initial s' := by
  have hlhs := List.getElem?_eq_getElem hi
  have hrhs := List.getElem?_eq_getElem hj
  simp only [step, hlhs, hrhs, Option.bind_eq_bind, Option.bind_some]
  by_cases hij : i = j
  · rw [if_pos hij]
    exact ⟨_, rfl, inv_put h.books⟩
  have hbooks := h.books
  rw [refs, sum_refs_eraseIdx hlhs] at hbooks
  obtain ⟨_, t, hrun, rfl, hbooks⟩ := Triple.returns
    (SharedPointer.copyAssign_triple fun m hm =>
      mem_sum_refs (List.mem_eraseIdx_iff_getElem?.mpr ⟨j, Ne.symm hij, hrhs⟩) hm) hbooks
  rw [if_neg hij, hrun]
  refine ⟨_, rfl, inv_put ?_⟩
  rw [((List.set_perm_cons_eraseIdx hi _).map _).sum_eq]
  exact hbooks

theorem Inv.moveAssign (h : Inv initial s) {i j : Nat} (hi : i < s.pointers.length)
    (hj : j < s.pointers.length) :
    ∃ s', s.step (.moveAssign i j) = some s' ∧ Inv initial s' := by
  have hlhs := List.getElem?_eq_getElem hi
  have hrhs := List.getElem?_eq_getElem hj
  simp only [step, hlhs, hrhs, Option.bind_eq_bind, Option.bind_some]
  by_cases hij : i = j
  · rw [if_pos hij]
    exact ⟨_, rfl, inv_put h.books⟩
  have hbooks := h.books
  rw [refs, sum_refs_eraseIdx hlhs] at hbooks
  have hset := sum_map_set SharedPointer.refs _ s.pointers[j].moveConstruct.2 s.pointers j hrhs
  have hset' := sum_map_set SharedPointer.refs _ s.pointers[j].moveConstruct.1
    (s.pointers.set j s.pointers[j].moveConstruct.2) i
    ((List.getElem?_set_ne (Ne.symm hij)).trans hlhs)
  rw [SharedPointer.refs_of_none (p := s.pointers[j].moveConstruct.2) rfl, add_zero] at hset
  obtain ⟨_, t, hrun, rfl, hbooks⟩ := Triple.returns (SharedPointer.moveAssign_triple _ _) hbooks
  rw [if_neg hij, hrun]
  refine ⟨_, rfl, inv_put ?_⟩
  have hsum : (((s.pointers.set j s.pointers[j].moveConstruct.2).set i
      s.pointers[j].moveConstruct.1).map SharedPointer.refs).sum =
      ((s.pointers.eraseIdx i).map SharedPointer.refs).sum := by
    apply add_left_cancel (a := s.pointers[i].refs)
    rw [← sum_refs_eraseIdx hlhs, ← hset, add_comm, hset']
    rfl
  rw [hsum]
  exact hbooks

theorem Inv.step (h : Inv initial s) {op : Operation E} (henabled : s.Enabled op)
    (hleak : s.NoLeak op) (hwithin : s.Within op) :
    ∃ s', s.step op = some s' ∧ Inv initial s' := by
  cases op with
  | createObject => exact h.createObject hwithin
  | createObjectWithCreationPattern created =>
    exact h.createObjectWithCreationPattern hleak hwithin
  | copyConstruct i => exact h.copyConstruct henabled
  | moveConstruct i => exact h.moveConstruct henabled
  | copyAssign i j => exact h.copyAssign henabled.1 henabled.2
  | moveAssign i j => exact h.moveAssign henabled.1 henabled.2
  | destroy i => exact h.destroy henabled

theorem Inv.leak (h : Inv initial s) {op : Operation E} (hwithin : s.Within op)
    (hstep : s.step op = some s') {n : Nat} (hacc : Accounted n s') : s.NoLeak op := by
  cases op with
  | createObjectWithCreationPattern created =>
    cases created with
    | ok _ => trivial
    | error e =>
      rcases h.books.createObjectWithCreationPattern (.error e) hwithin with
        ⟨hfull, _⟩ | ⟨_, ⟨_, _, he, _⟩ | ⟨e, t, he, hrun, hused⟩⟩
      · exact hfull
      · cases he
      · cases he
        obtain rfl := Option.some.inj ((create_eq_some hrun).symm.trans hstep)
        have hsame := (hacc.creation _ rfl).unchanged _ rfl
        rw [show t.memPool = s.pool.memPool from hsame.1] at hused
        exact absurd hused (Nat.lt_succ_self _).ne
  | _ => trivial

theorem Inv.within (h : Inv initial s)
    (hfits : MemPool.Fits initial.chunkSize initial.numberOfChunks)
    (hfits' : MemPool.Fits sizeofChunkManagement initial.numberOfChunks) (op : Operation E) :
    s.Within op := by
  have hlow : s.pool.Low := by
    intro i hi
    have hlt := h.books.memPool.rep.lt i (List.mem_of_mem_head? hi)
    rw [h.books.memPool.size, h.books.kept.numberOfChunks] at hlt
    rw [h.books.kept.chunkSize, h.books.blockSize]
    have hle := Nat.le_sub_one_of_lt hlt
    exact ⟨Nat.lt_of_le_of_lt (Nat.mul_le_mul_right _ hle) hfits,
      Nat.lt_of_le_of_lt (Nat.mul_le_mul_right _ hle) hfits'⟩
  cases op with
  | createObject => exact hlow
  | createObjectWithCreationPattern _ => exact hlow
  | _ => trivial

/-- In every run in which `T::create` does not fail while there is a chunk to lose, and no creation
takes an index from beyond 4 GiB, the books of the pool balance.  If no index lies there, they
balance all along a run exactly if `T::create` does not fail so. -/
theorem typed_pool_accounted_iff {sizeofT alignofT n management chunks : Nat}
    {allocators allocators' : Nat → Allocator} {blocks : Nat → ChunkManagement}
    {headers : Nat → ChunkHeader} {t : TypedMemPool}
    (h : TypedMemPool.create sizeofT alignofT n management chunks allocators blocks headers =
      some (t, allocators')) :
    (∀ ops : List (Operation E),
      Meets PointerRun.step (fun s op => s.Enabled op ∧ s.NoLeak op ∧ s.Within op) (start t) ops →
      ∀ k, ∃ s, runSteps PointerRun.step (start t) (ops.take k) = some s ∧ Accounted n s) ∧
    (MemPool.Fits t.memPool.chunkSize n → MemPool.Fits sizeofChunkManagement n →
      ∀ ops : List (Operation E), Meets PointerRun.step Enabled (start t) ops →
        ((∀ k, ∃ s, runSteps PointerRun.step (start t) (ops.take k) = some s ∧ Accounted n s) ↔
          Meets PointerRun.step NoLeak (start t) ops)) := by
  obtain ⟨hwf, hfree, rfl, _⟩ := create_wellFormed h
  have hstart : Inv t.memPool (start t : PointerRun E) := inv_start hwf hfree
  constructor
  · intro ops hmeets k
    obtain ⟨s, hrun, hinv⟩ := runSteps_total_of_meets (I := Inv t.memPool)
      (fun s op hs hop => hs.step hop.1 hop.2.1 hop.2.2) ops _ hstart hmeets k
    exact ⟨s, hrun, hinv.accounted⟩
  · intro hfits hfits' ops henabled
    refine runSteps_keeps_iff (I := Inv t.memPool) (fun s hs => hs.accounted) ?_ ?_ ops _ hstart
      henabled
    · intro s op hs hop hleak
      exact hs.step hop hleak (hs.within hfits hfits' op)
    · intro s op s' hs _ hstep hacc
      exact hs.leak (hs.within hfits hfits' op) hstep hacc

def exampleCreate (n : Nat) : Option (TypedMemPool × (Nat → Allocator)) :=
  TypedMemPool.create 8 8 n 0 1 PoolRun.exampleAllocators
    (fun _ => { chunkHeader := 0, referenceCounter := 0, mempool := 0 })
    fun _ => ⟨0, 0, 0, 0, 0, 0, 0, 0, 0⟩

def examplePool (n : Nat) (h : (exampleCreate n).isSome) : TypedMemPool :=
  ((exampleCreate n).get h).1

theorem exampleCreate_eq {n : Nat} (h : (exampleCreate n).isSome) :
    ∃ allocators', exampleCreate n = some (examplePool n h, allocators') :=
  ⟨_, (Option.some_get h).symm⟩

def exampleRun : List (Operation Unit) :=
  [.createObject, .copyConstruct 0, .createObjectWithCreationPattern (.ok ()), .createObject,
    .moveAssign 2 0, .destroy 1, .createObject]

theorem typed_pool_accounted_iff_exampleRun :
    Meets PointerRun.step NoLeak (start (examplePool 2 (by decide))) exampleRun ∧
    ∀ k, ∃ s, runSteps PointerRun.step (start (examplePool 2 (by decide))) (exampleRun.take k) =
      some s ∧ Accounted 2 s := by
  obtain ⟨_, h⟩ := exampleCreate_eq (n := 2) (by decide)
  have hleak : Meets PointerRun.step NoLeak (start (examplePool 2 (by decide))) exampleRun := by
    decide +kernel
  exact ⟨hleak, ((typed_pool_accounted_iff h).2 (by decide +kernel) (by decide) exampleRun
    (by decide +kernel)).mpr hleak⟩

/-- After one failed `T::create` the only chunk of the pool is in use and nothing names it, so that
no object can be created any more. -/
theorem failed_creation_loses_chunk : ∃ allocators' s,
    exampleCreate 1 = some (examplePool 1 (by decide), allocators') ∧
    runSteps PointerRun.step (start (examplePool 1 (by decide)))
      [.createObjectWithCreationPattern (.error ()), .createObject] = some s ∧
    s.pointers = [] ∧ s.pool.getUsedChunks = 1 ∧
    s.creation.map Creation.result = some (.error (.inl .outOfChunks)) ∧ ¬ Accounted 1 s := by
  obtain ⟨allocators', h⟩ := exampleCreate_eq (n := 1) (by decide)
  have hrun : (runSteps PointerRun.step (start (examplePool 1 (by decide)))
      [.createObjectWithCreationPattern (.error ()), .createObject]).map
        (fun s => (s.pointers, s.pool.getUsedChunks, s.creation.map Creation.result)) =
      some ([], 1, some (.error (.inl .outOfChunks))) := by
    decide +kernel
  obtain ⟨s, hs, hview⟩ := Option.map_eq_some_iff.mp hrun
  obtain ⟨hpointers, hview⟩ := Prod.mk.inj hview
  obtain ⟨hused, hresult⟩ := Prod.mk.inj hview
  refine ⟨allocators', s, h, hs, hpointers, hused, hresult, ?_⟩
  intro hacc
  have hcard := hacc.used
  rw [hused, namedChunks, refs, hpointers] at hcard
  cases hcard

end PointerRun

end Iceoryx.Mepoo
