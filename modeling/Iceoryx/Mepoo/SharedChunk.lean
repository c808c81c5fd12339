import Mathlib.Algebra.Order.BigOperators.Group.List
import Mathlib.Data.Multiset.Count
import Iceoryx.Lib.Sum
import Iceoryx.Mepoo.MemoryManager

/-! `mepoo::SharedChunk`: counting the references to a management block, and
returning chunk and block to their pools with the last one.  Copying a
`SharedChunk` is `incrementReferenceCounter` on the block it holds, destroying
one is `decrementReferenceCounter`; a move touches no counter. -/

namespace Iceoryx.Mepoo

open Hoofs Lib

namespace SharedChunk

def incrementReferenceCounter (m : Nat) : Prog Halt MemoryManager PUnit := fun mm =>
  let b := mm.blocks m
  .ok (⟨⟩, mm.writeBlock m { b with referenceCounter := b.referenceCounter + 1 })

def freeChunk (m : Nat) : Prog Halt MemoryManager PUnit := fun mm =>
  let b := mm.blocks m
  match mm.memPoolVector[b.mempool]? with
  | none => .error .nullptr
  | some pool =>
    match pool.freeChunk b.chunkHeader with
    | .error e => .error e
    | .ok pool =>
      match mm.chunkManagementPool.freeChunk m with
      | .error e => .error e
      | .ok management => .ok (⟨⟩, (mm.setMemPool b.mempool pool).setManagementPool management)

def decrementReferenceCounter (m : Nat) : Prog Halt MemoryManager PUnit := fun mm =>
  let b := mm.blocks m
  let mm := mm.writeBlock m { b with referenceCounter := b.referenceCounter - 1 }
  if b.referenceCounter = 1 then freeChunk m mm else .ok (⟨⟩, mm)

end SharedChunk

namespace MemoryManager

/-- The state of the memory when `refs` are all the references to management
blocks there are, and block `m` manages the chunk with the header at `H m`. -/
structure Ledger (H : Nat → Nat) (refs : Multiset Nat) (mm : MemoryManager) : Prop where
  counter : ∀ m, (mm.blocks m).referenceCounter = refs.count m
  pool : ∀ p ∈ mm.memPoolVector, p.Ok
  management : mm.chunkManagementPool.Ok
  disjoint : ∀ (k k' : Nat) (p p' : MemPool) (a : Nat), mm.memPoolVector[k]? = some p →
    mm.memPoolVector[k']? = some p' → a ∈ p.span → a ∈ p'.span → k = k'
  capacity : (mm.memPoolVector.map MemPool.numberOfChunks).sum ≤
    mm.chunkManagementPool.numberOfChunks
  balance : mm.chunkManagementPool.usedChunks = (mm.memPoolVector.map MemPool.usedChunks).sum
  block : ∀ m, m ∈ refs ↔ m ∈ mm.chunkManagementPool.out
  header : ∀ m ∈ refs, (mm.blocks m).chunkHeader = H m
  owner : ∀ m ∈ refs, ∃ p, mm.memPoolVector[(mm.blocks m).mempool]? = some p ∧ H m ∈ p.out
  owned : ∀ (k : Nat) (p : MemPool) (a : Nat), mm.memPoolVector[k]? = some p → a ∈ p.out →
    ∃ m ∈ refs, (mm.blocks m).mempool = k ∧ H m = a
  unique : ∀ m ∈ refs, ∀ m' ∈ refs, H m = H m' → m = m'

variable {E : Halt → Prop} {H : Nat → Nat} {refs : Multiset Nat} {mm : MemoryManager} {m : Nat}

section Shape

variable {k : Nat} {p p' q : MemPool}

def shape (mm : MemoryManager) : List (Nat × Nat) :=
  (mm.chunkManagementPool :: mm.memPoolVector).map fun p => (p.chunkSize, p.numberOfChunks)

def KeepsShape {T : Type} (x : Prog Halt MemoryManager T) : Prop :=
  ∀ sizes, Triple (fun _ => True) (fun mm => mm.shape = sizes) x fun _ mm => mm.shape = sizes

theorem shape_setPools (hp : mm.memPoolVector[k]? = some p) (hkept : MemPool.Kept p p')
    (hqkept : MemPool.Kept mm.chunkManagementPool q) :
    ((mm.setMemPool k p').setManagementPool q).shape = mm.shape := by
  have hsame : (mm.memPoolVector.set k p').map (fun p => (p.chunkSize, p.numberOfChunks)) =
      mm.memPoolVector.map fun p => (p.chunkSize, p.numberOfChunks) := by
    obtain ⟨hk, hget⟩ := List.getElem?_eq_some_iff.mp hp
    rw [List.map_set, hkept.chunkSize, hkept.numberOfChunks]
    refine List.ext_getElem (by simp) fun i hi hi' => ?_
    rw [List.getElem_set]
    split
    · next hik =>
      subst hik
      simp [hget]
    · rfl
  simp only [shape, setManagementPool, setMemPool, List.map_cons, hsame, hqkept.chunkSize,
    hqkept.numberOfChunks]

theorem keepsShape_increment (m : Nat) : KeepsShape (SharedChunk.incrementReferenceCounter m) :=
  fun _ _ h => h

theorem keepsShape_decrement (m : Nat) : KeepsShape (SharedChunk.decrementReferenceCounter m) := by
  intro sizes mm h
  unfold SharedChunk.decrementReferenceCounter SharedChunk.freeChunk
  dsimp only
  split
  · split
    · exact True.intro
    · next pool hpool =>
      split
      · exact True.intro
      · next hfree =>
        split
        · exact True.intro
        · next hmanagement =>
          exact (shape_setPools hpool (MemPool.freeChunk_kept hfree)
            (MemPool.freeChunk_kept hmanagement)).trans h
  · exact h

theorem keepsShape_getChunk (chunkSettings : ChunkSettings) :
    KeepsShape (getChunk chunkSettings) := by
  intro sizes mm h
  unfold getChunk
  split
  · split <;> exact h
  · next k hk =>
    split
    · exact h
    · next aquiredChunkSize chunk pool hpool =>
      obtain ⟨p, hp, hget⟩ := Option.bind_eq_some_iff.mp hpool
      obtain ⟨r, hr, hresult⟩ := Option.map_eq_some_iff.mp hget
      cases hresult
      unfold constructChunk
      cases ChunkHeader.create chunk p.chunkSize chunkSettings with
      | none => exact True.intro
      | some header =>
        cases hblock : (mm.setMemPool k pool).chunkManagementPool.getChunk with
        | none => exact True.intro
        | some r =>
          exact (shape_setPools hp (MemPool.getChunk_kept hr)
            (MemPool.getChunk_kept hblock)).trans h

end Shape

theorem Ledger.aligned (h : Ledger H refs mm) (hm : m ∈ refs) : alignofChunkHeader ∣ H m := by
  obtain ⟨p, hp, hout⟩ := h.owner m hm
  exact (h.pool p (List.mem_of_getElem? hp)).aligned_span (MemPool.out_subset_span hout)

theorem Ledger.mem_out_iff (h : Ledger H refs mm) {p : MemPool} {a : Nat}
    (hp : p ∈ mm.memPoolVector) (ha : a ∈ p.span) :
    a ∈ p.out ↔ ∃ m ∈ refs, (mm.blocks m).chunkHeader = a := by
  obtain ⟨k, hk⟩ := List.mem_iff_getElem?.mp hp
  constructor
  · intro hout
    obtain ⟨m, hm, _, hma⟩ := h.owned k p a hk hout
    exact ⟨m, hm, (h.header m hm).trans hma⟩
  · rintro ⟨m, hm, rfl⟩
    obtain ⟨r, hr, hout⟩ := h.owner m hm
    rw [h.header m hm] at ha ⊢
    have hj := h.disjoint _ _ r p (H m) hr hk (MemPool.out_subset_span hout) ha
    rw [hj, hk] at hr
    exact Option.some.inj hr ▸ hout

theorem Ledger.writeHeader (h : Ledger H refs mm) (address : Nat) (header : ChunkHeader) :
    Ledger H refs (mm.writeHeader address header) :=
  ⟨h.counter, h.pool, h.management, h.disjoint, h.capacity, h.balance, h.block, h.header,
    h.owner, h.owned, h.unique⟩

@[simp] theorem writeBlock_memPoolVector (b : ChunkManagement) :
    (mm.writeBlock m b).memPoolVector = mm.memPoolVector := rfl

@[simp] theorem writeBlock_chunkManagementPool (b : ChunkManagement) :
    (mm.writeBlock m b).chunkManagementPool = mm.chunkManagementPool := rfl

@[simp] theorem setMemPool_chunkManagementPool (k : Nat) (p : MemPool) :
    (mm.setMemPool k p).chunkManagementPool = mm.chunkManagementPool := rfl

@[simp] theorem writeBlock_self (b : ChunkManagement) : (mm.writeBlock m b).blocks m = b :=
  Function.update_self _ _ _

theorem writeBlock_of_ne {x : Nat} (hx : x ≠ m) (b : ChunkManagement) :
    (mm.writeBlock m b).blocks x = mm.blocks x :=
  Function.update_of_ne hx _ _

theorem blocks_setCounter (n x : Nat) :
    (mm.writeBlock m { mm.blocks m with referenceCounter := n }).blocks x =
      { mm.blocks x with
        referenceCounter := if x = m then n else (mm.blocks x).referenceCounter } := by
  by_cases hx : x = m
  · subst hx
    simp
  · simp [writeBlock_of_ne hx, hx]

theorem Ledger.setCounter {refs' : Multiset Nat} {n : Nat} (h : Ledger H refs mm)
    (hmem : ∀ x, x ∈ refs' ↔ x ∈ refs)
    (hcount : ∀ x, refs'.count x = if x = m then n else refs.count x) :
    Ledger H refs' (mm.writeBlock m { mm.blocks m with referenceCounter := n }) := by
  refine ⟨?_, h.pool, h.management, h.disjoint, h.capacity, h.balance, ?_, ?_, ?_, ?_, ?_⟩
  · intro x
    rw [blocks_setCounter, hcount, h.counter]
  · intro x
    rw [hmem]
    exact h.block x
  · intro x hx
    rw [blocks_setCounter]
    exact h.header x ((hmem x).mp hx)
  · intro x hx
    rw [blocks_setCounter]
    exact h.owner x ((hmem x).mp hx)
  · intro k p a hp ha
    obtain ⟨x, hx, hk, hxa⟩ := h.owned k p a hp ha
    refine ⟨x, (hmem x).mpr hx, ?_, hxa⟩
    rw [blocks_setCounter]
    exact hk
  · intro x hx y hy
    exact h.unique x ((hmem x).mp hx) y ((hmem y).mp hy)

theorem increment_triple (hm : m ∈ refs) :
    Triple E (Ledger H refs) (SharedChunk.incrementReferenceCounter m)
      fun _ => Ledger H (m ::ₘ refs) := by
  intro mm h
  refine h.setCounter (fun x => ?_) (fun x => ?_)
  · simp only [Multiset.mem_cons, or_iff_right_iff_imp]
    rintro rfl
    exact hm
  · rw [Multiset.count_cons, h.counter]
    split
    · next hx => rw [hx]
    · rfl

theorem Ledger.disjoint_set (h : Ledger H refs mm) {k : Nat} {p p' : MemPool}
    (hp : mm.memPoolVector[k]? = some p) (hkept : MemPool.Kept p p') :
    ∀ (i j : Nat) (q q' : MemPool) (a : Nat), (mm.memPoolVector.set k p')[i]? = some q →
      (mm.memPoolVector.set k p')[j]? = some q' → a ∈ q.span → a ∈ q'.span → i = j := by
  have hspan : ∀ (i : Nat) (q : MemPool), (mm.memPoolVector.set k p')[i]? = some q →
      ∃ r, mm.memPoolVector[i]? = some r ∧ r.span = q.span := by
    intro i q hq
    rw [List.getElem?_set] at hq
    split at hq
    · next hki =>
      subst hki
      split at hq
      · cases hq
        exact ⟨p, hp, hkept.span.symm⟩
      · cases hq
    · exact ⟨q, hq, rfl⟩
  intro i j q q' a hi hj ha ha'
  obtain ⟨r, hr, hrs⟩ := hspan i q hi
  obtain ⟨r', hr', hrs'⟩ := hspan j q' hj
  exact h.disjoint i j r r' a hr hr' (hrs ▸ ha) (hrs' ▸ ha')

theorem mem_set_pool {pools : List MemPool} {k i : Nat} {p q : MemPool}
    (h : (pools.set k p)[i]? = some q) : (k = i ∧ p = q) ∨ (k ≠ i ∧ pools[i]? = some q) := by
  rw [List.getElem?_set] at h
  split at h
  · next hki =>
    split at h
    · exact Or.inl ⟨hki, Option.some.inj h⟩
    · cases h
  · next hki => exact Or.inr ⟨hki, h⟩

theorem getElem?_set_pool {pools : List MemPool} {k : Nat} {p p' : MemPool}
    (h : pools[k]? = some p) : (pools.set k p')[k]? = some p' := by
  obtain ⟨hlt, _⟩ := List.getElem?_eq_some_iff.mp h
  simp [hlt]

theorem Ledger.free (h : Ledger H (m ::ₘ refs) mm) (hm : m ∉ refs) {p p' q : MemPool}
    (hp : mm.memPoolVector[(mm.blocks m).mempool]? = some p)
    (hout : p'.out = p.out \ {H m}) (hkept : MemPool.Kept p p')
    (hused : p'.usedChunks + 1 = p.usedChunks) (hok : p'.Ok)
    (hqout : q.out = mm.chunkManagementPool.out \ {m})
    (hqkept : MemPool.Kept mm.chunkManagementPool q)
    (hqused : q.usedChunks + 1 = mm.chunkManagementPool.usedChunks) (hqok : q.Ok) :
    Ledger H refs (((mm.writeBlock m { mm.blocks m with referenceCounter := 0 }).setMemPool
      (mm.blocks m).mempool p').setManagementPool q) := by
  have hself := Multiset.mem_cons_self m refs
  have hmem : ∀ x, x ∈ refs ↔ x ∈ m ::ₘ refs ∧ x ≠ m := by
    intro x
    rw [Multiset.mem_cons]
    constructor
    · intro hx
      exact ⟨Or.inr hx, fun e => hm (e ▸ hx)⟩
    · rintro ⟨hx | hx, hne⟩
      · exact absurd hx hne
      · exact hx
  have hother : ∀ x, x ≠ m →
      (mm.writeBlock m { mm.blocks m with referenceCounter := 0 }).blocks x = mm.blocks x :=
    fun x hx => writeBlock_of_ne hx _
  refine ⟨?_, ?_, hqok, h.disjoint_set hp hkept, ?_, ?_, ?_, ?_, ?_, ?_, ?_⟩
  · intro x
    change ((mm.writeBlock m _).blocks x).referenceCounter = _
    by_cases hx : x = m
    · subst hx
      simp [Multiset.count_eq_zero.mpr hm]
    · rw [hother x hx, h.counter, Multiset.count_cons_of_ne hx]
  · intro r hr
    rcases List.mem_or_eq_of_mem_set hr with hr | rfl
    · exact h.pool r hr
    · exact hok
  · have hsum := sum_map_set MemPool.numberOfChunks p p' mm.memPoolVector _ hp
    change ((mm.memPoolVector.set _ p').map _).sum ≤ q.numberOfChunks
    have hcap := h.capacity
    rw [hkept.numberOfChunks] at hsum
    rw [hqkept.numberOfChunks]
    omega
  · have hsum := sum_map_set MemPool.usedChunks p p' mm.memPoolVector _ hp
    change q.usedChunks = ((mm.memPoolVector.set _ p').map _).sum
    have hbal := h.balance
    omega
  · intro x
    change x ∈ refs ↔ x ∈ q.out
    rw [hqout, hmem, h.block]
    rfl
  · intro x hx
    obtain ⟨hx, hne⟩ := (hmem x).mp hx
    change ((mm.writeBlock m _).blocks x).chunkHeader = _
    rw [hother x hne]
    exact h.header x hx
  · intro x hx
    obtain ⟨hx, hne⟩ := (hmem x).mp hx
    change ∃ r, (mm.memPoolVector.set _ p')[((mm.writeBlock m _).blocks x).mempool]? = some r ∧ _
    rw [hother x hne]
    obtain ⟨r, hr, hxr⟩ := h.owner x hx
    by_cases hk : (mm.blocks m).mempool = (mm.blocks x).mempool
    · rw [← hk] at hr ⊢
      refine ⟨p', getElem?_set_pool hp, ?_⟩
      obtain rfl : p = r := Option.some.inj (hp.symm.trans hr)
      rw [hout]
      exact ⟨hxr, fun heq => hne (h.unique x hx m hself heq)⟩
    · exact ⟨r, (List.getElem?_set_ne hk).trans hr, hxr⟩
  · intro k r a hr ha
    have hback : ∃ x ∈ m ::ₘ refs, (mm.blocks x).mempool = k ∧ H x = a ∧ x ≠ m := by
      rcases mem_set_pool hr with ⟨rfl, rfl⟩ | ⟨hk, hr⟩
      · rw [hout] at ha
        obtain ⟨x, hx, hxk, hxa⟩ := h.owned _ p a hp ha.1
        exact ⟨x, hx, hxk, hxa, fun e => ha.2 (by rw [← hxa, e]; rfl)⟩
      · obtain ⟨x, hx, hxk, hxa⟩ := h.owned k r a hr ha
        exact ⟨x, hx, hxk, hxa, fun e => hk (e ▸ hxk)⟩
    obtain ⟨x, hx, hxk, hxa, hne⟩ := hback
    refine ⟨x, (hmem x).mpr ⟨hx, hne⟩, ?_, hxa⟩
    change ((mm.writeBlock m _).blocks x).mempool = k
    rw [hother x hne]
    exact hxk
  · intro x hx y hy
    exact h.unique x ((hmem x).mp hx).1 y ((hmem y).mp hy).1

theorem Ledger.drop (h : Ledger H (m ::ₘ refs) mm) (hm : m ∈ refs) :
    Ledger H refs (mm.writeBlock m
      { mm.blocks m with referenceCounter := (mm.blocks m).referenceCounter - 1 }) := by
  have hcounter := h.counter m
  rw [Multiset.count_cons_self] at hcounter
  refine h.setCounter (fun x => ?_) (fun x => ?_)
  · rw [Multiset.mem_cons]
    refine ⟨Or.inr, ?_⟩
    rintro (rfl | hx)
    · exact hm
    · exact hx
  · by_cases hx : x = m
    · subst hx
      rw [if_pos rfl]
      omega
    · rw [if_neg hx, Multiset.count_cons_of_ne hx]

theorem Ledger.freeChunk_eq (h : Ledger H (m ::ₘ refs) mm) (hm : m ∉ refs) :
    ∃ mm', SharedChunk.freeChunk m (mm.writeBlock m { mm.blocks m with referenceCounter := 0 }) =
      .ok (⟨⟩, mm') ∧ Ledger H refs mm' := by
  have hself := Multiset.mem_cons_self m refs
  obtain ⟨p, hp, hout⟩ := h.owner m hself
  obtain ⟨p', hfree, hpout, hpkept, hpused, hpok⟩ :=
    (h.pool p (List.mem_of_getElem? hp)).freeChunk_spec hout
  obtain ⟨q, hqfree, hqout, hqkept, hqused, hqok⟩ :=
    h.management.freeChunk_spec ((h.block m).mp hself)
  have hrun : SharedChunk.freeChunk m
      (mm.writeBlock m { mm.blocks m with referenceCounter := 0 }) =
      .ok (⟨⟩, ((mm.writeBlock m { mm.blocks m with referenceCounter := 0 }).setMemPool
        (mm.blocks m).mempool p').setManagementPool q) := by
    simp only [SharedChunk.freeChunk, writeBlock_self, writeBlock_memPoolVector,
      writeBlock_chunkManagementPool, hp, h.header m hself, hfree, hqfree]
  exact ⟨_, hrun, h.free hm hp hpout hpkept hpused hpok hqout hqkept hqused hqok⟩

theorem decrement_triple :
    Triple E (Ledger H (m ::ₘ refs)) (SharedChunk.decrementReferenceCounter m)
      fun _ => Ledger H refs := by
  intro mm h
  have hcounter := h.counter m
  rw [Multiset.count_cons_self] at hcounter
  unfold SharedChunk.decrementReferenceCounter
  by_cases hone : (mm.blocks m).referenceCounter = 1
  · have hm : m ∉ refs := Multiset.count_eq_zero.mp (by omega)
    obtain ⟨mm', hrun, hmm'⟩ := h.freeChunk_eq hm
    simp only [hone, Nat.sub_self, if_true, hrun]
    exact hmm'
  · simp only [hone, if_false]
    exact h.drop (Multiset.count_pos.mp (by omega))

theorem writeBlock_comm {x : Nat} (hx : x ≠ m) (b c : ChunkManagement) :
    (mm.writeBlock m b).writeBlock x c = (mm.writeBlock x c).writeBlock m b := by
  simp only [writeBlock, Function.update_comm hx]

theorem decrement_writeBlock {x : Nat} (hx : x ≠ m) (b : ChunkManagement) :
    SharedChunk.decrementReferenceCounter x (mm.writeBlock m b) =
      (SharedChunk.decrementReferenceCounter x mm).map fun r => (r.1, r.2.writeBlock m b) := by
  unfold SharedChunk.decrementReferenceCounter
  simp only [writeBlock_of_ne hx, writeBlock_comm hx]
  by_cases hone : (mm.blocks x).referenceCounter = 1
  · simp only [hone, if_true]
    unfold SharedChunk.freeChunk
    simp only [writeBlock_of_ne hx, writeBlock_self, writeBlock_memPoolVector,
      writeBlock_chunkManagementPool]
    cases mm.memPoolVector[(mm.blocks x).mempool]? with
    | none => rfl
    | some pool =>
      simp only
      cases pool.freeChunk (mm.blocks x).chunkHeader with
      | error e => rfl
      | ok pool =>
        simp only
        cases mm.chunkManagementPool.freeChunk x with
        | error e => rfl
        | ok management => rfl
  · simp only [hone, if_false]
    rfl

theorem Ledger.take (h : Ledger H refs mm) {k a : Nat} {p p' q : MemPool} {header : ChunkHeader}
    (hp : mm.memPoolVector[k]? = some p) (ha : a ∈ p.span) (hfresh : a ∉ p.out)
    (hout : p'.out = insert a p.out) (hkept : MemPool.Kept p p')
    (hused : p'.usedChunks = p.usedChunks + 1) (hok : p'.Ok)
    (hm : m ∉ mm.chunkManagementPool.out) (hqout : q.out = insert m mm.chunkManagementPool.out)
    (hqkept : MemPool.Kept mm.chunkManagementPool q)
    (hqused : q.usedChunks = mm.chunkManagementPool.usedChunks + 1) (hqok : q.Ok) :
    m ∉ refs ∧ (∀ x ∈ refs, H x ≠ a) ∧
      Ledger (Function.update H m a) (m ::ₘ refs)
        ((((mm.setMemPool k p').writeHeader a header).setManagementPool q).writeBlock m
          { chunkHeader := a, referenceCounter := 1, mempool := k }) := by
  have hnot : m ∉ refs := fun hx => hm ((h.block m).mp hx)
  have hnew : ∀ x ∈ refs, H x ≠ a := by
    rintro x hx rfl
    obtain ⟨r, hr, hxr⟩ := h.owner x hx
    have hk := h.disjoint _ _ r p (H x) hr hp (MemPool.out_subset_span hxr) ha
    rw [hk, hp] at hr
    exact hfresh (Option.some.inj hr ▸ hxr)
  have hne : ∀ x ∈ refs, x ≠ m := fun x hx e => hnot (e ▸ hx)
  refine ⟨hnot, hnew, ?_, ?_, hqok, h.disjoint_set hp hkept, ?_, ?_, ?_, ?_, ?_, ?_, ?_⟩
  · intro x
    by_cases hx : x = m
    · subst hx
      simp [Multiset.count_eq_zero.mpr hnot]
    · rw [writeBlock_of_ne hx, Multiset.count_cons_of_ne hx]
      exact h.counter x
  · intro r hr
    rcases List.mem_or_eq_of_mem_set hr with hr | rfl
    · exact h.pool r hr
    · exact hok
  · have hsum := sum_map_set MemPool.numberOfChunks p p' mm.memPoolVector _ hp
    change ((mm.memPoolVector.set _ p').map _).sum ≤ q.numberOfChunks
    have hcap := h.capacity
    rw [hkept.numberOfChunks] at hsum
    rw [hqkept.numberOfChunks]
    omega
  · have hsum := sum_map_set MemPool.usedChunks p p' mm.memPoolVector _ hp
    change q.usedChunks = ((mm.memPoolVector.set _ p').map _).sum
    have hbal := h.balance
    omega
  · intro x
    change x ∈ m ::ₘ refs ↔ x ∈ q.out
    rw [hqout, Multiset.mem_cons, h.block]
    rfl
  · intro x hx
    rcases Multiset.mem_cons.mp hx with rfl | hx
    · simp
    · rw [writeBlock_of_ne (hne x hx), Function.update_of_ne (hne x hx)]
      exact h.header x hx
  · intro x hx
    rcases Multiset.mem_cons.mp hx with rfl | hx
    · rw [writeBlock_self, Function.update_self]
      exact ⟨p', getElem?_set_pool hp, hout ▸ Set.mem_insert a p.out⟩
    · rw [writeBlock_of_ne (hne x hx), Function.update_of_ne (hne x hx)]
      obtain ⟨r, hr, hxr⟩ := h.owner x hx
      change ∃ r, (mm.memPoolVector.set k p')[(mm.blocks x).mempool]? = some r ∧ _
      by_cases hk : k = (mm.blocks x).mempool
      · rw [← hk] at hr ⊢
        refine ⟨p', getElem?_set_pool hp, ?_⟩
        obtain rfl : p = r := Option.some.inj (hp.symm.trans hr)
        rw [hout]
        exact Set.mem_insert_of_mem _ hxr
      · exact ⟨r, (List.getElem?_set_ne hk).trans hr, hxr⟩
  · intro j r b hr hb
    have hold : (∃ x ∈ refs, (mm.blocks x).mempool = j ∧ H x = b) ∨ (k = j ∧ b = a) := by
      rcases mem_set_pool hr with ⟨rfl, rfl⟩ | ⟨_, hr⟩
      · rw [hout] at hb
        rcases hb with rfl | hb
        · exact Or.inr ⟨rfl, rfl⟩
        · exact Or.inl (h.owned _ p b hp hb)
      · exact Or.inl (h.owned j r b hr hb)
    rcases hold with ⟨x, hx, hxj, hxb⟩ | ⟨rfl, rfl⟩
    · refine ⟨x, Multiset.mem_cons_of_mem hx, ?_, ?_⟩
      · rw [writeBlock_of_ne (hne x hx)]
        exact hxj
      · rw [Function.update_of_ne (hne x hx)]
        exact hxb
    · exact ⟨m, Multiset.mem_cons_self m refs, by simp, by simp⟩
  · intro x hx y hy heq
    rcases Multiset.mem_cons.mp hx with hxm | hx' <;> rcases Multiset.mem_cons.mp hy with hym | hy'
    · exact hxm.trans hym.symm
    · rw [hxm, Function.update_self, Function.update_of_ne (hne y hy')] at heq
      exact absurd heq.symm (hnew y hy')
    · rw [hym, Function.update_self, Function.update_of_ne (hne x hx')] at heq
      exact absurd heq (hnew x hx')
    · rw [Function.update_of_ne (hne x hx'), Function.update_of_ne (hne y hy')] at heq
      exact h.unique x hx' y hy' heq

theorem Ledger.usedChunks_lt (h : Ledger H refs mm) {k : Nat} {p : MemPool}
    (hp : mm.memPoolVector[k]? = some p) (hlt : p.usedChunks < p.numberOfChunks) :
    mm.chunkManagementPool.usedChunks < mm.chunkManagementPool.numberOfChunks := by
  have hsum := sum_map_set MemPool.usedChunks p { p with usedChunks := p.usedChunks + 1 }
    mm.memPoolVector k hp
  have hset := sum_map_set MemPool.numberOfChunks p { p with usedChunks := p.usedChunks + 1 }
    mm.memPoolVector k hp
  have hle : ((mm.memPoolVector.set k { p with usedChunks := p.usedChunks + 1 }).map
      MemPool.usedChunks).sum ≤
      ((mm.memPoolVector.set k { p with usedChunks := p.usedChunks + 1 }).map
        MemPool.numberOfChunks).sum := by
    refine List.sum_le_sum fun r hr => ?_
    rcases List.mem_or_eq_of_mem_set hr with hr | rfl
    · exact (h.pool r hr).usedChunks_le
    · exact hlt
  have := h.balance
  have := h.capacity
  simp only at hsum hset
  omega

def Within (chunkSettings : ChunkSettings) (mm : MemoryManager) : Prop :=
  ∀ p ∈ mm.memPoolVector.find? fun p => p.chunkSize ≥ chunkSettings.requiredChunkSize,
    ∀ index ∈ p.free.head?,
      index * p.chunkSize < uint32Range ∧ mm.chunkManagementPool.NextBelow

instance (chunkSettings : ChunkSettings) (mm : MemoryManager) :
    Decidable (Within chunkSettings mm) :=
  inferInstanceAs (Decidable (∀ p ∈ mm.memPoolVector.find? _, _))

theorem Ledger.within (h : Ledger H refs mm) (hfits : ∀ size ∈ mm.shape, MemPool.Fits size.1 size.2)
    (chunkSettings : ChunkSettings) : Within chunkSettings mm := by
  have hpool : ∀ p ∈ mm.chunkManagementPool :: mm.memPoolVector,
      MemPool.Fits p.chunkSize p.numberOfChunks := by
    intro p hp
    exact hfits (p.chunkSize, p.numberOfChunks) (List.mem_map.mpr ⟨p, hp, rfl⟩)
  intro p hp index hindex
  have hmem := List.mem_of_find?_eq_some hp
  exact ⟨(h.pool p hmem).nextBelow (hpool p (List.mem_cons_of_mem _ hmem)) index hindex,
    h.management.nextBelow (hpool _ List.mem_cons_self)⟩

theorem getChunk_triple {chunkSettings : ChunkSettings} (hs : chunkSettings.WellFormed) :
    Triple E (fun mm => Ledger H refs mm ∧ Within chunkSettings mm) (getChunk chunkSettings)
      fun r mm =>
      match r with
      | .error _ => Ledger H refs mm
      | .ok m => ∃ a, m ∉ refs ∧ (∀ x ∈ refs, H x ≠ a) ∧
          Ledger (Function.update H m a) (m ::ₘ refs) mm := by
  rintro mm ⟨h, hwithin⟩
  unfold Within at hwithin
  rw [List.find?_eq_bind_findIdx?_getElem?] at hwithin
  unfold getChunk
  cases hfind : mm.memPoolVector.findIdx? fun p =>
      p.chunkSize ≥ chunkSettings.requiredChunkSize with
  | none =>
    simp only
    split <;> exact h
  | some k =>
    obtain ⟨hk, hsize, _⟩ := List.findIdx?_eq_some_iff_getElem.mp hfind
    have hp : mm.memPoolVector[k]? = some mm.memPoolVector[k] := List.getElem?_eq_getElem hk
    generalize mm.memPoolVector[k] = p at hp hsize
    have hbelow := hwithin p (by rw [hfind]; exact hp)
    have hok := h.pool p (List.mem_of_getElem? hp)
    cases hget : p.getChunk with
    | none =>
      simp only [hp, Option.bind_some, hget, Option.map_none]
      exact h
    | some r =>
      obtain ⟨a, p'⟩ := r
      obtain ⟨i, hfree, _⟩ := MemPool.getChunk_spec hok.toCounted hget
      have hqbelow := (hbelow i (by rw [hfree]; rfl)).2
      obtain ⟨hspan, hfresh, hout, hkept, hused, hpok⟩ :=
        hok.getChunk_spec (fun index hindex => (hbelow index hindex).1) hget
      have hroom : p.usedChunks < p.numberOfChunks := by
        have := hpok.usedChunks_le
        rw [hkept.numberOfChunks] at this
        omega
      have hfits : chunkSettings.requiredChunkSize ≤ p.chunkSize := by simpa using hsize
      obtain ⟨header, hheader, _⟩ := ChunkHeader.create_eq_some (hok.aligned_span hspan) hs hfits
      cases hblock : mm.chunkManagementPool.getChunk with
      | none =>
        rw [MemPool.getChunk_eq_none h.management.toCounted] at hblock
        exact absurd hblock (h.usedChunks_lt hp hroom).ne
      | some r =>
        obtain ⟨m, q⟩ := r
        obtain ⟨_, hqfresh, hqout, hqkept, hqused, hqok⟩ := h.management.getChunk_spec hqbelow hblock
        have hconstruct : (mm.setMemPool k p').constructChunk k a p.chunkSize chunkSettings =
            .ok (m, (((mm.setMemPool k p').writeHeader a header).setManagementPool q).writeBlock m
              { chunkHeader := a, referenceCounter := 1, mempool := k }) := by
          simp only [constructChunk, hheader, setMemPool_chunkManagementPool, hblock]
        simp only [hp, Option.bind_some, hget, Option.map_some, hconstruct]
        exact ⟨a, h.take hp hspan hfresh hout hkept hused hpok hqfresh hqout hqkept hqused hqok⟩

end MemoryManager

end Iceoryx.Mepoo
