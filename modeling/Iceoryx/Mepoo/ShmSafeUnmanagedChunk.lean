import Iceoryx.Hoofs.RelativePointerData
import Iceoryx.Lib.Hoare
import Iceoryx.Mepoo.MemPool

/-! `mepoo::ShmSafeUnmanagedChunk`: a chunk on its way through shared memory.  A `SharedChunk`
is the address of its management block, `none` when it is empty; the state is the reference
counters of the management blocks by their addresses. -/

namespace Iceoryx.Mepoo

open Hoofs Lib

structure ShmSafeUnmanagedChunk where
  chunkManagement : RelativePointerData
  deriving DecidableEq, Repr

namespace ShmSafeUnmanagedChunk

abbrev Counters := Nat → Nat

section Operations

variable (r : PointerRepository)

def ofSharedChunk (chunk : Option Nat) : Prog Halt Counters ShmSafeUnmanagedChunk :=
  match chunk with
  | none => pure { chunkManagement := .null }
  | some chunkManagement =>
    let ptr := BaseRelativePointer.ofPtr r chunkManagement
    if ptr.id ≤ RelativePointerData.idRange ∧ ptr.offset ≤ RelativePointerData.offsetRange then
      pure { chunkManagement := .ofIdAndOffset (ptr.id % 2 ^ 16) ptr.offset }
    else throw .contract

def isLogicalNullptr (c : ShmSafeUnmanagedChunk) : Bool := c.chunkManagement.isLogicalNullptr

def chunkMgmt (c : ShmSafeUnmanagedChunk) : Nat :=
  BaseRelativePointer.getPtr r c.chunkManagement.id c.chunkManagement.offset

def sharedChunk (chunkManagement : Nat) : Option Nat :=
  if chunkManagement = 0 then none else some chunkManagement

def releaseToSharedChunk (c : ShmSafeUnmanagedChunk) :
    Prog Halt Counters (Option Nat × ShmSafeUnmanagedChunk) :=
  if c.isLogicalNullptr then pure (none, c)
  else pure (sharedChunk (c.chunkMgmt r), { chunkManagement := c.chunkManagement.reset })

def cloneToSharedChunk (c : ShmSafeUnmanagedChunk) : Prog Halt Counters (Option Nat) :=
  if c.isLogicalNullptr then pure none
  else do
    modify fun counters =>
      Function.update counters (c.chunkMgmt r) ((counters (c.chunkMgmt r) + 1) % 2 ^ 64)
    pure (sharedChunk (c.chunkMgmt r))

end Operations

/-- The handle leads back to the chunk, and its reference is still counted once. -/
structure RoundTrips (r : PointerRepository) (counters : Counters) (chunkManagement : Nat)
    (c : ShmSafeUnmanagedChunk) (counters' : Counters) : Prop where
  notNull : c.isLogicalNullptr = false
  constructed : counters' = counters
  released : ∃ c', c.releaseToSharedChunk r counters' = .ok ((some chunkManagement, c'), counters)

open PointerRepository.Tracked in
theorem getBasePtr_lt {t : PointerRepository.Tracked} (h : t.Ok) (id : Nat) :
    t.repository.getBasePtr id < addressRange := by
  have hpos : 0 < addressRange := by decide +kernel
  cases hs : t.segments id with
  | some s =>
    have hinside := s.inside
    have hnonempty := s.nonempty
    rw [h.getBasePtr hs]
    split <;> omega
  | none =>
    rw [PointerRepository.getBasePtr, h.free hs]
    split <;> exact hpos

theorem ofSharedChunk_eq_ok {r : PointerRepository} {p : Nat} {counters counters' : Counters}
    {c : ShmSafeUnmanagedChunk}
    (h : ofSharedChunk r (some p) counters = .ok (c, counters')) :
    (BaseRelativePointer.ofPtr r p).id ≤ RelativePointerData.idRange ∧
      (BaseRelativePointer.ofPtr r p).offset ≤ RelativePointerData.offsetRange ∧
        counters' = counters ∧
          c.chunkManagement = .ofIdAndOffset (BaseRelativePointer.ofPtr r p).id
            (BaseRelativePointer.ofPtr r p).offset := by
  unfold ofSharedChunk at h
  simp only at h
  split at h
  · next hrange =>
    obtain ⟨hid, hoffset⟩ := hrange
    have hmod : (BaseRelativePointer.ofPtr r p).id % 2 ^ 16 = (BaseRelativePointer.ofPtr r p).id :=
      Nat.mod_eq_of_lt (Nat.lt_of_le_of_lt hid (by decide))
    rw [hmod] at h
    cases h
    exact ⟨hid, hoffset, rfl, rfl⟩
  · cases h

variable {t : PointerRepository.Tracked} {p : Nat}

theorem getPtr_ofPtr (h : t.Ok) (hpos : 0 < p) (hp : p < addressRange)
    (hid : (BaseRelativePointer.ofPtr t.repository p).id ≤ RelativePointerData.idRange)
    (hoffset : (BaseRelativePointer.ofPtr t.repository p).offset ≤
      RelativePointerData.offsetRange) :
    BaseRelativePointer.getPtr t.repository (BaseRelativePointer.ofPtr t.repository p).id
      (BaseRelativePointer.ofPtr t.repository p).offset = p := by
  have hbase := getBasePtr_lt h (BaseRelativePointer.ofPtr t.repository p).id
  have hvalid : (BaseRelativePointer.ofPtr t.repository p).id ≠
      BaseRelativePointer.nullPointerId := by
    unfold RelativePointerData.idRange at hid
    unfold BaseRelativePointer.nullPointerId addressRange
    omega
  have hnull : (BaseRelativePointer.ofPtr t.repository p).offset ≠
      BaseRelativePointer.nullPointerOffset := by
    unfold RelativePointerData.offsetRange at hoffset
    unfold BaseRelativePointer.nullPointerOffset addressRange
    omega
  have heq : (BaseRelativePointer.ofPtr t.repository p).offset =
      (p + addressRange - t.repository.getBasePtr (BaseRelativePointer.ofPtr t.repository p).id) %
        addressRange := if_neg hvalid
  rw [BaseRelativePointer.getPtr, if_neg hnull, heq]
  unfold addressRange at hbase hp ⊢
  omega

def Representable (r : PointerRepository) (p : Nat) : Prop :=
  r.searchId p ≠ RelativePointerData.nullPointerId ∧
    difference p (r.getBasePtr (r.searchId p)) ≠ RelativePointerData.nullPointerOffset

theorem roundTrips_iff {counters counters' : Counters} {c : ShmSafeUnmanagedChunk} (h : t.Ok)
    (hpos : 0 < p) (hp : p < addressRange)
    (hensures : ofSharedChunk t.repository (some p) counters = .ok (c, counters')) :
    RoundTrips t.repository counters p c counters' ↔ Representable t.repository p := by
  obtain ⟨hid, hoffset, rfl, hc⟩ := ofSharedChunk_eq_ok hensures
  have hsearch : (BaseRelativePointer.ofPtr t.repository p).id = t.repository.searchId p :=
    if_neg hpos.ne'
  have hvalid : (BaseRelativePointer.ofPtr t.repository p).id ≠
      BaseRelativePointer.nullPointerId := by
    unfold RelativePointerData.idRange at hid
    unfold BaseRelativePointer.nullPointerId addressRange
    omega
  have hdifference : (BaseRelativePointer.ofPtr t.repository p).offset =
      difference p (t.repository.getBasePtr (t.repository.searchId p)) := by
    rw [← hsearch]
    exact if_neg hvalid
  have hfits : c.isLogicalNullptr = false ↔ Representable t.repository p := by
    rw [isLogicalNullptr, hc, ← Bool.not_eq_true,
      RelativePointerData.isLogicalNullptr_ofIdAndOffset, hsearch, hdifference, Representable]
    rw [hsearch] at hid
    rw [hdifference] at hoffset
    unfold RelativePointerData.maxValidId RelativePointerData.maxValidOffset
      RelativePointerData.nullPointerId RelativePointerData.nullPointerOffset
    unfold RelativePointerData.idRange at hid ⊢
    unfold RelativePointerData.offsetRange at hoffset ⊢
    omega
  rw [← hfits]
  refine ⟨fun hr => hr.notNull, fun hnot => ⟨hnot, rfl, { chunkManagement := .null }, ?_⟩⟩
  have hnull := hnot
  rw [isLogicalNullptr, hc, ← Bool.not_eq_true,
    RelativePointerData.isLogicalNullptr_ofIdAndOffset, not_or] at hnull
  have hmgmt : c.chunkMgmt t.repository = p := by
    rw [chunkMgmt, hc,
      RelativePointerData.id_ofIdAndOffset (Nat.not_lt.mp hnull.1) (Nat.not_lt.mp hnull.2),
      RelativePointerData.offset_ofIdAndOffset (Nat.not_lt.mp hnull.1) (Nat.not_lt.mp hnull.2)]
    exact getPtr_ofPtr h hpos hp hid hoffset
  rw [releaseToSharedChunk, hnot, hmgmt, sharedChunk, if_neg hpos.ne']
  rfl

/-- Every valid id and offset can be packed, a chunk whose handle has passed the checks gets
through exactly when its id and offset are valid, and a handle leads to the same place of its
segment in every process, unless that was registered under the reserved id. -/
theorem relocation_exact_iff {capacity : Nat} {counters counters' : Counters}
    {c : ShmSafeUnmanagedChunk} (hreached : PointerRepository.Tracked.Reached capacity t)
    (hpos : 0 < p) (hp : p < addressRange)
    (hensures : ofSharedChunk t.repository (some p) counters = .ok (c, counters')) :
    (∀ id ≤ RelativePointerData.maxValidId, ∀ offset ≤ RelativePointerData.maxValidOffset,
      (RelativePointerData.ofIdAndOffset id offset).isLogicalNullptr = false ∧
      (RelativePointerData.ofIdAndOffset id offset).id = id ∧
      (RelativePointerData.ofIdAndOffset id offset).offset = offset) ∧
    (RoundTrips t.repository counters p c counters' ↔ Representable t.repository p) ∧
    (∀ {capacity' t'}, PointerRepository.Tracked.Reached capacity' t' →
      ∀ (d : RelativePointerData) (u u' : Segment), t.segments d.id = some u →
        t'.segments d.id = some u' →
          (difference (BaseRelativePointer.getPtr t.repository d.id d.offset) u.base =
              difference (BaseRelativePointer.getPtr t'.repository d.id d.offset) u'.base ↔
            d.id ≠ 0 ∨ u.base = u'.base)) := by
  refine ⟨fun id hid offset hoffset => ⟨?_, RelativePointerData.id_ofIdAndOffset hid hoffset,
    RelativePointerData.offset_ofIdAndOffset hid hoffset⟩,
    roundTrips_iff hreached.ok hpos hp hensures, fun hreached' d u u' hu hu' =>
      PointerRepository.Tracked.difference_eq_iff hreached.ok hreached'.ok hu hu' d.offset_le⟩
  rw [← Bool.not_eq_true, RelativePointerData.isLogicalNullptr_ofIdAndOffset, not_or]
  exact ⟨Nat.not_lt.mpr hid, Nat.not_lt.mpr hoffset⟩

section Example

open PointerRepository PointerRepository.Tracked

theorem relocation_exact_oneSegment :
    ∃ c, ofSharedChunk oneSegment.repository (some 5000) (fun _ => 1) = .ok (c, fun _ => 1) ∧
      (RoundTrips oneSegment.repository (fun _ => 1) 5000 c (fun _ => 1) ↔
        Representable oneSegment.repository 5000) := by
  have hensures : ofSharedChunk oneSegment.repository (some 5000) (fun _ => 1) =
      .ok ({ chunkManagement := .ofIdAndOffset 1 904 }, fun _ => 1) := rfl
  exact ⟨_, hensures,
    (relocation_exact_iff oneSegment_reached (by decide) (by decide +kernel) hensures).2.1⟩

def wideSegment : Segment where
  base := 2 ^ 48 + 1
  size := 2 ^ 48
  positive := by decide
  nonempty := by decide
  inside := by decide +kernel

theorem wide_capacity : 10000 < addressRange := by decide +kernel

def wide : Tracked := (Tracked.start 10000 wide_capacity).exec (.registerPtr wideSegment)

theorem wide_reached : Reached 10000 wide := by
  have henter : wide = (Tracked.start 10000 wide_capacity).enter 1 wideSegment := rfl
  refine Reached.exec _ (Reached.start _) ?_
  change wide.Disjoint
  rw [henter]
  exact Disjoint.enter (Reached.start _).ok.disjoint nofun

theorem ofSharedChunk_loses_chunk :
    ∃ c, Reached 10000 wide ∧ wide.segments 1 = some wideSegment ∧
      wideSegment.Contains (2 ^ 49) ∧
      ofSharedChunk wide.repository (some (2 ^ 49)) (fun _ => 1) = .ok (c, fun _ => 1) ∧
      c.isLogicalNullptr = true ∧
      c.releaseToSharedChunk wide.repository (fun _ => 1) = .ok ((none, c), fun _ => 1) := by
  refine ⟨{ chunkManagement := .null }, wide_reached, rfl, by decide, ?_, rfl, rfl⟩
  rfl

end Example

end ShmSafeUnmanagedChunk

end Iceoryx.Mepoo
