import Iceoryx.Lib.Groups

universe u

namespace Iceoryx.Mepoo

open Lib

def maxShmSegments : Nat := 100

structure PosixGroup where
  id : Nat
  deriving DecidableEq, Repr

structure MemoryInfo where
  deviceId : Nat := 0
  memoryType : Nat := 0
  deriving DecidableEq, Repr

structure SharedMemoryObject where
  baseAddress : Nat
  sizeInBytes : Nat
  deriving DecidableEq, Repr

structure MePooSegment (M : Type u) where
  sharedMemoryObject : SharedMemoryObject
  memoryManager : M
  readerGroup : PosixGroup
  writerGroup : PosixGroup
  segmentId : Nat
  deriving DecidableEq, Repr

structure SegmentMapping where
  sharedMemoryName : String
  startAddress : Nat
  size : Nat
  isWritable : Bool
  segmentId : Nat
  memoryInfo : MemoryInfo := {}
  deriving DecidableEq, Repr

structure SegmentUserInformation (M : Type u) where
  memoryManager : Option M := none
  segmentID : Nat := 0
  deriving DecidableEq, Repr

structure SegmentManager (M : Type u) where
  segmentContainer : List (MePooSegment M)
  bounded : segmentContainer.length ≤ maxShmSegments

namespace SegmentManager

inductive Error
  | userWithMoreThanOneWriteSegment
  deriving DecidableEq, Repr

def emplaceBack (mappingContainer : List SegmentMapping) (mapping : SegmentMapping) :
    List SegmentMapping :=
  if mappingContainer.length < maxShmSegments then mappingContainer ++ [mapping]
  else mappingContainer

variable {M : Type u} (getName : PosixGroup → String)

def mapping (segment : MePooSegment M) (isWritable : Bool) : SegmentMapping where
  sharedMemoryName := getName segment.writerGroup
  startAddress := segment.sharedMemoryObject.baseAddress
  size := segment.sharedMemoryObject.sizeInBytes
  isWritable := isWritable
  segmentId := segment.segmentId

def addWriter (state : List SegmentMapping × Bool) (segment : MePooSegment M) :
    Except Error (List SegmentMapping × Bool) :=
  if !state.2 then .ok (emplaceBack state.1 (mapping getName segment true), true)
  else .error .userWithMoreThanOneWriteSegment

def addReader (mappingContainer : List SegmentMapping) (segment : MePooSegment M) :
    List SegmentMapping :=
  if (mappingContainer.find? fun mapping =>
      mapping.startAddress = segment.sharedMemoryObject.baseAddress) = none then
    emplaceBack mappingContainer (mapping getName segment false)
  else mappingContainer

/-- With an error the caller gets an empty container. -/
def getSegmentMappings (manager : SegmentManager M) (groupContainer : List PosixGroup) :
    Except Error (List SegmentMapping) := do
  let (mappingContainer, _) ← groupContainer.foldlM (fun state groupID =>
    manager.segmentContainer.foldlM (fun state segment =>
      if segment.writerGroup = groupID then addWriter getName state segment else pure state)
      state) ([], false)
  return groupContainer.foldl (fun mappingContainer groupID =>
    manager.segmentContainer.foldl (fun mappingContainer segment =>
      if segment.readerGroup = groupID then addReader getName mappingContainer segment
      else mappingContainer) mappingContainer) mappingContainer

def getSegmentInformationWithWriteAccessForUser (manager : SegmentManager M)
    (groupContainer : List PosixGroup) : SegmentUserInformation M :=
  match groupContainer.findSome? fun groupID =>
    manager.segmentContainer.find? fun segment => segment.writerGroup = groupID with
  | some segment => {
      memoryManager := some segment.memoryManager
      segmentID := segment.segmentId }
  | none => {}

structure Agrees (manager : SegmentManager M) (groups : List PosixGroup)
    (mappings : List SegmentMapping) : Prop where
  once : (mappings.map (·.startAddress)).Nodup
  mapped : ∀ segment ∈ manager.segmentContainer,
    (∃ m ∈ mappings, m.startAddress = segment.sharedMemoryObject.baseAddress) ↔
      segment.readerGroup ∈ groups ∨ segment.writerGroup ∈ groups
  made : ∀ m ∈ mappings, ∃ segment ∈ manager.segmentContainer,
    m = mapping getName segment (decide (segment.writerGroup ∈ groups))
  oneWritable : mappings.countP (·.isWritable) ≤ 1
  memory :
    (∃ segment ∈ manager.segmentContainer, mapping getName segment true ∈ mappings ∧
      manager.getSegmentInformationWithWriteAccessForUser groups = {
        memoryManager := some segment.memoryManager
        segmentID := segment.segmentId }) ∨
    (∀ m ∈ mappings, m.isWritable = false) ∧
      manager.getSegmentInformationWithWriteAccessForUser groups = {}

structure Granted (segments : List (MePooSegment M)) (groups : List PosixGroup)
    (mappings : List SegmentMapping) : Prop where
  once : (mappings.map (·.startAddress)).Nodup
  made : ∀ m ∈ mappings, ∃ segment ∈ segments,
    (segment.readerGroup ∈ groups ∨ segment.writerGroup ∈ groups) ∧
      m = mapping getName segment (decide (segment.writerGroup ∈ groups))
  writers : ∀ segment ∈ segments, segment.writerGroup ∈ groups →
    ∃ m ∈ mappings, m.startAddress = segment.sharedMemoryObject.baseAddress

variable {getName} {manager : SegmentManager M} {segments : List (MePooSegment M)}
  {segment : MePooSegment M} {groups : List PosixGroup} {mappings : List SegmentMapping}

theorem getSegmentMappings_eq : manager.getSegmentMappings getName groups =
    ((byKey (·.writerGroup) groups manager.segmentContainer).foldlM (addWriter getName)
      ([], false)).map fun state =>
        (byKey (·.readerGroup) groups manager.segmentContainer).foldl (addReader getName)
          state.1 := by
  unfold getSegmentMappings
  rw [foldlM_byKey]
  simp only [foldl_byKey]
  rfl

theorem foldlM_addWriter (writers : List (MePooSegment M)) :
    writers.foldlM (addWriter getName) ([], false) =
      match writers with
      | [] => .ok ([], false)
      | [segment] => .ok ([mapping getName segment true], true)
      | _ :: _ :: _ => .error .userWithMoreThanOneWriteSegment := by
  match writers with
  | [] => rfl
  | [_] => rfl
  | _ :: _ :: _ => rfl

theorem length_lt_of_new (hbounded : segments.length ≤ maxShmSegments)
    (hgranted : Granted getName segments groups mappings)
    (hsegment : segment ∈ segments)
    (hnew : ∀ m ∈ mappings, m.startAddress ≠ segment.sharedMemoryObject.baseAddress) :
    mappings.length < maxShmSegments := by
  have hnodup : (segment.sharedMemoryObject.baseAddress ::
      mappings.map (·.startAddress)).Nodup := by
    refine List.nodup_cons.mpr ⟨fun hmem => ?_, hgranted.once⟩
    obtain ⟨m, hm, heq⟩ := List.mem_map.mp hmem
    exact hnew m hm heq
  have hsubset : segment.sharedMemoryObject.baseAddress :: mappings.map (·.startAddress) ⊆
      segments.map fun segment => segment.sharedMemoryObject.baseAddress := by
    intro address haddress
    rcases List.mem_cons.mp haddress with rfl | haddress
    · exact List.mem_map_of_mem hsegment
    · obtain ⟨m, hm, rfl⟩ := List.mem_map.mp haddress
      obtain ⟨s, hs, -, rfl⟩ := hgranted.made m hm
      exact List.mem_map_of_mem hs
  have hle := (List.subperm_of_subset hnodup hsubset).length_le
  rw [List.length_cons, List.length_map, List.length_map] at hle
  exact Nat.lt_of_lt_of_le (Nat.lt_of_succ_le hle) hbounded

theorem granted_addReader (hbounded : segments.length ≤ maxShmSegments)
    (h : Granted getName segments groups mappings) (hsegment : segment ∈ segments)
    (hreader : segment.readerGroup ∈ groups) :
    Granted getName segments groups (addReader getName mappings segment) ∧
      (∀ m ∈ mappings, m ∈ addReader getName mappings segment) ∧
      ∃ m ∈ addReader getName mappings segment,
        m.startAddress = segment.sharedMemoryObject.baseAddress := by
  unfold addReader
  split
  · next hfind =>
    have hnew : ∀ m ∈ mappings, m.startAddress ≠ segment.sharedMemoryObject.baseAddress := by
      simpa using hfind
    rw [emplaceBack, if_pos (length_lt_of_new hbounded h hsegment hnew)]
    have hnotWriter : segment.writerGroup ∉ groups := by
      intro hwriter
      obtain ⟨m, hm, heq⟩ := h.writers segment hsegment hwriter
      exact hnew m hm heq
    refine ⟨⟨?_, fun m hm => ?_, fun s hs hwriter => ?_⟩, fun m hm => List.mem_append_left _ hm,
      mapping getName segment false, List.mem_append_right _ List.mem_cons_self, rfl⟩
    · rw [List.map_append, List.map_singleton]
      refine List.nodup_append.mpr ⟨h.once, List.nodup_singleton _, ?_⟩
      rintro _ haddress _ hlast rfl
      obtain ⟨m, hm, heq⟩ := List.mem_map.mp haddress
      exact hnew m hm (heq.trans (List.mem_singleton.mp hlast))
    · rcases List.mem_append.mp hm with hm | hm
      · exact h.made m hm
      · refine ⟨segment, hsegment, Or.inl hreader, ?_⟩
        rw [List.mem_singleton.mp hm, decide_eq_false hnotWriter]
    · obtain ⟨m, hm, heq⟩ := h.writers s hs hwriter
      exact ⟨m, List.mem_append_left _ hm, heq⟩
  · next hfind =>
    refine ⟨h, fun _ hm => hm, ?_⟩
    obtain ⟨m, hm⟩ := Option.ne_none_iff_exists'.mp hfind
    have haddress := List.find?_some hm
    exact ⟨m, List.mem_of_find?_eq_some hm, of_decide_eq_true haddress⟩

theorem granted_foldl_addReader (hbounded : segments.length ≤ maxShmSegments)
    (readers : List (MePooSegment M)) :
    ∀ mappings, Granted getName segments groups mappings →
      (∀ segment ∈ readers, segment ∈ segments ∧ segment.readerGroup ∈ groups) →
      Granted getName segments groups (readers.foldl (addReader getName) mappings) ∧
        (∀ m ∈ mappings, m ∈ readers.foldl (addReader getName) mappings) ∧
        ∀ segment ∈ readers, ∃ m ∈ readers.foldl (addReader getName) mappings,
          m.startAddress = segment.sharedMemoryObject.baseAddress := by
  induction readers with
  | nil => exact fun mappings h _ => ⟨h, fun _ hm => hm, fun _ hs => nomatch hs⟩
  | cons segment readers ih =>
    intro mappings h hreaders
    obtain ⟨hsegment, hreader⟩ := hreaders segment List.mem_cons_self
    obtain ⟨hstep, hkept, m, hm, heq⟩ := granted_addReader hbounded h hsegment hreader
    obtain ⟨hrest, hmore, hall⟩ := ih _ hstep
      fun s hs => hreaders s (List.mem_cons_of_mem segment hs)
    refine ⟨hrest, fun m hm => hmore m (hkept m hm), fun s hs => ?_⟩
    rcases List.mem_cons.mp hs with rfl | hs
    · exact ⟨m, hmore m hm, heq⟩
    · exact hall s hs

theorem granted_writers {found : Option (MePooSegment M)}
    (hfound : byKey (·.writerGroup) groups segments = found.toList) :
    Granted getName segments groups
      (found.toList.map fun segment => mapping getName segment true) where
  once := by cases found <;> simp
  made := fun m hm => by
    obtain ⟨segment, hsegment, rfl⟩ := List.mem_map.mp hm
    rw [← hfound] at hsegment
    obtain ⟨hmem, hwriter⟩ := mem_byKey.mp hsegment
    exact ⟨segment, hmem, Or.inr hwriter, by rw [decide_eq_true hwriter]⟩
  writers := fun segment hsegment hwriter =>
    ⟨_, List.mem_map_of_mem (hfound ▸ mem_byKey.mpr ⟨hsegment, hwriter⟩), rfl⟩

theorem Granted.mem_of_isWritable {found : Option (MePooSegment M)}
    (hfound : byKey (·.writerGroup) groups segments = found.toList)
    (h : Granted getName segments groups mappings) {m : SegmentMapping}
    (hm : m ∈ mappings) (hwritable : m.isWritable = true) :
    m ∈ found.toList.map fun segment => mapping getName segment true := by
  obtain ⟨segment, hsegment, -, rfl⟩ := h.made m hm
  have hwriter : segment.writerGroup ∈ groups := of_decide_eq_true hwritable
  rw [decide_eq_true hwriter]
  exact List.mem_map_of_mem (hfound ▸ mem_byKey.mpr ⟨hsegment, hwriter⟩)

theorem agrees_of_granted {found : Option (MePooSegment M)}
    (hfound : byKey (·.writerGroup) groups manager.segmentContainer = found.toList)
    (hbase : (manager.segmentContainer.map (·.sharedMemoryObject.baseAddress)).Nodup)
    (h : Granted getName manager.segmentContainer groups mappings)
    (hwriters : ∀ m ∈ found.toList.map fun segment => mapping getName segment true, m ∈ mappings)
    (hreaders : ∀ segment ∈ manager.segmentContainer, segment.readerGroup ∈ groups →
      ∃ m ∈ mappings, m.startAddress = segment.sharedMemoryObject.baseAddress) :
    Agrees getName manager groups mappings where
  once := h.once
  mapped := fun segment hsegment => by
    constructor
    · rintro ⟨m, hm, heq⟩
      obtain ⟨s, hs, hgroup, rfl⟩ := h.made m hm
      rwa [List.inj_on_of_nodup_map hbase hs hsegment heq] at hgroup
    · rintro (hreader | hwriter)
      · exact hreaders segment hsegment hreader
      · exact h.writers segment hsegment hwriter
  made := fun m hm => by
    obtain ⟨segment, hsegment, -, heq⟩ := h.made m hm
    exact ⟨segment, hsegment, heq⟩
  oneWritable := by
    have hsubset : mappings.filter (·.isWritable) ⊆
        found.toList.map fun segment => mapping getName segment true := fun m hm =>
      h.mem_of_isWritable hfound (List.mem_filter.mp hm).1 (List.mem_filter.mp hm).2
    have hnodup : (mappings.filter (·.isWritable)).Nodup := h.once.of_map.filter _
    have hle := (List.subperm_of_subset hnodup hsubset).length_le
    rw [List.countP_eq_length_filter]
    rw [List.length_map] at hle
    exact Nat.le_trans hle (by cases found <;> simp)
  memory := by
    unfold getSegmentInformationWithWriteAccessForUser
    rw [findSome_byKey, hfound]
    cases found with
    | none =>
      refine Or.inr ⟨fun m hm => Bool.eq_false_iff.mpr fun hwritable => ?_, rfl⟩
      exact absurd (h.mem_of_isWritable hfound hm hwritable) List.not_mem_nil
    | some segment =>
      have hmem : segment ∈ byKey (·.writerGroup) groups manager.segmentContainer := by
        rw [hfound]
        exact List.mem_cons_self
      exact Or.inl ⟨segment, (mem_byKey.mp hmem).1, hwriters _ List.mem_cons_self, rfl⟩

theorem segment_rights_agree (getName : PosixGroup → String) (manager : SegmentManager M)
    (groups : List PosixGroup) (hgroups : groups.Nodup)
    (hbase : (manager.segmentContainer.map (·.sharedMemoryObject.baseAddress)).Nodup) :
    (manager.getSegmentMappings getName groups = .error .userWithMoreThanOneWriteSegment ↔
      2 ≤ manager.segmentContainer.countP fun segment => segment.writerGroup ∈ groups) ∧
    ∀ mappings, manager.getSegmentMappings getName groups = .ok mappings →
      Agrees getName manager groups mappings := by
  have hcount : (manager.segmentContainer.countP fun segment => segment.writerGroup ∈ groups) =
      (byKey (·.writerGroup) groups manager.segmentContainer).length := by
    rw [(byKey_perm hgroups).length_eq, List.countP_eq_length_filter]
  have hok : ∀ found : Option (MePooSegment M),
      byKey (·.writerGroup) groups manager.segmentContainer = found.toList →
      Agrees getName manager groups
        ((byKey (·.readerGroup) groups manager.segmentContainer).foldl (addReader getName)
          (found.toList.map fun segment => mapping getName segment true)) := by
    intro found hfound
    obtain ⟨hgranted, hkept, hreaders⟩ := granted_foldl_addReader manager.bounded
      (byKey (·.readerGroup) groups manager.segmentContainer) _
      (granted_writers hfound) fun segment hsegment => mem_byKey.mp hsegment
    exact agrees_of_granted hfound hbase hgranted hkept
      fun segment hsegment hreader => hreaders segment (mem_byKey.mpr ⟨hsegment, hreader⟩)
  rw [getSegmentMappings_eq, foldlM_addWriter, hcount]
  generalize byKey (·.writerGroup) groups manager.segmentContainer = writers at hok
  match writers with
  | [] =>
    refine ⟨iff_of_false (fun h => nomatch h) (by simp), fun mappings h => ?_⟩
    cases h
    exact hok none rfl
  | [segment] =>
    refine ⟨iff_of_false (fun h => nomatch h) (by simp), fun mappings h => ?_⟩
    cases h
    exact hok (some segment) rfl
  | _ :: _ :: _ => exact ⟨iff_of_true rfl (by simp), fun mappings h => nomatch h⟩

def radarSegments : SegmentManager Nat where
  segmentContainer := [
    { sharedMemoryObject := { baseAddress := 4096, sizeInBytes := 1024 }
      memoryManager := 0
      readerGroup := ⟨1⟩
      writerGroup := ⟨3⟩
      segmentId := 1 },
    { sharedMemoryObject := { baseAddress := 8192, sizeInBytes := 2048 }
      memoryManager := 1
      readerGroup := ⟨1⟩
      writerGroup := ⟨2⟩
      segmentId := 2 }]
  bounded := by decide

theorem segment_rights_agree_radarSegments :
    Agrees (fun group => if group = ⟨2⟩ then "radar" else "planner") radarSegments [⟨1⟩, ⟨2⟩] [
      { sharedMemoryName := "radar"
        startAddress := 8192
        size := 2048
        isWritable := true
        segmentId := 2 },
      { sharedMemoryName := "planner"
        startAddress := 4096
        size := 1024
        isWritable := false
        segmentId := 1 }] :=
  (segment_rights_agree _ radarSegments [⟨1⟩, ⟨2⟩] (by decide) (by decide)).2 _ rfl

end SegmentManager

end Iceoryx.Mepoo
