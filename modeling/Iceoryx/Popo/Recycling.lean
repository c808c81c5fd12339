import Iceoryx.Popo.ZeroCopy

namespace Iceoryx.Popo

open Mepoo Lib Exec

variable {S R : Type} [DecidableEq S] {E : Halt → Prop} {m address : Nat} {header : ChunkHeader}

structure HeaderAt (m address : Nat) (header : ChunkHeader) (mm : MemoryManager) : Prop where
  block : (mm.blocks m).chunkHeader = address
  header : mm.headers address = header

namespace HeaderAt

theorem setCounter {mm : MemoryManager} (h : HeaderAt m address header mm) (m' n : Nat) :
    HeaderAt m address header
      (mm.writeBlock m' { mm.blocks m' with referenceCounter := n }) := by
  refine ⟨?_, h.header⟩
  rw [MemoryManager.blocks_setCounter]
  exact h.block

theorem increment (m' : Nat) :
    Triple E (HeaderAt m address header) (SharedChunk.incrementReferenceCounter m')
      fun _ => HeaderAt m address header := by
  intro mm h
  exact h.setCounter m' _

theorem decrement (m' : Nat) :
    Triple (fun _ => True) (HeaderAt m address header) (SharedChunk.decrementReferenceCounter m')
      fun _ => HeaderAt m address header := by
  intro mm h
  have hcounter := h.setCounter m' ((mm.blocks m').referenceCounter - 1)
  unfold SharedChunk.decrementReferenceCounter
  simp only
  split
  · unfold SharedChunk.freeChunk
    simp only
    split
    · trivial
    · split
      · trivial
      · split
        · trivial
        · exact ⟨hcounter.block, hcounter.header⟩
  · exact hcounter

theorem insert (l : UsedChunkList) (chunk : Nat) :
    Triple (fun _ => True) (HeaderAt m address header) (l.insert chunk)
      fun _ => HeaderAt m address header := by
  unfold UsedChunkList.insert
  split
  · refine Triple.bind (increment chunk) fun _ => Triple.bind (decrement chunk) fun _ => ?_
    exact Triple.pure fun _ h => h
  · exact Triple.bind (decrement chunk) fun _ => Triple.pure fun _ h => h

omit [DecidableEq S] in
theorem onMemory {T : Type} {x : Prog Halt MemoryManager T}
    (h : Triple E (HeaderAt m address header) x fun _ => HeaderAt m address header) :
    Triple E (fun w : World S R => HeaderAt m address header w.memory) (Exec.onMemory x)
      fun _ w => HeaderAt m address header w.memory :=
  Triple.focus fun w hw => (h w.memory hw).mono fun _ _ h => h

theorem insertChunk (s : S) (chunk : Nat) :
    Triple (fun _ => True) (fun w : World S R => HeaderAt m address header w.memory)
      (ChunkSender.insertChunk s chunk) fun _ w => HeaderAt m address header w.memory := by
  have hsender : Triple (fun _ => True) (fun w : World S R => HeaderAt m address header w.memory)
      (sender s) fun _ w => HeaderAt m address header w.memory := fun _ h => h
  have hset : ∀ d, Triple (fun _ => True)
      (fun w : World S R => HeaderAt m address header w.memory)
      (setSender s d) fun _ w => HeaderAt m address header w.memory := fun _ _ h => h
  unfold ChunkSender.insertChunk
  refine Triple.bind hsender fun d => ?_
  refine Triple.bind (onMemory (insert d.chunksInUse chunk)) fun r => ?_
  exact Triple.bind (hset _) fun _ => Triple.pure fun _ h => h

end HeaderAt

namespace ChunkSender

theorem reuseLastChunk_header (s : S) (chunkSize : Nat) (chunkSettings : ChunkSettings) :
    Triple (fun _ => True) (fun w : World S R => HeaderAt m address header w.memory)
      (reuseLastChunk s m address chunkSize chunkSettings) fun r w =>
      ∀ chunkHeader, r = .ok chunkHeader → chunkHeader = address ∧
        ChunkHeader.create address chunkSize chunkSettings = some (w.memory.headers address) := by
  refine Triple.bind (HeaderAt.onMemory (HeaderAt.increment m)) fun _ => ?_
  refine Triple.bind (HeaderAt.onMemory (HeaderAt.increment m)) fun _ => ?_
  refine Triple.bind (HeaderAt.insertChunk s m) fun inserted => ?_
  cases inserted with
  | false =>
    refine Triple.bind (HeaderAt.onMemory (HeaderAt.decrement m)) fun _ => ?_
    exact Triple.pure fun _ _ _ h => by cases h
  | true =>
    simp only [if_true]
    cases hcreate : ChunkHeader.create address chunkSize chunkSettings with
    | none => exact Triple.throw trivial
    | some created =>
      have hwrite : Triple (fun _ => True)
          (fun w : World S R => HeaderAt m address header w.memory)
          (onMemory (modify fun mm => mm.writeHeader address created))
          fun _ w => HeaderAt m address created w.memory := by
        refine Triple.focus fun w hw => ?_
        exact ⟨hw.block, Function.update_self _ _ _⟩
      refine Triple.bind hwrite fun _ => ?_
      refine Triple.bind (HeaderAt.onMemory (HeaderAt.decrement m)) fun _ => ?_
      refine Triple.pure fun w hw chunkHeader hchunk => ?_
      cases hchunk
      exact ⟨rfl, by rw [hw.header]⟩

def Constructed (chunkSettings : ChunkSettings) (r : Except MemoryManager.Error Nat)
    (mm : MemoryManager) : Prop :=
  ∀ m, r = .ok m → ∃ address chunkSize header, chunkSettings.requiredChunkSize ≤ chunkSize ∧
    ChunkHeader.create address chunkSize chunkSettings = some header ∧
    HeaderAt m address header mm

theorem getChunk_header (chunkSettings : ChunkSettings) :
    Triple (fun _ => True) (fun _ => True) (MemoryManager.getChunk chunkSettings)
      (Constructed chunkSettings) := by
  intro mm _
  unfold MemoryManager.getChunk
  split
  · split <;> (intro m h; cases h)
  · next k hk =>
    split
    · intro m h
      cases h
    · next aquiredChunkSize chunk pool hpool =>
      obtain ⟨p, hp, hget⟩ := Option.bind_eq_some_iff.mp hpool
      obtain ⟨_, _, hpair⟩ := Option.map_eq_some_iff.mp hget
      cases hpair
      have hsize : chunkSettings.requiredChunkSize ≤ p.chunkSize := by
        obtain ⟨hlt, hfit, -⟩ := List.findIdx?_eq_some_iff_getElem.mp hk
        rw [List.getElem?_eq_getElem hlt] at hp
        rw [Option.some.inj hp] at hfit
        simpa using hfit
      unfold MemoryManager.constructChunk
      cases hcreate : ChunkHeader.create chunk p.chunkSize chunkSettings with
      | none => trivial
      | some header =>
        simp only
        split
        · trivial
        · next hblock =>
          split at hblock
          · cases hblock
          · cases hblock
            intro m' hm
            cases hm
            refine ⟨chunk, p.chunkSize, header, hsize, hcreate, ?_, Function.update_self _ _ _⟩
            rw [MemoryManager.writeBlock_self]

theorem allocateNewChunk_header (s : S) (originId : Nat) (chunkSettings : ChunkSettings) :
    Triple (fun _ => True) (fun _ : World S R => True)
      (allocateNewChunk s originId chunkSettings) fun r w =>
      ∀ chunkHeader, r = .ok chunkHeader → ∃ chunkSize header,
        chunkSettings.requiredChunkSize ≤ chunkSize ∧
        ChunkHeader.create chunkHeader chunkSize chunkSettings = some header ∧
        w.memory.headers chunkHeader = { header with originId := originId } := by
  have hget : Triple (fun _ => True) (fun _ : World S R => True)
      (onMemory (MemoryManager.getChunk chunkSettings))
      fun r w => Constructed chunkSettings r w.memory :=
    Triple.focus fun w _ => (getChunk_header chunkSettings w.memory trivial).mono fun _ _ h => h
  refine Triple.bind hget fun r => ?_
  cases r with
  | error e => exact Triple.pure fun _ _ _ h => by cases h
  | ok m =>
    intro w hw
    obtain ⟨address, chunkSize, header, hsize, hcreate, hheader⟩ := hw m rfl
    have hmodify : Triple (fun _ => True)
        (fun w : World S R => HeaderAt m address header w.memory)
        (modifyHeader m fun h => { h with originId := originId })
        fun _ w => HeaderAt m address { header with originId := originId } w.memory := by
      intro w hw
      refine ⟨hw.block, ?_⟩
      simp only [MemoryManager.writeHeader, hw.block, hw.header, Function.update_self]
    suffices Triple (fun _ => True) (fun w : World S R => HeaderAt m address header w.memory) _ _
      from this w hheader
    refine Triple.bind (HeaderAt.onMemory (HeaderAt.increment m)) fun _ => ?_
    refine Triple.bind (HeaderAt.insertChunk s m) fun inserted => ?_
    cases inserted with
    | false =>
      refine Triple.bind (HeaderAt.onMemory (HeaderAt.decrement m)) fun _ => ?_
      exact Triple.pure fun _ _ _ h => by cases h
    | true =>
      refine Triple.bind hmodify fun _ => ?_
      have hread : Triple (fun _ => True)
          (fun w : World S R => HeaderAt m address { header with originId := originId } w.memory)
          (get : Exec S R (World S R)) fun w' w => (w'.memory.blocks m).chunkHeader = address ∧
            HeaderAt m address { header with originId := originId } w.memory :=
        Triple.get fun w h => ⟨h.block, h⟩
      refine Triple.bind hread fun w' => Triple.assume fun hblock => ?_
      refine Triple.bind (HeaderAt.onMemory (HeaderAt.decrement m)) fun _ => ?_
      refine Triple.pure fun w hw chunkHeader hchunk => ?_
      cases hchunk
      rw [hblock]
      exact ⟨chunkSize, header, hsize, hcreate, hw.header⟩

/-- What a successful allocation leaves in the header: the recycled chunk gets a new
header, and only a new chunk gets the id of the port, too. -/
theorem tryAllocate_header {s : S} {originId userPayloadSize userPayloadAlignment userHeaderSize
    userHeaderAlignment chunkHeader : Nat} {w w' : World S R}
    (h : tryAllocate s originId userPayloadSize userPayloadAlignment userHeaderSize
      userHeaderAlignment w = .ok (.ok chunkHeader, w')) :
    ∃ chunkSettings chunkSize header,
      ChunkSettings.create userPayloadSize userPayloadAlignment userHeaderSize
        userHeaderAlignment = .ok chunkSettings ∧
      chunkSettings.requiredChunkSize ≤ chunkSize ∧
      ChunkHeader.create chunkHeader chunkSize chunkSettings = some header ∧
      w'.memory.headers chunkHeader =
        if lastChunkToReuse w s chunkSettings.requiredChunkSize = none then
          { header with originId := originId }
        else header := by
  unfold tryAllocate at h
  have hget : (get : Exec S R (World S R)) w = .ok (w, w) := rfl
  cases hsettings : ChunkSettings.create userPayloadSize userPayloadAlignment userHeaderSize
      userHeaderAlignment with
  | error e =>
    rw [hsettings] at h
    cases h
  | ok chunkSettings =>
    simp only [hsettings, Prog.bind_apply, hget, Except.bind] at h
    cases hlast : lastChunkToReuse w s chunkSettings.requiredChunkSize with
    | none =>
      simp only [hlast] at h
      obtain ⟨chunkSize, header, hsize, hcreate, hheader⟩ :=
        (allocateNewChunk_header s originId chunkSettings).of_ok trivial h chunkHeader rfl
      exact ⟨chunkSettings, chunkSize, header, rfl, hsize, hcreate, by rw [hheader, if_pos hlast]⟩
    | some m =>
      simp only [hlast] at h
      obtain ⟨rfl, hcreate⟩ :=
        (reuseLastChunk_header s _ chunkSettings).of_ok ⟨rfl, rfl⟩ h chunkHeader rfl
      have hsome : lastChunkToReuse w s chunkSettings.requiredChunkSize ≠ none := by
        rw [hlast]
        exact Option.some_ne_none m
      have hsize : chunkSettings.requiredChunkSize ≤
          (w.memory.headers (w.memory.blocks m).chunkHeader).chunkSize := by
        unfold lastChunkToReuse at hlast
        simp only at hlast
        split at hlast
        · have := (Option.filter_eq_some_iff.mp hlast).2
          simpa using this
        · cases hlast
      exact ⟨chunkSettings, _, _, rfl, hsize, hcreate, (if_neg hsome).symm⟩

end ChunkSender

def adjustedAlignment (alignment : Nat) : Nat := if alignment = 0 then 1 else alignment

def requiredChunkSize (userPayloadSize userPayloadAlignment userHeaderSize : Nat) : Nat :=
  ChunkSettings.calculateRequiredChunkSize userPayloadSize
    (adjustedAlignment userPayloadAlignment) userHeaderSize

theorem settings_of_create {size alignment headerSize headerAlignment : Nat} {c : ChunkSettings}
    (h : ChunkSettings.create size alignment headerSize headerAlignment = .ok c) :
    c.userPayloadSize = size ∧ c.userPayloadAlignment = adjustedAlignment alignment ∧
      c.userHeaderSize = headerSize ∧
      c.requiredChunkSize = requiredChunkSize size alignment headerSize := by
  unfold ChunkSettings.create at h
  unfold requiredChunkSize adjustedAlignment
  generalize (if alignment = 0 then 1 else alignment) = adjusted at h ⊢
  generalize (if headerAlignment = 0 then 1 else headerAlignment) = adjustedHeader at h
  simp only at h
  split at h
  · cases h
  · split at h
    · cases h
    · split at h
      · cases h
      · split at h
        · cases h
        · cases h
          exact ⟨rfl, rfl, rfl, rfl⟩

structure Reports (originId userPayloadSize userPayloadAlignment userHeaderSize : Nat)
    (header : ChunkHeader) : Prop where
  origin : header.originId = originId
  payloadSize : header.userPayloadSize = userPayloadSize
  payloadAlignment : header.userPayloadAlignment = adjustedAlignment userPayloadAlignment
  headerSize : header.userHeaderSize = userHeaderSize
  version : header.chunkHeaderVersion = ChunkHeader.currentVersion
  headerId : header.userHeaderId = ChunkHeader.noUserHeader ↔ userHeaderSize = 0
  chunkSize : requiredChunkSize userPayloadSize userPayloadAlignment userHeaderSize ≤
    header.chunkSize

theorem reports_of_create {size alignment headerSize headerAlignment chunkSize : Nat}
    {chunkSettings : ChunkSettings}
    (hsettings : ChunkSettings.create size alignment headerSize headerAlignment =
      .ok chunkSettings)
    (hsize : chunkSettings.requiredChunkSize ≤ chunkSize)
    (hcreate : ChunkHeader.create address chunkSize chunkSettings = some header) (originId : Nat) :
    header.originId = ChunkHeader.invalidPortId ∧
      Reports originId size alignment headerSize { header with originId := originId } := by
  obtain ⟨hpayload, halignment, hheader, hrequired⟩ := settings_of_create hsettings
  unfold ChunkHeader.create at hcreate
  obtain ⟨-, hheader'⟩ := Option.ite_none_right_eq_some.mp hcreate
  obtain rfl := Option.some.inj hheader'
  refine ⟨rfl, rfl, hpayload, halignment, hheader, rfl, ?_, hrequired ▸ hsize⟩
  simp only [hheader]
  split
  · next hzero => simp [hzero]
  · next hpos => simp [hpos, ChunkHeader.noUserHeader, ChunkHeader.unknownUserHeader]

/-- Only the id of the port is missing in the header of a recycled chunk. -/
theorem allocation_reports_iff (w w' : World S R) (s : S) (originId userPayloadSize
    userPayloadAlignment userHeaderSize userHeaderAlignment chunkHeader : Nat)
    (h : ChunkSender.tryAllocate s originId userPayloadSize userPayloadAlignment userHeaderSize
      userHeaderAlignment w = .ok (.ok chunkHeader, w')) :
    Reports originId userPayloadSize userPayloadAlignment userHeaderSize
        (w'.memory.headers chunkHeader) ↔
      ChunkSender.lastChunkToReuse w s
          (requiredChunkSize userPayloadSize userPayloadAlignment userHeaderSize) = none ∨
        originId = ChunkHeader.invalidPortId := by
  obtain ⟨chunkSettings, chunkSize, header, hsettings, hsize, hcreate, hheader⟩ :=
    ChunkSender.tryAllocate_header h
  obtain ⟨hinvalid, hreports⟩ := reports_of_create hsettings hsize hcreate originId
  rw [hheader, (settings_of_create hsettings).2.2.2]
  by_cases hnew : ChunkSender.lastChunkToReuse w s
      (requiredChunkSize userPayloadSize userPayloadAlignment userHeaderSize) = none
  · rw [if_pos hnew]
    exact iff_of_true hreports (Or.inl hnew)
  · rw [if_neg hnew]
    constructor
    · intro hrecycled
      exact Or.inr (hrecycled.origin.symm.trans hinvalid)
    · rintro (hnone | horigin)
      · exact absurd hnone hnew
      · rw [← horigin] at hinvalid
        rw [← hinvalid] at hreports ⊢
        exact hreports

namespace World

theorem allocation_reports_first : ∃ mm allocators w',
    MemoryManager.configureMemoryManager smallConfig 0 1 exampleMemory = some (mm, allocators) ∧
    ChunkSender.tryAllocate 0 7 8 8 0 1 (start mm exampleSender exampleReceiver) =
      .ok (.ok (2 ^ 40), w') ∧
    Reports 7 8 8 0 (w'.memory.headers (2 ^ 40)) := by
  have h : allocateAfter smallConfig [] = some (2 ^ 40, 1, true) := by decide +kernel
  obtain ⟨mm, allocators, w, w', hmm, hrun, hallocate, _⟩ := allocateAfter_eq_some h
  have hstart : run 0 [] (start mm exampleSender exampleReceiver) =
      .ok (⟨⟩, start mm exampleSender exampleReceiver) := rfl
  obtain rfl : start mm exampleSender exampleReceiver = w :=
    (Prod.mk.inj (Except.ok.inj (hstart.symm.trans hrun))).2
  have hnew : ChunkSender.lastChunkToReuse (start mm exampleSender exampleReceiver) 0
      (requiredChunkSize 8 8 0) = none := by
    simp only [ChunkSender.lastChunkToReuse, start, ChunkSenderData.create,
      isNotLogicalNullptrAndHasNoOtherOwners, Bool.false_eq_true, if_false]
  exact ⟨mm, allocators, w', hmm, hallocate,
    (allocation_reports_iff _ w' 0 7 8 8 0 1 _ hallocate).mpr (Or.inl hnew)⟩

def originIdAfter (mePooConfig : MePooConfig) (ops : List (Op (Fin 1) (Fin 1))) :
    Option (Nat × Nat) := do
  let (mm, _) ← MemoryManager.configureMemoryManager mePooConfig 0 1 exampleMemory
  let (_, w) ← (run 0 ops (start mm exampleSender exampleReceiver)).toOption
  let (result, w) ← (ChunkSender.tryAllocate 0 7 8 8 0 1 w).toOption
  let chunkHeader ← result.toOption
  some (chunkHeader, (w.memory.headers chunkHeader).originId)

theorem originIdAfter_eq_some {mePooConfig : MePooConfig} {ops : List (Op (Fin 1) (Fin 1))}
    {chunkHeader originId : Nat}
    (h : originIdAfter mePooConfig ops = some (chunkHeader, originId)) :
    ∃ mm allocators w w',
      MemoryManager.configureMemoryManager mePooConfig 0 1 exampleMemory = some (mm, allocators) ∧
      run 0 ops (start mm exampleSender exampleReceiver) = .ok (⟨⟩, w) ∧
      ChunkSender.tryAllocate 0 7 8 8 0 1 w = .ok (.ok chunkHeader, w') ∧
      (w'.memory.headers chunkHeader).originId = originId := by
  obtain ⟨⟨mm, allocators⟩, hmm, h⟩ := Option.bind_eq_some_iff.mp h
  obtain ⟨⟨_, w⟩, hrun, h⟩ := Option.bind_eq_some_iff.mp h
  obtain ⟨⟨result, w'⟩, hallocate, h⟩ := Option.bind_eq_some_iff.mp h
  obtain ⟨_, hresult, h⟩ := Option.bind_eq_some_iff.mp h
  cases h
  obtain rfl := eq_ok_of_toOption hresult
  exact ⟨mm, allocators, w, w', hmm, eq_ok_of_toOption hrun, eq_ok_of_toOption hallocate, rfl⟩

theorem recycled_chunk_without_originId : ∃ mm allocators w w',
    MemoryManager.configureMemoryManager smallConfig 0 1 exampleMemory = some (mm, allocators) ∧
    run 0 [allocate, .send 0 (2 ^ 40), .clearHistory 0] (start mm exampleSender exampleReceiver) =
      .ok (⟨⟩, w) ∧
    ChunkSender.tryAllocate 0 7 8 8 0 1 w = .ok (.ok (2 ^ 40), w') ∧
    ¬ Reports 7 8 8 0 (w'.memory.headers (2 ^ 40)) := by
  have h : originIdAfter smallConfig [allocate, .send 0 (2 ^ 40), .clearHistory 0] =
      some (2 ^ 40, 0) := by decide +kernel
  obtain ⟨mm, allocators, w, w', hmm, hrun, hallocate, horigin⟩ := originIdAfter_eq_some h
  refine ⟨mm, allocators, w, w', hmm, hrun, hallocate, ?_⟩
  intro hreports
  exact absurd (hreports.origin.symm.trans horigin) (by decide)

end World

end Iceoryx.Popo
