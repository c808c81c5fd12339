import Mathlib.Algebra.Order.BigOperators.Group.Finset
import Iceoryx.Lib.Run
import Iceoryx.Mepoo.Configuration

/-! Threads that call `MemoryManager::getChunk` and copy and destroy `SharedChunk`s.  One
step is one `MemPool::getChunk`, one `MemPool::freeChunk` or one access to a reference
counter. -/

namespace Iceoryx.Mepoo

open Hoofs

inductive ChunkPc
  | idle
  | gotPayload (chunkSettings : ChunkSettings) (memPool chunk aquiredChunkSize : Nat)
  | freePayload (chunkManagement : Nat)
  | freeManagement (chunkManagement : Nat)
  deriving DecidableEq, Repr

namespace ChunkPc

def got : ChunkPc → Nat
  | .gotPayload _ _ _ _ => 1
  | _ => 0

def freeing : ChunkPc → Nat
  | .freeManagement _ => 1
  | _ => 0

end ChunkPc

/-- A call, the next step of the running one, or a `SharedChunk` moved to another
thread. -/
inductive ChunkAct (Tid : Type)
  | getChunk (chunkSettings : ChunkSettings)
  | copy (chunkManagement : Nat)
  | destroy (chunkManagement : Nat)
  | pass (receiver : Tid) (chunkManagement : Nat)
  | advance
  deriving DecidableEq

namespace MemoryManager

def payloadChunks (mm : MemoryManager) : Nat := (mm.memPoolVector.map MemPool.numberOfChunks).sum

def usedPayloadChunks (mm : MemoryManager) : Nat := (mm.memPoolVector.map MemPool.usedChunks).sum

def takePayload (chunkSettings : ChunkSettings) (mm : MemoryManager) :
    Option (Nat × Nat × Nat × MemPool) := do
  let k ← mm.memPoolVector.findIdx? fun p => p.chunkSize ≥ chunkSettings.requiredChunkSize
  let p ← mm.memPoolVector[k]?
  let (chunk, pool) ← p.getChunk
  some (k, chunk, p.chunkSize, pool)

def freePayload (m : Nat) (mm : MemoryManager) : Except Halt MemoryManager :=
  match mm.memPoolVector[(mm.blocks m).mempool]? with
  | none => .error .nullptr
  | some pool =>
    match pool.freeChunk (mm.blocks m).chunkHeader with
    | .error e => .error e
    | .ok pool => .ok (mm.setMemPool (mm.blocks m).mempool pool)

def freeManagement (m : Nat) (mm : MemoryManager) : Except Halt MemoryManager :=
  match mm.chunkManagementPool.freeChunk m with
  | .error e => .error e
  | .ok pool => .ok (mm.setManagementPool pool)

def setCounter (m n : Nat) (mm : MemoryManager) : MemoryManager :=
  mm.writeBlock m { mm.blocks m with referenceCounter := n % 2 ^ 64 }

end MemoryManager

/-- `chunks t` are the management blocks of the `SharedChunk`s of the thread `t`. -/
structure ChunkThreads (Tid : Type) where
  memory : MemoryManager
  pc : Tid → ChunkPc
  chunks : Tid → List Nat

namespace ChunkThreads

variable {Tid : Type} [DecidableEq Tid]

omit [DecidableEq Tid] in
def start (mm : MemoryManager) : ChunkThreads Tid where
  memory := mm
  pc := fun _ => .idle
  chunks := fun _ => []

def goto (s : ChunkThreads Tid) (t : Tid) (p : ChunkPc) : ChunkThreads Tid :=
  { s with pc := Function.update s.pc t p }

def give (s : ChunkThreads Tid) (t : Tid) (ms : List Nat) : ChunkThreads Tid :=
  { s with chunks := Function.update s.chunks t ms }

omit [DecidableEq Tid] in
def onMemory (s : ChunkThreads Tid) (mm : MemoryManager) : ChunkThreads Tid :=
  { s with memory := mm }

def advance (s : ChunkThreads Tid) (t : Tid) : Option (ChunkThreads Tid) :=
  match s.pc t with
  | .idle => none
  | .gotPayload chunkSettings k chunk aquiredChunkSize =>
    match s.memory.constructChunk k chunk aquiredChunkSize chunkSettings with
    | .error _ => none
    | .ok (m, mm) => some (((s.onMemory mm).give t (m :: s.chunks t)).goto t .idle)
  | .freePayload m =>
    match s.memory.freePayload m with
    | .error _ => none
    | .ok mm => some ((s.onMemory mm).goto t (.freeManagement m))
  | .freeManagement m =>
    match s.memory.freeManagement m with
    | .error _ => none
    | .ok mm => some ((s.onMemory mm).goto t .idle)

def step (s : ChunkThreads Tid) : Tid × ChunkAct Tid → Option (ChunkThreads Tid)
  | (t, .advance) => s.advance t
  | (t, .getChunk chunkSettings) =>
    if s.pc t = .idle then
      match s.memory.takePayload chunkSettings with
      -- one of the errors is returned
      | none => some s
      | some (k, chunk, aquiredChunkSize, pool) =>
        some ((s.onMemory (s.memory.setMemPool k pool)).goto t
          (.gotPayload chunkSettings k chunk aquiredChunkSize))
    else none
  | (t, .copy m) =>
    if s.pc t = .idle ∧ m ∈ s.chunks t then
      let counter := (s.memory.blocks m).referenceCounter
      some ((s.onMemory (s.memory.setCounter m (counter + 1))).give t (m :: s.chunks t))
    else none
  | (t, .destroy m) =>
    if s.pc t = .idle ∧ m ∈ s.chunks t then
      let counter := (s.memory.blocks m).referenceCounter
      some (((s.onMemory (s.memory.setCounter m (counter + 2 ^ 64 - 1))).give t
        ((s.chunks t).erase m)).goto t (if counter = 1 then .freePayload m else .idle))
    else none
  | (t, .pass t' m) =>
    if s.pc t = .idle ∧ m ∈ s.chunks t then
      let s := s.give t ((s.chunks t).erase m)
      some (s.give t' (m :: s.chunks t'))
    else none

variable [Fintype Tid]

def got (s : ChunkThreads Tid) : Nat := ∑ t, (s.pc t).got

def freeing (s : ChunkThreads Tid) : Nat := ∑ t, (s.pc t).freeing

/-- A payload chunk is only taken while more of them are free than threads have returned
one without its management block. -/
def BlockLeft (s : ChunkThreads Tid) : Tid × ChunkAct Tid → Prop
  | (_, .getChunk chunkSettings) => (s.memory.takePayload chunkSettings).isSome = true →
    s.memory.usedPayloadChunks + s.freeing < s.memory.payloadChunks
  | _ => True

instance (s : ChunkThreads Tid) (l : Tid × ChunkAct Tid) : Decidable (s.BlockLeft l) := by
  unfold BlockLeft
  split <;> infer_instance

end ChunkThreads

namespace MemoryManager

/-- The steps of a thread that nobody interrupts are `MemoryManager::getChunk`. -/
theorem getChunk_eq {mm : MemoryManager} {chunkSettings : ChunkSettings}
    {k chunk aquiredChunkSize : Nat} {pool : MemPool}
    (htake : mm.takePayload chunkSettings = some (k, chunk, aquiredChunkSize, pool)) :
    getChunk chunkSettings mm =
      match (mm.setMemPool k pool).constructChunk k chunk aquiredChunkSize chunkSettings with
      | .error e => .error e
      | .ok (m, mm) => .ok (.ok m, mm) := by
  obtain ⟨k', hk, htake⟩ := Option.bind_eq_some_iff.mp htake
  obtain ⟨p, hp, htake⟩ := Option.bind_eq_some_iff.mp htake
  obtain ⟨⟨chunk', pool'⟩, hget, htake⟩ := Option.bind_eq_some_iff.mp htake
  cases htake
  cases hc : (mm.setMemPool k pool).constructChunk k chunk p.chunkSize chunkSettings with
  | error e => simp only [getChunk, hk, hp, hget, Option.bind_some, Option.map_some, hc]
  | ok r => simp only [getChunk, hk, hp, hget, Option.bind_some, Option.map_some, hc]

theorem freeChunk_eq (m : Nat) (mm : MemoryManager) :
    SharedChunk.freeChunk m mm =
      match mm.freePayload m with
      | .error e => .error e
      | .ok mm =>
        match mm.freeManagement m with
        | .error e => .error e
        | .ok mm => .ok (⟨⟩, mm) := by
  simp only [SharedChunk.freeChunk, freePayload, freeManagement]
  cases hp : mm.memPoolVector[(mm.blocks m).mempool]? with
  | none => rfl
  | some p =>
    cases hput : p.freeChunk (mm.blocks m).chunkHeader with
    | error e => simp only [hput]
    | ok pool =>
      simp only [hput, setMemPool_chunkManagementPool]
      cases mm.chunkManagementPool.freeChunk m with
      | error e => rfl
      | ok management => rfl

structure Pooled (mm : MemoryManager) : Prop where
  pools : ∀ p ∈ mm.memPoolVector, p.Counted
  management : mm.chunkManagementPool.Counted
  capacity : mm.payloadChunks = mm.chunkManagementPool.numberOfChunks

variable {mm mm' : MemoryManager}

theorem Pooled.writeBlock (h : mm.Pooled) (m : Nat) (b : ChunkManagement) :
    (mm.writeBlock m b).Pooled :=
  ⟨h.pools, h.management, h.capacity⟩

theorem Pooled.setMemPool (h : mm.Pooled) {k : Nat} {p p' : MemPool}
    (hp : mm.memPoolVector[k]? = some p) (hkept : p.Kept p') (hcounted : p'.Counted) :
    (mm.setMemPool k p').Pooled := by
  have hsum := Lib.sum_map_set MemPool.numberOfChunks p p' mm.memPoolVector k hp
  rw [hkept.numberOfChunks] at hsum
  have hcapacity := h.capacity
  refine ⟨?_, h.management, ?_⟩
  · intro q hq
    rcases List.mem_or_eq_of_mem_set hq with hq | rfl
    · exact h.pools q hq
    · exact hcounted
  · simp only [payloadChunks, MemoryManager.setMemPool] at hcapacity ⊢
    omega

theorem Pooled.setManagementPool (h : mm.Pooled) {pool : MemPool}
    (hkept : mm.chunkManagementPool.Kept pool) (hcounted : pool.Counted) :
    (mm.setManagementPool pool).Pooled :=
  ⟨h.pools, hcounted, h.capacity.trans hkept.numberOfChunks.symm⟩

theorem usedPayloadChunks_setMemPool {k : Nat} {p : MemPool} (p' : MemPool)
    (hp : mm.memPoolVector[k]? = some p) :
    (mm.setMemPool k p').usedPayloadChunks + p.usedChunks =
      mm.usedPayloadChunks + p'.usedChunks :=
  Lib.sum_map_set MemPool.usedChunks p p' mm.memPoolVector k hp

theorem Pooled.takePayload (h : mm.Pooled) {chunkSettings : ChunkSettings}
    {k chunk aquiredChunkSize : Nat} {pool : MemPool}
    (htake : mm.takePayload chunkSettings = some (k, chunk, aquiredChunkSize, pool)) :
    (mm.setMemPool k pool).Pooled ∧
      (mm.setMemPool k pool).usedPayloadChunks = mm.usedPayloadChunks + 1 := by
  obtain ⟨k', -, htake⟩ := Option.bind_eq_some_iff.mp htake
  obtain ⟨p, hp, htake⟩ := Option.bind_eq_some_iff.mp htake
  obtain ⟨⟨chunk', pool'⟩, hget, htake⟩ := Option.bind_eq_some_iff.mp htake
  cases htake
  obtain ⟨-, -, -, hkept, hused, hcounted⟩ :=
    MemPool.getChunk_spec (h.pools p (List.mem_of_getElem? hp)) hget
  refine ⟨h.setMemPool hp hkept hcounted, ?_⟩
  have hsum := usedPayloadChunks_setMemPool pool hp
  omega

theorem Pooled.constructChunk (h : mm.Pooled) {k chunk chunkSize m : Nat}
    {chunkSettings : ChunkSettings}
    (hconstruct : mm.constructChunk k chunk chunkSize chunkSettings = .ok (m, mm')) :
    mm'.Pooled ∧ mm'.usedPayloadChunks = mm.usedPayloadChunks ∧
      mm'.chunkManagementPool.numberOfChunks = mm.chunkManagementPool.numberOfChunks ∧
      mm'.chunkManagementPool.usedChunks = mm.chunkManagementPool.usedChunks + 1 := by
  unfold MemoryManager.constructChunk at hconstruct
  split at hconstruct
  · cases hconstruct
  · next header _ =>
    split at hconstruct
    · cases hconstruct
    · next m' pool hget =>
      cases hconstruct
      obtain ⟨-, -, -, hkept, hused, hcounted⟩ := MemPool.getChunk_spec h.management hget
      have hpooled := h.setManagementPool hkept hcounted
      exact ⟨⟨hpooled.pools, hpooled.management, hpooled.capacity⟩, rfl, hkept.numberOfChunks,
        hused⟩

theorem Pooled.freePayload (h : mm.Pooled) {m : Nat} (hfree : mm.freePayload m = .ok mm') :
    mm'.Pooled ∧ mm'.chunkManagementPool = mm.chunkManagementPool ∧
      mm'.usedPayloadChunks + 1 = mm.usedPayloadChunks := by
  unfold MemoryManager.freePayload at hfree
  split at hfree
  · cases hfree
  · next p hp =>
    split at hfree
    · cases hfree
    · next pool hput =>
      cases hfree
      obtain ⟨-, -, -, -, -, hkept, hused, hcounted⟩ :=
        MemPool.freeChunk_inv (h.pools p (List.mem_of_getElem? hp)) hput
      refine ⟨h.setMemPool hp hkept hcounted, rfl, ?_⟩
      have hsum := usedPayloadChunks_setMemPool pool hp
      omega

theorem Pooled.freeManagement (h : mm.Pooled) {m : Nat} (hfree : mm.freeManagement m = .ok mm') :
    mm'.Pooled ∧ mm'.usedPayloadChunks = mm.usedPayloadChunks ∧
      mm'.chunkManagementPool.numberOfChunks = mm.chunkManagementPool.numberOfChunks ∧
      mm'.chunkManagementPool.usedChunks + 1 = mm.chunkManagementPool.usedChunks := by
  unfold MemoryManager.freeManagement at hfree
  split at hfree
  · cases hfree
  · next pool hput =>
    cases hfree
    obtain ⟨-, -, -, -, -, hkept, hused, hcounted⟩ := MemPool.freeChunk_inv h.management hput
    exact ⟨h.setManagementPool hkept hcounted, rfl, hkept.numberOfChunks, hused⟩

theorem configureMemoryManager_pooled {mePooConfig : MePooConfig} {management chunks : Nat}
    {allocators allocators' : Nat → Allocator}
    (h : configureMemoryManager mePooConfig management chunks allocators = some (mm, allocators'))
    (hsum : (mePooConfig.mempoolConfig.map MePooConfig.Entry.chunkCount).sum < 2 ^ 32 - 2) :
    mm.Pooled ∧ mm.usedPayloadChunks = 0 ∧ mm.chunkManagementPool.usedChunks = 0 := by
  obtain ⟨c, hbuilt, hpools, hfresh, -, hcount, -⟩ := configureMemoryManager_built h
  refine ⟨⟨?_, hfresh.counted, ?_⟩, ?_, hfresh.usedChunks⟩
  · intro p hp
    rw [hpools] at hp
    exact (hbuilt.fresh p hp).counted
  · rw [payloadChunks, hpools, hbuilt.counts, hcount, hbuilt.total, Nat.mod_eq_of_lt]
    simp only [uint32Range]
    omega
  · rw [usedPayloadChunks, hpools, List.sum_eq_zero_iff]
    intro n hn
    obtain ⟨p, hp, rfl⟩ := List.mem_map.mp hn
    exact (hbuilt.fresh p hp).usedChunks

end MemoryManager

namespace ChunkThreads

variable {Tid : Type} [DecidableEq Tid] [Fintype Tid] {s s' : ChunkThreads Tid}

structure Balanced (s : ChunkThreads Tid) : Prop where
  pooled : s.memory.Pooled
  balance : s.memory.chunkManagementPool.usedChunks + s.got = s.memory.usedPayloadChunks + s.freeing
  room : s.memory.usedPayloadChunks + s.freeing ≤ s.memory.chunkManagementPool.numberOfChunks

theorem sums_goto (s : ChunkThreads Tid) (mm : MemoryManager) (t : Tid) (ms : List Nat)
    (p : ChunkPc) :
    (((s.onMemory mm).give t ms).goto t p).got + (s.pc t).got = s.got + p.got ∧
      (((s.onMemory mm).give t ms).goto t p).freeing + (s.pc t).freeing = s.freeing + p.freeing :=
  ⟨Lib.sum_update ChunkPc.got s.pc t p, Lib.sum_update ChunkPc.freeing s.pc t p⟩

omit [Fintype Tid] in
theorem give_self (s : ChunkThreads Tid) (t : Tid) : s.give t (s.chunks t) = s := by
  rw [give, Function.update_eq_self]

namespace Balanced

theorem move (h : s.Balanced) {t : Tid} {p : ChunkPc} (ms : List Nat) {mm : MemoryManager}
    (hpooled : mm.Pooled)
    (hnumber : mm.chunkManagementPool.numberOfChunks =
      s.memory.chunkManagementPool.numberOfChunks)
    (hbalance : mm.chunkManagementPool.usedChunks + s.memory.usedPayloadChunks + p.got +
        (s.pc t).freeing =
      s.memory.chunkManagementPool.usedChunks + mm.usedPayloadChunks + (s.pc t).got + p.freeing)
    (hroom : mm.usedPayloadChunks + p.freeing ≤ s.memory.usedPayloadChunks + (s.pc t).freeing ∨
      mm.usedPayloadChunks + p.freeing + s.freeing ≤
        s.memory.chunkManagementPool.numberOfChunks + (s.pc t).freeing) :
    (((s.onMemory mm).give t ms).goto t p).Balanced := by
  obtain ⟨hgot, hfreeing⟩ := sums_goto s mm t ms p
  have hb := h.balance
  have hr := h.room
  refine ⟨hpooled, ?_, ?_⟩
  · change mm.chunkManagementPool.usedChunks + _ = mm.usedPayloadChunks + _
    omega
  · change mm.usedPayloadChunks + _ ≤ mm.chunkManagementPool.numberOfChunks
    rw [hnumber]
    omega

theorem advance (h : s.Balanced) {t : Tid} (hstep : s.advance t = some s') : s'.Balanced := by
  unfold ChunkThreads.advance at hstep
  split at hstep
  · cases hstep
  · next cs k chunk size hpc =>
    split at hstep
    · cases hstep
    · next m mm hconstruct =>
      cases hstep
      obtain ⟨hpooled, hpayload, hnumber, hused⟩ := h.pooled.constructChunk hconstruct
      refine h.move _ hpooled hnumber ?_ (Or.inl ?_)
      · simp only [hpc, ChunkPc.got, ChunkPc.freeing]
        omega
      · simp only [hpc, ChunkPc.freeing]
        omega
  · next m hpc =>
    split at hstep
    · cases hstep
    · next mm hfree =>
      cases hstep
      obtain ⟨hpooled, hmanagement, hused⟩ := h.pooled.freePayload hfree
      rw [← give_self (s.onMemory mm) t]
      refine h.move _ hpooled (by rw [hmanagement]) ?_ (Or.inl ?_)
      · simp only [hpc, ChunkPc.got, ChunkPc.freeing, hmanagement]
        omega
      · simp only [hpc, ChunkPc.freeing]
        omega
  · next m hpc =>
    split at hstep
    · cases hstep
    · next mm hfree =>
      cases hstep
      obtain ⟨hpooled, hpayload, hnumber, hused⟩ := h.pooled.freeManagement hfree
      rw [← give_self (s.onMemory mm) t]
      refine h.move _ hpooled hnumber ?_ (Or.inl ?_)
      · simp only [hpc, ChunkPc.got, ChunkPc.freeing]
        omega
      · simp only [hpc, ChunkPc.freeing]
        omega

theorem getChunk (h : s.Balanced) {t : Tid} {chunkSettings : ChunkSettings}
    {k chunk aquiredChunkSize : Nat} {pool : MemPool} (hpc : s.pc t = .idle)
    (htake : s.memory.takePayload chunkSettings = some (k, chunk, aquiredChunkSize, pool))
    (hleft : s.memory.usedPayloadChunks + s.freeing < s.memory.payloadChunks) :
    ((s.onMemory (s.memory.setMemPool k pool)).goto t
      (.gotPayload chunkSettings k chunk aquiredChunkSize)).Balanced := by
  obtain ⟨hpooled, hused⟩ := h.pooled.takePayload htake
  rw [h.pooled.capacity] at hleft
  rw [← give_self (s.onMemory _) t]
  refine h.move _ hpooled rfl ?_ (Or.inr ?_)
  · simp only [hpc, hused, ChunkPc.got, ChunkPc.freeing,
      MemoryManager.setMemPool_chunkManagementPool]
    omega
  · simp only [hpc, hused, ChunkPc.freeing]
    omega

theorem step (h : s.Balanced) {l : Tid × ChunkAct Tid} (hleft : s.BlockLeft l)
    (hstep : s.step l = some s') : s'.Balanced := by
  obtain ⟨t, act⟩ := l
  cases act with
  | advance => exact h.advance hstep
  | getChunk chunkSettings =>
    simp only [ChunkThreads.step, Option.ite_none_right_eq_some] at hstep
    obtain ⟨hpc, hstep⟩ := hstep
    split at hstep
    · cases hstep
      exact h
    · next k chunk size pool htake =>
      cases hstep
      exact h.getChunk hpc htake (hleft (by rw [htake]; rfl))
  | copy m =>
    simp only [ChunkThreads.step, Option.ite_none_right_eq_some, Option.some.injEq] at hstep
    obtain ⟨-, rfl⟩ := hstep
    exact ⟨h.pooled.writeBlock _ _, h.balance, h.room⟩
  | destroy m =>
    simp only [ChunkThreads.step, Option.ite_none_right_eq_some, Option.some.injEq] at hstep
    obtain ⟨⟨hpc, -⟩, rfl⟩ := hstep
    refine h.move _ (h.pooled.writeBlock _ _) rfl ?_ (Or.inl ?_)
    · rw [hpc]
      split <;> rfl
    · rw [hpc]
      split <;> exact le_rfl
  | pass t' m =>
    simp only [ChunkThreads.step, Option.ite_none_right_eq_some, Option.some.injEq] at hstep
    obtain ⟨-, rfl⟩ := hstep
    exact ⟨h.pooled, h.balance, h.room⟩

theorem run (h : s.Balanced) {ls : List (Tid × ChunkAct Tid)}
    (hrun : Lib.runSteps ChunkThreads.step s ls = some s')
    (hleft : Lib.Meets ChunkThreads.step BlockLeft s ls) : s'.Balanced :=
  Lib.runSteps_invariant (fun _ _ _ hI hl hstep => hI.step hl hstep) ls s s' h hleft hrun

omit [DecidableEq Tid] in
theorem isSome_getChunk (h : s.Balanced) {t : Tid} (hpc : (s.pc t).got = 1) :
    s.memory.chunkManagementPool.getChunk.isSome = true := by
  have hgot : (s.pc t).got ≤ s.got :=
    Finset.single_le_sum (f := fun t => (s.pc t).got) (fun _ _ => Nat.zero_le _)
      (Finset.mem_univ t)
  rw [Option.isSome_iff_ne_none, Ne, MemPool.getChunk_eq_none h.pooled.management]
  have hb := h.balance
  have hr := h.room
  omega

end Balanced

/-- The management blocks do not run out before the payload chunks, as long as no payload
chunk is taken that was only just returned. -/
theorem management_block_left {mePooConfig : MePooConfig} {management chunks : Nat}
    {allocators allocators' : Nat → Allocator} {mm : MemoryManager}
    (hmm : MemoryManager.configureMemoryManager mePooConfig management chunks allocators =
      some (mm, allocators'))
    (hsum : (mePooConfig.mempoolConfig.map MePooConfig.Entry.chunkCount).sum < 2 ^ 32 - 2)
    (ls : List (Tid × ChunkAct Tid)) (hrun : Lib.runSteps step (start mm) ls = some s)
    (hleft : Lib.Meets step BlockLeft (start mm) ls) (t : Tid) (chunkSettings : ChunkSettings)
    (k chunk aquiredChunkSize : Nat)
    (hpc : s.pc t = .gotPayload chunkSettings k chunk aquiredChunkSize) :
    s.memory.chunkManagementPool.getChunk.isSome = true := by
  obtain ⟨hpooled, hpayload, hblocks⟩ := MemoryManager.configureMemoryManager_pooled hmm hsum
  have hstart : (start mm : ChunkThreads Tid).Balanced := by
    refine ⟨hpooled, ?_, ?_⟩
    · simp [start, got, freeing, ChunkPc.got, ChunkPc.freeing, hpayload, hblocks]
    · simp [start, freeing, ChunkPc.freeing, hpayload]
  exact (hstart.run hrun hleft).isSome_getChunk (by rw [hpc]; rfl)

def twoSegments (i : Nat) : Allocator where
  startAddress := if i = 0 then 4096 else 2 ^ 40
  length := 2 ^ 32
  currentPosition := 0

def chunksOf64 (chunkCount : Nat) : MePooConfig where
  mempoolConfig := [{ size := 64, chunkCount := chunkCount }]
  bounded := by
    simp only [List.length_singleton]
    decide

def smallChunk : ChunkSettings where
  userPayloadSize := 8
  userPayloadAlignment := 8
  userHeaderSize := 0
  userHeaderAlignment := 1
  requiredChunkSize := 48

def betweenFrees (m : Nat) : List (Bool × ChunkAct Bool) :=
  [(true, .getChunk smallChunk), (true, .advance), (true, .destroy m), (true, .advance),
    (false, .getChunk smallChunk)]

def blockLeftAfter (mePooConfig : MePooConfig) (ls : List (Bool × ChunkAct Bool)) :
    Option (ChunkPc × Bool × Bool) := do
  let (mm, _) ← MemoryManager.configureMemoryManager mePooConfig 0 1 twoSegments
  let s ← Lib.runSteps step (start mm) ls
  some (s.pc false, s.memory.chunkManagementPool.getChunk.isSome,
    decide (Lib.Meets step BlockLeft (start mm) ls))

theorem blockLeftAfter_eq_some {mePooConfig : MePooConfig} {ls : List (Bool × ChunkAct Bool)}
    {pc : ChunkPc} {left met : Bool} (h : blockLeftAfter mePooConfig ls = some (pc, left, met)) :
    ∃ mm allocators s,
      MemoryManager.configureMemoryManager mePooConfig 0 1 twoSegments = some (mm, allocators) ∧
      Lib.runSteps step (start mm) ls = some s ∧ s.pc false = pc ∧
      s.memory.chunkManagementPool.getChunk.isSome = left ∧
      decide (Lib.Meets step BlockLeft (start mm) ls) = met := by
  obtain ⟨⟨mm, allocators⟩, hmm, h⟩ := Option.bind_eq_some_iff.mp h
  obtain ⟨s, hs, h⟩ := Option.bind_eq_some_iff.mp h
  cases h
  exact ⟨mm, allocators, s, hmm, hs, rfl, rfl, rfl⟩

theorem management_block_left_two_chunks :
    ∃ mm allocators s,
      MemoryManager.configureMemoryManager (chunksOf64 2) 0 1 twoSegments = some (mm, allocators) ∧
      Lib.runSteps step (start mm) (betweenFrees 4112) = some s ∧
      s.pc false = .gotPayload smallChunk 0 (2 ^ 40) 104 ∧
      s.memory.chunkManagementPool.getChunk.isSome = true := by
  have h : blockLeftAfter (chunksOf64 2) (betweenFrees 4112) =
      some (.gotPayload smallChunk 0 (2 ^ 40) 104, true, true) := by decide +kernel
  obtain ⟨mm, allocators, s, hmm, hs, hpc, -, hmet⟩ := blockLeftAfter_eq_some h
  exact ⟨mm, allocators, s, hmm, hs, hpc, management_block_left hmm (by decide) _ hs
    (of_decide_eq_true hmet) false smallChunk 0 (2 ^ 40) 104 hpc⟩

theorem no_management_block_left :
    ∃ mm allocators s,
      MemoryManager.configureMemoryManager (chunksOf64 1) 0 1 twoSegments = some (mm, allocators) ∧
      Lib.runSteps step (start mm) (betweenFrees 4104) = some s ∧
      s.pc false = .gotPayload smallChunk 0 (2 ^ 40) 104 ∧
      s.memory.chunkManagementPool.getChunk.isSome = false := by
  have h : blockLeftAfter (chunksOf64 1) (betweenFrees 4104) =
      some (.gotPayload smallChunk 0 (2 ^ 40) 104, false, false) := by decide +kernel
  obtain ⟨mm, allocators, s, hmm, hs, hpc, hleft, -⟩ := blockLeftAfter_eq_some h
  exact ⟨mm, allocators, s, hmm, hs, hpc, hleft⟩

end ChunkThreads

end Iceoryx.Mepoo
