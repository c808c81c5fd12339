import Iceoryx.Popo.ChunkDistributor

namespace Iceoryx.Popo

open Mepoo Lib Exec

variable {S R : Type} [DecidableEq S] [LinearOrder R]

inductive AllocationError
  | noMempoolsAvailable
  | runningOutOfChunks
  | tooManyChunksAllocatedInParallel
  | invalidParameterForUserPayloadOrUserHeader
  deriving DecidableEq, Repr

def AllocationError.ofMemoryManagerError : MemoryManager.Error → AllocationError
  | .noMempoolsAvailable => .noMempoolsAvailable
  | .noMempoolForRequestedChunkSize => .noMempoolsAvailable
  | .mempoolOutOfChunks => .runningOutOfChunks

inductive ChunkReceiveResult
  | tooManyChunksHeldInParallel
  | noChunkAvailable
  deriving DecidableEq, Repr

def isNotLogicalNullptrAndHasNoOtherOwners (mm : MemoryManager) : Option Nat → Bool
  | none => false
  | some m => (mm.blocks m).referenceCounter = 1

def Exec.modifyHeader (m : Nat) (f : ChunkHeader → ChunkHeader) : Exec S R PUnit := fun w =>
  let address := (w.memory.blocks m).chunkHeader
  .ok (⟨⟩, { w with memory := w.memory.writeHeader address (f (w.memory.headers address)) })

namespace ChunkSender

def insertChunk (s : S) (chunk : Nat) : Exec S R Bool := do
  let d ← sender s
  let (inserted, l) ← onMemory (d.chunksInUse.insert chunk)
  setSender s { d with chunksInUse := l }
  pure inserted

def removeChunk (s : S) (chunkHeader : Nat) : Exec S R (Option Nat) := do
  let d ← sender s
  let (chunk, l) ← onMemory (d.chunksInUse.remove chunkHeader)
  setSender s { d with chunksInUse := l }
  pure chunk

def lastChunkToReuse (w : World S R) (s : S) (requiredChunkSize : Nat) : Option Nat :=
  let lastChunkUnmanaged := (w.senders s).lastChunkUnmanaged
  if isNotLogicalNullptrAndHasNoOtherOwners w.memory lastChunkUnmanaged then
    lastChunkUnmanaged.filter fun m =>
      (w.memory.headers (w.memory.blocks m).chunkHeader).chunkSize ≥ requiredChunkSize
  else none

/-- The first branch of `tryAllocate`.  The size in the header, which nothing
changes in between, is read only once here. -/
def reuseLastChunk (s : S) (m lastChunkChunkHeader chunkSize : Nat)
    (chunkSettings : ChunkSettings) : Exec S R (Except AllocationError Nat) := do
  -- `cloneToSharedChunk`, then the parameter of `insert`
  copy m
  copy m
  let inserted ← insertChunk s m
  if inserted then do
    match ChunkHeader.create lastChunkChunkHeader chunkSize chunkSettings with
    | none => throw .contract
    | some header => do
      onMemory (modify fun mm => mm.writeHeader lastChunkChunkHeader header)
      destroy m
      pure (.ok lastChunkChunkHeader)
  else do
    destroy m
    pure (.error .tooManyChunksAllocatedInParallel)

def allocateNewChunk (s : S) (originId : Nat) (chunkSettings : ChunkSettings) :
    Exec S R (Except AllocationError Nat) := do
  let getChunkResult ← onMemory (MemoryManager.getChunk chunkSettings)
  match getChunkResult with
  | .error e => pure (.error (AllocationError.ofMemoryManagerError e))
  | .ok m => do
    copy m
    let inserted ← insertChunk s m
    if inserted then do
      modifyHeader m fun h => { h with originId := originId }
      let w ← get
      destroy m
      pure (.ok (w.memory.blocks m).chunkHeader)
    else do
      destroy m
      pure (.error .tooManyChunksAllocatedInParallel)

def tryAllocate (s : S) (originId userPayloadSize userPayloadAlignment userHeaderSize
    userHeaderAlignment : Nat) : Exec S R (Except AllocationError Nat) :=
  match ChunkSettings.create userPayloadSize userPayloadAlignment userHeaderSize
      userHeaderAlignment with
  | .error _ => pure (.error .invalidParameterForUserPayloadOrUserHeader)
  | .ok chunkSettings => do
    let w ← get
    match lastChunkToReuse w s chunkSettings.requiredChunkSize with
    | some m => do
      let lastChunkChunkHeader := (w.memory.blocks m).chunkHeader
      reuseLastChunk s m lastChunkChunkHeader (w.memory.headers lastChunkChunkHeader).chunkSize
        chunkSettings
    | none => allocateNewChunk s originId chunkSettings

def release (s : S) (chunkHeader : Nat) : Exec S R PUnit := do
  let chunk ← removeChunk s chunkHeader
  destroy? chunk

def getChunkReadyForSend (s : S) (chunkHeader : Nat) : Exec S R (Option Nat) := do
  let chunk ← removeChunk s chunkHeader
  match chunk with
  | none => pure none
  | some m => do
    let d ← sender s
    modifyHeader m fun h => { h with sequenceNumber := d.sequenceNumber }
    setSender s { d with sequenceNumber := d.sequenceNumber + 1 }
    pure (some m)

def releaseLastChunk (s : S) : Exec S R PUnit := do
  let d ← sender s
  setSender s { d with lastChunkUnmanaged := none }
  destroy? d.lastChunkUnmanaged

def storeLastChunk (s : S) (chunk : Nat) : Exec S R Unit := do
  releaseLastChunk s
  copy chunk
  let d ← sender s
  setSender s { d with lastChunkUnmanaged := some chunk }

def send (s : S) (chunkHeader patience : Nat) : Exec S R Nat := do
  let chunk ← getChunkReadyForSend s chunkHeader
  match chunk with
  | none => pure 0
  | some m => do
    copy m
    let n ← ChunkDistributor.deliverToAllStoredQueues s m patience
    storeLastChunk s m
    destroy m
    pure n

def sendToQueue (s : S) (chunkHeader uniqueQueueId lastKnownQueueIndex patience : Nat) :
    Exec S R Bool := do
  let chunk ← getChunkReadyForSend s chunkHeader
  match chunk with
  | none => pure false
  | some m => do
    copy m
    let deliveryResult ←
      ChunkDistributor.deliverToQueue s uniqueQueueId lastKnownQueueIndex m patience
    storeLastChunk s m
    destroy m
    pure deliveryResult.isOk

def pushToHistory (s : S) (chunkHeader : Nat) : Exec S R PUnit := do
  let chunk ← getChunkReadyForSend s chunkHeader
  match chunk with
  | none => pure ⟨⟩
  | some m => do
    copy m
    ChunkDistributor.addToHistoryWithoutDelivery s m
    storeLastChunk s m
    destroy m

def cleanupChunksInUse (s : S) : Exec S R Unit := do
  let d ← sender s
  let l ← onMemory d.chunksInUse.cleanup
  setSender s { d with chunksInUse := l }

def releaseAll (s : S) : Exec S R PUnit := do
  cleanupChunksInUse s
  ChunkDistributor.cleanup s
  releaseLastChunk s

end ChunkSender

namespace ChunkReceiver

def tryPop (r : R) : Exec S R (Option Nat) := do
  let d ← receiver r
  match d.queue.pop with
  | none => pure none
  | some (m, queue) => do
    setReceiver r { d with queue := queue }
    let w ← get
    let receivedChunkHeaderVersion :=
      (w.memory.headers (w.memory.blocks m).chunkHeader).chunkHeaderVersion
    if receivedChunkHeaderVersion ≠ ChunkHeader.currentVersion then do
      destroy m
      pure none
    else do
      -- the returned optional holds a copy of the local chunk
      copy m
      destroy m
      pure (some m)

def insertChunk (r : R) (chunk : Nat) : Exec S R Bool := do
  let d ← receiver r
  let (inserted, l) ← onMemory (d.chunksInUse.insert chunk)
  setReceiver r { d with chunksInUse := l }
  pure inserted

def tryGet (r : R) : Exec S R (Except ChunkReceiveResult Nat) := do
  let popRet ← tryPop r
  match popRet with
  | none => pure (.error .noChunkAvailable)
  | some m => do
    -- `auto sharedChunk = *popRet`, then the parameter of `insert`
    copy m
    copy m
    let inserted ← insertChunk r m
    let w ← get
    destroy m
    destroy m
    if inserted then pure (.ok (w.memory.blocks m).chunkHeader)
    else pure (.error .tooManyChunksHeldInParallel)

def release (r : R) (chunkHeader : Nat) : Exec S R PUnit := do
  let d ← receiver r
  let (chunk, l) ← onMemory (d.chunksInUse.remove chunkHeader)
  setReceiver r { d with chunksInUse := l }
  destroy? chunk

def clear (r : R) : Exec S R PUnit := do
  let d ← receiver r
  setReceiver r { d with queue := { d.queue with elements := [] } }
  d.queue.elements.forM destroy

def cleanupChunksInUse (r : R) : Exec S R Unit := do
  let d ← receiver r
  let l ← onMemory d.chunksInUse.cleanup
  setReceiver r { d with chunksInUse := l }

def releaseAll (r : R) : Exec S R PUnit := do
  cleanupChunksInUse r
  clear r

end ChunkReceiver

end Iceoryx.Popo
