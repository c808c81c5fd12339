import Iceoryx.Lib.Hoare
import Iceoryx.Mepoo.MemPool

/-! `mepoo::MemoryManager`: the payload pools, the pool of management blocks, and
the memory behind both.  Pointers are addresses; a `MemPool*` is the position of
the pool in `m_memPoolVector`, and `m_chunkManagementPool` of a block is always
the one management pool. -/

namespace Iceoryx.Mepoo

open Hoofs

structure MePooConfig.Entry where
  size : Nat
  chunkCount : Nat
  deriving DecidableEq, Repr

def maxNumberOfMempools : Nat := 32

structure MePooConfig where
  mempoolConfig : List MePooConfig.Entry
  bounded : mempoolConfig.length ≤ maxNumberOfMempools

structure ChunkManagement where
  chunkHeader : Nat
  referenceCounter : Nat
  mempool : Nat
  deriving DecidableEq, Repr

def sizeofChunkManagement : Nat := 56

structure MemoryManager where
  memPoolVector : List MemPool
  chunkManagementPool : MemPool
  blocks : Nat → ChunkManagement
  headers : Nat → ChunkHeader

namespace MemoryManager

inductive Error
  | noMempoolsAvailable
  | noMempoolForRequestedChunkSize
  | mempoolOutOfChunks
  deriving DecidableEq, Repr

structure Pools where
  memPoolVector : List MemPool
  totalNumberOfChunks : Nat
  allocators : Nat → Allocator

def sizeWithChunkHeaderStruct (size : Nat) : Nat := size + sizeofChunkHeader

/-- `none` where the source ends the program: a parameter out of its range, or
`MEPOO__MEMPOOL_CONFIG_MUST_BE_ORDERED_BY_INCREASING_SIZE`.  The other fatal
error, a pool added after the management pool was generated, cannot occur in
`configureMemoryManager`. -/
def addMemPool (managementAllocator chunkMemoryAllocator : Nat) (c : Pools)
    (entry : MePooConfig.Entry) : Option Pools :=
  if MemPool.chunkMemoryAlignment ≤ entry.size ∧ 1 ≤ entry.chunkCount ∧
      entry.size ≤ uint32Range - 1 - sizeofChunkHeader ∧
      ∀ last ∈ c.memPoolVector.getLast?, last.chunkSize < sizeWithChunkHeaderStruct entry.size then do
    let (pool, allocators) ← MemPool.create (sizeWithChunkHeaderStruct entry.size) entry.chunkCount
      managementAllocator chunkMemoryAllocator c.allocators
    some
      { memPoolVector := c.memPoolVector ++ [pool]
        totalNumberOfChunks := (c.totalNumberOfChunks + entry.chunkCount) % uint32Range
        allocators := allocators }
  else none

def generateChunkManagementPool (managementAllocator : Nat) (c : Pools) :
    Option (MemoryManager × (Nat → Allocator)) := do
  let (pool, allocators) ← MemPool.create sizeofChunkManagement c.totalNumberOfChunks
    managementAllocator managementAllocator c.allocators
  let mm : MemoryManager :=
    { memPoolVector := c.memPoolVector
      chunkManagementPool := pool
      blocks := fun _ => { chunkHeader := 0, referenceCounter := 0, mempool := 0 }
      headers := fun _ =>
        { chunkSize := 0
          chunkHeaderVersion := 0
          userHeaderId := 0
          originId := 0
          sequenceNumber := 0
          userHeaderSize := 0
          userPayloadSize := 0
          userPayloadAlignment := 0
          userPayloadOffset := 0 } }
  some (mm, allocators)

def configureMemoryManager (mePooConfig : MePooConfig)
    (managementAllocator chunkMemoryAllocator : Nat) (allocators : Nat → Allocator) :
    Option (MemoryManager × (Nat → Allocator)) := do
  let pools ← mePooConfig.mempoolConfig.foldlM
    (addMemPool managementAllocator chunkMemoryAllocator)
    { memPoolVector := [], totalNumberOfChunks := 0, allocators := allocators }
  generateChunkManagementPool managementAllocator pools

def writeBlock (mm : MemoryManager) (m : Nat) (b : ChunkManagement) : MemoryManager :=
  { mm with blocks := Function.update mm.blocks m b }

def writeHeader (mm : MemoryManager) (address : Nat) (h : ChunkHeader) : MemoryManager :=
  { mm with headers := Function.update mm.headers address h }

def setMemPool (mm : MemoryManager) (k : Nat) (p : MemPool) : MemoryManager :=
  { mm with memPoolVector := mm.memPoolVector.set k p }

def setManagementPool (mm : MemoryManager) (p : MemPool) : MemoryManager :=
  { mm with chunkManagementPool := p }

def constructChunk (mm : MemoryManager) (k chunk chunkSize : Nat) (chunkSettings : ChunkSettings) :
    Except Halt (Nat × MemoryManager) :=
  match ChunkHeader.create chunk chunkSize chunkSettings with
  | none => .error .contract
  | some header =>
    match mm.chunkManagementPool.getChunk with
    | none => .error .nullptr
    | some (m, pool) =>
      .ok (m, ((mm.writeHeader chunk header).setManagementPool pool).writeBlock m
        { chunkHeader := chunk, referenceCounter := 1, mempool := k })

def getChunk (chunkSettings : ChunkSettings) :
    Lib.Prog Halt MemoryManager (Except Error Nat) := fun mm =>
  match mm.memPoolVector.findIdx? fun p => p.chunkSize ≥ chunkSettings.requiredChunkSize with
  | none =>
    if mm.memPoolVector.length = 0 then .ok (.error .noMempoolsAvailable, mm)
    else .ok (.error .noMempoolForRequestedChunkSize, mm)
  | some k =>
    match mm.memPoolVector[k]?.bind fun p => p.getChunk.map fun r => (p.chunkSize, r) with
    | none => .ok (.error .mempoolOutOfChunks, mm)
    | some (aquiredChunkSize, chunk, pool) =>
      match (mm.setMemPool k pool).constructChunk k chunk aquiredChunkSize chunkSettings with
      | .error e => .error e
      | .ok (m, mm) => .ok (.ok m, mm)

end MemoryManager

end Iceoryx.Mepoo
