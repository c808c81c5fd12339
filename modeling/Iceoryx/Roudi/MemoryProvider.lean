import Iceoryx.Hoofs.Memory
import Iceoryx.Hoofs.PointerRepository
import Iceoryx.Lib.Words

namespace Iceoryx

namespace Hoofs

open Lib.Words

def alignWord (value alignment : Nat) : Nat :=
  let remainder := value % alignment
  toUint64 (value + if remainder = 0 then 0 else alignment - remainder)

def Allocator.allocateWord (a : Allocator) (size alignment : Nat) : Option (Nat × Allocator) :=
  if 0 < size then
    let currentAddress := toUint64 (a.startAddress + a.currentPosition)
    let alignedPosition := alignWord currentAddress alignment
    let alignedPosition := toUint64 (alignedPosition + (2 ^ 64 - a.startAddress))
    if a.length ≥ toUint64 (alignedPosition + size) then
      let address := toUint64 (a.startAddress + alignedPosition)
      some (address, { a with
        currentPosition := toUint64 (alignedPosition + size)
        blocks := (address, size) :: a.blocks })
    else none
  else none

end Hoofs

namespace Roudi

open Hoofs Lib.Words

structure MemoryBlock where
  size : Nat
  alignment : Nat
  deriving DecidableEq, Repr

inductive MemoryProviderError
  | memoryBlocksExhausted
  | noMemoryBlocksPresent
  | memoryAlreadyCreated
  | memoryCreationFailed
  | memoryAlignmentExceedsPageSize
  | memoryAllocationFailed
  | memoryMappingFailed
  | memoryNotAvailable
  | memoryDestructionFailed
  | memoryDeallocationFailed
  | memoryUnmappingFailed
  | sigactionCallFailed
  deriving DecidableEq, Repr

def maxNumberOfMemoryBlocksPerMemoryProvider : Nat := 64

/-- The blocks are pointers to objects outside of the provider; `nullptr` is `0`. -/
structure MemoryProvider where
  memory : Nat := 0
  size : Nat := 0
  segmentId : Nat := 0
  memoryAvailableAnnounced : Bool := false
  memoryBlocks : List Nat := []
  deriving DecidableEq, Repr

inductive BlockCall
  | onMemoryAvailable (block address : Nat)
  | destroy (block : Nat)
  deriving DecidableEq, Repr

/-- The provider with what it works on: `m_memory` of each block, the pointer repository and
the calls that the blocks have got. -/
structure ProviderWorld where
  provider : MemoryProvider
  blockMemory : Nat → Nat
  repository : PointerRepository
  calls : List BlockCall

namespace MemoryProvider

def isAvailable (p : MemoryProvider) : Bool := p.memory ≠ 0

def isAvailableAnnounced (p : MemoryProvider) : Bool := p.memoryAvailableAnnounced

def request (block : Nat → MemoryBlock) (acc : Nat × Nat) (b : Nat) : Nat × Nat :=
  let (totalSize, maxAlignment) := acc
  let alignment := (block b).alignment
  let maxAlignment := if alignment > maxAlignment then alignment else maxAlignment
  let size := alignWord (block b).size alignment
  (toUint64 (alignWord totalSize alignment + size), maxAlignment)

def allocateBlocks (block : Nat → MemoryBlock) :
    List Nat → Allocator → (Nat → Nat) → Option (Nat → Nat)
  | [], _, blockMemory => some blockMemory
  | b :: bs, allocator, blockMemory =>
    (allocator.allocateWord (block b).size (block b).alignment).bind fun r =>
      allocateBlocks block bs r.2 (Function.update blockMemory b r.1)

def totalSize (block : Nat → MemoryBlock) (bs : List Nat) (total : Nat) : Nat :=
  bs.foldl (fun total b => align total (block b).alignment +
    align (block b).size (block b).alignment) total

def maxAlignment (block : Nat → MemoryBlock) (bs : List Nat) (alignment : Nat) : Nat :=
  bs.foldl (fun alignment b => max alignment (block b).alignment) alignment

section Request

variable {block : Nat → MemoryBlock}

end Request

structure Placed (block : Nat → MemoryBlock) (base : Nat) (bs : List Nat) (memory : Nat → Nat)
    (n : Nat) : Prop where
  aligned : ∀ b ∈ bs, (block b).alignment ∣ memory b
  inside : ∀ b ∈ bs, base ≤ memory b ∧ memory b + (block b).size ≤ base + n
  disjoint : ∀ b ∈ bs, ∀ c ∈ bs, b ≠ c →
    memory b + (block b).size ≤ memory c ∨ memory c + (block c).size ≤ memory b

section Placed

variable {block : Nat → MemoryBlock} {base n : Nat} {bs : List Nat} {memory : Nat → Nat}

theorem Placed.mono (h : Placed block base bs memory n) {m : Nat} (hle : n ≤ m) :
    Placed block base bs memory m := by
  refine ⟨h.aligned, fun b hb => ?_, h.disjoint⟩
  obtain ⟨hlow, hhigh⟩ := h.inside b hb
  exact ⟨hlow, by omega⟩

end Placed

end MemoryProvider

namespace ProviderWorld

open MemoryProvider

def addMemoryBlock (w : ProviderWorld) (b : Nat) :
    Except MemoryProviderError Unit × ProviderWorld :=
  if w.provider.isAvailable then (.error .memoryAlreadyCreated, w)
  else if w.provider.memoryBlocks.length < maxNumberOfMemoryBlocksPerMemoryProvider then
    (.ok (), { w with
      provider := { w.provider with memoryBlocks := w.provider.memoryBlocks ++ [b] } })
  else (.error .memoryBlocksExhausted, w)

def create (block : Nat → MemoryBlock) (createMemory : Nat → Nat → Except MemoryProviderError Nat)
    (w : ProviderWorld) : Option (Except MemoryProviderError Unit × ProviderWorld) :=
  if w.provider.memoryBlocks = [] then some (.error .noMemoryBlocksPresent, w)
  else if w.provider.isAvailable then some (.error .memoryAlreadyCreated, w)
  else
    let (totalSize, maxAlignment) := w.provider.memoryBlocks.foldl (request block) (0, 1)
    match createMemory totalSize maxAlignment with
    | .error e => some (.error e, w)
    | .ok memory =>
      let (segmentId, repository) := w.repository.registerPtr memory totalSize
      let allocator : Allocator :=
        { startAddress := memory, length := totalSize, currentPosition := 0 }
      (allocateBlocks block w.provider.memoryBlocks allocator w.blockMemory).map fun blockMemory =>
        (.ok (), { w with
          provider := { w.provider with
            memory := memory
            size := totalSize
            segmentId := segmentId }
          blockMemory := blockMemory
          repository := repository })

def destroy (destroyMemory : Except MemoryProviderError Unit) (w : ProviderWorld) :
    Except MemoryProviderError Unit × ProviderWorld :=
  if !w.provider.isAvailable then (.error .memoryNotAvailable, w)
  else
    let calls := w.calls ++ w.provider.memoryBlocks.map .destroy
    match destroyMemory with
    | .error e => (.error e, { w with calls := calls })
    | .ok () =>
      (.ok (), { w with
        provider := { w.provider with memory := 0, size := 0 }
        repository := (w.repository.unregisterPtr w.provider.segmentId).2
        calls := calls })

/-- `announceMemoryAvailable`; the argument of `onMemoryAvailable` is a `not_null`, whose
`Expects` ends the program. -/
def announceMemoryAvailable (w : ProviderWorld) : Option ProviderWorld :=
  if w.provider.memoryAvailableAnnounced then some w
  else if ∃ b ∈ w.provider.memoryBlocks, w.blockMemory b = 0 then none
  else
    some { w with
      provider := { w.provider with memoryAvailableAnnounced := true }
      calls := w.calls ++
        w.provider.memoryBlocks.map fun b => .onMemoryAvailable b (w.blockMemory b) }

section Layout

variable {block : Nat → MemoryBlock} {createMemory : Nat → Nat → Except MemoryProviderError Nat}
  {w : ProviderWorld}

end Layout

end ProviderWorld

end Roudi

end Iceoryx
