import Iceoryx.Hoofs.Loffli
import Iceoryx.Hoofs.Memory

namespace Iceoryx.Mepoo

open Hoofs

def uint64Range : Nat := 2 ^ 64

def sizeofChunkHeader : Nat := 40
def alignofChunkHeader : Nat := 8
def sizeofUserPayloadOffset : Nat := 4
def alignofUserPayloadOffset : Nat := 4

structure ChunkSettings where
  userPayloadSize : Nat
  userPayloadAlignment : Nat
  userHeaderSize : Nat
  userHeaderAlignment : Nat
  requiredChunkSize : Nat
  deriving DecidableEq, Repr

namespace ChunkSettings

inductive Error
  | alignmentNotPowerOfTwo
  | userHeaderAlignmentExceedsChunkHeaderAlignment
  | userHeaderSizeNotMultipleOfItsAlignment
  | requiredChunkSizeExceedsMaxChunkSize
  deriving DecidableEq, Repr

def calculateRequiredChunkSize (userPayloadSize userPayloadAlignment userHeaderSize : Nat) : Nat :=
  if userHeaderSize = 0 then
    if userPayloadAlignment ≤ alignofChunkHeader then
      sizeofChunkHeader + userPayloadSize
    else
      (sizeofChunkHeader - alignofChunkHeader) + userPayloadAlignment + userPayloadSize
  else
    let headerSize := sizeofChunkHeader + userHeaderSize
    let preUserPayloadAlignmentOverhang := align headerSize alignofUserPayloadOffset
    let maxPadding := max sizeofUserPayloadOffset userPayloadAlignment
    preUserPayloadAlignmentOverhang + maxPadding + userPayloadSize

def create (userPayloadSize userPayloadAlignment userHeaderSize userHeaderAlignment : Nat) :
    Except Error ChunkSettings :=
  let adjustedUserPayloadAlignment := if userPayloadAlignment = 0 then 1 else userPayloadAlignment
  let adjustedUserHeaderAlignment := if userHeaderAlignment = 0 then 1 else userHeaderAlignment
  if ¬ isPowerOfTwo adjustedUserPayloadAlignment ∨ ¬ isPowerOfTwo adjustedUserHeaderAlignment then
    .error .alignmentNotPowerOfTwo
  else if adjustedUserHeaderAlignment > alignofChunkHeader then
    .error .userHeaderAlignmentExceedsChunkHeaderAlignment
  else if userHeaderSize % adjustedUserHeaderAlignment ≠ 0 then
    .error .userHeaderSizeNotMultipleOfItsAlignment
  else
    let requiredChunkSize :=
      calculateRequiredChunkSize userPayloadSize adjustedUserPayloadAlignment userHeaderSize
    if requiredChunkSize > uint32Range - 1 then
      .error .requiredChunkSizeExceedsMaxChunkSize
    else
      .ok
        { userPayloadSize := userPayloadSize
          userPayloadAlignment := adjustedUserPayloadAlignment
          userHeaderSize := userHeaderSize
          userHeaderAlignment := adjustedUserHeaderAlignment
          requiredChunkSize := requiredChunkSize }

/-- What every `ChunkSettings` value of the program satisfies: `create` is the
only way to obtain one. -/
structure WellFormed (c : ChunkSettings) : Prop where
  powerOfTwo : isPowerOfTwo c.userPayloadAlignment = true
  required : c.requiredChunkSize =
    calculateRequiredChunkSize c.userPayloadSize c.userPayloadAlignment c.userHeaderSize
  bounded : c.requiredChunkSize < uint32Range

theorem WellFormed.alignment_pos {c : ChunkSettings} (h : c.WellFormed) :
    0 < c.userPayloadAlignment := by
  obtain ⟨k, hk⟩ := isPowerOfTwo_iff.mp h.powerOfTwo
  rw [hk]
  exact Nat.two_pow_pos k

theorem create_wellFormed {size alignment headerSize headerAlignment : Nat} {c : ChunkSettings}
    (h : create size alignment headerSize headerAlignment = .ok c) : c.WellFormed := by
  unfold create at h
  generalize (if alignment = 0 then 1 else alignment) = adjusted at h
  generalize (if headerAlignment = 0 then 1 else headerAlignment) = adjustedHeader at h
  simp only at h
  split at h
  · cases h
  · rename_i hpow
    split at h
    · cases h
    · split at h
      · cases h
      · split at h
        · cases h
        · rename_i hmax
          cases h
          refine ⟨by simpa using (not_or.mp hpow).1, rfl, ?_⟩
          change calculateRequiredChunkSize _ _ _ < uint32Range
          unfold uint32Range at hmax ⊢
          omega

theorem create_fields {size alignment headerSize headerAlignment : Nat} {c : ChunkSettings}
    (h : create size alignment headerSize headerAlignment = .ok c) :
    c.userPayloadSize = size ∧
      c.userPayloadAlignment = (if alignment = 0 then 1 else alignment) ∧
      c.userHeaderSize = headerSize ∧
        (headerAlignment ≠ 0 → headerAlignment ∣ alignofChunkHeader) := by
  unfold create at h
  generalize (if alignment = 0 then 1 else alignment) = adjusted at h ⊢
  generalize hadjusted : (if headerAlignment = 0 then 1 else headerAlignment) = adjustedHeader at h
  dsimp only at h
  split at h
  · cases h
  · next hpow =>
    split at h
    · cases h
    · next hsmall =>
      split at h
      · cases h
      · split at h
        · cases h
        · cases h
          refine ⟨rfl, rfl, rfl, ?_⟩
          intro hne
          rw [if_neg hne] at hadjusted
          subst hadjusted
          have hpow' : isPowerOfTwo headerAlignment = true := by simpa using (not_or.mp hpow).2
          exact dvd_two_pow_of_isPowerOfTwo (k := 3) hpow' (Nat.le_of_not_lt hsmall)

end ChunkSettings

structure ChunkHeader where
  chunkSize : Nat
  chunkHeaderVersion : Nat
  userHeaderId : Nat
  originId : Nat
  sequenceNumber : Nat
  userHeaderSize : Nat
  userPayloadSize : Nat
  userPayloadAlignment : Nat
  userPayloadOffset : Nat
  deriving DecidableEq, Repr

namespace ChunkHeader

def currentVersion : Nat := 1
def noUserHeader : Nat := 0x0000
def unknownUserHeader : Nat := 0xFFFF
def invalidPortId : Nat := 0

def userPayloadOffsetAt (address : Nat) (settings : ChunkSettings) : Nat :=
  if settings.userHeaderSize = 0 then
    if settings.userPayloadAlignment ≤ alignofChunkHeader then
      sizeofChunkHeader
    else
      let headerEndAddress := address + sizeofChunkHeader
      let alignedUserPayloadAddress := align headerEndAddress settings.userPayloadAlignment
      (alignedUserPayloadAddress - address) % uint32Range
  else
    let headerEndAddress := address + sizeofChunkHeader + settings.userHeaderSize
    let anticipatedBackOffsetAddress := align headerEndAddress alignofUserPayloadOffset
    let unalignedUserPayloadAddress := anticipatedBackOffsetAddress + sizeofUserPayloadOffset
    let alignedUserPayloadAddress :=
      align unalignedUserPayloadAddress settings.userPayloadAlignment
    (alignedUserPayloadAddress - address) % uint32Range

def overflowSafeUsedSizeOfChunk (h : ChunkHeader) : Nat :=
  h.userPayloadOffset + h.userPayloadSize

/-- The constructor, placed at `address`; its `Ensures` ends the program, which
is `none` here. -/
def create (address chunkSize : Nat) (settings : ChunkSettings) : Option ChunkHeader :=
  let header : ChunkHeader :=
    { chunkSize := chunkSize
      chunkHeaderVersion := currentVersion
      userHeaderId := if settings.userHeaderSize = 0 then noUserHeader else unknownUserHeader
      originId := invalidPortId
      sequenceNumber := 0
      userHeaderSize := settings.userHeaderSize
      userPayloadSize := settings.userPayloadSize
      userPayloadAlignment := settings.userPayloadAlignment
      userPayloadOffset := userPayloadOffsetAt address settings }
  if header.overflowSafeUsedSizeOfChunk ≤ chunkSize then some header else none

variable {address : Nat} {settings : ChunkSettings}

def payloadAt (address : Nat) (settings : ChunkSettings) : Nat :=
  if settings.userHeaderSize = 0 then
    if settings.userPayloadAlignment ≤ alignofChunkHeader then address + sizeofChunkHeader
    else align (address + sizeofChunkHeader) settings.userPayloadAlignment
  else
    align (align (address + sizeofChunkHeader + settings.userHeaderSize)
      alignofUserPayloadOffset + sizeofUserPayloadOffset) settings.userPayloadAlignment

theorem userPayloadOffsetAt_eq :
    userPayloadOffsetAt address settings =
      (payloadAt address settings - address) % uint32Range := by
  unfold userPayloadOffsetAt payloadAt
  split
  · split
    · rw [Nat.add_sub_cancel_left]
      rfl
    · rfl
  · rfl

/-- The size was calculated without knowing the address. -/
theorem payloadAt_le (haddr : alignofChunkHeader ∣ address) (h : settings.WellFormed) :
    payloadAt address settings + settings.userPayloadSize ≤
      address + settings.requiredChunkSize := by
  have hpos := h.alignment_pos
  rw [h.required]
  unfold payloadAt ChunkSettings.calculateRequiredChunkSize
  by_cases hheader : settings.userHeaderSize = 0
  · by_cases hsmall : settings.userPayloadAlignment ≤ alignofChunkHeader
    · simp only [hheader, hsmall, if_true]
      omega
    · simp only [hheader, hsmall, if_true, if_false]
      -- both the end of the header and the alignment are multiples of eight
      have hpad : align (address + sizeofChunkHeader) settings.userPayloadAlignment + 8 ≤
          address + sizeofChunkHeader + settings.userPayloadAlignment := by
        apply align_le_of_dvd _ _ hpos
        · exact Nat.dvd_add haddr (by decide)
        · exact two_pow_dvd_of_isPowerOfTwo (k := 3) h.powerOfTwo (Nat.le_of_not_le hsmall)
      simp only [sizeofChunkHeader, alignofChunkHeader] at *
      omega
  · simp only [hheader, if_false]
    have haddr4 : alignofUserPayloadOffset ∣ address := Nat.dvd_trans (by decide) haddr
    rw [Nat.add_assoc address, align_add_of_dvd haddr4, Nat.add_assoc address]
    generalize hover : align (sizeofChunkHeader + settings.userHeaderSize)
      alignofUserPayloadOffset = overhang
    have hover4 : 4 ∣ overhang := hover ▸ dvd_align (by decide)
    have hstart : 4 ∣ address + (overhang + sizeofUserPayloadOffset) :=
      Nat.dvd_add haddr4 (Nat.dvd_add hover4 (by decide))
    generalize hstarts : address + (overhang + sizeofUserPayloadOffset) = start at hstart ⊢
    rcases Nat.le_total settings.userPayloadAlignment 4 with hle | hge
    · -- an alignment of at most four needs no padding here
      have hdvd : settings.userPayloadAlignment ∣ start :=
        Nat.dvd_trans (dvd_two_pow_of_isPowerOfTwo (k := 2) h.powerOfTwo hle) hstart
      rw [align_eq_self hdvd]
      simp only [sizeofUserPayloadOffset] at *
      omega
    · have hpad : align start settings.userPayloadAlignment + 4 ≤
          start + settings.userPayloadAlignment := by
        apply align_le_of_dvd hstart _ hpos
        exact two_pow_dvd_of_isPowerOfTwo (k := 2) h.powerOfTwo hge
      simp only [sizeofUserPayloadOffset] at *
      omega

theorem usedSize_le_required (haddr : alignofChunkHeader ∣ address)
    (h : settings.WellFormed) :
    userPayloadOffsetAt address settings + settings.userPayloadSize ≤
      settings.requiredChunkSize := by
  have hle := payloadAt_le haddr h
  have hmod := Nat.mod_le (payloadAt address settings - address) uint32Range
  have hsize : settings.userPayloadSize ≤ settings.requiredChunkSize := by
    rw [h.required]
    unfold ChunkSettings.calculateRequiredChunkSize
    split
    · split <;> omega
    · exact Nat.le_add_left _ _
  rw [userPayloadOffsetAt_eq]
  omega

theorem create_eq_some {chunkSize : Nat} (haddr : alignofChunkHeader ∣ address)
    (h : settings.WellFormed) (hsize : settings.requiredChunkSize ≤ chunkSize) :
    ∃ header, create address chunkSize settings = some header ∧
      header.chunkSize = chunkSize ∧ header.chunkHeaderVersion = currentVersion := by
  refine ⟨_, if_pos ?_, rfl, rfl⟩
  exact (usedSize_le_required haddr h).trans hsize

end ChunkHeader

end Iceoryx.Mepoo
