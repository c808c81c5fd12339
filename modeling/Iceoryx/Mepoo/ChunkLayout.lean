import Iceoryx.Lib.Bytes
import Iceoryx.Mepoo.ChunkHeader

namespace Iceoryx.Mepoo

open Hoofs Lib

namespace ChunkLayout

def alignAddress (value alignment : Nat) : Nat :=
  let remainder := value % alignment
  (value + if remainder = 0 then 0 else alignment - remainder) % uint64Range

structure Member where
  offset : Nat
  size : Nat

def chunkSize : Member := ⟨0, 4⟩
def chunkHeaderVersion : Member := ⟨4, 1⟩
def reserved : Member := ⟨5, 1⟩
def userHeaderId : Member := ⟨6, 2⟩
def originId : Member := ⟨8, 8⟩
def sequenceNumber : Member := ⟨16, 8⟩
def userHeaderSize : Member := ⟨24, 4⟩
def userPayloadSize : Member := ⟨28, 4⟩
def userPayloadAlignment : Member := ⟨32, 4⟩
def userPayloadOffset : Member := ⟨36, 4⟩

def set (mem : Memory) (address : Nat) (m : Member) (value : Nat) : Memory :=
  mem.store (address + m.offset) m.size value

def get (mem : Memory) (address : Nat) (m : Member) : Nat := mem.load (address + m.offset) m.size

def initMembers (mem : Memory) (address size : Nat) (settings : ChunkSettings) : Memory :=
  let mem := set mem address chunkSize size
  let mem := set mem address chunkHeaderVersion ChunkHeader.currentVersion
  let mem := set mem address reserved 0
  let mem := set mem address userHeaderId ChunkHeader.noUserHeader
  let mem := set mem address originId ChunkHeader.invalidPortId
  let mem := set mem address sequenceNumber 0
  let mem := set mem address userHeaderSize settings.userHeaderSize
  let mem := set mem address userPayloadSize settings.userPayloadSize
  let mem := set mem address userPayloadAlignment settings.userPayloadAlignment
  set mem address userPayloadOffset sizeofChunkHeader

/-- The offset to the user-payload is written twice, the second time right in front of the
user-payload. -/
def placeUserPayload (mem : Memory) (address alignedUserPayloadAddress : Nat) : Memory :=
  let offsetToUserPayload :=
    (alignedUserPayloadAddress + uint64Range - address) % uint64Range % uint32Range
  let mem := set mem address userPayloadOffset offsetToUserPayload
  let addressOfBackOffset :=
    (alignedUserPayloadAddress + uint64Range - sizeofUserPayloadOffset) % uint64Range
  mem.store addressOfBackOffset sizeofUserPayloadOffset offsetToUserPayload

def overflowSafeUsedSizeOfChunk (mem : Memory) (address : Nat) : Nat :=
  get mem address userPayloadOffset + get mem address userPayloadSize

def construct (mem : Memory) (address size : Nat) (settings : ChunkSettings) : Option Memory :=
  let mem := initMembers mem address size settings
  let mem :=
    if settings.userHeaderSize = 0 then
      if settings.userPayloadAlignment ≤ alignofChunkHeader then
        set mem address userPayloadOffset sizeofChunkHeader
      else
        let headerEndAddress := (address + sizeofChunkHeader) % uint64Range
        placeUserPayload mem address (alignAddress headerEndAddress settings.userPayloadAlignment)
    else
      let mem := set mem address userHeaderId ChunkHeader.unknownUserHeader
      let headerEndAddress :=
        (address + sizeofChunkHeader + settings.userHeaderSize) % uint64Range
      let anticipatedBackOffsetAddress := alignAddress headerEndAddress alignofUserPayloadOffset
      let unalignedUserPayloadAddress :=
        (anticipatedBackOffsetAddress + sizeofUserPayloadOffset) % uint64Range
      placeUserPayload mem address
        (alignAddress unalignedUserPayloadAddress settings.userPayloadAlignment)
  if overflowSafeUsedSizeOfChunk mem address ≤ size then some mem else none

def userHeader (mem : Memory) (address : Nat) : Option Nat :=
  if get mem address userHeaderId = ChunkHeader.noUserHeader then none
  else some ((address + sizeofChunkHeader) % uint64Range)

def userPayload (mem : Memory) (address : Nat) : Nat :=
  (address + get mem address userPayloadOffset) % uint64Range

def fromUserPayload (mem : Memory) (userPayload : Nat) : Nat :=
  if userPayload = 0 then 0
  else
    let backOffset := mem.load ((userPayload + uint64Range - sizeofUserPayloadOffset) % uint64Range)
      sizeofUserPayloadOffset
    (userPayload + uint64Range - backOffset) % uint64Range

def fromUserHeader (userHeader : Nat) : Nat :=
  if userHeader = 0 then 0 else (userHeader + uint64Range - sizeofChunkHeader) % uint64Range

theorem alignAddress_eq {value alignment : Nat} (h : align value alignment < uint64Range) :
    alignAddress value alignment = align value alignment := by
  rw [alignAddress]
  exact Nat.mod_eq_of_lt h

section Addresses

variable {address : Nat} {settings : ChunkSettings}

theorem payloadAt_cases (haddr : alignofChunkHeader ∣ address) (h : settings.WellFormed) :
    address + sizeofChunkHeader + settings.userHeaderSize + sizeofUserPayloadOffset ≤
        ChunkHeader.payloadAt address settings ∨
      settings.userHeaderSize = 0 ∧
        ChunkHeader.payloadAt address settings = address + sizeofChunkHeader := by
  unfold ChunkHeader.payloadAt
  by_cases hheader : settings.userHeaderSize = 0
  · by_cases hsmall : settings.userPayloadAlignment ≤ alignofChunkHeader
    · exact Or.inr ⟨hheader, by rw [if_pos hheader, if_pos hsmall]⟩
    · rw [if_pos hheader, if_neg hsmall, hheader]
      have hle := le_align (address + sizeofChunkHeader) settings.userPayloadAlignment
      have hend : alignofChunkHeader ∣ address + sizeofChunkHeader :=
        Nat.dvd_add haddr (by decide)
      have hdvd : alignofChunkHeader ∣
          align (address + sizeofChunkHeader) settings.userPayloadAlignment :=
        (two_pow_dvd_of_isPowerOfTwo (k := 3) h.powerOfTwo (Nat.le_of_not_le hsmall)).trans
          (dvd_align h.alignment_pos)
      -- two multiples of eight
      obtain ⟨e, he⟩ := hend
      obtain ⟨p, hp⟩ := hdvd
      rw [hp] at hle ⊢
      unfold alignofChunkHeader sizeofChunkHeader sizeofUserPayloadOffset at *
      omega
  · left
    rw [if_neg hheader]
    have hover := le_align (address + sizeofChunkHeader + settings.userHeaderSize)
      alignofUserPayloadOffset
    have hpad := le_align (align (address + sizeofChunkHeader + settings.userHeaderSize)
      alignofUserPayloadOffset + sizeofUserPayloadOffset) settings.userPayloadAlignment
    omega

theorem le_payloadAt (haddr : alignofChunkHeader ∣ address) (h : settings.WellFormed) :
    address + sizeofChunkHeader + settings.userHeaderSize ≤
      ChunkHeader.payloadAt address settings := by
  rcases payloadAt_cases haddr h with hle | ⟨hnone, hat⟩
  · omega
  · omega

theorem alignment_dvd_payloadAt (haddr : alignofChunkHeader ∣ address) (h : settings.WellFormed) :
    settings.userPayloadAlignment ∣ ChunkHeader.payloadAt address settings := by
  unfold ChunkHeader.payloadAt
  split
  · split
    · next hsmall =>
      have hdvd : settings.userPayloadAlignment ∣ alignofChunkHeader :=
        dvd_two_pow_of_isPowerOfTwo (k := 3) h.powerOfTwo hsmall
      exact hdvd.trans (Nat.dvd_add haddr (by decide))
    · exact dvd_align h.alignment_pos
  · exact dvd_align h.alignment_pos

end Addresses

def Member.Apart (m m' : Member) : Prop :=
  m.offset + m.size ≤ m'.offset ∨ m'.offset + m'.size ≤ m.offset

instance (m m' : Member) : Decidable (m.Apart m') :=
  inferInstanceAs (Decidable (_ ∨ _))

section Members

variable {mem : Memory} {address value : Nat} {m m' : Member}

theorem get_set (h : value < 256 ^ m.size) : get (set mem address m value) address m = value :=
  Memory.load_store h

theorem get_set_of_apart (h : m.Apart m') :
    get (set mem address m value) address m' = get mem address m' := by
  apply Memory.load_store_of_apart
  unfold Member.Apart at h
  omega

structure Holds (mem : Memory) (address : Nat) (h : ChunkHeader) : Prop where
  chunkSize : get mem address chunkSize = h.chunkSize
  chunkHeaderVersion : get mem address chunkHeaderVersion = h.chunkHeaderVersion
  userHeaderId : get mem address userHeaderId = h.userHeaderId
  originId : get mem address originId = h.originId
  sequenceNumber : get mem address sequenceNumber = h.sequenceNumber
  userHeaderSize : get mem address userHeaderSize = h.userHeaderSize
  userPayloadSize : get mem address userPayloadSize = h.userPayloadSize
  userPayloadAlignment : get mem address userPayloadAlignment = h.userPayloadAlignment
  userPayloadOffset : get mem address userPayloadOffset = h.userPayloadOffset

def initializedMembers : List Member :=
  [chunkSize, chunkHeaderVersion, originId, sequenceNumber, userHeaderSize, userPayloadSize,
    userPayloadAlignment]

theorem holds_update {mem' : Memory} {header : ChunkHeader} (h : Holds mem address header)
    {id offset : Nat} (hkept : ∀ m ∈ initializedMembers, get mem' address m = get mem address m)
    (hid : get mem' address userHeaderId = id)
    (hoffset : get mem' address userPayloadOffset = offset) :
    Holds mem' address { header with userHeaderId := id, userPayloadOffset := offset } where
  chunkSize := (hkept _ (by simp [initializedMembers])).trans h.chunkSize
  chunkHeaderVersion := (hkept _ (by simp [initializedMembers])).trans h.chunkHeaderVersion
  userHeaderId := hid
  originId := (hkept _ (by simp [initializedMembers])).trans h.originId
  sequenceNumber := (hkept _ (by simp [initializedMembers])).trans h.sequenceNumber
  userHeaderSize := (hkept _ (by simp [initializedMembers])).trans h.userHeaderSize
  userPayloadSize := (hkept _ (by simp [initializedMembers])).trans h.userPayloadSize
  userPayloadAlignment := (hkept _ (by simp [initializedMembers])).trans h.userPayloadAlignment
  userPayloadOffset := hoffset

end Members

section Constructor

variable {mem : Memory} {address size p : Nat} {settings : ChunkSettings}

theorem fields_lt (h : settings.WellFormed) :
    settings.userHeaderSize < uint32Range ∧ settings.userPayloadSize < uint32Range ∧
      settings.userPayloadAlignment < uint32Range := by
  have hbounded := h.bounded
  rw [h.required] at hbounded
  unfold ChunkSettings.calculateRequiredChunkSize at hbounded
  split at hbounded
  · next hheader =>
    rw [hheader]
    split at hbounded
    · unfold alignofChunkHeader sizeofChunkHeader uint32Range at *
      omega
    · unfold alignofChunkHeader sizeofChunkHeader uint32Range at *
      omega
  · have hover := le_align (sizeofChunkHeader + settings.userHeaderSize) alignofUserPayloadOffset
    have hmax := Nat.le_max_right sizeofUserPayloadOffset settings.userPayloadAlignment
    dsimp only at hbounded
    omega

theorem initMembers_holds (hsize : size < uint32Range) (h : settings.WellFormed) :
    Holds (initMembers mem address size settings) address
      { chunkSize := size
        chunkHeaderVersion := ChunkHeader.currentVersion
        userHeaderId := ChunkHeader.noUserHeader
        originId := ChunkHeader.invalidPortId
        sequenceNumber := 0
        userHeaderSize := settings.userHeaderSize
        userPayloadSize := settings.userPayloadSize
        userPayloadAlignment := settings.userPayloadAlignment
        userPayloadOffset := sizeofChunkHeader } := by
  obtain ⟨hheader, hpayload, halignment⟩ := fields_lt h
  have hsize' : size < 256 ^ chunkSize.size := hsize
  have hheader' : settings.userHeaderSize < 256 ^ userHeaderSize.size := hheader
  have hpayload' : settings.userPayloadSize < 256 ^ userPayloadSize.size := hpayload
  have halignment' : settings.userPayloadAlignment < 256 ^ userPayloadAlignment.size := halignment
  constructor <;>
    simp (disch := first | assumption | decide) only [initMembers, get_set_of_apart, get_set]

theorem placeUserPayload_spec
    (hp : address + sizeofChunkHeader + sizeofUserPayloadOffset ≤ p ∨
      p = address + sizeofChunkHeader)
    (hspace : p < uint64Range) (hoffset : p - address < uint32Range) :
    get (placeUserPayload mem address p) address userPayloadOffset = p - address ∧
      (placeUserPayload mem address p).load (p - sizeofUserPayloadOffset)
        sizeofUserPayloadOffset = p - address ∧
      ∀ m : Member, m.offset + m.size ≤ userPayloadOffset.offset →
        get (placeUserPayload mem address p) address m = get mem address m := by
  have hle : address + sizeofChunkHeader ≤ p := by omega
  have hwrap : (p + uint64Range - address) % uint64Range % uint32Range = p - address := by
    rw [show p + uint64Range - address = p - address + uint64Range by
      unfold sizeofChunkHeader at hle; omega, Nat.add_mod_right,
      Nat.mod_eq_of_lt (lt_of_le_of_lt (Nat.sub_le p address) hspace), Nat.mod_eq_of_lt hoffset]
  have hback : (p + uint64Range - sizeofUserPayloadOffset) % uint64Range =
      p - sizeofUserPayloadOffset := by
    rw [show p + uint64Range - sizeofUserPayloadOffset =
      p - sizeofUserPayloadOffset + uint64Range by
      unfold sizeofChunkHeader sizeofUserPayloadOffset at *; omega, Nat.add_mod_right,
      Nat.mod_eq_of_lt (lt_of_le_of_lt (Nat.sub_le _ _) hspace)]
  have hfits : p - address < 256 ^ sizeofUserPayloadOffset := hoffset
  rw [placeUserPayload]
  simp only [hwrap, hback]
  refine ⟨?_, Memory.load_store hfits, ?_⟩
  · rcases hp with hfar | rfl
    · have hapart : p - sizeofUserPayloadOffset + sizeofUserPayloadOffset ≤
            address + userPayloadOffset.offset ∨
          address + userPayloadOffset.offset + userPayloadOffset.size ≤
            p - sizeofUserPayloadOffset := by
        simp only [sizeofChunkHeader, sizeofUserPayloadOffset, userPayloadOffset] at *
        omega
      rw [get, Memory.load_store_of_apart hapart]
      exact get_set hoffset
    · exact Memory.load_store hfits
  · intro m hm
    have hbefore : address + m.offset + m.size ≤ p - sizeofUserPayloadOffset := by
      simp only [sizeofChunkHeader, sizeofUserPayloadOffset, userPayloadOffset] at *
      omega
    rw [get, Memory.load_store_of_apart (Or.inr hbefore)]
    exact get_set_of_apart (Or.inr hm)

theorem holds_placeUserPayload {header : ChunkHeader} (h : Holds mem address header)
    (hp : address + sizeofChunkHeader + sizeofUserPayloadOffset ≤ p ∨
      p = address + sizeofChunkHeader)
    (hspace : p < uint64Range) (hoffset : p - address < uint32Range) :
    Holds (placeUserPayload mem address p) address
      { header with userPayloadOffset := p - address } := by
  obtain ⟨hwritten, -, hkept⟩ := @placeUserPayload_spec mem _ _ hp hspace hoffset
  have hbefore : ∀ m ∈ initializedMembers, m.offset + m.size ≤ userPayloadOffset.offset := by decide
  exact holds_update h (fun m hm => hkept m (hbefore m hm))
    ((hkept _ (by decide)).trans h.userHeaderId) hwritten

theorem holds_setUserHeaderId {header : ChunkHeader} (h : Holds mem address header) {id : Nat}
    (hid : id < 256 ^ userHeaderId.size) :
    Holds (set mem address userHeaderId id) address { header with userHeaderId := id } := by
  have hapart : ∀ m ∈ initializedMembers, userHeaderId.Apart m := by decide
  exact holds_update h (fun m hm => get_set_of_apart (hapart m hm)) (get_set hid)
    ((get_set_of_apart (by decide)).trans h.userPayloadOffset)

theorem holds_setUserPayloadOffset {header : ChunkHeader} (h : Holds mem address header)
    {offset : Nat} (hoffset : offset < 256 ^ userPayloadOffset.size) :
    Holds (set mem address userPayloadOffset offset) address
      { header with userPayloadOffset := offset } := by
  have hapart : ∀ m ∈ initializedMembers, userPayloadOffset.Apart m := by decide
  exact holds_update h (fun m hm => get_set_of_apart (hapart m hm))
    ((get_set_of_apart (by decide)).trans h.userHeaderId) (get_set hoffset)

structure Built (mem : Memory) (address size : Nat) (settings : ChunkSettings) : Prop where
  header : Holds mem address
    { chunkSize := size
      chunkHeaderVersion := ChunkHeader.currentVersion
      userHeaderId := if settings.userHeaderSize = 0 then ChunkHeader.noUserHeader
        else ChunkHeader.unknownUserHeader
      originId := ChunkHeader.invalidPortId
      sequenceNumber := 0
      userHeaderSize := settings.userHeaderSize
      userPayloadSize := settings.userPayloadSize
      userPayloadAlignment := settings.userPayloadAlignment
      userPayloadOffset := ChunkHeader.payloadAt address settings - address }
  backOffset : mem.load (ChunkHeader.payloadAt address settings - sizeofUserPayloadOffset)
    sizeofUserPayloadOffset = ChunkHeader.payloadAt address settings - address

theorem construct_built (haddr : alignofChunkHeader ∣ address) (h : settings.WellFormed)
    (hsize : settings.requiredChunkSize ≤ size) (hsize32 : size < uint32Range)
    (hspace : address + size < uint64Range) :
    ∃ mem', construct mem address size settings = some mem' ∧ Built mem' address size settings := by
  have hcases := payloadAt_cases haddr h
  have hle := ChunkHeader.payloadAt_le haddr h
  have hinit := @initMembers_holds mem address _ _ hsize32 h
  have hoffset : ChunkHeader.payloadAt address settings - address < uint32Range := by omega
  have hpayload : ChunkHeader.payloadAt address settings < uint64Range := by omega
  have hp : address + sizeofChunkHeader + sizeofUserPayloadOffset ≤
        ChunkHeader.payloadAt address settings ∨
      ChunkHeader.payloadAt address settings = address + sizeofChunkHeader := by
    rcases hcases with hfar | hnear
    · exact Or.inl (by omega)
    · exact Or.inr hnear.2
  -- the check at the end looks at the members of the header
  have hfinish : ∀ mem', Built mem' address size settings →
      overflowSafeUsedSizeOfChunk mem' address ≤ size := by
    intro mem' hbuilt
    rw [overflowSafeUsedSizeOfChunk, hbuilt.header.userPayloadOffset,
      hbuilt.header.userPayloadSize]
    dsimp only
    omega
  have hplace : ∀ mem₀, Holds mem₀ address
      { chunkSize := size
        chunkHeaderVersion := ChunkHeader.currentVersion
        userHeaderId := if settings.userHeaderSize = 0 then ChunkHeader.noUserHeader
          else ChunkHeader.unknownUserHeader
        originId := ChunkHeader.invalidPortId
        sequenceNumber := 0
        userHeaderSize := settings.userHeaderSize
        userPayloadSize := settings.userPayloadSize
        userPayloadAlignment := settings.userPayloadAlignment
        userPayloadOffset := sizeofChunkHeader } →
      Built (placeUserPayload mem₀ address (ChunkHeader.payloadAt address settings)) address size
        settings := fun mem₀ h₀ =>
    ⟨holds_placeUserPayload h₀ hp hpayload hoffset,
      (placeUserPayload_spec hp hpayload hoffset).2.1⟩
  unfold construct
  dsimp only
  by_cases hheader : settings.userHeaderSize = 0
  · by_cases hsmall : settings.userPayloadAlignment ≤ alignofChunkHeader
    · rw [if_pos hheader, if_pos hsmall]
      have hat : ChunkHeader.payloadAt address settings = address + sizeofChunkHeader := by
        rw [ChunkHeader.payloadAt, if_pos hheader, if_pos hsmall]
      have hbuilt : Built (set (initMembers mem address size settings) address userPayloadOffset
          sizeofChunkHeader) address size settings := by
        rw [← Nat.add_sub_cancel_left address sizeofChunkHeader, ← hat]
        refine ⟨?_, ?_⟩
        · rw [if_pos hheader]
          exact holds_setUserPayloadOffset hinit hoffset
        · rw [hat, Nat.add_sub_cancel_left]
          exact get_set (m := userPayloadOffset) (by decide)
      exact ⟨_, if_pos (hfinish _ hbuilt), hbuilt⟩
    · rw [if_pos hheader, if_neg hsmall]
      have hat : ChunkHeader.payloadAt address settings =
          align (address + sizeofChunkHeader) settings.userPayloadAlignment := by
        rw [ChunkHeader.payloadAt, if_pos hheader, if_neg hsmall]
      have hend := le_align (address + sizeofChunkHeader) settings.userPayloadAlignment
      rw [Nat.mod_eq_of_lt (by omega), alignAddress_eq (by rw [← hat]; exact hpayload), ← hat]
      have hbuilt := hplace (initMembers mem address size settings) (by
        rw [if_pos hheader]
        exact hinit)
      exact ⟨_, if_pos (hfinish _ hbuilt), hbuilt⟩
  · rw [if_neg hheader]
    have hat : ChunkHeader.payloadAt address settings =
        align (align (address + sizeofChunkHeader + settings.userHeaderSize)
          alignofUserPayloadOffset + sizeofUserPayloadOffset) settings.userPayloadAlignment := by
      rw [ChunkHeader.payloadAt, if_neg hheader]
    have hover := le_align (address + sizeofChunkHeader + settings.userHeaderSize)
      alignofUserPayloadOffset
    have hpad := le_align (align (address + sizeofChunkHeader + settings.userHeaderSize)
      alignofUserPayloadOffset + sizeofUserPayloadOffset) settings.userPayloadAlignment
    have hend : (address + sizeofChunkHeader + settings.userHeaderSize) % uint64Range =
        address + sizeofChunkHeader + settings.userHeaderSize := Nat.mod_eq_of_lt (by omega)
    have hback : (align (address + sizeofChunkHeader + settings.userHeaderSize)
          alignofUserPayloadOffset + sizeofUserPayloadOffset) % uint64Range =
        align (address + sizeofChunkHeader + settings.userHeaderSize)
          alignofUserPayloadOffset + sizeofUserPayloadOffset := Nat.mod_eq_of_lt (by omega)
    have hanticipated : alignAddress (address + sizeofChunkHeader + settings.userHeaderSize)
          alignofUserPayloadOffset =
        align (address + sizeofChunkHeader + settings.userHeaderSize) alignofUserPayloadOffset :=
      alignAddress_eq (by omega)
    rw [hend, hanticipated, hback,
      alignAddress_eq (by rw [← hat]; exact hpayload), ← hat]
    have hbuilt := hplace _ (by
      rw [if_neg hheader]
      exact holds_setUserHeaderId hinit (by decide))
    exact ⟨_, if_pos (hfinish _ hbuilt), hbuilt⟩

theorem Built.create_eq {mem : Memory} (hbuilt : Built mem address size settings)
    (haddr : alignofChunkHeader ∣ address) (h : settings.WellFormed)
    (hsize : settings.requiredChunkSize ≤ size) :
    ∃ header, ChunkHeader.create address size settings = some header ∧
      Holds mem address header := by
  obtain ⟨header, hcreate, -, -⟩ := ChunkHeader.create_eq_some haddr h hsize
  refine ⟨header, hcreate, ?_⟩
  have hle := ChunkHeader.payloadAt_le haddr h
  have hbounded := h.bounded
  have hoffset : ChunkHeader.userPayloadOffsetAt address settings =
      ChunkHeader.payloadAt address settings - address := by
    rw [ChunkHeader.userPayloadOffsetAt_eq, Nat.mod_eq_of_lt (by omega)]
  unfold ChunkHeader.create at hcreate
  obtain rfl := Option.some.inj (Option.ite_none_right_eq_some.mp hcreate).2
  rw [hoffset]
  exact hbuilt.header

end Constructor

structure Part where
  start : Nat
  size : Nat

namespace Part

def Apart (r r' : Part) : Prop := r.start + r.size ≤ r'.start ∨ r'.start + r'.size ≤ r.start

def Inside (r : Part) (address size : Nat) : Prop :=
  address ≤ r.start ∧ r.start + r.size ≤ address + size

end Part

/-- The back-offset is a part of its own unless it is the last member of the header. -/
def parts (settings : ChunkSettings) (address payload : Nat) : List Part :=
  let headers : List Part := [⟨address, sizeofChunkHeader⟩,
    ⟨address + sizeofChunkHeader, settings.userHeaderSize⟩, ⟨payload, settings.userPayloadSize⟩]
  if payload - sizeofUserPayloadOffset = address + userPayloadOffset.offset then headers
  else headers ++ [⟨payload - sizeofUserPayloadOffset, sizeofUserPayloadOffset⟩]

section Layout

variable {mem : Memory} {address size : Nat} {settings : ChunkSettings}

theorem parts_apart (haddr : alignofChunkHeader ∣ address) (h : settings.WellFormed)
    (hsize : settings.requiredChunkSize ≤ size) :
    (parts settings address (ChunkHeader.payloadAt address settings)).Pairwise Part.Apart ∧
      ∀ r ∈ parts settings address (ChunkHeader.payloadAt address settings),
        r.Inside address size := by
  have hle := ChunkHeader.payloadAt_le haddr h
  have hheaders := le_payloadAt haddr h
  unfold parts
  dsimp only
  split
  · simp only [List.pairwise_cons, List.forall_mem_cons, List.Pairwise.nil, List.not_mem_nil,
      Part.Apart, Part.Inside]
    refine ⟨⟨⟨Or.inl (by omega), Or.inl (by omega), nofun⟩, ⟨Or.inl (by omega), nofun⟩, nofun,
      trivial⟩, ⟨by omega, by omega⟩, ⟨by omega, by omega⟩, ⟨by omega, by omega⟩, nofun⟩
  · next hback =>
    have hfar : address + sizeofChunkHeader + settings.userHeaderSize + sizeofUserPayloadOffset ≤
        ChunkHeader.payloadAt address settings := by
      refine (payloadAt_cases haddr h).resolve_right ?_
      rintro ⟨-, hat⟩
      rw [hat] at hback
      exact hback rfl
    simp only [List.cons_append, List.nil_append, List.pairwise_cons, List.forall_mem_cons,
      List.Pairwise.nil, List.not_mem_nil, Part.Apart, Part.Inside]
    refine ⟨⟨⟨Or.inl (by omega), Or.inl (by omega), Or.inl (by omega), nofun⟩,
      ⟨Or.inl (by omega), Or.inl (by omega), nofun⟩, ⟨Or.inr (by omega), nofun⟩, nofun, trivial⟩,
      ⟨by omega, by omega⟩, ⟨by omega, by omega⟩, ⟨by omega, by omega⟩, ⟨by omega, by omega⟩,
      nofun⟩

theorem Built.userPayload_eq (hbuilt : Built mem address size settings)
    (haddr : alignofChunkHeader ∣ address) (h : settings.WellFormed)
    (hpayload : ChunkHeader.payloadAt address settings < uint64Range) :
    userPayload mem address = ChunkHeader.payloadAt address settings := by
  have hheaders := le_payloadAt haddr h
  rw [userPayload, hbuilt.header.userPayloadOffset]
  dsimp only
  rw [show address + (ChunkHeader.payloadAt address settings - address) =
    ChunkHeader.payloadAt address settings by omega, Nat.mod_eq_of_lt hpayload]

theorem Built.fromUserPayload_eq (hbuilt : Built mem address size settings)
    (haddr : alignofChunkHeader ∣ address) (h : settings.WellFormed)
    (hpayload : ChunkHeader.payloadAt address settings < uint64Range) :
    fromUserPayload mem (ChunkHeader.payloadAt address settings) = address := by
  have hheaders := le_payloadAt haddr h
  have hnonzero : ChunkHeader.payloadAt address settings ≠ 0 := by
    unfold sizeofChunkHeader at hheaders
    omega
  have hback : (ChunkHeader.payloadAt address settings + uint64Range - sizeofUserPayloadOffset) %
      uint64Range = ChunkHeader.payloadAt address settings - sizeofUserPayloadOffset := by
    rw [show ChunkHeader.payloadAt address settings + uint64Range - sizeofUserPayloadOffset =
      ChunkHeader.payloadAt address settings - sizeofUserPayloadOffset + uint64Range by
      unfold sizeofChunkHeader sizeofUserPayloadOffset at *; omega, Nat.add_mod_right,
      Nat.mod_eq_of_lt (lt_of_le_of_lt (Nat.sub_le _ _) hpayload)]
  rw [fromUserPayload, if_neg hnonzero, hback, hbuilt.backOffset]
  dsimp only
  rw [show ChunkHeader.payloadAt address settings + uint64Range -
      (ChunkHeader.payloadAt address settings - address) = address + uint64Range by omega,
    Nat.add_mod_right, Nat.mod_eq_of_lt (by omega)]

theorem Built.userHeader_eq (hbuilt : Built mem address size settings)
    (hspace : address + sizeofChunkHeader < uint64Range) :
    userHeader mem address =
      if settings.userHeaderSize = 0 then none else some (address + sizeofChunkHeader) := by
  rw [userHeader, hbuilt.header.userHeaderId, Nat.mod_eq_of_lt hspace]
  split
  · rfl
  · exact if_neg (show ChunkHeader.unknownUserHeader ≠ ChunkHeader.noUserHeader by decide)

theorem fromUserHeader_eq (hspace : address + sizeofChunkHeader < uint64Range) :
    fromUserHeader (address + sizeofChunkHeader) = address := by
  have hnonzero : address + sizeofChunkHeader ≠ 0 := Nat.succ_ne_zero _
  rw [fromUserHeader, if_neg hnonzero, Nat.add_right_comm, Nat.add_sub_cancel, Nat.add_mod_right,
    Nat.mod_eq_of_lt (lt_of_le_of_lt (Nat.le_add_right _ _) hspace)]

end Layout

/-- Header, user-header, back-offset and user-payload fit into the chunk side by side, are
aligned as requested, and are found from each other. -/
theorem chunk_layout (payloadSize payloadAlignment headerSize headerAlignment : Nat)
    (settings : ChunkSettings)
    (hcreate : ChunkSettings.create payloadSize payloadAlignment headerSize headerAlignment =
      .ok settings)
    (address size : Nat) (haddr : alignofChunkHeader ∣ address)
    (hsize : settings.requiredChunkSize ≤ size) (hsize32 : size < uint32Range)
    (hspace : address + size < uint64Range) (mem : Memory) :
    ∃ mem', construct mem address size settings = some mem' ∧
      (payloadAlignment = 0 ∨ payloadAlignment ∣ userPayload mem' address) ∧
      (parts settings address (userPayload mem' address)).Pairwise Part.Apart ∧
      (∀ r ∈ parts settings address (userPayload mem' address), r.Inside address size) ∧
      settings.userHeaderSize = headerSize ∧ settings.userPayloadSize = payloadSize ∧
      fromUserPayload mem' (userPayload mem' address) = address ∧
      (headerSize = 0 → userHeader mem' address = none) ∧
      (headerSize ≠ 0 → userHeader mem' address = some (address + sizeofChunkHeader) ∧
        (headerAlignment = 0 ∨ headerAlignment ∣ address + sizeofChunkHeader) ∧
        fromUserHeader (address + sizeofChunkHeader) = address) := by
  have h := ChunkSettings.create_wellFormed hcreate
  obtain ⟨hpayloadSize, halignment, hheaderSize, hheaderAlignment⟩ :=
    ChunkSettings.create_fields hcreate
  obtain ⟨mem', hconstruct, hbuilt⟩ := @construct_built mem address _ _ haddr h hsize hsize32 hspace
  have hle := ChunkHeader.payloadAt_le haddr h
  have hheaders := le_payloadAt haddr h
  have hpayload : ChunkHeader.payloadAt address settings < uint64Range := by omega
  have hend : address + sizeofChunkHeader < uint64Range := by omega
  obtain ⟨hapart, hinside⟩ := parts_apart haddr h hsize
  have huserHeader := hbuilt.userHeader_eq hend
  refine ⟨mem', hconstruct, ?_⟩
  rw [hbuilt.userPayload_eq haddr h hpayload, huserHeader, hheaderSize]
  refine ⟨?_, hapart, hinside, rfl, hpayloadSize, hbuilt.fromUserPayload_eq haddr h hpayload,
    fun hnone => if_pos hnone, fun hsome => ⟨if_neg hsome, ?_, fromUserHeader_eq hend⟩⟩
  · have hdvd := alignment_dvd_payloadAt haddr h
    rw [halignment] at hdvd
    split at hdvd
    · next hzero => exact Or.inl hzero
    · exact Or.inr hdvd
  · by_cases hzero : headerAlignment = 0
    · exact Or.inl hzero
    · refine Or.inr ((hheaderAlignment hzero).trans (Nat.dvd_add haddr (by decide)))

theorem chunk_layout_userHeader : ∃ settings mem',
    ChunkSettings.create 24 64 12 4 = .ok settings ∧
    construct (fun _ => 0) 4104 144 settings = some mem' ∧ 64 ∣ userPayload mem' 4104 ∧
    fromUserPayload mem' (userPayload mem' 4104) = 4104 ∧ userHeader mem' 4104 = some 4144 := by
  have hcreate : ChunkSettings.create 24 64 12 4 = .ok
      { userPayloadSize := 24
        userPayloadAlignment := 64
        userHeaderSize := 12
        userHeaderAlignment := 4
        requiredChunkSize := 140 } := by decide
  obtain ⟨mem', hconstruct, haligned, -, -, -, -, hfrom, -, hheader⟩ :=
    chunk_layout 24 64 12 4 _ hcreate 4104 144 (by decide) (by decide) (by decide) (by decide)
      (fun _ => 0)
  exact ⟨_, mem', hcreate, hconstruct, haligned.resolve_left (by decide), hfrom,
    (hheader (by decide)).1⟩

end ChunkLayout

end Iceoryx.Mepoo
