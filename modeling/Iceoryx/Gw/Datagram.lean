import Iceoryx.Lib.BigEndian
import Iceoryx.Mepoo.ChunkHeader

namespace Iceoryx.Gw

open Lib Mepoo

/-- An `enum class` of one byte; any byte can be cast to it. -/
structure Endianess where
  code : UInt8
  deriving DecidableEq, Repr

namespace Endianess

def undefined : Endianess := ⟨0⟩
def little : Endianess := ⟨1⟩
def big : Endianess := ⟨2⟩
def mixed : Endianess := ⟨3⟩

def endianessString : List String := ["UNDEFINED", "LITTLE", "BIG", "MIXED"]

end Endianess

structure IoxChunkDatagramHeader where
  datagramVersion : UInt8 := 1
  endianness : Endianess := .undefined
  userHeaderId : UInt16 := 0xFFFF
  userHeaderSize : UInt32 := 0
  userPayloadSize : UInt32 := 0
  userPayloadAlignment : UInt32 := 0
  deriving DecidableEq, Repr

namespace IoxChunkDatagramHeader

def currentVersion : UInt8 := 1

def sizeofHeader : Nat := 16

def byte (n : Nat) : UInt8 := UInt8.ofNat (n &&& 0xFF)

def serialize (h : IoxChunkDatagramHeader) : List UInt8 :=
  [h.datagramVersion,
    h.endianness.code,
    byte (h.userHeaderId.toNat >>> 8),
    byte h.userHeaderId.toNat,
    byte (h.userHeaderSize.toNat >>> 24),
    byte (h.userHeaderSize.toNat >>> 16),
    byte (h.userHeaderSize.toNat >>> 8),
    byte h.userHeaderSize.toNat,
    byte (h.userPayloadSize.toNat >>> 24),
    byte (h.userPayloadSize.toNat >>> 16),
    byte (h.userPayloadSize.toNat >>> 8),
    byte h.userPayloadSize.toNat,
    byte (h.userPayloadAlignment.toNat >>> 24),
    byte (h.userPayloadAlignment.toNat >>> 16),
    byte (h.userPayloadAlignment.toNat >>> 8),
    byte h.userPayloadAlignment.toNat]

def deserialize : List UInt8 → Option IoxChunkDatagramHeader
  | [b0, b1, b2, b3, b4, b5, b6, b7, b8, b9, b10, b11, b12, b13, b14, b15] =>
    some
      { datagramVersion := b0
        endianness := ⟨b1⟩
        userHeaderId := UInt16.ofNat (b2.toNat <<< 8 ||| b3.toNat)
        userHeaderSize :=
          UInt32.ofNat (b4.toNat <<< 24 ||| b5.toNat <<< 16 ||| b6.toNat <<< 8 ||| b7.toNat)
        userPayloadSize :=
          UInt32.ofNat (b8.toNat <<< 24 ||| b9.toNat <<< 16 ||| b10.toNat <<< 8 ||| b11.toNat)
        userPayloadAlignment :=
          UInt32.ofNat (b12.toNat <<< 24 ||| b13.toNat <<< 16 ||| b14.toNat <<< 8 ||| b15.toNat) }
  | _ => none

theorem serialize_eq (h : IoxChunkDatagramHeader) :
    h.serialize = h.datagramVersion :: h.endianness.code ::
      (BigEndian.bytes 2 h.userHeaderId.toNat ++ BigEndian.bytes 4 h.userHeaderSize.toNat ++
        BigEndian.bytes 4 h.userPayloadSize.toNat ++
        BigEndian.bytes 4 h.userPayloadAlignment.toNat) := rfl

@[simp] theorem length_serialize (h : IoxChunkDatagramHeader) :
    h.serialize.length = sizeofHeader := rfl

theorem value_two (b b' : UInt8) :
    b.toNat <<< 8 ||| b'.toNat = BigEndian.value [b, b'] := by
  simp [BigEndian.value]

theorem value_four (b b' b'' b''' : UInt8) :
    b.toNat <<< 24 ||| b'.toNat <<< 16 ||| b''.toNat <<< 8 ||| b'''.toNat =
      BigEndian.value [b, b', b'', b'''] := by
  simp [BigEndian.value, Nat.or_assoc]

theorem deserialize_serialize (h : IoxChunkDatagramHeader) :
    deserialize h.serialize = some h := by
  have hid : BigEndian.value (BigEndian.bytes 2 h.userHeaderId.toNat) = h.userHeaderId.toNat := by
    rw [BigEndian.value_bytes]
    exact Nat.mod_eq_of_lt h.userHeaderId.toNat_lt
  have hword : ∀ w : UInt32, BigEndian.value (BigEndian.bytes 4 w.toNat) = w.toNat := by
    intro w
    rw [BigEndian.value_bytes]
    exact Nat.mod_eq_of_lt w.toNat_lt
  have hsize := hword h.userHeaderSize
  have hpayload := hword h.userPayloadSize
  have halignment := hword h.userPayloadAlignment
  simp only [BigEndian.bytes] at hid hsize hpayload halignment
  simp only [serialize_eq, BigEndian.bytes, List.cons_append, List.nil_append, deserialize,
    value_two, value_four, hid, hsize, hpayload, halignment, UInt16.ofNat_toNat,
    UInt32.ofNat_toNat]

theorem length_of_deserialize {bs : List UInt8} {h : IoxChunkDatagramHeader}
    (hbs : deserialize bs = some h) : bs.length = sizeofHeader := by
  unfold deserialize at hbs
  split at hbs
  · rfl
  · cases hbs

theorem deserialize_of_length {bs : List UInt8} (h : bs.length = sizeofHeader) :
    ∃ header, deserialize bs = some header := by
  match bs, h with
  | [_, _, _, _, _, _, _, _, _, _, _, _, _, _, _, _], _ => exact ⟨_, rfl⟩

theorem serialize_of_deserialize {bs : List UInt8} {h : IoxChunkDatagramHeader}
    (hbs : deserialize bs = some h) : h.serialize = bs := by
  unfold deserialize at hbs
  split at hbs
  · next b0 b1 b2 b3 b4 b5 b6 b7 b8 b9 b10 b11 b12 b13 b14 b15 =>
    cases hbs
    have htwo : ∀ b b' : UInt8, (UInt16.ofNat (b.toNat <<< 8 ||| b'.toNat)).toNat =
        BigEndian.value [b, b'] := by
      intro b b'
      rw [value_two, UInt16.toNat_ofNat']
      exact Nat.mod_eq_of_lt (by simpa using BigEndian.value_lt [b, b'])
    have hfour : ∀ b b' b'' b''' : UInt8, (UInt32.ofNat
        (b.toNat <<< 24 ||| b'.toNat <<< 16 ||| b''.toNat <<< 8 ||| b'''.toNat)).toNat =
        BigEndian.value [b, b', b'', b'''] := by
      intro b b' b'' b'''
      rw [value_four, UInt32.toNat_ofNat']
      exact Nat.mod_eq_of_lt (by simpa using BigEndian.value_lt [b, b', b'', b'''])
    have hid := BigEndian.bytes_value [b2, b3]
    have hsize := BigEndian.bytes_value [b4, b5, b6, b7]
    have hpayload := BigEndian.bytes_value [b8, b9, b10, b11]
    have halignment := BigEndian.bytes_value [b12, b13, b14, b15]
    rw [serialize_eq]
    simp only [htwo, hfour]
    simp only [List.length_cons, List.length_nil, Nat.zero_add, Nat.reduceAdd]
      at hid hsize hpayload halignment
    rw [hid, hsize, hpayload, halignment]
    rfl
  · cases hbs

theorem serialize_bijective :
    (∀ bs h, deserialize bs = some h ↔ bs = h.serialize) ∧
      ∀ bs, (deserialize bs).isSome = true ↔ bs.length = sizeofHeader := by
  constructor
  · intro bs h
    constructor
    · intro hbs
      exact (serialize_of_deserialize hbs).symm
    · rintro rfl
      exact deserialize_serialize h
  · intro bs
    constructor
    · intro hsome
      obtain ⟨h, hbs⟩ := Option.isSome_iff_exists.mp hsome
      exact length_of_deserialize hbs
    · intro hlength
      obtain ⟨h, hbs⟩ := deserialize_of_length hlength
      rw [hbs]
      rfl

end IoxChunkDatagramHeader

open IoxChunkDatagramHeader

def noUserHeader : UInt16 := UInt16.ofNat ChunkHeader.noUserHeader

/-- `CycloneDataWriter::write`: the sample, unless the chunk is dropped.  A pointer is what can be
read from it on, or null. -/
def write (host : Endianess) (datagramHeader : IoxChunkDatagramHeader)
    (userHeaderBytes userPayloadBytes : Option (List UInt8)) : Option (List UInt8) :=
  if 0 < datagramHeader.userHeaderSize ∧
      (datagramHeader.userHeaderId = noUserHeader ∨ userHeaderBytes = none) then none
  else if 0 < datagramHeader.userPayloadSize ∧ userPayloadBytes = none then none
  else
    let datagramHeader := { datagramHeader with endianness := host }
    some (datagramHeader.serialize ++
      (userHeaderBytes.getD []).take datagramHeader.userHeaderSize.toNat ++
      (userPayloadBytes.getD []).take datagramHeader.userPayloadSize.toNat)

inductive DataReaderError
  | notConnected
  | invalidDatagramHeaderSize
  | invalidBufferParameterForUserHeader
  | invalidBufferParameterForUserPayload
  | invalidData
  | bufferSizeMismatch
  deriving DecidableEq, Repr

/-- What would end or corrupt the gateway: a failed `Expects` or `Ensures`, a read beyond the
table of names, or one beyond the end of a sample. -/
inductive ReaderFault
  | contract
  | endianessString
  | readPastEnd
  deriving DecidableEq, Repr

abbrev Samples := List (List UInt8)

/-- `peekNextIoxChunkDatagramHeader`, which drops a sample that is not valid. -/
def peekNext (host : Endianess) : Samples →
    Except ReaderFault (Option IoxChunkDatagramHeader × Samples)
  | [] => .ok (none, [])
  | sample :: rest =>
    if sample.length = 0 then .ok (none, rest)
    else if sample.length < sizeofHeader then .ok (none, rest)
    else
      match deserialize (sample.take sizeofHeader) with
      | none => .error .contract
      | some datagramHeader =>
        if datagramHeader.datagramVersion ≠ currentVersion then .ok (none, rest)
        else if datagramHeader.endianness ≠ host then
          -- The name of the received endianness is logged.
          if Endianess.endianessString.length ≤ datagramHeader.endianness.code.toNat then
            .error .endianessString
          else .ok (none, rest)
        else .ok (some datagramHeader, sample :: rest)

def memcpy (sample : List UInt8) (offset n : Nat) (buffer : List UInt8) :
    Except ReaderFault (List UInt8) :=
  if sample.length < offset + n then .error .readPastEnd
  else .ok ((sample.drop offset).take n ++ buffer.drop n)

def copyInto (sample : List UInt8) (offset n : Nat) :
    Option (List UInt8) → Except ReaderFault (Option (List UInt8))
  | none => .ok none
  | some buffer => (memcpy sample offset n buffer).map some

def takeNext (isConnected : Bool) (datagramHeader : IoxChunkDatagramHeader)
    (userHeaderBuffer userPayloadBuffer : Option (List UInt8)) (samples : Samples) :
    Except ReaderFault
      (Except DataReaderError (Option (List UInt8) × Option (List UInt8)) × Samples) :=
  if !isConnected then .ok (.error .notConnected, samples)
  else if 0 < datagramHeader.userHeaderSize ∧
      (datagramHeader.userHeaderId = noUserHeader ∨ userHeaderBuffer = none) then
    .ok (.error .invalidBufferParameterForUserHeader, samples)
  else if 0 < datagramHeader.userPayloadSize ∧ userPayloadBuffer = none then
    .ok (.error .invalidBufferParameterForUserPayload, samples)
  else
    match samples with
    | [] => .ok (.ok (userHeaderBuffer, userPayloadBuffer), [])
    | sample :: rest =>
      if sample.length = 0 then .ok (.error .invalidData, rest)
      else if sample.length < sizeofHeader then .ok (.error .invalidDatagramHeaderSize, rest)
      else
        match deserialize (sample.take sizeofHeader) with
        | none => .error .contract
        | some actual =>
          if datagramHeader.userHeaderId = actual.userHeaderId ∧
              datagramHeader.userHeaderSize = actual.userHeaderSize ∧
              datagramHeader.userPayloadSize = actual.userPayloadSize ∧
              datagramHeader.userPayloadAlignment = actual.userPayloadAlignment then
            -- The sum of the sizes has 32 bits.
            let bufferSize := datagramHeader.userHeaderSize + datagramHeader.userPayloadSize
            if bufferSize.toNat ≠ sample.length - sizeofHeader then
              .ok (.error .bufferSizeMismatch, rest)
            else do
              let userHeader ← copyInto sample sizeofHeader datagramHeader.userHeaderSize.toNat
                userHeaderBuffer
              let userPayload ← copyInto sample
                (sizeofHeader + datagramHeader.userHeaderSize.toNat)
                datagramHeader.userPayloadSize.toNat userPayloadBuffer
              .ok (.ok (userHeader, userPayload), rest)
          else .error .contract

end Iceoryx.Gw
