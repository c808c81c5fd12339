import Iceoryx.Gw.Datagram

namespace Iceoryx.Gw

open Mepoo IoxChunkDatagramHeader

structure ForwardedChunk where
  userHeader : List UInt8
  userPayload : List UInt8
  userPayloadAlignment : Nat
  deriving DecidableEq, Repr

namespace ForwardedChunk

def userHeaderId (c : ForwardedChunk) : Nat :=
  if c.userHeader.length = 0 then ChunkHeader.noUserHeader else ChunkHeader.unknownUserHeader

def datagramHeader (c : ForwardedChunk) : IoxChunkDatagramHeader where
  userHeaderId := UInt16.ofNat c.userHeaderId
  userHeaderSize := UInt32.ofNat c.userHeader.length
  userPayloadSize := UInt32.ofNat c.userPayload.length
  userPayloadAlignment := UInt32.ofNat c.userPayloadAlignment

def userHeaderBytes (c : ForwardedChunk) : Option (List UInt8) :=
  if c.userHeaderId = ChunkHeader.noUserHeader then none else some c.userHeader

def Loanable (c : ForwardedChunk) : Prop :=
  ∃ alignment headerAlignment settings,
    ChunkSettings.create c.userPayload.length alignment c.userHeader.length headerAlignment =
      .ok settings ∧ c.userPayloadAlignment = settings.userPayloadAlignment

end ForwardedChunk

def forwardToDds (host : Endianess) : List ForwardedChunk → Samples
  | [] => []
  | c :: cs =>
    (write host c.datagramHeader c.userHeaderBytes (some c.userPayload)).toList ++
      forwardToDds host cs

structure Dds2Iceoryx where
  samples : Samples
  published : List ForwardedChunk := []
  loaned : Nat := 0
  released : Nat := 0
  deriving DecidableEq, Repr

/-- What is in the memory of a loaned chunk, or none if the publisher has no chunk left. -/
abbrev LoanMemory := Option (Nat → UInt8)

/-- The settings of the chunk that is loaned for a sample, where the alignment of the user-header
is taken to be 1. -/
def loanSettings (h : IoxChunkDatagramHeader) : Except ChunkSettings.Error ChunkSettings :=
  ChunkSettings.create h.userPayloadSize.toNat h.userPayloadAlignment.toNat
    h.userHeaderSize.toNat 1

def forwardSample (host : Endianess) (memory : LoanMemory) (s : Dds2Iceoryx) :
    Except ReaderFault Dds2Iceoryx := do
  let (next, samples) ← peekNext host s.samples
  match next with
  | none => .ok { s with samples := samples }
  | some datagramHeader =>
    match loanSettings datagramHeader, memory with
    | .ok settings, some content => do
      let userHeader :=
        if settings.userHeaderSize = 0 then none
        else some ((List.range settings.userHeaderSize).map content)
      let userPayload := (List.range settings.userPayloadSize).map content
      let (taken, samples) ← takeNext true datagramHeader userHeader (some userPayload) samples
      match taken with
      | .ok (userHeader, userPayload) =>
        .ok { s with
          samples := samples
          published := s.published ++
            [{ userHeader := userHeader.getD []
               userPayload := userPayload.getD []
               userPayloadAlignment := settings.userPayloadAlignment }]
          loaned := s.loaned + 1 }
      | .error _ =>
        .ok { s with
          samples := samples
          loaned := s.loaned + 1
          released := s.released + 1 }
    | _, _ => .ok { s with samples := samples }

/-- `DDS2IceoryxGateway::forward`, for as many rounds as there are outcomes of a loan. -/
def forward (host : Endianess) : List LoanMemory → Dds2Iceoryx → Except ReaderFault Dds2Iceoryx
  | [], s => .ok s
  | memory :: rest, s =>
    if s.samples = [] then .ok s else forwardSample host memory s >>= forward host rest

def parse (sample : List UInt8) : Option IoxChunkDatagramHeader :=
  if sample.length < sizeofHeader then none
  else (deserialize (sample.take sizeofHeader)).filter fun h => h.datagramVersion = currentVersion

def accepted (host : Endianess) (sample : List UInt8) : Option IoxChunkDatagramHeader :=
  (parse sample).filter fun h => h.endianness = host

def Overruns (host : Endianess) (sample : List UInt8) : Prop :=
  ∃ h, parse sample = some h ∧ h.endianness ≠ host ∧ 4 ≤ h.endianness.code.toNat

def Stuck (host : Endianess) (sample : List UInt8) : Prop :=
  ∃ h, accepted host sample = some h ∧
    ((∃ e, loanSettings h = .error e) ∨ 0 < h.userHeaderSize ∧ h.userHeaderId = noUserHeader)

/-- The chunk that is published for a sample: none if it is not as long as its header says. -/
def delivered (host : Endianess) (sample : List UInt8) : Option ForwardedChunk :=
  (accepted host sample).bind fun h =>
    let data := sample.drop sizeofHeader
    if h.userHeaderSize.toNat + h.userPayloadSize.toNat = data.length then
      some
        { userHeader := data.take h.userHeaderSize.toNat
          userPayload := data.drop h.userHeaderSize.toNat
          userPayloadAlignment :=
            if h.userPayloadAlignment = 0 then 1 else h.userPayloadAlignment.toNat }
    else none

variable {host : Endianess} {sample : List UInt8} {rest : Samples} {h : IoxChunkDatagramHeader}
  {s s' : Dds2Iceoryx} {settings : ChunkSettings}

theorem accepted_eq_some_iff : accepted host sample = some h ↔
    sizeofHeader ≤ sample.length ∧ deserialize (sample.take sizeofHeader) = some h ∧
      h.datagramVersion = currentVersion ∧ h.endianness = host := by
  unfold accepted parse
  split
  · next hlt =>
    simp only [Option.filter_none, reduceCtorEq, false_iff]
    omega
  · next hge =>
    simp only [Option.filter_eq_some_iff, decide_eq_true_eq]
    constructor
    · rintro ⟨⟨hd, hv⟩, he⟩
      exact ⟨by omega, hd, hv, he⟩
    · rintro ⟨-, hd, hv, he⟩
      exact ⟨⟨hd, hv⟩, he⟩

theorem peekNext_of_accepted (ha : accepted host sample = some h) :
    peekNext host (sample :: rest) = .ok (some h, sample :: rest) := by
  obtain ⟨hlen, hd, hv, he⟩ := accepted_eq_some_iff.mp ha
  have hpos : 0 < sizeofHeader := by decide
  simp only [peekNext, if_neg (show ¬ sample.length = 0 by omega), if_neg (Nat.not_lt.mpr hlen),
    hd, hv, he, ne_eq, not_true_eq_false, if_false]

theorem peekNext_of_overruns (ho : Overruns host sample) :
    peekNext host (sample :: rest) = .error .endianessString := by
  obtain ⟨h, hp, hne, hcode⟩ := ho
  unfold parse at hp
  split at hp
  · cases hp
  · next hge =>
    rw [Option.filter_eq_some_iff, decide_eq_true_eq] at hp
    have hpos : 0 < sizeofHeader := by decide
    simp only [peekNext, if_neg (show ¬ sample.length = 0 by omega), if_neg hge, hp.1, hp.2,
      ne_eq, not_true_eq_false, if_false, hne, not_false_eq_true, if_true]
    exact if_pos hcode

theorem peekNext_of_dropped (ha : accepted host sample = none) (ho : ¬ Overruns host sample) :
    peekNext host (sample :: rest) = .ok (none, rest) := by
  rw [peekNext]
  by_cases hlt : sample.length < sizeofHeader
  · rw [if_pos hlt, ite_self]
  · have hlen : (sample.take sizeofHeader).length = sizeofHeader := by
      rw [List.length_take]
      omega
    have hpos : 0 < sizeofHeader := by decide
    obtain ⟨h, hd⟩ := deserialize_of_length hlen
    rw [if_neg (by omega), if_neg hlt, hd]
    by_cases hv : h.datagramVersion = currentVersion
    · have hp : parse sample = some h := by
        rw [parse, if_neg hlt, hd, Option.filter_some, if_pos (by simpa using hv)]
      have he : h.endianness ≠ host := by
        intro he
        rw [accepted, hp, Option.filter_some, if_pos (by simpa using he)] at ha
        cases ha
      have hcode : ¬ 4 ≤ h.endianness.code.toNat := fun hcode => ho ⟨h, hp, he, hcode⟩
      simp only [hv, ne_eq, not_true_eq_false, if_false, he, not_false_eq_true, if_true]
      exact if_neg hcode
    · simp only [hv, ne_eq, not_false_eq_true, if_true]

theorem sizes_lt (hcreate : loanSettings h = .ok settings) :
    h.userHeaderSize.toNat + h.userPayloadSize.toNat < 2 ^ 32 := by
  have hwf := ChunkSettings.create_wellFormed hcreate
  obtain ⟨hsize, -, hheader, -⟩ := ChunkSettings.create_fields hcreate
  have hbound := hwf.bounded
  rw [hwf.required, hsize, hheader, ChunkSettings.calculateRequiredChunkSize] at hbound
  have halign := Hoofs.le_align (sizeofChunkHeader + h.userHeaderSize.toNat) alignofUserPayloadOffset
  have hrange : Hoofs.uint32Range = 2 ^ 32 := rfl
  rw [hrange] at hbound
  split at hbound
  · split at hbound <;> omega
  · dsimp only at hbound
    omega

theorem toNat_bufferSize (hcreate : loanSettings h = .ok settings) :
    (h.userHeaderSize + h.userPayloadSize).toNat =
      h.userHeaderSize.toNat + h.userPayloadSize.toNat := by
  rw [UInt32.toNat_add, Nat.mod_eq_of_lt (sizes_lt hcreate)]

/-- A user-header without an id is only noticed before the sample is taken. -/
theorem takeNext_of_noUserHeader {userHeader userPayload : Option (List UInt8)}
    (hstuck : 0 < h.userHeaderSize ∧ h.userHeaderId = noUserHeader) :
    takeNext true h userHeader userPayload (sample :: rest) =
      .ok (.error .invalidBufferParameterForUserHeader, sample :: rest) := by
  have hif : 0 < h.userHeaderSize ∧ (h.userHeaderId = noUserHeader ∨ userHeader = none) :=
    ⟨hstuck.1, Or.inl hstuck.2⟩
  simp only [takeNext, Bool.not_true, Bool.false_eq_true, if_false, hif, if_true, and_self]

theorem memcpy_eq {offset n : Nat} {buffer : List UInt8} (hroom : offset + n ≤ sample.length)
    (hbuffer : buffer.length = n) :
    memcpy sample offset n buffer = .ok ((sample.drop offset).take n) := by
  rw [memcpy, if_neg (by omega), ← hbuffer, List.drop_length, List.append_nil]

theorem toNat_pos_iff {w : UInt32} : 0 < w ↔ w.toNat ≠ 0 := by
  rw [UInt32.lt_iff_toNat_lt, UInt32.toNat_zero]
  omega

theorem takeNext_of_accepted (ha : accepted host sample = some h)
    (hcreate : loanSettings h = .ok settings)
    (hstuck : ¬ (0 < h.userHeaderSize ∧ h.userHeaderId = noUserHeader)) (content : Nat → UInt8) :
    takeNext true h
      (if settings.userHeaderSize = 0 then none
        else some ((List.range settings.userHeaderSize).map content))
      (some ((List.range settings.userPayloadSize).map content)) (sample :: rest) =
      if h.userHeaderSize.toNat + h.userPayloadSize.toNat = (sample.drop sizeofHeader).length then
        .ok (.ok
          (if settings.userHeaderSize = 0 then none
            else some ((sample.drop sizeofHeader).take h.userHeaderSize.toNat),
            some ((sample.drop sizeofHeader).drop h.userHeaderSize.toNat)), rest)
      else .ok (.error .bufferSizeMismatch, rest) := by
  obtain ⟨hlen, hd, -, -⟩ := accepted_eq_some_iff.mp ha
  obtain ⟨hsize, -, hheader, -⟩ := ChunkSettings.create_fields hcreate
  have hpos : 0 < sizeofHeader := by decide
  have hparameters : ¬ (0 < h.userHeaderSize ∧ (h.userHeaderId = noUserHeader ∨
      (if settings.userHeaderSize = 0 then none
        else some ((List.range settings.userHeaderSize).map content)) = none)) := by
    rintro ⟨hsizepos, hid | hnull⟩
    · exact hstuck ⟨hsizepos, hid⟩
    · rw [hheader, if_neg (toNat_pos_iff.mp hsizepos)] at hnull
      cases hnull
  have hpayload : ¬ (0 < h.userPayloadSize ∧
      some ((List.range settings.userPayloadSize).map content) = none) := by
    rintro ⟨-, hnull⟩
    cases hnull
  simp only [takeNext, Bool.not_true, Bool.false_eq_true, if_false, if_neg hparameters,
    if_neg hpayload, if_neg (show ¬ sample.length = 0 by omega), if_neg (Nat.not_lt.mpr hlen), hd,
    and_self, if_true, toNat_bufferSize hcreate, List.length_drop]
  by_cases hfit : h.userHeaderSize.toNat + h.userPayloadSize.toNat = sample.length - sizeofHeader
  · have hall : (sample.drop (sizeofHeader + h.userHeaderSize.toNat)).take
        h.userPayloadSize.toNat = (sample.drop sizeofHeader).drop h.userHeaderSize.toNat := by
      rw [List.drop_drop, List.take_of_length_le]
      rw [List.length_drop]
      omega
    have hcopyPayload : copyInto sample (sizeofHeader + h.userHeaderSize.toNat)
        h.userPayloadSize.toNat (some ((List.range settings.userPayloadSize).map content)) =
        .ok (some ((sample.drop sizeofHeader).drop h.userHeaderSize.toNat)) := by
      rw [copyInto, memcpy_eq (by omega) (by simp [hsize]), hall]
      rfl
    rw [if_neg (not_not.mpr hfit), if_pos hfit, hcopyPayload]
    by_cases hnone : settings.userHeaderSize = 0
    · rw [if_pos hnone, if_pos hnone]
      rfl
    · rw [if_neg hnone, if_neg hnone, copyInto, memcpy_eq (by omega) (by simp [hheader])]
      rfl
  · rw [if_pos hfit, if_neg hfit]

inductive Round (host : Endianess) (memory : LoanMemory) (sample : List UInt8) (rest : Samples)
    (s : Dds2Iceoryx) : Except ReaderFault Dds2Iceoryx → Prop
  | overrun (h : Overruns host sample) : Round host memory sample rest s (.error .endianessString)
  | dropped (ha : accepted host sample = none) (ho : ¬ Overruns host sample) :
    Round host memory sample rest s (.ok { s with samples := rest })
  | waiting (hblocked : Stuck host sample ∨ memory = none) :
    Round host memory sample rest s (.ok s)
  | returned (hstuck : Stuck host sample) (hmemory : memory ≠ none) :
    Round host memory sample rest s
      (.ok { s with loaned := s.loaned + 1, released := s.released + 1 })
  | mismatch (ho : ¬ Overruns host sample) (hstuck : ¬ Stuck host sample) (hmemory : memory ≠ none)
      (hdelivered : delivered host sample = none) :
    Round host memory sample rest s
      (.ok { s with samples := rest, loaned := s.loaned + 1, released := s.released + 1 })
  | publish {c : ForwardedChunk} (ho : ¬ Overruns host sample) (hstuck : ¬ Stuck host sample)
      (hmemory : memory ≠ none) (hdelivered : delivered host sample = some c) :
    Round host memory sample rest s
      (.ok { s with samples := rest, published := s.published ++ [c], loaned := s.loaned + 1 })

theorem not_overruns_of_accepted (ha : accepted host sample = some h) :
    ¬ Overruns host sample := by
  rintro ⟨h', hp, hne, -⟩
  rw [accepted, hp, Option.filter_some, if_neg (by simpa using hne)] at ha
  cases ha

theorem stuck_iff (ha : accepted host sample = some h) : Stuck host sample ↔
    (∃ e, loanSettings h = .error e) ∨ 0 < h.userHeaderSize ∧ h.userHeaderId = noUserHeader := by
  constructor
  · rintro ⟨h', ha', hstuck⟩
    rw [ha] at ha'
    cases ha'
    exact hstuck
  · exact fun hstuck => ⟨h, ha, hstuck⟩

theorem delivered_eq (ha : accepted host sample = some h) (hcreate : loanSettings h = .ok settings)
    (hfit : h.userHeaderSize.toNat + h.userPayloadSize.toNat =
      (sample.drop sizeofHeader).length) :
    delivered host sample = some
      { userHeader := (sample.drop sizeofHeader).take h.userHeaderSize.toNat
        userPayload := (sample.drop sizeofHeader).drop h.userHeaderSize.toNat
        userPayloadAlignment := settings.userPayloadAlignment } := by
  obtain ⟨-, halignment, -, -⟩ := ChunkSettings.create_fields hcreate
  have hzero : h.userPayloadAlignment = 0 ↔ h.userPayloadAlignment.toNat = 0 := by
    rw [← UInt32.toNat_inj, UInt32.toNat_zero]
  rw [delivered, ha, Option.bind_some, if_pos hfit, halignment]
  simp only [hzero]

theorem forwardSample_round (hs : s.samples = sample :: rest) (memory : LoanMemory) :
    Round host memory sample rest s (forwardSample host memory s) := by
  unfold forwardSample
  rw [hs]
  by_cases ho : Overruns host sample
  · rw [peekNext_of_overruns ho]
    exact .overrun ho
  cases ha : accepted host sample with
  | none =>
    rw [peekNext_of_dropped ha ho]
    exact .dropped ha ho
  | some h =>
    have hunchanged : { s with samples := sample :: rest } = s := by rw [← hs]
    rw [peekNext_of_accepted ha]
    simp only [bind, Except.bind]
    cases hcreate : loanSettings h with
    | error e =>
      simp only [hunchanged]
      exact .waiting (Or.inl ((stuck_iff ha).mpr (Or.inl ⟨e, hcreate⟩)))
    | ok settings =>
      cases memory with
      | none =>
        simp only [hunchanged]
        exact .waiting (Or.inr rfl)
      | some content =>
        by_cases hid : 0 < h.userHeaderSize ∧ h.userHeaderId = noUserHeader
        · simp only [takeNext_of_noUserHeader hid]
          rw [← hs]
          exact .returned ((stuck_iff ha).mpr (Or.inr hid)) (Option.some_ne_none content)
        · have hstuck : ¬ Stuck host sample := by
            rw [stuck_iff ha, hcreate]
            rintro (⟨e, he⟩ | hid')
            · cases he
            · exact hid hid'
          dsimp only
          rw [takeNext_of_accepted ha hcreate hid content]
          by_cases hfit : h.userHeaderSize.toNat + h.userPayloadSize.toNat =
              (sample.drop sizeofHeader).length
          · have hdelivered := delivered_eq ha hcreate hfit
            obtain ⟨-, -, hheader, -⟩ := ChunkSettings.create_fields hcreate
            have huserHeader : (if settings.userHeaderSize = 0 then none
                else some ((sample.drop sizeofHeader).take h.userHeaderSize.toNat)).getD [] =
                (sample.drop sizeofHeader).take h.userHeaderSize.toNat := by
              split
              · next hzero =>
                rw [hheader] at hzero
                rw [hzero]
                rfl
              · rfl
            simp only [if_pos hfit, huserHeader, Option.getD_some]
            exact .publish ho hstuck (Option.some_ne_none content) hdelivered
          · have hdelivered : delivered host sample = none := by
              rw [delivered, ha, Option.bind_some, if_neg hfit]
            simp only [if_neg hfit]
            exact .mismatch ho hstuck (Option.some_ne_none content) hdelivered

def Passes (host : Endianess) (sample : List UInt8) : Prop :=
  ¬ Overruns host sample ∧ ¬ Stuck host sample

theorem stuck_or_dropped_delivered (ha : accepted host sample = none) :
    delivered host sample = none := by
  rw [delivered, ha, Option.bind_none]

theorem not_stuck_of_dropped (ha : accepted host sample = none) : ¬ Stuck host sample := by
  rintro ⟨h, ha', -⟩
  rw [ha] at ha'
  cases ha'

/-- What `forward` has done so far: some of the oldest samples are gone, each published or not for
what it says, and every other chunk that was loaned has been released. -/
structure Forwarded (host : Endianess) (s s' : Dds2Iceoryx) : Prop where
  done : ∃ done, s.samples = done ++ s'.samples ∧ (∀ x ∈ done, Passes host x) ∧
    s'.published = s.published ++ done.filterMap (delivered host)
  balance : s'.loaned + s.released + s.published.length =
    s.loaned + s'.released + s'.published.length

theorem Forwarded.refl (host : Endianess) (s : Dds2Iceoryx) : Forwarded host s s where
  done := ⟨[], rfl, by simp, by simp⟩
  balance := rfl

theorem Forwarded.trans {s'' : Dds2Iceoryx} (h : Forwarded host s s')
    (h' : Forwarded host s' s'') : Forwarded host s s'' where
  done := by
    obtain ⟨done, hsamples, hpass, hpublished⟩ := h.done
    obtain ⟨done', hsamples', hpass', hpublished'⟩ := h'.done
    refine ⟨done ++ done', ?_, ?_, ?_⟩
    · rw [hsamples, hsamples', List.append_assoc]
    · intro x hx
      rcases List.mem_append.mp hx with hx | hx
      · exact hpass x hx
      · exact hpass' x hx
    · rw [hpublished', hpublished, List.filterMap_append, List.append_assoc]
  balance := by
    have hbalance := h.balance
    have hbalance' := h'.balance
    omega

theorem Round.forwarded {memory : LoanMemory} {r : Except ReaderFault Dds2Iceoryx}
    (hs : s.samples = sample :: rest) (h : Round host memory sample rest s r) (hr : r = .ok s') :
    Forwarded host s s' := by
  cases h with
  | overrun _ => cases hr
  | dropped ha ho =>
    cases hr
    refine ⟨⟨[sample], hs, ?_, ?_⟩, rfl⟩
    · simpa using ⟨ho, not_stuck_of_dropped ha⟩
    · simp [stuck_or_dropped_delivered ha]
  | waiting _ =>
    cases hr
    exact Forwarded.refl host s
  | returned _ _ =>
    cases hr
    refine ⟨⟨[], rfl, by simp, by simp⟩, ?_⟩
    simp only
    omega
  | mismatch ho hstuck _ hdelivered =>
    cases hr
    refine ⟨⟨[sample], hs, by simpa using ⟨ho, hstuck⟩, by simp [hdelivered]⟩, ?_⟩
    simp only
    omega
  | publish ho hstuck _ hdelivered =>
    cases hr
    refine ⟨⟨[sample], hs, by simpa using ⟨ho, hstuck⟩, by simp [hdelivered]⟩, ?_⟩
    simp only [List.length_append, List.length_singleton]
    omega

theorem Round.samples_eq {content : Nat → UInt8} {r : Except ReaderFault Dds2Iceoryx}
    (hpass : Passes host sample) (h : Round host (some content) sample rest s r) :
    ∃ s', r = .ok s' ∧ s'.samples = rest := by
  cases h with
  | overrun ho => exact absurd ho hpass.1
  | waiting hblocked =>
    rcases hblocked with hstuck | hnone
    · exact absurd hstuck hpass.2
    · cases hnone
  | returned hstuck _ => exact absurd hstuck hpass.2
  | dropped _ _ => exact ⟨_, rfl, rfl⟩
  | mismatch _ _ _ _ => exact ⟨_, rfl, rfl⟩
  | publish _ _ _ _ => exact ⟨_, rfl, rfl⟩

theorem Round.samples_of_none {r : Except ReaderFault Dds2Iceoryx} (hs : s.samples = sample :: rest)
    (hpass : Passes host sample) (h : Round host none sample rest s r) :
    ∃ s', r = .ok s' ∧ (s'.samples = rest ∨ s'.samples = sample :: rest) := by
  cases h with
  | overrun ho => exact absurd ho hpass.1
  | waiting _ => exact ⟨s, rfl, Or.inr hs⟩
  | returned hstuck _ => exact absurd hstuck hpass.2
  | dropped _ _ => exact ⟨_, rfl, Or.inl rfl⟩
  | mismatch _ _ hmemory _ => exact absurd rfl hmemory
  | publish _ _ hmemory _ => exact absurd rfl hmemory

/-- Whatever the network sends and whenever the publisher is out of memory: the samples are
published in their order, each that is as long as its header says once, and no chunk stays with the
gateway.  Only the name of an endianness can be out of range. -/
theorem forward_safe (host : Endianess) (memories : List LoanMemory) (s : Dds2Iceoryx) :
    match forward host memories s with
    | .ok s' => Forwarded host s s'
    | .error f => f = .endianessString ∧ ∃ done sample rest, s.samples = done ++ sample :: rest ∧
        (∀ x ∈ done, Passes host x) ∧ Overruns host sample := by
  induction memories generalizing s with
  | nil => exact Forwarded.refl host s
  | cons memory memories ih =>
    rw [forward]
    split
    · next hfinished =>
      split at hfinished
      · cases hfinished
        exact Forwarded.refl host s
      · next hne =>
        obtain ⟨sample, rest, hs⟩ := List.exists_cons_of_ne_nil hne
        have hround : Round host memory sample rest s _ := forwardSample_round hs memory
        cases hfirst : forwardSample host memory s with
        | error f =>
          rw [hfirst] at hfinished
          cases hfinished
        | ok m =>
          have hm := hround.forwarded hs hfirst
          rw [hfirst] at hfinished
          have hrest := ih m
          rw [show forward host memories m = _ from hfinished] at hrest
          exact hm.trans hrest
    · next f hfailed =>
      split at hfailed
      · cases hfailed
      · next hne =>
        obtain ⟨sample, rest, hs⟩ := List.exists_cons_of_ne_nil hne
        have hround : Round host memory sample rest s _ := forwardSample_round hs memory
        cases hfirst : forwardSample host memory s with
        | error f' =>
          rw [hfirst] at hfailed hround
          cases hfailed
          cases hround with
          | overrun ho => exact ⟨rfl, [], sample, rest, hs, by simp, ho⟩
        | ok m =>
          have hm := hround.forwarded hs hfirst
          rw [hfirst] at hfailed
          have hrest := ih m
          rw [show forward host memories m = _ from hfailed] at hrest
          obtain ⟨hf, done, x, rest', hsamples, hpass, ho⟩ := hrest
          obtain ⟨done', hsamples', hpass', -⟩ := hm.done
          refine ⟨hf, done' ++ done, x, rest', ?_, ?_, ho⟩
          · rw [hsamples', hsamples, List.append_assoc]
          · intro y hy
            rcases List.mem_append.mp hy with hy | hy
            · exact hpass' y hy
            · exact hpass y hy

theorem forward_empties (memories : List LoanMemory) (hpass : ∀ x ∈ s.samples, Passes host x)
    (hmemory : s.samples.length ≤ memories.countP Option.isSome) :
    ∃ s', forward host memories s = .ok s' ∧ s'.samples = [] := by
  induction memories generalizing s with
  | nil =>
    rw [List.countP_nil, Nat.le_zero, List.length_eq_zero_iff] at hmemory
    exact ⟨s, rfl, hmemory⟩
  | cons memory memories ih =>
    by_cases hempty : s.samples = []
    · exact ⟨s, by rw [forward, if_pos hempty], hempty⟩
    · obtain ⟨sample, rest, hs⟩ := List.exists_cons_of_ne_nil hempty
      rw [hs] at hpass hmemory
      have hfirst := hpass sample List.mem_cons_self
      have hround : Round host memory sample rest s _ := forwardSample_round hs memory
      rw [forward, if_neg hempty]
      cases memory with
      | none =>
        obtain ⟨m, hm, hsamples⟩ := hround.samples_of_none hs hfirst
        rw [List.countP_cons_of_neg (by simp)] at hmemory
        rw [hm]
        rcases hsamples with hsamples | hsamples
        · refine ih (fun x hx => hpass x ?_) ?_
          · rw [hsamples] at hx
            exact List.mem_cons_of_mem _ hx
          · rw [hsamples]
            exact (Nat.le_succ _).trans hmemory
        · exact ih (by rwa [hsamples]) (by rwa [hsamples])
      | some content =>
        obtain ⟨m, hm, hsamples⟩ := hround.samples_eq hfirst
        rw [List.countP_cons_of_pos (by simp), List.length_cons] at hmemory
        rw [hm]
        refine ih (fun x hx => hpass x ?_) ?_
        · rw [hsamples] at hx
          exact List.mem_cons_of_mem _ hx
        · rw [hsamples]
          exact Nat.le_of_succ_le_succ hmemory

/-- The other side asks for the alignment of the chunk, and for 1 as that of its user-header. -/
theorem create_again {size alignment headerSize headerAlignment : Nat}
    (hcreate : ChunkSettings.create size alignment headerSize headerAlignment = .ok settings) :
    ∃ settings', ChunkSettings.create size settings.userPayloadAlignment headerSize 1 =
        .ok settings' ∧ settings'.userPayloadAlignment = settings.userPayloadAlignment := by
  have hwf := ChunkSettings.create_wellFormed hcreate
  obtain ⟨hsize, -, hheader, -⟩ := ChunkSettings.create_fields hcreate
  have hne : settings.userPayloadAlignment ≠ 0 := Nat.pos_iff_ne_zero.mp hwf.alignment_pos
  have hone : Hoofs.isPowerOfTwo 1 = true := by decide
  have hbound := hwf.bounded
  rw [hwf.required, hsize, hheader] at hbound
  unfold ChunkSettings.create
  simp only [if_neg hne, Nat.one_ne_zero, if_false, hwf.powerOfTwo, hone, not_true_eq_false,
    or_self, Nat.mod_one, ne_eq, show ¬ 1 > alignofChunkHeader by decide]
  rw [if_neg (by unfold Hoofs.uint32Range at hbound ⊢; omega)]
  exact ⟨_, rfl, rfl⟩

theorem fields_lt {size alignment headerSize headerAlignment : Nat}
    (hcreate : ChunkSettings.create size alignment headerSize headerAlignment = .ok settings) :
    size < 2 ^ 32 ∧ headerSize < 2 ^ 32 ∧ settings.userPayloadAlignment < 2 ^ 32 := by
  have hwf := ChunkSettings.create_wellFormed hcreate
  obtain ⟨hsize, -, hheader, -⟩ := ChunkSettings.create_fields hcreate
  have hbound := hwf.bounded
  rw [hwf.required, hsize, hheader, ChunkSettings.calculateRequiredChunkSize] at hbound
  have halign := Hoofs.le_align (sizeofChunkHeader + headerSize) alignofUserPayloadOffset
  have hrange : Hoofs.uint32Range = 2 ^ 32 := rfl
  have height : alignofChunkHeader = 8 := rfl
  rw [hrange] at hbound
  split at hbound
  · split at hbound <;> omega
  · dsimp only at hbound
    omega

namespace ForwardedChunk

variable {c : ForwardedChunk}

theorem Loanable.fields (hc : c.Loanable) :
    c.datagramHeader.userHeaderSize.toNat = c.userHeader.length ∧
      c.datagramHeader.userPayloadSize.toNat = c.userPayload.length ∧
      c.datagramHeader.userPayloadAlignment.toNat = c.userPayloadAlignment := by
  obtain ⟨alignment, headerAlignment, settings, hcreate, halignment⟩ := hc
  obtain ⟨hsize, hheader, hlt⟩ := fields_lt hcreate
  rw [← halignment] at hlt
  exact ⟨UInt32.toNat_ofNat_of_lt' hheader, UInt32.toNat_ofNat_of_lt' hsize,
    UInt32.toNat_ofNat_of_lt' hlt⟩

def datagram (host : Endianess) (c : ForwardedChunk) : List UInt8 :=
  serialize { c.datagramHeader with endianness := host } ++ c.userHeader ++ c.userPayload

theorem userHeaderBytes_getD (c : ForwardedChunk) :
    c.userHeaderBytes.getD [] = c.userHeader := by
  unfold userHeaderBytes userHeaderId
  by_cases hzero : c.userHeader.length = 0
  · rw [if_pos hzero, if_pos rfl, Option.getD_none, List.length_eq_zero_iff.mp hzero]
  · rw [if_neg hzero, if_neg (by decide), Option.getD_some]

theorem Loanable.hasId (hc : c.Loanable) (hsize : 0 < c.datagramHeader.userHeaderSize) :
    c.datagramHeader.userHeaderId ≠ noUserHeader ∧ c.userHeaderBytes ≠ none := by
  have hne : c.userHeader.length ≠ 0 := by
    rw [← hc.fields.1]
    exact toNat_pos_iff.mp hsize
  have hid : c.userHeaderId = ChunkHeader.unknownUserHeader := if_neg hne
  refine ⟨?_, ?_⟩
  · have hother : UInt16.ofNat ChunkHeader.unknownUserHeader ≠ noUserHeader := by decide
    simpa only [datagramHeader, hid] using hother
  · rw [userHeaderBytes, hid, if_neg (by decide)]
    exact Option.some_ne_none _

theorem Loanable.write_eq (hc : c.Loanable) (host : Endianess) :
    write host c.datagramHeader c.userHeaderBytes (some c.userPayload) =
      some (c.datagram host) := by
  obtain ⟨hheader, hpayload, -⟩ := hc.fields
  have hparameters : ¬ (0 < c.datagramHeader.userHeaderSize ∧
      (c.datagramHeader.userHeaderId = noUserHeader ∨ c.userHeaderBytes = none)) := by
    rintro ⟨hsize, hid | hnull⟩
    · exact (hc.hasId hsize).1 hid
    · exact (hc.hasId hsize).2 hnull
  have hnull : ¬ (0 < c.datagramHeader.userPayloadSize ∧ some c.userPayload = none) := by
    rintro ⟨-, hnull⟩
    cases hnull
  rw [write, if_neg hparameters, if_neg hnull]
  simp only [hheader, hpayload, userHeaderBytes_getD, Option.getD_some, List.take_length, datagram]

theorem accepted_datagram (host : Endianess) (c : ForwardedChunk) :
    accepted host (c.datagram host) = some { c.datagramHeader with endianness := host } := by
  rw [accepted_eq_some_iff]
  have hlen := length_serialize { c.datagramHeader with endianness := host }
  refine ⟨?_, ?_, rfl, rfl⟩
  · rw [datagram, List.append_assoc, List.length_append, hlen]
    exact Nat.le_add_right _ _
  · rw [datagram, List.append_assoc, ← hlen, List.take_left]
    exact deserialize_serialize _

theorem drop_datagram (host : Endianess) (c : ForwardedChunk) :
    (c.datagram host).drop sizeofHeader = c.userHeader ++ c.userPayload := by
  have hlen := length_serialize { c.datagramHeader with endianness := host }
  rw [datagram, List.append_assoc, ← hlen, List.drop_left]

theorem Loanable.arrives (hc : c.Loanable) (host : Endianess) :
    Passes host (c.datagram host) ∧ delivered host (c.datagram host) = some c := by
  have ha := accepted_datagram host c
  obtain ⟨hheader, hpayload, halignment⟩ := hc.fields
  have hid := fun hsize => (hc.hasId hsize).1
  have hfields := hc
  obtain ⟨alignment, headerAlignment, settings, hcreate, hsettings⟩ := hfields
  obtain ⟨settings', hagain, hsame⟩ := create_again hcreate
  have hloan : loanSettings { c.datagramHeader with endianness := host } = .ok settings' := by
    simp only [loanSettings, hheader, hpayload, halignment, hsettings]
    exact hagain
  refine ⟨⟨not_overruns_of_accepted ha, ?_⟩, ?_⟩
  · rw [stuck_iff ha, hloan]
    rintro (⟨e, he⟩ | ⟨hsize, hnone⟩)
    · cases he
    · exact hid hsize hnone
  · have hdrop := drop_datagram host c
    rw [delivered_eq ha hloan (by rw [hdrop, List.length_append]; simp only [hheader, hpayload])]
    simp only [hdrop, hheader, List.take_left, List.drop_left, hsame, ← hsettings]

end ForwardedChunk

def smallChunk : ForwardedChunk where
  userHeader := [1, 2]
  userPayload := [7]
  userPayloadAlignment := 8

def plainChunk : ForwardedChunk where
  userHeader := []
  userPayload := [5, 6, 7]
  userPayloadAlignment := 1

theorem loanable_small : smallChunk.Loanable := ⟨8, 1, _, rfl, rfl⟩

theorem loanable_plain : plainChunk.Loanable := ⟨1, 1, _, rfl, rfl⟩

def headerWithoutId : List UInt8 :=
  serialize { smallChunk.datagramHeader with endianness := .little, userHeaderId := noUserHeader } ++
    smallChunk.userHeader ++ smallChunk.userPayload

theorem stuck_headerWithoutId : Stuck .little headerWithoutId :=
  ⟨{ smallChunk.datagramHeader with endianness := .little, userHeaderId := noUserHeader },
    by decide, Or.inr (by decide)⟩

/-- The loop comes to an end, given memory often enough, if and only if no received sample is one
for which no chunk can be loaned, one with a user-header but no id, or one whose endianness has no
name: at such a sample it stays for ever. -/
theorem forward_returns_iff (memories : List LoanMemory)
    (hmemory : s.samples.length ≤ memories.countP Option.isSome) :
    (∃ s', forward host memories s = .ok s' ∧ s'.samples = []) ↔
      ∀ x ∈ s.samples, Passes host x := by
  constructor
  · rintro ⟨s', hs', hempty⟩
    have hsafe := forward_safe host memories s
    rw [hs'] at hsafe
    obtain ⟨done, hsamples, hpass, -⟩ := hsafe.done
    rw [hsamples, hempty, List.append_nil]
    exact hpass
  · exact fun hpass => forward_empties memories hpass hmemory

theorem forward_returns_iff_small :
    (∃ s', forward .little [some fun _ => 0, none, some fun _ => 0]
      { samples := [smallChunk.datagram .little, plainChunk.datagram .little] } = .ok s' ∧
        s'.samples = []) ∧
    ¬ ∃ s', forward .little [some fun _ => 0, none, some fun _ => 0]
      { samples := [smallChunk.datagram .little, headerWithoutId] } = .ok s' ∧
        s'.samples = [] := by
  constructor
  · rw [forward_returns_iff _ (by decide)]
    intro x hx
    rcases List.mem_cons.mp hx with rfl | hx
    · exact (loanable_small.arrives .little).1
    · rw [List.mem_singleton.mp hx]
      exact (loanable_plain.arrives .little).1
  · rw [forward_returns_iff _ (by decide)]
    intro hpass
    exact (hpass headerWithoutId (by simp)).2 stuck_headerWithoutId

theorem forwardToDds_eq {cs : List ForwardedChunk} (hcs : ∀ c ∈ cs, c.Loanable) :
    forwardToDds host cs = cs.map (ForwardedChunk.datagram host) := by
  induction cs with
  | nil => rfl
  | cons c cs ih =>
    rw [forwardToDds, (hcs c List.mem_cons_self).write_eq,
      ih fun d hd => hcs d (List.mem_cons_of_mem c hd)]
    rfl

theorem filterMap_delivered {cs : List ForwardedChunk} (hcs : ∀ c ∈ cs, c.Loanable) :
    (cs.map (ForwardedChunk.datagram host)).filterMap (delivered host) = cs := by
  rw [List.filterMap_map]
  conv_rhs => rw [← List.filterMap_some (l := cs)]
  exact List.filterMap_congr fun c hc => ((hcs c hc).arrives host).2

/-- What the network makes of the samples reaches the other side in the order in which it was
written, and some of it may be lost, as `best effort` allows.  The chunks that arrive are published
there with the same user-headers and payloads, in the same order and each once, as far as there was
memory. -/
theorem gateways_round_trip (host : Endianess) (network : Samples → Samples)
    (hnetwork : ∀ written, (network written).Sublist written) {cs : List ForwardedChunk}
    (hcs : ∀ c ∈ cs, c.Loanable) (memories : List LoanMemory) :
    let arrived := network (forwardToDds host cs)
    let received := arrived.filterMap (delivered host)
    received.Sublist cs ∧ received.length = arrived.length ∧
      ∃ s', forward host memories { samples := arrived } = .ok s' ∧
        s'.published <+: received ∧ s'.loaned = s'.published.length + s'.released ∧
        (arrived.length ≤ memories.countP Option.isSome →
          s'.published = received ∧ s'.samples = []) := by
  intro arrived received
  obtain ⟨ds, hds, harrived⟩ : ∃ ds : List ForwardedChunk, ds.Sublist cs ∧
      arrived = ds.map (ForwardedChunk.datagram host) := by
    have hsub : arrived.Sublist (forwardToDds host cs) := hnetwork _
    rw [forwardToDds_eq hcs] at hsub
    obtain ⟨ds, hds, heq⟩ := List.sublist_map_iff.mp hsub
    exact ⟨ds, hds, heq⟩
  have hloanable : ∀ d ∈ ds, d.Loanable := fun d hd => hcs d (hds.subset hd)
  have hreceived : received = ds := by
    change arrived.filterMap (delivered host) = ds
    rw [harrived, filterMap_delivered hloanable]
  have hall : ∀ x ∈ arrived, Passes host x := by
    intro x hx
    rw [harrived] at hx
    obtain ⟨d, hd, rfl⟩ := List.mem_map.mp hx
    exact ((hloanable d hd).arrives host).1
  have hlength : received.length = arrived.length := by
    rw [hreceived, harrived, List.length_map]
  refine ⟨hreceived ▸ hds, hlength, ?_⟩
  have hsafe := forward_safe host memories { samples := arrived }
  cases hrun : forward host memories { samples := arrived } with
  | error f =>
    rw [hrun] at hsafe
    obtain ⟨-, done, x, rest, hsamples, -, ho⟩ := hsafe
    exact absurd ho (hall x (by rw [show arrived = _ from hsamples]; simp)).1
  | ok s' =>
    rw [hrun] at hsafe
    obtain ⟨done, hsamples, -, hpublished⟩ := hsafe.done
    have hsplit : arrived = done ++ s'.samples := hsamples
    have hdone : s'.published = done.filterMap (delivered host) := hpublished
    refine ⟨s', rfl, ?_, ?_, ?_⟩
    · change s'.published <+: arrived.filterMap (delivered host)
      rw [hdone, hsplit, List.filterMap_append]
      exact List.prefix_append _ _
    · have hbalance := hsafe.balance
      simp only [List.length_nil] at hbalance
      omega
    · intro hmemory
      obtain ⟨t, ht, hempty⟩ := forward_empties memories (s := { samples := arrived }) hall hmemory
      rw [hrun, Except.ok.injEq] at ht
      subst ht
      refine ⟨?_, hempty⟩
      change s'.published = arrived.filterMap (delivered host)
      rw [hdone, hsplit, hempty, List.append_nil]

theorem gateways_round_trip_lost : ∃ s',
    forward .little [some fun _ => 0, none, some fun _ => 0]
      { samples := (forwardToDds .little [smallChunk, smallChunk, plainChunk]).eraseIdx 1 } =
        .ok s' ∧ s'.published = [smallChunk, plainChunk] := by
  have hcs : ∀ c ∈ [smallChunk, smallChunk, plainChunk], c.Loanable := by
    intro c hc
    simp only [List.mem_cons, List.not_mem_nil, or_false] at hc
    rcases hc with rfl | rfl | rfl
    · exact loanable_small
    · exact loanable_small
    · exact loanable_plain
  obtain ⟨-, -, s', hs', -, -, hall⟩ := gateways_round_trip .little
    (fun written => written.eraseIdx 1) (fun written => List.eraseIdx_sublist written 1) hcs
    [some fun _ => 0, none, some fun _ => 0]
  refine ⟨s', hs', (hall (by decide)).1.trans ?_⟩
  decide

end Iceoryx.Gw
