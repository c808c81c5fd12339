import Iceoryx.Popo.Ports

namespace Iceoryx.Popo

open Capro

theorem tryAddQueue_eq {n : Nat} {qs qs' : List QueuePtr} {q : QueuePtr}
    (h : tryAddQueue n qs q = some qs') : qs' = if q ∈ qs then qs else qs ++ [q] := by
  unfold tryAddQueue at h
  split at h
  · next hmem => simp [hmem] at h ⊢; exact h.symm
  · next hmem =>
    split at h
    · simp [hmem] at h ⊢; exact h.symm
    · cases h

namespace PublisherPortData

variable {n : Nat} {p : PublisherPortData} {m : CaproMessage}

theorem tryGet_cases (p : PublisherPortData) :
    p.tryGetCaProMessage = { port := p } ∨
    (p.offered = false ∧ ∃ m, p.tryGetCaProMessage =
        { port := { p with offered := true }, response := some m } ∧
      m.type = .offer ∧ m.serviceDescription = p.serviceDescription) ∨
    (p.offered = true ∧ ∃ m, p.tryGetCaProMessage =
        { port := { p with offered := false, queues := [] }, response := some m } ∧
      m.type = .stopOffer ∧ m.serviceDescription = p.serviceDescription) := by
  unfold tryGetCaProMessage
  cases ho : p.offered <;> cases hr : p.offeringRequested <;> simp

theorem tryGet_stopOffer (p : PublisherPortData) :
    (p.offered = false ∧ p.stopOffer.tryGetCaProMessage = { port := p.stopOffer }) ∨
    (p.offered = true ∧ ∃ m, p.stopOffer.tryGetCaProMessage =
        { port := { p.stopOffer with offered := false, queues := [] }, response := some m } ∧
      m.type = .stopOffer ∧ m.serviceDescription = p.serviceDescription) := by
  unfold tryGetCaProMessage stopOffer
  cases ho : p.offered <;> simp

theorem dispatch_port (n : Nat) (p : PublisherPortData) (m : CaproMessage) :
    ∃ qs, (p.dispatchCaProMessageAndGetPossibleResponse n m).port = { p with queues := qs } := by
  unfold dispatchCaProMessageAndGetPossibleResponse
  simp only
  split
  · split
    · split
      · exact ⟨_, rfl⟩
      · exact ⟨p.queues, rfl⟩
    · split
      · exact ⟨_, rfl⟩
      · exact ⟨p.queues, rfl⟩
    · exact ⟨p.queues, rfl⟩
    · exact ⟨p.queues, rfl⟩
    · exact ⟨p.queues, rfl⟩
  · exact ⟨p.queues, rfl⟩

theorem dispatch_response (n : Nat) (p : PublisherPortData) (m : CaproMessage) :
    ∃ a, (p.dispatchCaProMessageAndGetPossibleResponse n m).response = some a ∧
      (a.type = .ack ∨ a.type = .nack) := by
  unfold dispatchCaProMessageAndGetPossibleResponse
  simp only
  split
  · split
    · split <;> simp
    · split <;> simp
    · simp
    · simp
    · simp
  · simp

theorem dispatch_no_contract (hq : m.chunkQueueData.isSome = true) :
    .contract ∉ (p.dispatchCaProMessageAndGetPossibleResponse n m).failures := by
  unfold dispatchCaProMessageAndGetPossibleResponse
  simp only
  split
  · split
    · split <;> simp [overflowOfQueueContainer]
    · split <;> simp
    · next h => simp [h] at hq
    · next h => simp [h] at hq
    · simp [Failure.caproProtocolError]
  · simp

end PublisherPortData

namespace SubscriberPortData

variable {policy : CommunicationPolicy} {j : Nat} {s : SubscriberPortData} {m : CaproMessage}

theorem dispatch_port (policy : CommunicationPolicy) (j : Nat) (s : SubscriberPortData)
    (m : CaproMessage) :
    ∃ st, (s.dispatchCaProMessageAndGetPossibleResponse policy j m).port = s.toState st := by
  unfold dispatchCaProMessageAndGetPossibleResponse
  split
  · unfold dispatchSingle
    split <;> exact ⟨_, rfl⟩
  · unfold dispatchMulti
    split <;> exact ⟨_, rfl⟩

theorem dispatch_no_contract :
    .contract ∉ (s.dispatchCaProMessageAndGetPossibleResponse policy j m).failures := by
  unfold dispatchCaProMessageAndGetPossibleResponse
  split
  · unfold dispatchSingle
    split <;> simp [Failure.caproProtocolError]
  · unfold dispatchMulti
    split <;> simp [Failure.caproProtocolError]

theorem dispatch_response {a : CaproMessage}
    (h : (s.dispatchCaProMessageAndGetPossibleResponse policy j m).response = some a) :
    m.type = .offer ∧ a = s.subMessage j := by
  unfold dispatchCaProMessageAndGetPossibleResponse at h
  split at h
  · unfold dispatchSingle at h
    split at h <;> simp_all
  · unfold dispatchMulti at h
    split at h <;> simp_all

theorem dispatch_response_of_ne (policy : CommunicationPolicy) (j : Nat) (s : SubscriberPortData)
    (hm : m.type ≠ .offer) :
    (s.dispatchCaProMessageAndGetPossibleResponse policy j m).response = none := by
  cases h : (s.dispatchCaProMessageAndGetPossibleResponse policy j m).response with
  | none => rfl
  | some a => exact absurd (dispatch_response h).1 hm

theorem tryGet_port (policy : CommunicationPolicy) (j : Nat) (s : SubscriberPortData) :
    ∃ st, (s.tryGetCaProMessage policy j).port = s.toState st := by
  unfold tryGetCaProMessage
  split
  · unfold tryGetCaProMessageSingle
    split <;> exact ⟨_, rfl⟩
  · unfold tryGetCaProMessageMulti
    split <;> exact ⟨_, rfl⟩

theorem tryGet_failures (policy : CommunicationPolicy) (j : Nat) (s : SubscriberPortData) :
    (s.tryGetCaProMessage policy j).failures = [] := by
  unfold tryGetCaProMessage
  split
  · unfold tryGetCaProMessageSingle
    split <;> rfl
  · unfold tryGetCaProMessageMulti
    split <;> rfl

theorem tryGet_response {a : CaproMessage}
    (h : (s.tryGetCaProMessage policy j).response = some a) :
    (a = s.subMessage j ∧ s.subscribeRequested = true) ∨
      (a = s.unsubMessage j ∧ s.subscribeRequested = false) := by
  unfold tryGetCaProMessage at h
  split at h
  · unfold tryGetCaProMessageSingle at h
    split at h <;> simp_all
  · unfold tryGetCaProMessageMulti at h
    split at h <;> simp_all

end SubscriberPortData

namespace ClientPortData

variable {i : Nat} {c : ClientPortData} {m : CaproMessage}

theorem dispatch_port (i : Nat) (c : ClientPortData) (m : CaproMessage) :
    ∃ st qs, (c.dispatchCaProMessageAndGetPossibleResponse i m).port =
      { c with connectionState := st, queues := qs } := by
  unfold dispatchCaProMessageAndGetPossibleResponse
  split
  · unfold handleCaProMessageForStateNotConnected
    split <;> exact ⟨_, _, rfl⟩
  · unfold handleCaProMessageForStateConnectRequested
    split
    · split
      · exact ⟨_, _, rfl⟩
      · split <;> exact ⟨_, _, rfl⟩
    · exact ⟨_, _, rfl⟩
    · exact ⟨_, _, rfl⟩
  · unfold handleCaProMessageForStateWaitForOffer
    split <;> exact ⟨_, _, rfl⟩
  · unfold handleCaProMessageForStateConnected
    split <;> exact ⟨_, _, rfl⟩
  · unfold handleCaProMessageForStateDisconnectRequested
    split <;> exact ⟨_, _, rfl⟩

theorem dispatch_response {a : CaproMessage}
    (h : (c.dispatchCaProMessageAndGetPossibleResponse i m).response = some a) :
    a.type = .connect ∨ a.type = .disconnect := by
  unfold dispatchCaProMessageAndGetPossibleResponse at h
  split at h
  · unfold handleCaProMessageForStateNotConnected at h
    split at h <;> simp_all [handleCaProProtocolViolation]
    exact Or.inl (h ▸ rfl)
  · unfold handleCaProMessageForStateConnectRequested at h
    split at h
    · split at h
      · cases h
      · split at h <;> cases h
    · cases h
    · cases h
  · unfold handleCaProMessageForStateWaitForOffer at h
    split at h <;> simp_all [handleCaProProtocolViolation]
    exact Or.inl (h ▸ rfl)
  · unfold handleCaProMessageForStateConnected at h
    split at h <;> simp_all [handleCaProProtocolViolation]
    exact Or.inr (h ▸ rfl)
  · unfold handleCaProMessageForStateDisconnectRequested at h
    split at h <;> simp_all [handleCaProProtocolViolation]

theorem tryGet_response {a : CaproMessage} (h : (c.tryGetCaProMessage i).response = some a) :
    a.type = .connect ∨ a.type = .disconnect := by
  unfold tryGetCaProMessage at h
  split at h
  · split at h
    · exact dispatch_response h
    · cases h
  · split at h
    · cases h
    · exact dispatch_response h
  · split at h
    · cases h
    · exact dispatch_response h
  · cases h
  · cases h

end ClientPortData

namespace ServerPortData

variable {n j : Nat} {s : ServerPortData} {m : CaproMessage}

theorem tryGet_cases (n j : Nat) (s : ServerPortData) :
    s.tryGetCaProMessage n j = { port := s } ∨
    (s.offered = false ∧ ∃ m, s.tryGetCaProMessage n j =
        { port := { s with offered := true }, response := some m } ∧
      m.type = .offer ∧ m.serviceDescription = s.serviceDescription) ∨
    (s.offered = true ∧ ∃ m, s.tryGetCaProMessage n j =
        { port := { s with offered := false, queues := [] }, response := some m } ∧
      m.type = .stopOffer ∧ m.serviceDescription = s.serviceDescription) := by
  unfold tryGetCaProMessage
  cases ho : s.offered <;> cases hr : s.offeringRequested <;>
    simp [dispatchCaProMessageAndGetPossibleResponse, handleCaProMessageForStateOffered,
      handleCaProMessageForStateNotOffered, ho, hr]

theorem tryGet_stopOffer (n j : Nat) (s : ServerPortData) :
    (s.offered = false ∧ s.stopOffer.tryGetCaProMessage n j = { port := s.stopOffer }) ∨
    (s.offered = true ∧ ∃ m, s.stopOffer.tryGetCaProMessage n j =
        { port := { s.stopOffer with offered := false, queues := [] }, response := some m } ∧
      m.type = .stopOffer ∧ m.serviceType = .server ∧
      m.serviceDescription = s.serviceDescription) := by
  unfold tryGetCaProMessage stopOffer
  cases ho : s.offered <;>
    simp [dispatchCaProMessageAndGetPossibleResponse, handleCaProMessageForStateOffered]

theorem dispatch_port (n j : Nat) (s : ServerPortData)
    (hm : m.type = .connect ∨ m.type = .disconnect) :
    ∃ qs, (s.dispatchCaProMessageAndGetPossibleResponse n j m).port = { s with queues := qs } := by
  unfold dispatchCaProMessageAndGetPossibleResponse
  split
  · unfold handleCaProMessageForStateOffered
    obtain hm | hm := hm
    · simp only [hm]
      split
      · exact ⟨s.queues, rfl⟩
      · split
        · exact ⟨_, rfl⟩
        · exact ⟨s.queues, rfl⟩
    · simp only [hm]
      split
      · exact ⟨s.queues, rfl⟩
      · split
        · exact ⟨_, rfl⟩
        · exact ⟨s.queues, rfl⟩
  · unfold handleCaProMessageForStateNotOffered
    obtain hm | hm := hm <;> simp only [hm] <;> exact ⟨s.queues, rfl⟩

end ServerPortData

theorem PublisherPortData.dispatch_base (n : Nat) (p : PublisherPortData) (m : CaproMessage) :
    (p.dispatchCaProMessageAndGetPossibleResponse n m).port.toBasePortData = p.toBasePortData := by
  obtain ⟨qs, h⟩ := PublisherPortData.dispatch_port n p m
  rw [h]

theorem PublisherPortData.tryGet_base (p : PublisherPortData) :
    p.tryGetCaProMessage.port.toBasePortData = p.toBasePortData := by
  rcases p.tryGet_cases with h | ⟨-, m, h, -⟩ | ⟨-, m, h, -⟩ <;> rw [h]

theorem SubscriberPortData.dispatch_base (policy : CommunicationPolicy) (j : Nat)
    (s : SubscriberPortData) (m : CaproMessage) :
    (s.dispatchCaProMessageAndGetPossibleResponse policy j m).port.toBasePortData =
      s.toBasePortData := by
  obtain ⟨st, h⟩ := SubscriberPortData.dispatch_port policy j s m
  rw [h]
  rfl

theorem SubscriberPortData.tryGet_base (policy : CommunicationPolicy) (j : Nat)
    (s : SubscriberPortData) :
    (s.tryGetCaProMessage policy j).port.toBasePortData = s.toBasePortData := by
  obtain ⟨st, h⟩ := SubscriberPortData.tryGet_port policy j s
  rw [h]
  rfl

theorem ClientPortData.dispatch_base (i : Nat) (c : ClientPortData) (m : CaproMessage) :
    (c.dispatchCaProMessageAndGetPossibleResponse i m).port.toBasePortData = c.toBasePortData := by
  obtain ⟨st, qs, h⟩ := ClientPortData.dispatch_port i c m
  rw [h]

theorem ClientPortData.tryGet_base (i : Nat) (c : ClientPortData) :
    (c.tryGetCaProMessage i).port.toBasePortData = c.toBasePortData := by
  unfold tryGetCaProMessage
  split
  · split
    · exact dispatch_base i c _
    · rfl
  · split
    · rfl
    · exact dispatch_base i c _
  · split
    · rfl
    · exact dispatch_base i c _
  · rfl
  · rfl

theorem ServerPortData.dispatch_base (n j : Nat) (s : ServerPortData) (m : CaproMessage) :
    (s.dispatchCaProMessageAndGetPossibleResponse n j m).port.toBasePortData =
      s.toBasePortData := by
  unfold dispatchCaProMessageAndGetPossibleResponse
  split
  · unfold handleCaProMessageForStateOffered
    split
    · rfl
    · rfl
    · split
      · rfl
      · split <;> rfl
    · split
      · rfl
      · split <;> rfl
    · rfl
  · unfold handleCaProMessageForStateNotOffered
    split <;> rfl

theorem ServerPortData.tryGet_base (n j : Nat) (s : ServerPortData) :
    (s.tryGetCaProMessage n j).port.toBasePortData = s.toBasePortData := by
  rcases s.tryGet_cases n j with h | ⟨-, m, h, -⟩ | ⟨-, m, h, -⟩ <;> rw [h]

theorem InterfacePortData.dispatch_base (fifoSize : Nat) (p : InterfacePortData)
    (m : CaproMessage) :
    (p.dispatchCaProMessage fifoSize m).port.toBasePortData = p.toBasePortData := by
  unfold dispatchCaProMessage
  simp only
  split
  · rfl
  · split <;> rfl

end Iceoryx.Popo
