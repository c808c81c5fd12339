import Mathlib.Data.List.TakeWhile
import Iceoryx.Lib.Rendezvous
import Iceoryx.Popo.PortLaws
import Iceoryx.Roudi.Operations

namespace Iceoryx.Roudi.PortManager

open Capro Popo Lib.Rendezvous

variable {cfg : Config} {pm : PortManager} {i j : Nat} {p p' : PublisherPortData}
  {s s' : SubscriberPortData} {m : CaproMessage}

def pubSub : Lib.Rendezvous PublisherPortData SubscriberPortData (String × String × String)
    QueuePtr where
  offered p := p.offered
  queues p := p.queues
  connected s := decide (s.subscriptionState = .subscribed)
  compatible := isCompatiblePubSub
  providerKey p := p.serviceDescription.key
  consumerKey s := s.serviceDescription.key
  name := .subscriber
  name_injective _ _ h := QueuePtr.subscriber.inj h
  key_eq h := by
    simp only [isCompatiblePubSub, Bool.and_eq_true, decide_eq_true_eq] at h
    exact h.1.symm

theorem samePublisher (hd : p'.serviceDescription = p.serviceDescription)
    (ho : p'.options = p.options) : pubSub.SameProvider p p' := by
  refine ⟨?_, ?_⟩
  · intro s
    simp [pubSub, isCompatiblePubSub, hd, ho]
  · simp [pubSub, hd]

theorem sameSubscriber (hd : s'.serviceDescription = s.serviceDescription)
    (ho : s'.options = s.options) : pubSub.SameConsumer s s' := by
  intro p
  simp [pubSub, isCompatiblePubSub, hd, ho]

theorem publishers_get_setPublisher (hp : pm.publishers.get i = some p) (p' : PublisherPortData) :
    (pm.setPublisher i p').publishers.get = Function.update pm.publishers.get i (some p') :=
  pm.publishers.get_modify_eq _ hp

theorem subscribers_get_setSubscriber (hs : pm.subscribers.get j = some s)
    (s' : SubscriberPortData) :
    (pm.setSubscriber j s').subscribers.get = Function.update pm.subscribers.get j (some s') :=
  pm.subscribers.get_modify_eq _ hs

theorem subscribers_get_setSubscriber_again {S : Nat → Option SubscriberPortData}
    {s₁ : SubscriberPortData} (h : pm.subscribers.get = Function.update S j (some s₁))
    (s' : SubscriberPortData) :
    (pm.setSubscriber j s').subscribers.get = Function.update S j (some s') := by
  rw [subscribers_get_setSubscriber (show pm.subscribers.get j = some s₁ by simp [h]), h,
    Function.update_idem]

theorem setPublisher_self (hp : pm.publishers.get i = some p) :
    (pm.setPublisher i p).publishers.get = pm.publishers.get := by
  rw [publishers_get_setPublisher hp]
  exact Function.update_eq_self_iff.mpr hp.symm

theorem setSubscriber_self (hs : pm.subscribers.get j = some s) :
    (pm.setSubscriber j s).subscribers.get = pm.subscribers.get := by
  rw [subscribers_get_setSubscriber hs]
  exact Function.update_eq_self_iff.mpr hs.symm

theorem sendToPublisherPort_skip {acc : PortManager × Bool}
    (h : ∀ p s, acc.1.publishers.get i = some p → acc.1.subscribers.get j = some s →
      isCompatiblePubSub p s = false) : sendToPublisherPort cfg m j acc i = acc := by
  obtain ⟨pm, b⟩ := acc
  unfold sendToPublisherPort
  simp only
  split
  · next p s hp hs => simp [h p s hp hs]
  · rfl

theorem sendToPublisherPort_cases (cfg : Config) (m : CaproMessage) (j : Nat)
    (acc : PortManager × Bool) (i : Nat) :
    (∃ p s, acc.1.publishers.get i = some p ∧ acc.1.subscribers.get j = some s ∧
      isCompatiblePubSub p s = true) ∨
    sendToPublisherPort cfg m j acc i = acc ∧
      ∀ p s, acc.1.publishers.get i = some p → acc.1.subscribers.get j = some s →
        isCompatiblePubSub p s = false := by
  by_cases hex : ∃ p s, acc.1.publishers.get i = some p ∧ acc.1.subscribers.get j = some s ∧
      isCompatiblePubSub p s = true
  · exact Or.inl hex
  · have hincomp : ∀ p s, acc.1.publishers.get i = some p → acc.1.subscribers.get j = some s →
        isCompatiblePubSub p s = false := by
      intro p s hp hs
      exact Bool.eq_false_iff.mpr fun hcomp => hex ⟨p, s, hp, hs, hcomp⟩
    exact Or.inr ⟨sendToPublisherPort_skip hincomp, hincomp⟩

theorem sendToPublisherPort_eq (hp : pm.publishers.get i = some p)
    (hs : pm.subscribers.get j = some s) (hcomp : isCompatiblePubSub p s = true) (b : Bool)
    {r : Reaction PublisherPortData} {a : CaproMessage}
    (hr : p.dispatchCaProMessageAndGetPossibleResponse cfg.maxSubscribersPerPublisher m = r)
    (ha : r.response = some a) {r' : Reaction SubscriberPortData}
    (hr' : s.dispatchCaProMessageAndGetPossibleResponse cfg.communicationPolicy j a = r') :
    sendToPublisherPort cfg m j (pm, b) i =
      ((((pm.setPublisher i r.port).report r.failures).setSubscriber j r'.port).report
        (r'.failures ++ expects r'.response.isNone), true) := by
  simp [sendToPublisherPort, hp, hs, hcomp, hr, ha, hr']

theorem dispatch_sub (n : Nat) (hm : m.type = .sub)
    (hq : m.chunkQueueData = some (.subscriber j)) :
    (p.offered = true ∧ ∃ qs, tryAddQueue n p.queues (.subscriber j) = some qs ∧
      ∃ a, p.dispatchCaProMessageAndGetPossibleResponse n m =
        { port := { p with queues := qs }, response := some a } ∧ a.type = .ack) ∨
    (p.offered = true ∧ tryAddQueue n p.queues (.subscriber j) = none ∧
      ∃ a, p.dispatchCaProMessageAndGetPossibleResponse n m =
        { port := p, response := some a, failures := [overflowOfQueueContainer] } ∧
        a.type = .nack) ∨
    (p.offered = false ∧ ∃ a, p.dispatchCaProMessageAndGetPossibleResponse n m =
        { port := p, response := some a } ∧ a.type = .nack) := by
  unfold PublisherPortData.dispatchCaProMessageAndGetPossibleResponse
  cases hoff : p.offered with
  | false => simp
  | true =>
    cases hadd : tryAddQueue n p.queues (.subscriber j) with
    | none => simp [hm, hq, hadd]
    | some qs => simp [hm, hq, hadd]

theorem dispatch_unsub (n : Nat) (hm : m.type = .unsub)
    (hq : m.chunkQueueData = some (.subscriber j)) :
    (p.offered = true ∧ ∃ a, p.dispatchCaProMessageAndGetPossibleResponse n m =
        { port := { p with queues := p.queues.erase (.subscriber j) }, response := some a } ∧
      (a.type = .ack ∨ a.type = .nack)) ∨
    (p.offered = false ∧ ∃ a, p.dispatchCaProMessageAndGetPossibleResponse n m =
        { port := p, response := some a } ∧ a.type = .nack) := by
  unfold PublisherPortData.dispatchCaProMessageAndGetPossibleResponse
  cases hoff : p.offered with
  | false => simp
  | true =>
    by_cases hmem : .subscriber j ∈ p.queues
    · simp [hm, hq, tryRemoveQueue, hmem]
    · simp [hm, hq, tryRemoveQueue, hmem, List.erase_of_not_mem hmem]
      exact hoff.symm ▸ rfl

theorem sendToSubscriberPort_skip
    (h : ∀ p s, pm.publishers.get i = some p → pm.subscribers.get j = some s →
      isCompatiblePubSub p s = false) : sendToSubscriberPort cfg m i pm j = pm := by
  unfold sendToSubscriberPort
  split
  · next p s hp hs => simp [h p s hp hs]
  · rfl

theorem sendToSubscriberPort_cases (cfg : Config) (m : CaproMessage) (i : Nat) (pm : PortManager)
    (j : Nat) :
    (∃ p s, pm.publishers.get i = some p ∧ pm.subscribers.get j = some s ∧
      isCompatiblePubSub p s = true) ∨
    sendToSubscriberPort cfg m i pm j = pm ∧
      ∀ p s, pm.publishers.get i = some p → pm.subscribers.get j = some s →
        isCompatiblePubSub p s = false := by
  by_cases hex : ∃ p s, pm.publishers.get i = some p ∧ pm.subscribers.get j = some s ∧
      isCompatiblePubSub p s = true
  · exact Or.inl hex
  · have hincomp : ∀ p s, pm.publishers.get i = some p → pm.subscribers.get j = some s →
        isCompatiblePubSub p s = false := by
      intro p s hp hs
      exact Bool.eq_false_iff.mpr fun hcomp => hex ⟨p, s, hp, hs, hcomp⟩
    exact Or.inr ⟨sendToSubscriberPort_skip hincomp, hincomp⟩

theorem sendToSubscriberPort_silent (hp : pm.publishers.get i = some p)
    (hs : pm.subscribers.get j = some s) (hcomp : isCompatiblePubSub p s = true)
    (s' : SubscriberPortData) (fs : List Failure)
    (hr : s.dispatchCaProMessageAndGetPossibleResponse cfg.communicationPolicy j m =
      { port := s', failures := fs }) :
    sendToSubscriberPort cfg m i pm j = (pm.setSubscriber j s').report fs := by
  simp [sendToSubscriberPort, hp, hs, hcomp, hr]

theorem sendToSubscriberPort_sub (hp : pm.publishers.get i = some p)
    (hs : pm.subscribers.get j = some s) (hcomp : isCompatiblePubSub p s = true)
    (hm : m.type = .offer) {s₁ : SubscriberPortData}
    (hr : s.dispatchCaProMessageAndGetPossibleResponse cfg.communicationPolicy j m =
      { port := s₁, response := some (s.subMessage j) })
    {r : Reaction PublisherPortData} {a : CaproMessage}
    (hr' : p.dispatchCaProMessageAndGetPossibleResponse cfg.maxSubscribersPerPublisher
      (s.subMessage j) = r) (ha : r.response = some a) {r' : Reaction SubscriberPortData}
    (hr'' : s₁.dispatchCaProMessageAndGetPossibleResponse cfg.communicationPolicy j a = r') :
    sendToSubscriberPort cfg m i pm j =
      (((((pm.setSubscriber j s₁).report []).setPublisher i r.port).report
        r.failures).setSubscriber j r'.port).report (r'.failures ++ expects r'.response.isNone) := by
  have hexpects : expects (decide (m.type = .offer)) = [] := by simp [expects, hm]
  simp [sendToSubscriberPort, hp, hs, hcomp, hr, hr', ha, hr'', hexpects]

def Internal : Op → Prop
  | .acquirePublisherPortData service _ _ => service.interfaceSource = .internal
  | .acquireSubscriberPortData service _ _ => service.interfaceSource = .internal
  | _ => True

instance decidableInternal : DecidablePred Internal
  | .acquirePublisherPortData service _ _ =>
    inferInstanceAs (Decidable (service.interfaceSource = .internal))
  | .acquireSubscriberPortData service _ _ =>
    inferInstanceAs (Decidable (service.interfaceSource = .internal))
  | .acquireClientPortData .. | .acquireServerPortData .. | .acquireInterfacePortData ..
  | .acquireNodeData .. | .acquireConditionVariableData .. | .doDiscovery
  | .destroyPublisherPort _ | .destroySubscriberPort _ | .destroyClientPort _
  | .destroyServerPort _ | .deletePortsOfProcess _ | .unblockProcessShutdown _
  | .unblockRouDiShutdown | .writePublisher .. | .writeSubscriber .. | .writeClient ..
  | .writeServer .. | .writeInterface .. | .writeNode .. | .writeConditionVariable .. =>
    inferInstanceAs (Decidable True)

/-- All ports of the pool belong to the internal interface, so that no loop has a `break`. -/
structure AllInternal (P : Nat → Option PublisherPortData) (S : Nat → Option SubscriberPortData) :
    Prop where
  publishers : ∀ {i p}, P i = some p → p.serviceDescription.interfaceSource = .internal
  subscribers : ∀ {j s}, S j = some s → s.serviceDescription.interfaceSource = .internal

namespace AllInternal

variable {P : Nat → Option PublisherPortData} {S : Nat → Option SubscriberPortData}

theorem updatePublisher (h : AllInternal P S)
    (hp : p'.serviceDescription.interfaceSource = .internal) :
    AllInternal (Function.update P i (some p')) S where
  publishers := by
    intro k t hk
    by_cases hki : k = i
    · subst hki
      simp only [Function.update_self, Option.some.injEq] at hk
      subst hk
      exact hp
    · rw [Function.update_of_ne hki] at hk
      exact h.publishers hk
  subscribers := h.subscribers

theorem updateSubscriber (h : AllInternal P S)
    (hs : s'.serviceDescription.interfaceSource = .internal) :
    AllInternal P (Function.update S j (some s')) where
  publishers := h.publishers
  subscribers := by
    intro k t hk
    by_cases hkj : k = j
    · subst hkj
      simp only [Function.update_self, Option.some.injEq] at hk
      subst hk
      exact hs
    · rw [Function.update_of_ne hkj] at hk
      exact h.subscribers hk

theorem erasePublisher (h : AllInternal P S) (i : Nat) :
    AllInternal (Function.update P i none) S where
  publishers := by
    intro k t hk
    by_cases hki : k = i
    · subst hki
      simp at hk
    · rw [Function.update_of_ne hki] at hk
      exact h.publishers hk
  subscribers := h.subscribers

theorem eraseSubscriber (h : AllInternal P S) (j : Nat) :
    AllInternal P (Function.update S j none) where
  publishers := h.publishers
  subscribers := by
    intro k t hk
    by_cases hkj : k = j
    · subst hkj
      simp at hk
    · rw [Function.update_of_ne hkj] at hk
      exact h.subscribers hk

theorem reachedPublishers (h : AllInternal pm.publishers.get S) (m : CaproMessage) :
    reachedPublishers m pm = pm.publishers.content := by
  unfold PortManager.reachedPublishers
  rw [List.takeWhile_eq_self_iff]
  intro i _
  cases hp : pm.publishers.get i with
  | none => rfl
  | some p => simp [isCyclic, h.publishers hp]

theorem reachedSubscribers (h : AllInternal P pm.subscribers.get) (m : CaproMessage) :
    reachedSubscribers m pm = pm.subscribers.content := by
  unfold PortManager.reachedSubscribers
  rw [List.takeWhile_eq_self_iff]
  intro j _
  cases hs : pm.subscribers.get j with
  | none => rfl
  | some s => simp [isCyclic, h.subscribers hs]

end AllInternal

structure SamePubSub (pm pm' : PortManager) : Prop where
  publishers : pm'.publishers = pm.publishers
  subscribers : pm'.subscribers = pm.subscribers

namespace SamePubSub

variable {pm' pm'' : PortManager}

theorem refl (pm : PortManager) : SamePubSub pm pm := ⟨rfl, rfl⟩

theorem trans (h : SamePubSub pm pm') (h' : SamePubSub pm' pm'') : SamePubSub pm pm'' :=
  ⟨h'.publishers.trans h.publishers, h'.subscribers.trans h.subscribers⟩

theorem of_core (h : SameCore pm pm') : SamePubSub pm pm' := ⟨h.publishers, h.subscribers⟩

theorem of_ports (h : SamePorts pm pm') : SamePubSub pm pm' := ⟨h.publishers, h.subscribers⟩

theorem sendToServerPort (m : CaproMessage) (i : Nat) (acc : PortManager × Bool) (j : Nat) :
    SamePubSub acc.1 (sendToServerPort cfg m i acc j).1 := by
  obtain ⟨pm, b⟩ := acc
  unfold PortManager.sendToServerPort
  simp only
  split
  · split
    · split <;> exact ⟨rfl, rfl⟩
    · exact refl pm
  · exact refl pm

theorem sendToAllMatchingServerPorts (cfg : Config) (m : CaproMessage) (i : Nat)
    (pm : PortManager) : SamePubSub pm (sendToAllMatchingServerPorts cfg m i pm).1 := by
  unfold PortManager.sendToAllMatchingServerPorts
  exact Lib.foldl_invariant (I := fun acc : PortManager × Bool => SamePubSub pm acc.1) _ _
    (fun acc j _ h => h.trans (sendToServerPort m i acc j)) (refl pm)

theorem sendToClientPort (m : CaproMessage) (j : Nat) (pm : PortManager) (i : Nat) :
    SamePubSub pm (sendToClientPort cfg m j pm i) := by
  unfold PortManager.sendToClientPort
  split
  · split
    · simp only
      split
      · exact ⟨rfl, rfl⟩
      · split <;> exact ⟨rfl, rfl⟩
    · exact refl pm
  · exact refl pm

theorem forwardServerMessage (cfg : Config) (m : CaproMessage) (j : Nat) (pm : PortManager) :
    SamePubSub pm (forwardServerMessage cfg m j pm) := by
  refine trans ?_ (of_core (SameCore.sendToAllMatchingInterfacePorts cfg m _))
  unfold sendToAllMatchingClientPorts
  split
  · exact refl pm
  · exact Lib.foldl_invariant (I := SamePubSub pm) _ _
      (fun pm' i _ h => h.trans (sendToClientPort m j pm' i)) ⟨rfl, rfl⟩

theorem discoverServer (j : Nat) (pm : PortManager) :
    SamePubSub pm (doDiscoveryForServerPort cfg j pm) := by
  unfold doDiscoveryForServerPort
  split
  · exact refl pm
  · simp only
    split
    · exact ⟨rfl, rfl⟩
    · split
      · refine trans ?_ (forwardServerMessage cfg _ j _)
        refine trans ?_ (of_ports (SamePorts.addToServiceRegistry cfg _ _ _))
        exact ⟨rfl, rfl⟩
      · refine trans ?_ (forwardServerMessage cfg _ j _)
        exact ⟨rfl, rfl⟩
      · exact ⟨rfl, rfl⟩

theorem destroyServer (j : Nat) (pm : PortManager) :
    SamePubSub pm (destroyServerPort cfg j pm) := by
  unfold destroyServerPort
  split
  · exact refl pm
  · simp only
    split
    · exact ⟨rfl, rfl⟩
    · next m _ =>
      have hsame := forwardServerMessage cfg m j
      exact ⟨(hsame _).publishers, (hsame _).subscribers⟩

theorem discoverClient (i : Nat) (pm : PortManager) :
    SamePubSub pm (doDiscoveryForClientPort cfg i pm) := by
  unfold doDiscoveryForClientPort
  split
  · exact refl pm
  · simp only
    split
    · exact ⟨rfl, rfl⟩
    · next m _ =>
      split
      · have hsend := fun pm => sendToAllMatchingServerPorts cfg m i pm
        split
        · exact ⟨(hsend _).publishers, (hsend _).subscribers⟩
        · unfold nackClient
          split
          · exact ⟨(hsend _).publishers, (hsend _).subscribers⟩
          · exact ⟨(hsend _).publishers, (hsend _).subscribers⟩
      · exact ⟨rfl, rfl⟩

theorem destroyClient (i : Nat) (pm : PortManager) :
    SamePubSub pm (destroyClientPort cfg i pm) := by
  unfold destroyClientPort
  split
  · exact refl pm
  · simp only
    split
    · exact ⟨rfl, rfl⟩
    · next m _ =>
      have hsend := fun pm => sendToAllMatchingServerPorts cfg m i pm
      exact ⟨(hsend _).publishers, (hsend _).subscribers⟩

theorem findServerInUse (service : ServiceDescription) (js : List Nat) (pm : PortManager) :
    SamePubSub pm (findServerInUse cfg service js pm).1 := by
  induction js generalizing pm with
  | nil => exact refl pm
  | cons j js ih =>
    unfold PortManager.findServerInUse
    split
    · exact ih pm
    · split
      · split
        · exact trans (destroyServer j pm) (ih _)
        · exact refl pm
      · exact ih pm

end SamePubSub

end Iceoryx.Roudi.PortManager
