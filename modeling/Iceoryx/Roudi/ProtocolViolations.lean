import Iceoryx.Roudi.ClientServer
import Iceoryx.Roudi.OneToMany

namespace Iceoryx.Roudi.PortManager

open Capro Popo

variable {cfg : Config} {pm pm' pm'' : PortManager} {i j : Nat} {p : PublisherPortData}
  {s : SubscriberPortData} {m : CaproMessage}

def Binary (S : Nat → Option SubscriberPortData) : Prop :=
  ∀ j s, S j = some s → s.subscriptionState = .notSubscribed ∨ s.subscriptionState = .subscribed

structure Silent (pm pm' : PortManager) : Prop where
  subscribers : pm'.subscribers.get = pm.subscribers.get
  adds : Adds pm pm' False

namespace Silent

theorem refl (pm : PortManager) : Silent pm pm := ⟨rfl, Adds.refl pm⟩

theorem trans (h : Silent pm pm') (h' : Silent pm' pm'') : Silent pm pm'' :=
  ⟨h'.subscribers.trans h.subscribers, h.adds.trans h'.adds⟩

theorem of_core (h : SameCore pm pm') : Silent pm pm' := ⟨by rw [h.subscribers], h.adds⟩

theorem of_eq (hs : pm'.subscribers = pm.subscribers) (hf : pm'.failures = pm.failures) :
    Silent pm pm' := ⟨by rw [hs], Adds.of_eq hf⟩

theorem report {fs : List Failure} (h : ∀ f ∈ fs, Benign f) (pm : PortManager) :
    Silent pm (pm.report fs) := ⟨rfl, Adds.report (fun f hf => Or.inl (h f hf)) pm⟩

theorem of_ports (h : SamePorts pm pm') : Silent pm pm' := ⟨by rw [h.subscribers], h.adds _⟩

theorem setPublisher (i : Nat) (p : PublisherPortData) (pm : PortManager) :
    Silent pm (pm.setPublisher i p) := of_eq rfl rfl

theorem setSubscriber (hs : pm.subscribers.get j = some s) : Silent pm (pm.setSubscriber j s) :=
  ⟨setSubscriber_self hs, Adds.of_eq rfl⟩

theorem binary (h : Silent pm pm') (hbin : Binary pm.subscribers.get) :
    Binary pm'.subscribers.get := by
  rw [h.subscribers]
  exact hbin

end Silent

theorem publisher_dispatch_benign (n : Nat) (hm : m.type = .sub ∨ m.type = .unsub)
    (hq : m.chunkQueueData.isSome = true) :
    ∀ f ∈ (p.dispatchCaProMessageAndGetPossibleResponse n m).failures, Benign f := by
  intro f hf
  obtain ⟨q, hq⟩ := Option.isSome_iff_exists.mp hq
  unfold PublisherPortData.dispatchCaProMessageAndGetPossibleResponse at hf
  simp only [hq] at hf
  split at hf
  · obtain hm | hm := hm
    · simp only [hm] at hf
      split at hf
      · simp at hf
      · simp only [List.mem_singleton] at hf
        subst hf
        exact trivial
    · simp only [hm] at hf
      split at hf <;> simp at hf
  · simp at hf

theorem Silent.request (p : PublisherPortData) (hm : m.type = .sub ∨ m.type = .unsub)
    (hq : m.chunkQueueData.isSome = true) (n i : Nat) (pm : PortManager) :
    Silent pm ((pm.setPublisher i (p.dispatchCaProMessageAndGetPossibleResponse n m).port).report
      (p.dispatchCaProMessageAndGetPossibleResponse n m).failures) :=
  (setPublisher i _ pm).trans (report (publisher_dispatch_benign n hm hq) _)

theorem Binary.setSubscriber (hbin : Binary pm.subscribers.get)
    (hs : pm.subscribers.get j = some s) {s' : SubscriberPortData}
    (hstate : s'.subscriptionState = .notSubscribed ∨ s'.subscriptionState = .subscribed) :
    Binary (pm.setSubscriber j s').subscribers.get := by
  rw [subscribers_get_setSubscriber hs]
  intro k t hk
  obtain ⟨rfl, rfl⟩ | ⟨-, hk⟩ := Lib.update_some_eq.mp hk
  · exact hstate
  · exact hbin k t hk

section ManyToMany

variable (hpolicy : cfg.communicationPolicy = .manyToMany)
include hpolicy

theorem multi_dispatch (hbin : s.subscriptionState = .notSubscribed ∨
      s.subscriptionState = .subscribed)
    (hm : m.type = .offer ∨ m.type = .stopOffer ∨ m.type = .ack ∨ m.type = .nack) (j : Nat) :
    (s.dispatchCaProMessageAndGetPossibleResponse cfg.communicationPolicy j m).port = s ∧
      (s.dispatchCaProMessageAndGetPossibleResponse cfg.communicationPolicy j m).failures = [] := by
  unfold SubscriberPortData.dispatchCaProMessageAndGetPossibleResponse
  simp only [hpolicy]
  unfold SubscriberPortData.dispatchMulti
  split <;> simp_all

theorem Silent.answer (hs : pm.subscribers.get j = some s) (hbin : Binary pm.subscribers.get)
    (hm : m.type = .ack ∨ m.type = .nack) {r : Reaction SubscriberPortData}
    (hr : s.dispatchCaProMessageAndGetPossibleResponse cfg.communicationPolicy j m = r) :
    Silent pm ((pm.setSubscriber j r.port).report (r.failures ++ expects r.response.isNone)) := by
  obtain ⟨hport, hfailures⟩ := multi_dispatch hpolicy (hbin j s hs) (Or.inr (Or.inr hm)) j
  have hnone := s.dispatch_response_of_ne cfg.communicationPolicy j (m := m)
    (by obtain h | h := hm <;> simp [h])
  rw [hr] at hport hfailures hnone
  rw [hport, hfailures, hnone]
  exact (Silent.setSubscriber hs).trans (Silent.report (by simp [expects]) _)

theorem Silent.sendToPublisherPort (hm : m.type = .sub ∨ m.type = .unsub)
    (hq : m.chunkQueueData.isSome = true) (acc : PortManager × Bool)
    (hbin : Binary acc.1.subscribers.get) (i : Nat) :
    Silent acc.1 (sendToPublisherPort cfg m j acc i).1 := by
  obtain ⟨pm, b⟩ := acc
  unfold PortManager.sendToPublisherPort
  simp only
  split
  · next p s _ hs =>
    split
    · obtain ⟨a, ha, htype⟩ := p.dispatch_response cfg.maxSubscribersPerPublisher m
      simp only [ha]
      have hset := request p hm hq cfg.maxSubscribersPerPublisher i pm
      refine hset.trans (answer hpolicy ?_ (hset.binary hbin) htype rfl)
      rw [hset.subscribers]
      exact hs
    · exact refl pm
  · exact refl pm

theorem Silent.sendToAllMatchingPublisherPorts (hm : m.type = .sub ∨ m.type = .unsub)
    (hq : m.chunkQueueData.isSome = true) (j : Nat) (pm : PortManager)
    (hbin : Binary pm.subscribers.get) :
    Silent pm (sendToAllMatchingPublisherPorts cfg m j pm).1 := by
  unfold PortManager.sendToAllMatchingPublisherPorts
  exact Lib.foldl_invariant (I := fun acc : PortManager × Bool => Silent pm acc.1) _ _
    (fun acc i _ h => h.trans (sendToPublisherPort hpolicy hm hq acc (h.binary hbin) i)) (refl pm)

theorem Silent.sendToSubscriberPort (hm : m.type = .offer ∨ m.type = .stopOffer) (i : Nat)
    (pm : PortManager) (hbin : Binary pm.subscribers.get) (j : Nat) :
    Silent pm (sendToSubscriberPort cfg m i pm j) := by
  unfold PortManager.sendToSubscriberPort
  split
  · next p s _ hs =>
    split
    · obtain ⟨hport, hfailures⟩ := multi_dispatch hpolicy (hbin j s hs)
        (hm.imp_right Or.inl) j
      have hset : Silent pm ((pm.setSubscriber j s).report []) :=
        (setSubscriber hs).trans (report (by simp) _)
      simp only [hport, hfailures]
      split
      · exact hset
      · next response hresponse =>
        obtain ⟨hoffer, rfl⟩ := SubscriberPortData.dispatch_response hresponse
        obtain ⟨a, ha, htype⟩ :=
          p.dispatch_response cfg.maxSubscribersPerPublisher (s.subMessage j)
        have hexpects : expects (decide (m.type = .offer)) = [] := by simp [expects, hoffer]
        simp only [ha, hexpects, List.nil_append]
        have hask : Silent pm _ := hset.trans (request p (m := s.subMessage j) (Or.inl rfl) rfl
          cfg.maxSubscribersPerPublisher i _)
        refine hask.trans (answer hpolicy ?_ (hask.binary hbin) htype rfl)
        rw [hask.subscribers]
        exact hs
    · exact refl pm
  · exact refl pm

theorem Silent.forwardPublisherMessage (hm : m.type = .offer ∨ m.type = .stopOffer) (i : Nat)
    (pm : PortManager) (hbin : Binary pm.subscribers.get) :
    Silent pm (forwardPublisherMessage cfg m i pm) := by
  refine trans ?_ (of_core (SameCore.sendToAllMatchingInterfacePorts cfg m _))
  unfold sendToAllMatchingSubscriberPorts
  split
  · exact refl pm
  · exact Lib.foldl_invariant (I := Silent pm) _ _
      (fun pm' j _ h => h.trans (sendToSubscriberPort hpolicy hm i pm' (h.binary hbin) j))
      (of_eq rfl rfl)

theorem Silent.discoverPublisher (i : Nat) (hbin : Binary pm.subscribers.get) :
    Silent pm (doDiscoveryForPublisherPort cfg i pm) := by
  unfold doDiscoveryForPublisherPort
  split
  · exact refl pm
  · next p _ =>
    obtain htry | ⟨-, m, htry, hm, -⟩ | ⟨-, m, htry, hm, -⟩ := p.tryGet_cases
    · rw [htry]
      exact (setPublisher i _ pm).trans (report (by simp) _)
    · rw [htry]
      simp only [hm]
      have hports := SamePorts.addToServiceRegistry cfg .publisherCount m.serviceDescription
        ((pm.setPublisher i { p with offered := true }).report [])
      have hadd : Silent pm (addToServiceRegistry cfg .publisherCount m.serviceDescription
          ((pm.setPublisher i { p with offered := true }).report [])) := by
        exact ((setPublisher i _ pm).trans (report (by simp) _)).trans (of_ports hports)
      exact hadd.trans (forwardPublisherMessage hpolicy (Or.inl hm) i _ (hadd.binary hbin))
    · rw [htry]
      simp only [hm]
      have hremove : Silent pm (removePublisherFromServiceRegistry m.serviceDescription
          ((pm.setPublisher i { p with offered := false, queues := [] }).report [])) :=
        of_eq rfl (by simp [removePublisherFromServiceRegistry, PortManager.report,
          PortManager.setPublisher])
      exact hremove.trans (forwardPublisherMessage hpolicy (Or.inr hm) i _ hbin)

theorem Silent.destroyPublisher (i : Nat) (hbin : Binary pm.subscribers.get) :
    Silent pm (destroyPublisherPort cfg i pm) := by
  unfold destroyPublisherPort
  split
  · exact refl pm
  · next p _ =>
    obtain ⟨-, htry⟩ | ⟨-, m, htry, hm, -⟩ := p.tryGet_stopOffer
    · rw [htry]
      exact of_eq rfl (by simp [PortManager.report, PortManager.setPublisher])
    · rw [htry]
      have hfwd := forwardPublisherMessage hpolicy (Or.inr hm) i
        (removePublisherFromServiceRegistry m.serviceDescription
          (((pm.setPublisher i { p.stopOffer with offered := false, queues := [] }).report
            []).report (expects (decide (m.type = .stopOffer))))) hbin
      refine ⟨hfwd.subscribers, Adds.trans (Adds.of_eq ?_) hfwd.adds⟩
      simp [removePublisherFromServiceRegistry, PortManager.report, PortManager.setPublisher,
        expects, hm]

theorem multi_tryGet (hbin : s.subscriptionState = .notSubscribed ∨
    s.subscriptionState = .subscribed) (j : Nat) :
    ∃ state, (s.tryGetCaProMessage cfg.communicationPolicy j).port = s.toState state ∧
      (state = .notSubscribed ∨ state = .subscribed) := by
  unfold SubscriberPortData.tryGetCaProMessage
  simp only [hpolicy]
  unfold SubscriberPortData.tryGetCaProMessageMulti
  split
  · exact ⟨.subscribed, rfl, Or.inr rfl⟩
  · exact ⟨.notSubscribed, rfl, Or.inl rfl⟩
  · exact ⟨s.subscriptionState, rfl, hbin⟩

theorem discoverSubscriber_binary (j : Nat) (hbin : Binary pm.subscribers.get) :
    Binary (doDiscoveryForSubscriberPort cfg j pm).subscribers.get ∧
      Adds pm (doDiscoveryForSubscriberPort cfg j pm) False := by
  unfold doDiscoveryForSubscriberPort
  split
  · exact ⟨hbin, Adds.refl pm⟩
  · next s hs =>
    obtain ⟨state, hport, hstate⟩ := multi_tryGet hpolicy (hbin j s hs) j
    simp only [hport, SubscriberPortData.tryGet_failures]
    have hset : Binary ((pm.setSubscriber j (s.toState state)).report []).subscribers.get :=
      hbin.setSubscriber hs hstate
    have hadds : Adds pm ((pm.setSubscriber j (s.toState state)).report []) False :=
      Adds.of_eq (by simp [report, setSubscriber])
    split
    · exact ⟨hset, hadds⟩
    · next m hm =>
      have htype : (m.type = .sub ∨ m.type = .unsub) ∧ m.chunkQueueData.isSome = true := by
        obtain ⟨rfl, -⟩ | ⟨rfl, -⟩ := SubscriberPortData.tryGet_response hm
        · exact ⟨Or.inl rfl, rfl⟩
        · exact ⟨Or.inr rfl, rfl⟩
      simp only [htype.1, if_true]
      have hsend := Silent.sendToAllMatchingPublisherPorts hpolicy htype.1 htype.2 j _ hset
      split
      · exact ⟨hsend.binary hset, hadds.trans hsend.adds⟩
      · unfold nackSubscriber
        split
        · exact ⟨hsend.binary hset, hadds.trans hsend.adds⟩
        · next t ht =>
          have hnack := Silent.answer hpolicy ht (hsend.binary hset)
            (m := { type := .nack, serviceDescription := t.serviceDescription }) (Or.inr rfl) rfl
          exact ⟨hnack.binary (hsend.binary hset), (hadds.trans hsend.adds).trans hnack.adds⟩

theorem destroySubscriber_binary (j : Nat) (hbin : Binary pm.subscribers.get) :
    Binary (destroySubscriberPort cfg j pm).subscribers.get ∧
      Adds pm (destroySubscriberPort cfg j pm) False := by
  have herase : ∀ pm' : PortManager, Binary pm'.subscribers.get →
      Binary (pm'.subscribers.erase j).get := by
    intro pm' h k t hk
    rw [pm'.subscribers.get_erase_eq] at hk
    exact h k t (Lib.update_none_eq.mp hk).2
  unfold destroySubscriberPort
  split
  · exact ⟨hbin, Adds.refl pm⟩
  · next s hs =>
    have hbin' : s.unsubscribe.subscriptionState = .notSubscribed ∨
        s.unsubscribe.subscriptionState = .subscribed := hbin j s hs
    obtain ⟨state, hport, hstate⟩ := multi_tryGet hpolicy hbin' j
    simp only [hport, SubscriberPortData.tryGet_failures]
    have hset : Binary ((pm.setSubscriber j (s.unsubscribe.toState state)).report
        []).subscribers.get := hbin.setSubscriber hs hstate
    have hadds : Adds pm ((pm.setSubscriber j (s.unsubscribe.toState state)).report []) False :=
      Adds.of_eq (by simp [report, setSubscriber])
    split
    · exact ⟨herase _ hset, hadds⟩
    · next m hm =>
      obtain ⟨rfl, hreq⟩ | ⟨rfl, -⟩ := SubscriberPortData.tryGet_response hm
      · simp [SubscriberPortData.unsubscribe] at hreq
      · have hexpects : expects (decide ((s.unsubscribe.unsubMessage j).type = .unsub)) = [] := rfl
        rw [hexpects]
        have hreport : Adds pm (((pm.setSubscriber j (s.unsubscribe.toState state)).report
            []).report []) False := hadds.trans (Adds.of_eq (by simp [report]))
        have hsend := Silent.sendToAllMatchingPublisherPorts hpolicy
          (m := s.unsubscribe.unsubMessage j) (Or.inr rfl) rfl j
          (((pm.setSubscriber j (s.unsubscribe.toState state)).report []).report []) hset
        exact ⟨herase _ (hsend.binary hset), hreport.trans hsend.adds⟩

end ManyToMany

def Grows (pm pm' : PortManager) : Prop := ∃ bs, pm'.broadcasts = pm.broadcasts ++ bs

namespace Grows

theorem of_eq (h : pm'.broadcasts = pm.broadcasts) : Grows pm pm' := ⟨[], by simp [h]⟩

theorem refl (pm : PortManager) : Grows pm pm := of_eq rfl

theorem trans (h : Grows pm pm') (h' : Grows pm' pm'') : Grows pm pm'' := by
  obtain ⟨bs, hbs⟩ := h
  obtain ⟨cs, hcs⟩ := h'
  exact ⟨bs ++ cs, by rw [hcs, hbs, List.append_assoc]⟩

theorem loud (h : Grows pm pm') (hloud : Loud cfg pm) : Loud cfg pm' := by
  obtain ⟨bs, hbs⟩ := h
  obtain ⟨b, hb, hquiet⟩ := hloud
  exact ⟨b, by rw [hbs]; exact List.mem_append_left bs hb, hquiet⟩

theorem forwardPublisherMessage (cfg : Config) (m : CaproMessage) (i : Nat) (pm : PortManager) :
    Grows pm (forwardPublisherMessage cfg m i pm) := by
  cases hp : pm.publishers.get i with
  | none =>
    apply of_eq
    unfold PortManager.forwardPublisherMessage
    rw [(SameCore.sendToAllMatchingInterfacePorts cfg m _).broadcasts]
    simp [sendToAllMatchingSubscriberPorts, hp]
  | some p => exact ⟨_, broadcasts_forwardPublisherMessage cfg m hp⟩

theorem forwardServerMessage (cfg : Config) (m : CaproMessage) (j : Nat) (pm : PortManager) :
    Grows pm (forwardServerMessage cfg m j pm) := by
  cases hs : pm.servers.get j with
  | none =>
    apply of_eq
    unfold PortManager.forwardServerMessage
    rw [(SameCore.sendToAllMatchingInterfacePorts cfg m _).broadcasts]
    simp [sendToAllMatchingClientPorts, hs]
  | some s => exact ⟨_, broadcasts_forwardServerMessage cfg m hs⟩

theorem discoverPublisher (i : Nat) (pm : PortManager) :
    Grows pm (doDiscoveryForPublisherPort cfg i pm) := by
  unfold doDiscoveryForPublisherPort
  split
  · exact refl pm
  · simp only
    split
    · exact of_eq rfl
    · next m _ =>
      have hfwd := fun pm => forwardPublisherMessage cfg m i pm
      split
      · refine trans (of_eq ?_) (hfwd _)
        exact (SamePorts.addToServiceRegistry cfg _ _ _).broadcasts
      · exact hfwd _
      · exact of_eq rfl

theorem destroyPublisher (i : Nat) (pm : PortManager) :
    Grows pm (destroyPublisherPort cfg i pm) := by
  unfold destroyPublisherPort
  split
  · exact refl pm
  · simp only
    split
    · exact of_eq rfl
    · next m _ =>
      have hfwd := fun pm => forwardPublisherMessage cfg m i pm
      exact hfwd _

theorem discoverServer (j : Nat) (pm : PortManager) :
    Grows pm (doDiscoveryForServerPort cfg j pm) := by
  unfold doDiscoveryForServerPort
  split
  · exact refl pm
  · simp only
    split
    · exact of_eq rfl
    · next m _ =>
      have hfwd := fun pm => forwardServerMessage cfg m j pm
      split
      · refine trans (of_eq ?_) (hfwd _)
        exact (SamePorts.addToServiceRegistry cfg _ _ _).broadcasts
      · exact hfwd _
      · exact of_eq rfl

theorem destroyServer (j : Nat) (pm : PortManager) :
    Grows pm (destroyServerPort cfg j pm) := by
  unfold destroyServerPort
  split
  · exact refl pm
  · simp only
    split
    · exact of_eq rfl
    · next m _ =>
      have hfwd := fun pm => forwardServerMessage cfg m j pm
      exact hfwd _

end Grows

theorem broadcasts_sendToAllMatchingPublisherPorts (m : CaproMessage) (j : Nat)
    (pm : PortManager) :
    (sendToAllMatchingPublisherPorts cfg m j pm).1.broadcasts = pm.broadcasts := by
  unfold sendToAllMatchingPublisherPorts
  refine Lib.foldl_frame (fun acc : PortManager × Bool => acc.1.broadcasts) ?_ _ (pm, false)
  rintro ⟨pm, b⟩ i
  unfold sendToPublisherPort
  simp only
  split
  · split
    · split <;> rfl
    · rfl
  · rfl

theorem broadcasts_sendToAllMatchingServerPorts (m : CaproMessage) (i : Nat) (pm : PortManager) :
    (sendToAllMatchingServerPorts cfg m i pm).1.broadcasts = pm.broadcasts := by
  unfold sendToAllMatchingServerPorts
  refine Lib.foldl_frame (fun acc : PortManager × Bool => acc.1.broadcasts) ?_ _ (pm, false)
  rintro ⟨pm, b⟩ j
  unfold sendToServerPort
  simp only
  split
  · split
    · split <;> rfl
    · rfl
  · rfl

theorem broadcasts_discoverSubscriber (j : Nat) (pm : PortManager) :
    (doDiscoveryForSubscriberPort cfg j pm).broadcasts = pm.broadcasts := by
  unfold doDiscoveryForSubscriberPort
  split
  · rfl
  · simp only
    split
    · rfl
    · next m _ =>
      split
      · split
        · exact broadcasts_sendToAllMatchingPublisherPorts m j _
        · unfold nackSubscriber
          split
          · exact broadcasts_sendToAllMatchingPublisherPorts m j _
          · exact broadcasts_sendToAllMatchingPublisherPorts m j _
      · rfl

theorem broadcasts_destroySubscriber (j : Nat) (pm : PortManager) :
    (destroySubscriberPort cfg j pm).broadcasts = pm.broadcasts := by
  unfold destroySubscriberPort
  split
  · rfl
  · simp only
    split
    · rfl
    · exact broadcasts_sendToAllMatchingPublisherPorts _ j _

theorem broadcasts_discoverClient (i : Nat) (pm : PortManager) :
    (doDiscoveryForClientPort cfg i pm).broadcasts = pm.broadcasts := by
  unfold doDiscoveryForClientPort
  split
  · rfl
  · simp only
    split
    · rfl
    · split
      · split
        · exact broadcasts_sendToAllMatchingServerPorts _ i _
        · unfold nackClient
          split
          · exact broadcasts_sendToAllMatchingServerPorts _ i _
          · exact broadcasts_sendToAllMatchingServerPorts _ i _
      · rfl

theorem broadcasts_destroyClient (i : Nat) (pm : PortManager) :
    (destroyClientPort cfg i pm).broadcasts = pm.broadcasts := by
  unfold destroyClientPort
  split
  · rfl
  · simp only
    split
    · rfl
    · exact broadcasts_sendToAllMatchingServerPorts _ i _

def Calm (cfg : Config) (pm : PortManager) : Prop :=
  match cfg.communicationPolicy with
  | .oneToMany => OneToManyInv False pm
  | .manyToMany => Binary pm.subscribers.get

theorem Calm.of_same (h : Calm cfg pm) (hsame : SamePubSub pm pm') : Calm cfg pm' := by
  unfold Calm at *
  split at h
  · exact h.of_same hsame
  · rw [hsame.subscribers]
    exact h

theorem Calm.discoverPublisher (h : Calm cfg pm) (i : Nat) :
    Calm cfg (doDiscoveryForPublisherPort cfg i pm) ∧
      Adds pm (doDiscoveryForPublisherPort cfg i pm)
        (Loud cfg (doDiscoveryForPublisherPort cfg i pm)) := by
  cases hpolicy : cfg.communicationPolicy with
  | oneToMany =>
    simp only [Calm, hpolicy] at h ⊢
    exact discoverPublisher_kept hpolicy h i
  | manyToMany =>
    simp only [Calm, hpolicy] at h ⊢
    have hsilent := Silent.discoverPublisher hpolicy i h
    exact ⟨hsilent.binary h, hsilent.adds.mono False.elim⟩

theorem Calm.destroyPublisher (h : Calm cfg pm) (i : Nat) :
    Calm cfg (destroyPublisherPort cfg i pm) ∧
      Adds pm (destroyPublisherPort cfg i pm) (Loud cfg (destroyPublisherPort cfg i pm)) := by
  cases hpolicy : cfg.communicationPolicy with
  | oneToMany =>
    simp only [Calm, hpolicy] at h ⊢
    exact destroyPublisher_kept hpolicy h i
  | manyToMany =>
    simp only [Calm, hpolicy] at h ⊢
    have hsilent := Silent.destroyPublisher hpolicy i h
    exact ⟨hsilent.binary h, hsilent.adds.mono False.elim⟩

theorem Calm.discoverSubscriber (h : Calm cfg pm) (j : Nat) :
    Calm cfg (doDiscoveryForSubscriberPort cfg j pm) ∧
      Adds pm (doDiscoveryForSubscriberPort cfg j pm) False := by
  cases hpolicy : cfg.communicationPolicy with
  | oneToMany =>
    simp only [Calm, hpolicy] at h ⊢
    exact discoverSubscriber_kept hpolicy h j
  | manyToMany =>
    simp only [Calm, hpolicy] at h ⊢
    exact discoverSubscriber_binary hpolicy j h

theorem Calm.destroySubscriber (h : Calm cfg pm) (j : Nat) :
    Calm cfg (destroySubscriberPort cfg j pm) ∧
      Adds pm (destroySubscriberPort cfg j pm) False := by
  cases hpolicy : cfg.communicationPolicy with
  | oneToMany =>
    simp only [Calm, hpolicy] at h ⊢
    exact destroySubscriber_kept hpolicy h j
  | manyToMany =>
    simp only [Calm, hpolicy] at h ⊢
    exact destroySubscriber_binary hpolicy j h

theorem Calm.flagPublisher {f : PublisherPortData → PublisherPortData} (h : Calm cfg pm) (i : Nat)
    (hf : ∀ p, ∃ a b, f p = { p with offeringRequested := a, toBeDestroyed := b }) :
    Calm cfg { pm with publishers := pm.publishers.modify i f } := by
  unfold Calm at *
  split at h
  · exact h.flagPublisher i hf
  · exact h

theorem Calm.flagSubscriber (h : Calm cfg pm) (j : Nat) (a b : Bool) :
    Calm cfg (writeSubscriber j a b pm) := by
  unfold Calm at *
  split at h
  · exact h.flagSubscriber j a b
  · cases hs : pm.subscribers.get j with
    | none =>
      simp only [writeSubscriber]
      rw [pm.subscribers.get_modify_none _ hs]
      exact h
    | some s =>
      simp only [writeSubscriber]
      rw [pm.subscribers.get_modify_eq _ hs]
      intro k t hk
      obtain ⟨rfl, rfl⟩ | ⟨-, hk⟩ := Lib.update_some_eq.mp hk
      · exact h k s hs
      · exact h k t hk

theorem Calm.insertSubscriber {service : ServiceDescription} {options : SubscriberOptions}
    {name : String} (h : Calm cfg pm) : Calm cfg { pm with subscribers :=
      (pm.subscribers.insert (SubscriberPortData.create service name options)).1 } := by
  unfold Calm at *
  split at h
  · exact h.insertSubscriber False.elim
  · simp only
    rw [pm.subscribers.get_insert_eq]
    intro k t hk
    obtain ⟨rfl, rfl⟩ | ⟨-, hk⟩ := Lib.update_some_eq.mp hk
    · exact Or.inl rfl
    · exact h k t hk

theorem Calm.insertPublisher {service : ServiceDescription} {options : PublisherOptions}
    {name : String} (h : Calm cfg pm) (hfree : cfg.communicationPolicy = .oneToMany →
      ∀ k p, pm.publishers.get k = some p → ¬ service.Same p.serviceDescription) :
    Calm cfg { pm with publishers := (pm.publishers.insert
      (PublisherPortData.create cfg.maxPublisherHistory service name options)).1 } := by
  unfold Calm at *
  split at h
  · next hpolicy => exact h.insertPublisher False.elim (hfree hpolicy)
  · exact h

structure ViolationInv (cfg : Config) (pm : PortManager) : Prop where
  clientServer : ClientServerInv pm
  calm : Calm cfg pm
  announced : ∀ level, .caproProtocolError level ∈ pm.failures → Loud cfg pm

namespace ViolationInv

theorem advance (h : ViolationInv cfg pm) (hclient : ClientServerInv pm') (hcalm : Calm cfg pm')
    (hadds : Adds pm pm' (Loud cfg pm')) (hgrows : Grows pm pm') : ViolationInv cfg pm' where
  clientServer := hclient
  calm := hcalm
  announced := by
    intro level hf
    obtain hf | hf | ⟨-, hloud⟩ := hadds _ hf
    · exact hgrows.loud (h.announced level hf)
    · exact hf.elim
    · exact hloud

theorem keeps (cfg : Config) : Keeps cfg (ViolationInv cfg) where
  core hcore h := h.advance ((ClientServerInv.keeps cfg).core hcore h.clientServer)
    (h.calm.of_same (SamePubSub.of_core hcore)) hcore.adds (Grows.of_eq hcore.broadcasts)
  discoverPublisher i _ h :=
    h.advance ((ClientServerInv.keeps cfg).discoverPublisher i h.clientServer)
      (h.calm.discoverPublisher i).1 (h.calm.discoverPublisher i).2 (Grows.discoverPublisher i _)
  destroyPublisher i _ h :=
    h.advance ((ClientServerInv.keeps cfg).destroyPublisher i h.clientServer)
      (h.calm.destroyPublisher i).1 (h.calm.destroyPublisher i).2 (Grows.destroyPublisher i _)
  discoverSubscriber j _ h :=
    h.advance ((ClientServerInv.keeps cfg).discoverSubscriber j h.clientServer)
      (h.calm.discoverSubscriber j).1 ((h.calm.discoverSubscriber j).2.mono False.elim)
      (Grows.of_eq (broadcasts_discoverSubscriber j _))
  destroySubscriber j _ h :=
    h.advance ((ClientServerInv.keeps cfg).destroySubscriber j h.clientServer)
      (h.calm.destroySubscriber j).1 ((h.calm.destroySubscriber j).2.mono False.elim)
      (Grows.of_eq (broadcasts_destroySubscriber j _))
  discoverServer j _ h :=
    h.advance ((ClientServerInv.keeps cfg).discoverServer j h.clientServer)
      (h.calm.of_same (SamePubSub.discoverServer j _))
      (discoverServer_sound h.clientServer.sides j).2 (Grows.discoverServer j _)
  destroyServer j _ h :=
    h.advance ((ClientServerInv.keeps cfg).destroyServer j h.clientServer)
      (h.calm.of_same (SamePubSub.destroyServer j _))
      (destroyServer_sound h.clientServer.sides j).2 (Grows.destroyServer j _)
  discoverClient i _ h :=
    h.advance ((ClientServerInv.keeps cfg).discoverClient i h.clientServer)
      (h.calm.of_same (SamePubSub.discoverClient i _))
      ((discoverClient_sound h.clientServer.sides i).2.mono False.elim)
      (Grows.of_eq (broadcasts_discoverClient i _))
  destroyClient i _ h :=
    h.advance ((ClientServerInv.keeps cfg).destroyClient i h.clientServer)
      (h.calm.of_same (SamePubSub.destroyClient i _))
      ((destroyClient_sound h.clientServer.sides i).2.mono False.elim)
      (Grows.of_eq (broadcasts_destroyClient i _))
  flagPublisher i _ _ hf h :=
    h.advance ((ClientServerInv.keeps cfg).flagPublisher i hf h.clientServer)
      (h.calm.flagPublisher i hf) (Adds.of_eq rfl) (Grows.of_eq rfl)
  flagServer j _ _ hf h :=
    h.advance ((ClientServerInv.keeps cfg).flagServer j hf h.clientServer)
      (h.calm.of_same ⟨rfl, rfl⟩) (Adds.of_eq rfl) (Grows.of_eq rfl)
  flagSubscriber j a b _ h :=
    h.advance ((ClientServerInv.keeps cfg).flagSubscriber j a b h.clientServer)
      (h.calm.flagSubscriber j a b) (Adds.of_eq rfl) (Grows.of_eq rfl)
  flagClient i a b _ h :=
    h.advance ((ClientServerInv.keeps cfg).flagClient i a b h.clientServer)
      (h.calm.of_same ⟨rfl, rfl⟩) (Adds.of_eq rfl) (Grows.of_eq rfl)

theorem empty : ViolationInv cfg {} where
  clientServer := ClientServerInv.empty
  calm := by
    unfold Calm
    split
    · exact OneToManyInv.empty
    · intro j s hs
      simp at hs
  announced := by simp

theorem apply (h : ViolationInv cfg pm) (op : Op) : ViolationInv cfg (apply cfg pm op) := by
  have hclient := h.clientServer
  apply (keeps cfg).apply h op
  · rintro service options name -
    apply (keeps cfg).acquirePublisher h
    intro pm hI _ hfree _
    exact hI.advance ⟨hI.clientServer.sides, hI.clientServer.contracts⟩
      (hI.calm.insertPublisher hfree) (Adds.of_eq rfl) (Grows.of_eq rfl)
  · rintro service options name -
    unfold acquireSubscriberPortData
    split
    · apply (keeps cfg).discoverSubscriber
      exact h.advance ⟨hclient.sides, hclient.contracts⟩ h.calm.insertSubscriber (Adds.of_eq rfl)
        (Grows.of_eq rfl)
    · exact (keeps cfg).core (SameCore.report (by simp [Benign]) _) h
  · rintro service options name -
    apply (keeps cfg).acquireClient h
    exact h.advance hclient.insertClient (h.calm.of_same ⟨rfl, rfl⟩) (Adds.of_eq rfl)
      (Grows.of_eq rfl)
  · rintro service options name -
    apply (keeps cfg).acquireServer h
    intro pm hI _ hfree
    exact hI.advance (hI.clientServer.insertServer hfree) (hI.calm.of_same ⟨rfl, rfl⟩)
      (Adds.of_eq rfl) (Grows.of_eq rfl)

theorem run (cfg : Config) (ops : List Op) : ViolationInv cfg (run cfg ops) :=
  run_invariant ops empty fun _ op _ h => h.apply op

end ViolationInv

instance decidableQuiet (policy : CommunicationPolicy) : DecidablePred (Quiet policy)
  | .toClients message states =>
    inferInstanceAs (Decidable (message = .stopOffer → ∀ state ∈ states, state = .connected))
  | .toSubscribers message states =>
    inferInstanceAs (Decidable (policy = .oneToMany →
      (message = .stopOffer → .waitForOffer ∉ states) ∧
        (message = .offer → .subscribed ∉ states)))

/-- No port takes a message for a violation of the protocol as long as every STOP_OFFER of a
server finds all compatible clients connected and, under the 1:n policy, no STOP_OFFER finds a
compatible subscriber that waits for an offer and no OFFER finds one that is subscribed. -/
theorem no_protocol_violation_of_quiet_broadcasts {cfg : Config} {ops : List Op}
    (hquiet : ∀ b ∈ (run cfg ops).broadcasts, Quiet cfg.communicationPolicy b) :
    ∀ level, .caproProtocolError level ∉ (run cfg ops).failures := by
  intro level hf
  obtain ⟨b, hb, hloud⟩ := (ViolationInv.run cfg ops).announced level hf
  exact hloud (hquiet b hb)

def serverGoesAway (options : ClientOptions) : List Op :=
  [.acquireServerPortData radar {} "server", .acquireClientPortData radar options "client",
    .writeServer 0 false false, .doDiscovery]

theorem no_protocol_violation_connected_client :
    (∀ b ∈ (run (smallConfig .manyToMany) (serverGoesAway {})).broadcasts, Quiet .manyToMany b) ∧
    ∀ level, .caproProtocolError level ∉
      (run (smallConfig .manyToMany) (serverGoesAway {})).failures :=
  ⟨by decide, no_protocol_violation_of_quiet_broadcasts (by decide)⟩

theorem stop_offer_violates_protocol_of_unconnected_client :
    .caproProtocolError .severe ∈
      (run (smallConfig .manyToMany) (serverGoesAway { connectOnCreate := false })).failures := by
  decide

end Iceoryx.Roudi.PortManager
