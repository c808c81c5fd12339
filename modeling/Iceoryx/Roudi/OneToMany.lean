import Iceoryx.Roudi.PubSub

namespace Iceoryx.Roudi.PortManager

open Capro Popo Lib.Rendezvous

variable {cfg : Config} {pm : PortManager} {i j : Nat} {p p' : PublisherPortData}
  {s s' : SubscriberPortData} {m : CaproMessage}

def AtRest (state : SubscribeState) : Prop :=
  state ≠ .subscribeRequested ∧ state ≠ .unsubscribeRequested

/-- What is known of publishers and subscribers: more if all of them are `internal`, since
a gateway hides some ports from each other. -/
structure Subscriptions (internal : Prop) (stale : Nat → Nat → Prop)
    (P : Nat → Option PublisherPortData) (S : Nat → Option SubscriberPortData) : Prop where
  unique : ∀ {i k p p'}, P i = some p → P k = some p' →
    p.serviceDescription.key = p'.serviceDescription.key → i = k
  atRest : ∀ {j s}, S j = some s → AtRest s.subscriptionState
  agreement : internal → pubSub.Agreement stale P S
  allInternal : internal → AllInternal P S

namespace Subscriptions

variable {internal : Prop} {stale stale' : Nat → Nat → Prop}
  {P : Nat → Option PublisherPortData} {S : Nat → Option SubscriberPortData}

theorem publisher_unique (h : Subscriptions internal stale P S) {k : Nat} (hi : P i = some p)
    (hk : P k = some p') (hs : isCompatiblePubSub p s = true)
    (hs' : isCompatiblePubSub p' s = true) : i = k :=
  h.unique hi hk ((pubSub.key_eq hs).trans (pubSub.key_eq hs').symm)

theorem unique_update (h : Subscriptions internal stale P S) (hp : P i = some p)
    (hd : p'.serviceDescription = p.serviceDescription) {k l : Nat} {t u : PublisherPortData}
    (hk : Function.update P i (some p') k = some t) (hl : Function.update P i (some p') l = some u)
    (heq : t.serviceDescription.key = u.serviceDescription.key) : k = l := by
  have hkey : ∀ {k t}, Function.update P i (some p') k = some t →
      ∃ t', P k = some t' ∧ t.serviceDescription = t'.serviceDescription := by
    intro k t hk
    obtain ⟨rfl, rfl⟩ | ⟨-, hk⟩ := Lib.update_some_eq.mp hk
    · exact ⟨p, hp, hd⟩
    · exact ⟨t, hk, rfl⟩
  obtain ⟨t', hk', ht⟩ := hkey hk
  obtain ⟨u', hl', hu⟩ := hkey hl
  exact h.unique hk' hl' (by rw [← ht, ← hu]; exact heq)

theorem setPublisher (h : Subscriptions internal stale P S) (hp : P i = some p)
    (hd : p'.serviceDescription = p.serviceDescription)
    (hagree : internal → pubSub.Agreement stale' (Function.update P i (some p')) S) :
    Subscriptions internal stale' (Function.update P i (some p')) S where
  unique := h.unique_update hp hd
  atRest := h.atRest
  agreement := hagree
  allInternal hint := (h.allInternal hint).updatePublisher
    (by rw [hd]; exact (h.allInternal hint).publishers hp)

theorem setSubscriber (h : Subscriptions internal stale P S) (hs : S j = some s)
    (hd : s'.serviceDescription = s.serviceDescription) (hrest : AtRest s'.subscriptionState)
    (hagree : internal → pubSub.Agreement stale' P (Function.update S j (some s'))) :
    Subscriptions internal stale' P (Function.update S j (some s')) where
  unique := h.unique
  atRest := by
    intro k t hk
    obtain ⟨rfl, rfl⟩ | ⟨-, hk⟩ := Lib.update_some_eq.mp hk
    · exact hrest
    · exact h.atRest hk
  agreement := hagree
  allInternal hint := (h.allInternal hint).updateSubscriber
    (by rw [hd]; exact (h.allInternal hint).subscribers hs)

theorem setPair (h : Subscriptions internal stale P S) (hp : P i = some p) (hs : S j = some s)
    (hd : p'.serviceDescription = p.serviceDescription)
    (hd' : s'.serviceDescription = s.serviceDescription) (hrest : AtRest s'.subscriptionState)
    (hagree : internal → pubSub.Agreement stale' (Function.update P i (some p'))
      (Function.update S j (some s'))) :
    Subscriptions internal stale' (Function.update P i (some p'))
      (Function.update S j (some s')) where
  unique := h.unique_update hp hd
  atRest := by
    intro k t hk
    obtain ⟨rfl, rfl⟩ | ⟨-, hk⟩ := Lib.update_some_eq.mp hk
    · exact hrest
    · exact h.atRest hk
  agreement := hagree
  allInternal hint := ((h.allInternal hint).updatePublisher
    (by rw [hd]; exact (h.allInternal hint).publishers hp)).updateSubscriber
    (by rw [hd']; exact (h.allInternal hint).subscribers hs)

theorem free_of_idle (h : Subscriptions internal stale P S) (hint : internal) (hs : S j = some s)
    (hidle : s.subscriptionState ≠ .subscribed) :
    ∀ i p, P i = some p → .subscriber j ∉ p.queues := by
  intro i p hp
  exact (h.agreement hint).not_held_of_idle hs (by simpa [pubSub] using hidle) hp

theorem setIdle (h : Subscriptions internal stale P S) (hs : S j = some s)
    (hidle : s.subscriptionState ≠ .subscribed)
    (hd : s'.serviceDescription = s.serviceDescription) (hrest : AtRest s'.subscriptionState)
    (hidle' : s'.subscriptionState ≠ .subscribed) :
    Subscriptions internal stale P (Function.update S j (some s')) := by
  apply h.setSubscriber hs hd hrest
  intro hint
  exact (h.agreement hint).setIdle (h.free_of_idle hint hs hidle) (by simpa [pubSub] using hidle')

theorem setFlags (h : Subscriptions internal stale P S) (hs : S j = some s)
    (hd : s'.serviceDescription = s.serviceDescription) (ho : s'.options = s.options)
    (hstate : s'.subscriptionState = s.subscriptionState) :
    Subscriptions internal stale P (Function.update S j (some s')) := by
  apply h.setSubscriber hs hd (by rw [hstate]; exact h.atRest hs)
  intro hint
  exact (h.agreement hint).setConsumer hs (sameSubscriber hd ho) (by simp [pubSub, hstate])

theorem eraseSubscriber (h : Subscriptions internal stale P S)
    (hfree : internal → ∀ i p, P i = some p → .subscriber j ∉ p.queues) :
    Subscriptions internal stale P (Function.update S j none) where
  unique := h.unique
  atRest := by
    intro k t hk
    exact h.atRest (Lib.update_none_eq.mp hk).2
  agreement hint := (h.agreement hint).eraseConsumer (hfree hint)
  allInternal hint := (h.allInternal hint).eraseSubscriber j

theorem erasePublisher (h : Subscriptions internal Settled P S) (hp : P i = some p)
    (hoff : p.offered = false) : Subscriptions internal Settled (Function.update P i none) S where
  unique := by
    intro k l t u hk hl heq
    exact h.unique (Lib.update_none_eq.mp hk).2 (Lib.update_none_eq.mp hl).2 heq
  atRest := h.atRest
  agreement hint := (h.agreement hint).eraseProvider hp hoff
  allInternal hint := (h.allInternal hint).erasePublisher i

theorem insertPublisher (h : Subscriptions internal stale P S) (hnone : P i = none)
    (hkey : ∀ k t, P k = some t → t.serviceDescription.key ≠ p.serviceDescription.key)
    (hq : p.queues = [])
    (hint : internal → p.serviceDescription.interfaceSource = .internal) :
    Subscriptions internal stale (Function.update P i (some p)) S where
  unique := by
    intro k l t u hk hl heq
    obtain ⟨rfl, rfl⟩ | ⟨-, hk'⟩ := Lib.update_some_eq.mp hk
    · obtain ⟨rfl, -⟩ | ⟨-, hl'⟩ := Lib.update_some_eq.mp hl
      · rfl
      · exact absurd heq.symm (hkey l u hl')
    · obtain ⟨-, rfl⟩ | ⟨-, hl'⟩ := Lib.update_some_eq.mp hl
      · exact absurd heq (hkey k t hk')
      · exact h.unique hk' hl' heq
  atRest := h.atRest
  agreement hi := (h.agreement hi).insertProvider hnone hkey hq
  allInternal hi := (h.allInternal hi).updatePublisher (hint hi)

theorem insertSubscriber (h : Subscriptions internal stale P S) (hnone : S j = none)
    (hstate : s.subscriptionState = .notSubscribed)
    (hint : internal → s.serviceDescription.interfaceSource = .internal) :
    Subscriptions internal stale P (Function.update S j (some s)) where
  unique := h.unique
  atRest := by
    intro k t hk
    obtain ⟨rfl, rfl⟩ | ⟨-, hk⟩ := Lib.update_some_eq.mp hk
    · simp [AtRest, hstate]
    · exact h.atRest hk
  agreement hi := (h.agreement hi).insertConsumer hnone (by simp [pubSub, hstate])
  allInternal hi := (h.allInternal hi).updateSubscriber (hint hi)

end Subscriptions

theorem reachedPublishers_nodup (m : CaproMessage) (pm : PortManager) :
    (reachedPublishers m pm).Nodup :=
  pm.publishers.content_nodup.sublist (List.takeWhile_sublist _)

theorem reachedSubscribers_nodup (m : CaproMessage) (pm : PortManager) :
    (reachedSubscribers m pm).Nodup :=
  pm.subscribers.content_nodup.sublist (List.takeWhile_sublist _)

theorem sendToAllMatchingPublisherPorts_none (hs : pm.subscribers.get j = some s)
    (h : ∀ i ∈ reachedPublishers m pm, ∀ p, pm.publishers.get i = some p →
      isCompatiblePubSub p s = false) :
    sendToAllMatchingPublisherPorts cfg m j pm = (pm, false) := by
  apply Lib.foldl_skip
  intro i hi
  apply sendToPublisherPort_skip
  intro p s' hp hs'
  rw [hs] at hs'
  cases hs'
  exact h i hi p hp

theorem sendToAllMatchingPublisherPorts_single (hi : i ∈ reachedPublishers m pm)
    (hp : pm.publishers.get i = some p) (hs : pm.subscribers.get j = some s)
    (hcomp : isCompatiblePubSub p s = true)
    (huniq : ∀ k t, pm.publishers.get k = some t → isCompatiblePubSub t s = true → k = i)
    {r : Reaction PublisherPortData} {a : CaproMessage}
    (hr : p.dispatchCaProMessageAndGetPossibleResponse cfg.maxSubscribersPerPublisher m = r)
    (ha : r.response = some a) {r' : Reaction SubscriberPortData}
    (hr' : s.dispatchCaProMessageAndGetPossibleResponse cfg.communicationPolicy j a = r') :
    sendToAllMatchingPublisherPorts cfg m j pm =
      ((((pm.setPublisher i r.port).report r.failures).setSubscriber j r'.port).report
        (r'.failures ++ expects r'.response.isNone), true) := by
  rw [← sendToPublisherPort_eq hp hs hcomp false hr ha hr']
  have hother : ∀ k, k ≠ i → ∀ t, pm.publishers.get k = some t →
      isCompatiblePubSub t s = false := by
    intro k hki t hk
    cases h : isCompatiblePubSub t s with
    | false => rfl
    | true => exact absurd (huniq k t hk h) hki
  apply Lib.foldl_single (reachedPublishers_nodup m pm) hi
  · intro k _ hki
    apply sendToPublisherPort_skip
    intro t s' hk hs'
    rw [hs] at hs'
    cases hs'
    exact hother k hki t hk
  · intro k _ hki
    apply sendToPublisherPort_skip
    intro t s' hk hs'
    rw [sendToPublisherPort_eq hp hs hcomp false hr ha hr'] at hk hs'
    simp only [report, setSubscriber, setPublisher, FixedPositionContainer.get_modify, if_true, hs,
      Option.map_some, Option.some.injEq, if_neg (Ne.symm hki)] at hk hs'
    obtain ⟨st, hport⟩ := s.dispatch_port cfg.communicationPolicy j a
    rw [hr'] at hport
    rw [← hs', hport]
    exact hother k hki t hk

def Kept (internal : Prop) (stale : Nat → Nat → Prop) (loud : Prop) (pm₀ pm : PortManager) :
    Prop :=
  Subscriptions internal stale pm.publishers.get pm.subscribers.get ∧ Adds pm₀ pm loud

section Requests

variable {internal : Prop} (hpolicy : cfg.communicationPolicy = .oneToMany)
include hpolicy

theorem subscribing_ack (hm : m.type = .ack) :
    (s.toState .subscribeRequested).dispatchCaProMessageAndGetPossibleResponse
      cfg.communicationPolicy j m = { port := s.toState .subscribed } := by
  simp [SubscriberPortData.dispatchCaProMessageAndGetPossibleResponse, hpolicy,
    SubscriberPortData.dispatchSingle, SubscriberPortData.toState, hm]

theorem subscribing_nack (hm : m.type = .nack) :
    (s.toState .subscribeRequested).dispatchCaProMessageAndGetPossibleResponse
      cfg.communicationPolicy j m = { port := s.toState .waitForOffer } := by
  simp [SubscriberPortData.dispatchCaProMessageAndGetPossibleResponse, hpolicy,
    SubscriberPortData.dispatchSingle, SubscriberPortData.toState, hm]

theorem unsubscribing_answer (hm : m.type = .ack ∨ m.type = .nack) :
    (s.toState .unsubscribeRequested).dispatchCaProMessageAndGetPossibleResponse
      cfg.communicationPolicy j m = { port := s.toState .notSubscribed } := by
  obtain hm | hm := hm <;>
    simp [SubscriberPortData.dispatchCaProMessageAndGetPossibleResponse, hpolicy,
      SubscriberPortData.dispatchSingle, SubscriberPortData.toState, hm]

theorem tryGetSingle_cases (j : Nat) (s : SubscriberPortData) :
    s.tryGetCaProMessage cfg.communicationPolicy j = { port := s } ∨
    (s.subscriptionState = .waitForOffer ∧ s.tryGetCaProMessage cfg.communicationPolicy j =
      { port := s.toState .notSubscribed }) ∨
    (s.subscriptionState = .notSubscribed ∧ s.subscribeRequested = true ∧
      s.tryGetCaProMessage cfg.communicationPolicy j =
        { port := s.toState .subscribeRequested, response := some (s.subMessage j) }) ∨
    (s.subscriptionState = .subscribed ∧ s.tryGetCaProMessage cfg.communicationPolicy j =
        { port := s.toState .unsubscribeRequested, response := some (s.unsubMessage j) }) := by
  unfold SubscriberPortData.tryGetCaProMessage
  simp only [hpolicy]
  unfold SubscriberPortData.tryGetCaProMessageSingle
  split <;> simp_all

omit hpolicy in
theorem Subscriptions.reached_cases {S : Nat → Option SubscriberPortData}
    (h : Subscriptions internal Settled pm.publishers.get S) (m : CaproMessage)
    (s : SubscriberPortData) :
    (∃ i p, i ∈ reachedPublishers m pm ∧ pm.publishers.get i = some p ∧
      isCompatiblePubSub p s = true ∧
      ∀ k t, pm.publishers.get k = some t → isCompatiblePubSub t s = true → k = i) ∨
    (∀ i ∈ reachedPublishers m pm, ∀ p, pm.publishers.get i = some p →
      isCompatiblePubSub p s = false) := by
  by_cases hex : ∃ i ∈ reachedPublishers m pm, ∃ p, pm.publishers.get i = some p ∧
      isCompatiblePubSub p s = true
  · obtain ⟨i, hi, p, hp, hcomp⟩ := hex
    refine Or.inl ⟨i, p, hi, hp, hcomp, ?_⟩
    intro k t hk hcomp'
    exact h.publisher_unique hk hp hcomp' hcomp
  · refine Or.inr ?_
    intro i hi p hp
    cases hcomp : isCompatiblePubSub p s with
    | false => rfl
    | true => exact absurd ⟨i, hi, p, hp, hcomp⟩ hex

theorem subscribe_kept (pm : PortManager) {S : Nat → Option SubscriberPortData}
    (h : Subscriptions internal Settled pm.publishers.get S) (hs : S j = some s)
    (hsubs : pm.subscribers.get = Function.update S j (some (s.toState .subscribeRequested)))
    (hidle : s.subscriptionState ≠ .subscribed) :
    Kept internal Settled False pm
      (if (sendToAllMatchingPublisherPorts cfg (s.subMessage j) j pm).2 = true then
        (sendToAllMatchingPublisherPorts cfg (s.subMessage j) j pm).1
      else nackSubscriber cfg j (sendToAllMatchingPublisherPorts cfg (s.subMessage j) j pm).1) := by
  have hs₁ : pm.subscribers.get j = some (s.toState .subscribeRequested) := by simp [hsubs]
  have hset := fun s' => subscribers_get_setSubscriber_again hsubs s'
  have hwait : Subscriptions internal Settled pm.publishers.get
      (Function.update S j (some (s.toState .waitForOffer))) :=
    h.setIdle hs hidle rfl (by simp [AtRest, SubscriberPortData.toState])
      (by simp [SubscriberPortData.toState])
  obtain ⟨i, p, hi, hp, hcomp, huniq⟩ | hnone :=
    h.reached_cases (s.subMessage j) (s.toState .subscribeRequested)
  · obtain ⟨hoff, qs, hadd, a, hr, ha⟩ | ⟨-, -, a, hr, ha⟩ | ⟨-, a, hr, ha⟩ :=
      dispatch_sub (p := p) (j := j) (m := s.subMessage j) cfg.maxSubscribersPerPublisher rfl rfl
    · rw [sendToAllMatchingPublisherPorts_single hi hp hs₁ hcomp huniq hr rfl
        (subscribing_ack hpolicy ha)]
      refine ⟨?_, Adds.of_eq (by simp [report, setPublisher, setSubscriber, expects])⟩
      have hlink : Subscriptions internal Settled
          (Function.update pm.publishers.get i (some { p with queues := qs }))
          (Function.update S j (some (s.toState .subscribed))) := by
        refine h.setPair hp hs ?_ ?_ (by simp [AtRest, SubscriberPortData.toState]) ?_
        · rfl
        · rfl
        intro hint
        have hnew := h.free_of_idle hint hs hidle i p hp
        have hqs := tryAddQueue_eq hadd
        rw [if_neg hnew] at hqs
        exact (h.agreement hint).link hp hs (samePublisher rfl rfl) (sameSubscriber rfl rfl) hcomp
          (by simpa [pubSub] using hidle) hoff (by simp [pubSub, SubscriberPortData.toState]) hqs
      rw [← hset, ← publishers_get_setPublisher hp] at hlink
      exact hlink
    · rw [sendToAllMatchingPublisherPorts_single hi hp hs₁ hcomp huniq hr rfl
        (subscribing_nack hpolicy ha)]
      refine ⟨?_, ?_⟩
      · rw [← hset, ← setPublisher_self hp] at hwait
        exact hwait
      · refine Adds.trans (Adds.overflow pm) ?_
        exact Adds.of_eq (by simp [report, setPublisher, setSubscriber, expects])
    · rw [sendToAllMatchingPublisherPorts_single hi hp hs₁ hcomp huniq hr rfl
        (subscribing_nack hpolicy ha)]
      refine ⟨?_, Adds.of_eq (by simp [report, setPublisher, setSubscriber, expects])⟩
      rw [← hset, ← setPublisher_self hp] at hwait
      exact hwait
  · rw [sendToAllMatchingPublisherPorts_none hs₁ hnone]
    have hnack : nackSubscriber cfg j pm =
        (pm.setSubscriber j (s.toState .waitForOffer)).report [] := by
      unfold nackSubscriber
      rw [hs₁]
      simp only [subscribing_nack hpolicy]
      rfl
    simp only [Bool.false_eq_true, if_false, hnack]
    rw [← hset] at hwait
    exact ⟨hwait, Adds.of_eq (by simp [report, setSubscriber])⟩

theorem unsubscribe_kept (pm : PortManager) {S : Nat → Option SubscriberPortData}
    (h : Subscriptions internal Settled pm.publishers.get S) (hs : S j = some s)
    (hsubs : pm.subscribers.get = Function.update S j (some (s.toState .unsubscribeRequested)))
    (hstate : s.subscriptionState = .subscribed) :
    (∃ pm', sendToAllMatchingPublisherPorts cfg (s.unsubMessage j) j pm = (pm', true) ∧
      Kept internal Settled False pm pm' ∧
      pm'.subscribers.get j = some (s.toState .notSubscribed)) ∨
    (¬ internal ∧ sendToAllMatchingPublisherPorts cfg (s.unsubMessage j) j pm = (pm, false)) := by
  have hs₁ : pm.subscribers.get j = some (s.toState .unsubscribeRequested) := by simp [hsubs]
  have hset := fun s' => subscribers_get_setSubscriber_again hsubs s'
  obtain ⟨i, p, hi, hp, hcomp, huniq⟩ | hnone :=
    h.reached_cases (s.unsubMessage j) (s.toState .unsubscribeRequested)
  · have hlinked : internal → p.offered = true ∧ .subscriber j ∈ p.queues := by
      intro hint
      exact ((h.agreement hint).connected_iff hp hs hcomp).mp (by simp [pubSub, hstate])
    obtain ⟨hoff, a, hr, ha⟩ | ⟨hoff, a, hr, ha⟩ := dispatch_unsub (p := p) (j := j)
      (m := s.unsubMessage j) cfg.maxSubscribersPerPublisher rfl rfl
    · refine Or.inl ⟨_, sendToAllMatchingPublisherPorts_single hi hp hs₁ hcomp huniq hr rfl
        (unsubscribing_answer hpolicy ha), ⟨?_, ?_⟩, ?_⟩
      · have hunlink : Subscriptions internal Settled
            (Function.update pm.publishers.get i
              (some { p with queues := p.queues.erase (.subscriber j) }))
            (Function.update S j (some (s.toState .notSubscribed))) := by
          refine h.setPair hp hs ?_ ?_ (by simp [AtRest, SubscriberPortData.toState]) ?_
          · rfl
          · rfl
          intro hint
          refine (h.agreement hint).unlink hp hs (samePublisher rfl rfl) hcomp ?_ rfl ?_ ?_ ?_
          · exact List.erase_sublist
          · intro k hkj hmem
            have hne : QueuePtr.subscriber k ≠ .subscriber j :=
              fun heq => hkj (QueuePtr.subscriber.inj heq)
            exact (List.mem_erase_of_ne hne).mpr hmem
          · exact ((h.agreement hint).nodup hp).not_mem_erase
          · simp [pubSub, SubscriberPortData.toState]
        rw [← hset, ← publishers_get_setPublisher hp] at hunlink
        exact hunlink
      · exact Adds.of_eq (by simp [report, setPublisher, setSubscriber, expects])
      · simp [report, setPublisher, setSubscriber, hs₁]
    · refine Or.inl ⟨_, sendToAllMatchingPublisherPorts_single hi hp hs₁ hcomp huniq hr rfl
        (unsubscribing_answer hpolicy (Or.inr ha)), ⟨?_, ?_⟩, ?_⟩
      · have hidle : Subscriptions internal Settled pm.publishers.get
            (Function.update S j (some (s.toState .notSubscribed))) := by
          refine h.setSubscriber hs ?_ (by simp [AtRest, SubscriberPortData.toState]) ?_
          · rfl
          intro hint
          simp [hoff] at hlinked
          exact absurd hint hlinked
        rw [← hset, ← setPublisher_self hp] at hidle
        exact hidle
      · exact Adds.of_eq (by simp [report, setPublisher, setSubscriber, expects])
      · simp [report, setPublisher, setSubscriber, hs₁]
  · refine Or.inr ⟨?_, sendToAllMatchingPublisherPorts_none hs₁ hnone⟩
    intro hint
    obtain ⟨i, p, hp, hcomp, -⟩ :=
      (h.agreement hint).linked hs (by simp [pubSub, hstate])
    have hreached : i ∈ reachedPublishers (s.unsubMessage j) pm := by
      rw [(h.allInternal hint).reachedPublishers]
      simp [hp]
    have hincomp := hnone i hreached p hp
    have hcomp' : isCompatiblePubSub p (s.toState .unsubscribeRequested) = true := hcomp
    simp [hcomp'] at hincomp

theorem discoverSubscriber_kept
    (h : Subscriptions internal Settled pm.publishers.get pm.subscribers.get) (j : Nat) :
    Kept internal Settled False pm (doDiscoveryForSubscriberPort cfg j pm) := by
  unfold doDiscoveryForSubscriberPort
  split
  · exact ⟨h, Adds.refl pm⟩
  · next s hs =>
    have hset := fun s' => subscribers_get_setSubscriber hs s'
    have hadds : ∀ s', Adds pm ((pm.setSubscriber j s').report []) False :=
      fun s' => Adds.of_eq (by simp [report, setSubscriber])
    obtain htry | ⟨hstate, htry⟩ | ⟨hstate, -, htry⟩ | ⟨hstate, htry⟩ :=
      tryGetSingle_cases hpolicy j s
    · rw [htry]
      refine ⟨?_, hadds s⟩
      rw [← setSubscriber_self hs] at h
      exact h
    · rw [htry]
      refine ⟨?_, hadds _⟩
      have hback : Subscriptions internal Settled pm.publishers.get
          (Function.update pm.subscribers.get j (some (s.toState .notSubscribed))) :=
        h.setIdle hs (by simp [hstate]) rfl (by simp [AtRest, SubscriberPortData.toState])
          (by simp [SubscriberPortData.toState])
      rw [← hset] at hback
      exact hback
    · rw [htry]
      have hkept := subscribe_kept hpolicy
        ((pm.setSubscriber j (s.toState .subscribeRequested)).report []) h hs (hset _)
        (by simp [hstate])
      have hm : (s.subMessage j).type = .sub := rfl
      simp only [hm, true_or, if_true]
      exact ⟨hkept.1, (hadds _).trans hkept.2⟩
    · rw [htry]
      have hm : (s.unsubMessage j).type = .unsub := rfl
      simp only [hm, or_true, if_true]
      obtain ⟨pm', hsend, hkept, -⟩ | ⟨hgate, hsend⟩ := unsubscribe_kept hpolicy
        ((pm.setSubscriber j (s.toState .unsubscribeRequested)).report []) h hs (hset _) hstate
      · simp only [hsend, if_true]
        exact ⟨hkept.1, (hadds _).trans hkept.2⟩
      · have hs₁ : ((pm.setSubscriber j (s.toState .unsubscribeRequested)).report
            []).subscribers.get j = some (s.toState .unsubscribeRequested) := by
          simp [report, setSubscriber, hs]
        simp only [hsend, Bool.false_eq_true, if_false]
        unfold nackSubscriber
        rw [hs₁]
        simp only [unsubscribing_answer hpolicy, or_true]
        refine ⟨?_, Adds.of_eq (by simp [report, setSubscriber, expects])⟩
        have hidle : Subscriptions internal Settled pm.publishers.get
            (Function.update pm.subscribers.get j (some (s.toState .notSubscribed))) := by
          refine h.setSubscriber hs ?_ (by simp [AtRest, SubscriberPortData.toState]) ?_
          · rfl
          · exact fun hint => absurd hint hgate
        rw [← subscribers_get_setSubscriber_again (hset (s.toState .unsubscribeRequested))] at hidle
        exact hidle

theorem destroySubscriber_kept
    (h : Subscriptions internal Settled pm.publishers.get pm.subscribers.get) (j : Nat) :
    Kept internal Settled False pm (destroySubscriberPort cfg j pm) := by
  unfold destroySubscriberPort
  split
  · exact ⟨h, Adds.refl pm⟩
  · next s hs =>
    have hset := fun s' => subscribers_get_setSubscriber hs s'
    have hadds : ∀ s', Adds pm ((pm.setSubscriber j s').report []) False :=
      fun s' => Adds.of_eq (by simp [report, setSubscriber])
    have hflags : Subscriptions internal Settled pm.publishers.get
        (Function.update pm.subscribers.get j (some s.unsubscribe)) :=
      h.setFlags hs rfl rfl rfl
    have hget : Function.update pm.subscribers.get j (some s.unsubscribe) j =
        some s.unsubscribe := by simp
    -- a subscriber that is not subscribed is in no container
    have herase : ∀ (pm' : PortManager) {t}, Kept internal Settled False pm pm' →
        pm'.subscribers.get j = some t → t.subscriptionState ≠ .subscribed →
        Kept internal Settled False pm { pm' with subscribers := pm'.subscribers.erase j } := by
      intro pm' t hkept ht hidle
      refine ⟨?_, hkept.2⟩
      have := hkept.1.eraseSubscriber fun hint => hkept.1.free_of_idle hint ht hidle
      rw [← pm'.subscribers.get_erase_eq] at this
      exact this
    obtain htry | ⟨hstate, htry⟩ | ⟨-, hreq, -⟩ | ⟨hstate, htry⟩ :=
      tryGetSingle_cases hpolicy j s.unsubscribe
    · rw [htry]
      have hidle : s.unsubscribe.subscriptionState ≠ .subscribed := by
        intro hstate
        simp [SubscriberPortData.tryGetCaProMessage, hpolicy,
          SubscriberPortData.tryGetCaProMessageSingle, SubscriberPortData.unsubscribe] at htry
        have hstate' : s.subscriptionState = .subscribed := hstate
        simp [hstate'] at htry
      refine herase ((pm.setSubscriber j s.unsubscribe).report []) ⟨?_, hadds _⟩ ?_ hidle
      · rw [← hset] at hflags
        exact hflags
      · simp [report, setSubscriber, hs]
    · rw [htry]
      refine herase ((pm.setSubscriber j (s.unsubscribe.toState .notSubscribed)).report [])
        ⟨?_, hadds _⟩ (by simp [report, setSubscriber, hs]; rfl)
        (by simp [SubscriberPortData.toState])
      have hback : Subscriptions internal Settled pm.publishers.get
          (Function.update pm.subscribers.get j (some (s.unsubscribe.toState .notSubscribed))) := by
        have hstate' : s.subscriptionState = .waitForOffer := hstate
        exact h.setIdle hs (by simp [hstate']) rfl (by simp [AtRest, SubscriberPortData.toState])
          (by simp [SubscriberPortData.toState])
      rw [← hset] at hback
      exact hback
    · simp [SubscriberPortData.unsubscribe] at hreq
    · rw [htry]
      have hsubs : ((pm.setSubscriber j
          (s.unsubscribe.toState .unsubscribeRequested)).report []).subscribers.get =
          Function.update (Function.update pm.subscribers.get j (some s.unsubscribe)) j
            (some (s.unsubscribe.toState .unsubscribeRequested)) := by
        rw [Function.update_idem]
        exact hset _
      have hensures : ((pm.setSubscriber j
          (s.unsubscribe.toState .unsubscribeRequested)).report []).report
          (expects (decide ((s.unsubscribe.unsubMessage j).type = .unsub))) =
          (pm.setSubscriber j (s.unsubscribe.toState .unsubscribeRequested)).report [] := by
        simp [report, expects, SubscriberPortData.unsubMessage]
      simp only [hensures]
      obtain ⟨pm', hsend, hkept, hget'⟩ | ⟨hgate, hsend⟩ := unsubscribe_kept hpolicy
        ((pm.setSubscriber j (s.unsubscribe.toState .unsubscribeRequested)).report [])
        hflags hget hsubs hstate
      · simp only [hsend]
        exact herase pm' ⟨hkept.1, (hadds _).trans hkept.2⟩ hget'
          (by simp [SubscriberPortData.toState])
      · simp only [hsend]
        refine ⟨?_, hadds _⟩
        have hgone := h.eraseSubscriber (j := j) fun hint => absurd hint hgate
        have heq : (((pm.setSubscriber j (s.unsubscribe.toState .unsubscribeRequested)).report
            []).subscribers.erase j).get = Function.update pm.subscribers.get j none := by
          rw [FixedPositionContainer.get_erase_eq, hsubs, Function.update_idem,
            Function.update_idem]
        rw [← heq] at hgone
        exact hgone

end Requests

section Messages

variable {internal loud : Prop}

structure Inviting (internal loud : Prop) (i : Nat) (pm₀ : PortManager) (pending : List Nat)
    (pm : PortManager) : Prop where
  kept : Kept internal Settled loud pm₀ pm
  offered : ∃ p, pm.publishers.get i = some p ∧ p.offered = true
  idle : internal ∨ ¬ loud → ∀ j ∈ pending, ∀ p s, pm.publishers.get i = some p →
    pm.subscribers.get j = some s → isCompatiblePubSub p s = true →
    s.subscriptionState ≠ .subscribed

theorem Inviting.skip {pm₀ : PortManager} {rest : List Nat}
    (h : Inviting internal loud i pm₀ (j :: rest) pm) : Inviting internal loud i pm₀ rest pm :=
  ⟨h.kept, h.offered, fun hq k hk => h.idle hq k (List.mem_cons_of_mem j hk)⟩

theorem Inviting.advance {pm₀ pm' : PortManager} {rest : List Nat}
    (h : Inviting internal loud i pm₀ (j :: rest) pm) (hj : j ∉ rest)
    (hp : pm.publishers.get i = some p) (p' : PublisherPortData)
    (hp' : pm'.publishers.get i = some p') (hoff : p'.offered = true)
    (hpp : pubSub.SameProvider p p')
    (hsubs : ∀ k, k ≠ j → pm'.subscribers.get k = pm.subscribers.get k)
    (hkept : Kept internal Settled loud pm pm') : Inviting internal loud i pm₀ rest pm' where
  kept := ⟨hkept.1, h.kept.2.trans hkept.2⟩
  offered := ⟨p', hp', hoff⟩
  idle := by
    intro hq k hk t s ht hs hcomp
    rw [hp'] at ht
    cases ht
    have hkj : k ≠ j := by
      rintro rfl
      exact hj hk
    rw [hsubs k hkj] at hs
    exact h.idle hq k (List.mem_cons_of_mem j hk) p s hp hs ((hpp.compatible s).symm.trans hcomp)

theorem Inviting.step {pm₀ : PortManager} {rest : List Nat}
    (hpolicy : cfg.communicationPolicy = .oneToMany) (hm : m.type = .offer) (hj : j ∉ rest)
    (h : Inviting internal loud i pm₀ (j :: rest) pm) :
    Inviting internal loud i pm₀ rest (sendToSubscriberPort cfg m i pm j) := by
  obtain ⟨p, hp, hoff⟩ := h.offered
  obtain ⟨p', s, hp', hs, hcomp⟩ | ⟨hskip, -⟩ := sendToSubscriberPort_cases cfg m i pm j
  · rw [hp] at hp'
    cases hp'
    have hkept := h.kept.1
    -- a subscriber that leaves its state alone
    have hstay : ∀ fs : List Failure, s.dispatchCaProMessageAndGetPossibleResponse
          cfg.communicationPolicy j m = { port := s, failures := fs } →
        (∀ f ∈ fs, Benign f ∨ ProtocolError f ∧ loud) →
        Inviting internal loud i pm₀ rest (sendToSubscriberPort cfg m i pm j) := by
      intro fs hr hfs
      rw [sendToSubscriberPort_silent hp hs hcomp s fs hr]
      have hself : ((pm.setSubscriber j s).report fs).subscribers.get = pm.subscribers.get :=
        setSubscriber_self hs
      refine h.advance hj hp p hp hoff (samePublisher rfl rfl) (fun k _ => by rw [hself]) ⟨?_, ?_⟩
      · rw [hself]
        exact hkept
      · exact Adds.trans (Adds.of_eq rfl) (Adds.report hfs (pm.setSubscriber j s))
    cases hstate : s.subscriptionState with
    | notSubscribed =>
      apply hstay []
      · simp [SubscriberPortData.dispatchCaProMessageAndGetPossibleResponse, hpolicy,
          SubscriberPortData.dispatchSingle, hm, hstate]
      · simp
    | subscribeRequested => exact absurd hstate (hkept.atRest hs).1
    | unsubscribeRequested => exact absurd hstate (hkept.atRest hs).2
    | subscribed =>
      apply hstay [.caproProtocolError .severe]
      · simp [SubscriberPortData.dispatchCaProMessageAndGetPossibleResponse, hpolicy,
          SubscriberPortData.dispatchSingle, hm, hstate]
      · intro f hf
        rw [List.mem_singleton] at hf
        refine Or.inr ⟨⟨_, hf⟩, ?_⟩
        by_contra hquiet
        exact h.idle (Or.inr hquiet) j List.mem_cons_self p s hp hs hcomp hstate
    | waitForOffer =>
      have hidle : s.subscriptionState ≠ .subscribed := by simp [hstate]
      have hoffer : s.dispatchCaProMessageAndGetPossibleResponse cfg.communicationPolicy j m =
          { port := s.toState .subscribeRequested, response := some (s.subMessage j) } := by
        simp [SubscriberPortData.dispatchCaProMessageAndGetPossibleResponse, hpolicy,
          SubscriberPortData.dispatchSingle, hm, hstate]
      have hset := fun s' => subscribers_get_setSubscriber_again
        (subscribers_get_setSubscriber hs (s.toState .subscribeRequested)) s'
      obtain ⟨-, qs, hadd, a, hr, ha⟩ | ⟨-, -, a, hr, ha⟩ | ⟨hoff', -⟩ :=
        dispatch_sub (p := p) (j := j) (m := s.subMessage j) cfg.maxSubscribersPerPublisher rfl rfl
      · rw [sendToSubscriberPort_sub hp hs hcomp hm hoffer hr rfl (subscribing_ack hpolicy ha)]
        have hlink : Subscriptions internal Settled
            (Function.update pm.publishers.get i (some { p with queues := qs }))
            (Function.update pm.subscribers.get j (some (s.toState .subscribed))) := by
          refine hkept.setPair hp hs ?_ ?_ (by simp [AtRest, SubscriberPortData.toState]) ?_
          · rfl
          · rfl
          intro hint
          have hqs := tryAddQueue_eq hadd
          rw [if_neg (hkept.free_of_idle hint hs hidle i p hp)] at hqs
          exact (hkept.agreement hint).link hp hs (samePublisher rfl rfl) (sameSubscriber rfl rfl)
            hcomp (by simpa [pubSub] using hidle) hoff
            (by simp [pubSub, SubscriberPortData.toState]) hqs
        rw [← hset, ← publishers_get_setPublisher hp] at hlink
        refine h.advance hj hp { p with queues := qs } ?_ hoff (samePublisher rfl rfl) ?_
          ⟨hlink, ?_⟩
        · simp [report, setPublisher, setSubscriber, hp]
        · intro k hkj
          simp [report, setPublisher, setSubscriber, Ne.symm hkj]
        · exact Adds.of_eq (by simp [report, setPublisher, setSubscriber, expects])
      · rw [sendToSubscriberPort_sub hp hs hcomp hm hoffer hr rfl (subscribing_nack hpolicy ha)]
        have hwait : Subscriptions internal Settled pm.publishers.get
            (Function.update pm.subscribers.get j (some (s.toState .waitForOffer))) :=
          hkept.setIdle hs hidle rfl (by simp [AtRest, SubscriberPortData.toState])
            (by simp [SubscriberPortData.toState])
        rw [← hset, ← setPublisher_self hp] at hwait
        refine h.advance hj hp p ?_ hoff (samePublisher rfl rfl) ?_ ⟨hwait, ?_⟩
        · simp [report, setPublisher, setSubscriber, hp]
        · intro k hkj
          simp [report, setPublisher, setSubscriber, Ne.symm hkj]
        · refine Adds.trans (Adds.overflow pm) ?_
          exact Adds.of_eq (by simp [report, setPublisher, setSubscriber, expects])
      · simp [hoff] at hoff'
  · rw [hskip]
    exact h.skip

structure Dismissing (internal loud : Prop) (i : Nat) (pm₀ : PortManager) (pending : List Nat)
    (pm : PortManager) : Prop where
  kept : Kept internal (fun k l => k = i ∧ l ∈ pending) loud pm₀ pm
  stopped : ∃ p, pm.publishers.get i = some p ∧ p.offered = false
  quiet : ¬ loud → ∀ j ∈ pending, ∀ p s, pm.publishers.get i = some p →
    pm.subscribers.get j = some s → isCompatiblePubSub p s = true →
    s.subscriptionState ≠ .waitForOffer

theorem Dismissing.advance {pm₀ pm' : PortManager} {rest : List Nat}
    (h : Dismissing internal loud i pm₀ (j :: rest) pm) (hj : j ∉ rest)
    (hpubs : pm'.publishers.get = pm.publishers.get)
    (hsubs : ∀ k, k ≠ j → pm'.subscribers.get k = pm.subscribers.get k)
    (hkept : Subscriptions internal (fun k l => k = i ∧ l ∈ j :: rest) pm'.publishers.get
      pm'.subscribers.get)
    (hidle : ∀ p s, pm'.publishers.get i = some p → pm'.subscribers.get j = some s →
      isCompatiblePubSub p s = true → s.subscriptionState ≠ .subscribed)
    (hadds : Adds pm pm' loud) : Dismissing internal loud i pm₀ rest pm' where
  kept := by
    refine ⟨⟨hkept.unique, hkept.atRest, ?_, hkept.allInternal⟩, h.kept.2.trans hadds⟩
    intro hint
    apply (hkept.agreement hint).unmark
    rintro k l p s ⟨rfl, hl⟩ hp hs hconn hcomp
    refine ⟨rfl, ?_⟩
    obtain rfl | hl := List.mem_cons.mp hl
    · exact absurd (by simpa [pubSub] using hconn) (hidle p s hp hs hcomp)
    · exact hl
  stopped := by
    rw [hpubs]
    exact h.stopped
  quiet := by
    intro hloud k hk p s hp hs hcomp
    have hkj : k ≠ j := by
      rintro rfl
      exact hj hk
    rw [hpubs] at hp
    rw [hsubs k hkj] at hs
    exact h.quiet hloud k (List.mem_cons_of_mem j hk) p s hp hs hcomp

theorem Dismissing.step {pm₀ : PortManager} {rest : List Nat}
    (hpolicy : cfg.communicationPolicy = .oneToMany) (hm : m.type = .stopOffer) (hj : j ∉ rest)
    (h : Dismissing internal loud i pm₀ (j :: rest) pm) :
    Dismissing internal loud i pm₀ rest (sendToSubscriberPort cfg m i pm j) := by
  obtain ⟨p, hp, hoff⟩ := h.stopped
  have hkept := h.kept.1
  obtain ⟨p', s, hp', hs, hcomp⟩ | ⟨hskip, hincomp⟩ := sendToSubscriberPort_cases cfg m i pm j
  · rw [hp] at hp'
    cases hp'
    have hstay : ∀ fs : List Failure, s.subscriptionState ≠ .subscribed →
        s.dispatchCaProMessageAndGetPossibleResponse cfg.communicationPolicy j m =
          { port := s, failures := fs } →
        (∀ f ∈ fs, Benign f ∨ ProtocolError f ∧ loud) →
        Dismissing internal loud i pm₀ rest (sendToSubscriberPort cfg m i pm j) := by
      intro fs hidle hr hfs
      rw [sendToSubscriberPort_silent hp hs hcomp s fs hr]
      have hself : ((pm.setSubscriber j s).report fs).subscribers.get = pm.subscribers.get :=
        setSubscriber_self hs
      refine h.advance hj rfl (fun k _ => by rw [hself]) ?_ ?_ ?_
      · rw [hself]
        exact hkept
      · intro t u _ hu _
        rw [hself, hs] at hu
        cases hu
        exact hidle
      · exact Adds.trans (Adds.of_eq rfl) (Adds.report hfs (pm.setSubscriber j s))
    cases hstate : s.subscriptionState with
    | notSubscribed =>
      apply hstay [] (by simp [hstate])
      · simp [SubscriberPortData.dispatchCaProMessageAndGetPossibleResponse, hpolicy,
          SubscriberPortData.dispatchSingle, hm, hstate]
      · simp
    | subscribeRequested => exact absurd hstate (hkept.atRest hs).1
    | unsubscribeRequested => exact absurd hstate (hkept.atRest hs).2
    | waitForOffer =>
      apply hstay [.caproProtocolError .severe] (by simp [hstate])
      · simp [SubscriberPortData.dispatchCaProMessageAndGetPossibleResponse, hpolicy,
          SubscriberPortData.dispatchSingle, hm, hstate]
      · intro f hf
        rw [List.mem_singleton] at hf
        refine Or.inr ⟨⟨_, hf⟩, ?_⟩
        by_contra hquiet
        exact h.quiet hquiet j List.mem_cons_self p s hp hs hcomp hstate
    | subscribed =>
      rw [sendToSubscriberPort_silent hp hs hcomp (s.toState .waitForOffer) [] (by
        simp [SubscriberPortData.dispatchCaProMessageAndGetPossibleResponse, hpolicy,
          SubscriberPortData.dispatchSingle, hm, hstate])]
      have hsubs : ((pm.setSubscriber j (s.toState .waitForOffer)).report []).subscribers.get =
          Function.update pm.subscribers.get j (some (s.toState .waitForOffer)) :=
        subscribers_get_setSubscriber hs _
      refine h.advance hj rfl ?_ ?_ ?_ (Adds.of_eq (by simp [report, PortManager.setSubscriber]))
      · intro k hkj
        rw [hsubs, Function.update_of_ne hkj]
      · rw [hsubs]
        refine hkept.setSubscriber hs ?_ (by simp [AtRest, SubscriberPortData.toState]) ?_
        · rfl
        intro hint
        refine (hkept.agreement hint).setIdle ?_ (by simp [pubSub, SubscriberPortData.toState])
        intro k t hk hmem
        obtain ⟨-, l, u, hname, hu, hc, -⟩ := (hkept.agreement hint).held hk hmem
        cases hname
        rw [hs] at hu
        cases hu
        obtain rfl := hkept.publisher_unique hk hp hc hcomp
        rw [hp] at hk
        cases hk
        have hnil : p.queues = [] := (hkept.agreement hint).queues_of_not_offered hp hoff
        have hmem' : .subscriber j ∈ p.queues := hmem
        simp [hnil] at hmem'
      · intro t u _ hu _
        rw [hsubs, Function.update_self] at hu
        cases hu
        simp [SubscriberPortData.toState]
  · rw [hskip]
    refine h.advance hj rfl (fun _ _ => rfl) hkept ?_ (Adds.refl pm)
    intro t s ht hs hcomp
    simp [hincomp t s ht hs] at hcomp

theorem broadcasts_sendToSubscriberPort (m : CaproMessage) (i : Nat) (pm : PortManager) (j : Nat) :
    (sendToSubscriberPort cfg m i pm j).broadcasts = pm.broadcasts := by
  unfold sendToSubscriberPort
  split
  · split
    · simp only
      split
      · rfl
      · split <;> rfl
    · rfl
  · rfl

theorem broadcasts_forwardPublisherMessage (cfg : Config) (m : CaproMessage)
    (hp : pm.publishers.get i = some p) :
    (forwardPublisherMessage cfg m i pm).broadcasts = pm.broadcasts ++
      [.toSubscribers m.type ((matchingSubscribers m p pm).map (·.subscriptionState))] := by
  unfold forwardPublisherMessage
  rw [(SameCore.sendToAllMatchingInterfacePorts cfg m _).broadcasts]
  unfold sendToAllMatchingSubscriberPorts
  rw [hp]
  exact Lib.foldl_frame (fun pm : PortManager => pm.broadcasts)
    (broadcasts_sendToSubscriberPort m i) _ _

theorem quiet_forwardPublisherMessage (hpolicy : cfg.communicationPolicy = .oneToMany)
    (hp : pm.publishers.get i = some p) (hquiet : ¬ Loud cfg (forwardPublisherMessage cfg m i pm))
    (hj : j ∈ reachedSubscribers m pm) (hs : pm.subscribers.get j = some s)
    (hcomp : isCompatiblePubSub p s = true) :
    (m.type = .stopOffer → s.subscriptionState ≠ .waitForOffer) ∧
      (m.type = .offer → s.subscriptionState ≠ .subscribed) := by
  have hmem : s.subscriptionState ∈ (matchingSubscribers m p pm).map (·.subscriptionState) := by
    apply List.mem_map_of_mem
    unfold matchingSubscribers
    rw [List.mem_filter, List.mem_filterMap]
    exact ⟨⟨j, hj, hs⟩, hcomp⟩
  by_contra hunexpected
  apply hquiet
  rw [Loud, broadcasts_forwardPublisherMessage cfg m hp]
  refine ⟨_, List.mem_append_right _ List.mem_cons_self, ?_⟩
  intro hall
  obtain ⟨hstop, hoffer⟩ := hall hpolicy
  apply hunexpected
  exact ⟨fun hm hstate => hstop hm (hstate ▸ hmem), fun hm hstate => hoffer hm (hstate ▸ hmem)⟩

theorem invite_kept (hpolicy : cfg.communicationPolicy = .oneToMany) (pm : PortManager)
    (h : Subscriptions internal Settled pm.publishers.get pm.subscribers.get)
    (hp : pm.publishers.get i = some p) (hoff : p.offered = true) (hm : m.type = .offer)
    (hidle : internal → ∀ j s, pm.subscribers.get j = some s → isCompatiblePubSub p s = true →
      s.subscriptionState ≠ .subscribed) :
    Kept internal Settled (Loud cfg (forwardPublisherMessage cfg m i pm)) pm
      (forwardPublisherMessage cfg m i pm) := by
  generalize hloud : Loud cfg (forwardPublisherMessage cfg m i pm) = loud
  have hloop : Inviting internal loud i pm [] (sendToAllMatchingSubscriberPorts cfg m i pm) := by
    unfold sendToAllMatchingSubscriberPorts
    rw [hp]
    refine Lib.foldl_pending (I := Inviting internal loud i pm) _ _ (reachedSubscribers_nodup m pm)
      (fun _ _ _ ha hI => hI.step hpolicy hm ha) ?_
    refine ⟨⟨h, Adds.of_eq rfl⟩, ⟨p, hp, hoff⟩, ?_⟩
    intro hcase j hj t s ht hs hcomp
    have ht' : pm.publishers.get i = some t := ht
    rw [hp] at ht'
    cases ht'
    obtain hint | hquiet := hcase
    · exact hidle hint j s hs hcomp
    · rw [← hloud] at hquiet
      exact (quiet_forwardPublisherMessage hpolicy hp hquiet hj hs hcomp).2 hm
  have hcore := SameCore.sendToAllMatchingInterfacePorts cfg m
    (sendToAllMatchingSubscriberPorts cfg m i pm)
  refine ⟨?_, hloop.kept.2.trans hcore.adds⟩
  unfold forwardPublisherMessage
  rw [hcore.publishers, hcore.subscribers]
  exact hloop.kept.1

theorem dismiss_kept (hpolicy : cfg.communicationPolicy = .oneToMany) (pm : PortManager)
    (h : Subscriptions internal (fun k l => k = i ∧ l ∈ pm.subscribers.content)
      pm.publishers.get pm.subscribers.get)
    (hp : pm.publishers.get i = some p) (hoff : p.offered = false) (hm : m.type = .stopOffer) :
    Kept internal Settled (Loud cfg (forwardPublisherMessage cfg m i pm)) pm
        (forwardPublisherMessage cfg m i pm) ∧
      ∃ p, (forwardPublisherMessage cfg m i pm).publishers.get i = some p ∧
        p.offered = false := by
  generalize hloud : Loud cfg (forwardPublisherMessage cfg m i pm) = loud
  have hloop : Dismissing internal loud i pm [] (sendToAllMatchingSubscriberPorts cfg m i pm) := by
    unfold sendToAllMatchingSubscriberPorts
    rw [hp]
    refine Lib.foldl_pending (I := Dismissing internal loud i pm) _ _
      (reachedSubscribers_nodup m pm) (fun _ _ _ ha hI => hI.step hpolicy hm ha) ?_
    refine ⟨⟨⟨h.unique, h.atRest, ?_, h.allInternal⟩, Adds.of_eq rfl⟩, ⟨p, hp, hoff⟩, ?_⟩
    · intro hint
      rw [(h.allInternal hint).reachedSubscribers]
      exact h.agreement hint
    · intro hquiet j hj t s ht hs hcomp
      have ht' : pm.publishers.get i = some t := ht
      rw [hp] at ht'
      cases ht'
      rw [← hloud] at hquiet
      exact (quiet_forwardPublisherMessage hpolicy hp hquiet hj hs hcomp).1 hm
  have hcore := SameCore.sendToAllMatchingInterfacePorts cfg m
    (sendToAllMatchingSubscriberPorts cfg m i pm)
  unfold forwardPublisherMessage
  refine ⟨⟨?_, hloop.kept.2.trans hcore.adds⟩, ?_⟩
  · rw [hcore.publishers, hcore.subscribers]
    refine ⟨hloop.kept.1.unique, hloop.kept.1.atRest, ?_, hloop.kept.1.allInternal⟩
    intro hint
    apply (hloop.kept.1.agreement hint).mono
    rintro k l ⟨-, hl⟩
    cases hl
  · rw [hcore.publishers]
    exact hloop.stopped

theorem Subscriptions.stopOffer
    (h : Subscriptions internal Settled pm.publishers.get pm.subscribers.get)
    (hp : pm.publishers.get i = some p) (hd : p'.serviceDescription = p.serviceDescription)
    (ho : p'.options = p.options) (hq : p'.queues = []) :
    Subscriptions internal (fun k l => k = i ∧ l ∈ pm.subscribers.content)
      (Function.update pm.publishers.get i (some p')) pm.subscribers.get := by
  apply h.setPublisher hp hd
  intro hint
  refine (h.agreement hint).shrink hp (samePublisher hd ho) ?_ (fun hne => absurd hq hne) ?_
    (fun k l hst => hst.elim)
  · change p'.queues.Sublist p.queues
    simp [hq]
  · intro l hmem _
    obtain ⟨-, k, s, hname, hs, -⟩ := (h.agreement hint).held hp hmem
    cases hname
    exact ⟨rfl, by simp [hs]⟩

theorem discoverPublisher_kept (hpolicy : cfg.communicationPolicy = .oneToMany)
    (h : Subscriptions internal Settled pm.publishers.get pm.subscribers.get) (i : Nat) :
    Kept internal Settled (Loud cfg (doDiscoveryForPublisherPort cfg i pm)) pm
      (doDiscoveryForPublisherPort cfg i pm) := by
  unfold doDiscoveryForPublisherPort
  split
  · exact ⟨h, Adds.refl pm⟩
  · next p hp =>
    have hset := fun p' => publishers_get_setPublisher hp p'
    obtain htry | ⟨hoff, m, htry, hm, -⟩ | ⟨-, m, htry, hm, -⟩ := p.tryGet_cases
    · rw [htry]
      refine ⟨?_, Adds.of_eq (by simp [report, setPublisher])⟩
      rw [← setPublisher_self hp] at h
      exact h
    · rw [htry]
      simp only [hm, addPublisherToServiceRegistry]
      have hports := SamePorts.addToServiceRegistry cfg .publisherCount m.serviceDescription
        ((pm.setPublisher i { p with offered := true }).report [])
      have hsubs : Subscriptions internal Settled
          (Function.update pm.publishers.get i (some { p with offered := true }))
          pm.subscribers.get := by
        refine h.setPublisher hp ?_ ?_
        · rfl
        intro hint
        exact (h.agreement hint).setProvider hp (samePublisher rfl rfl) rfl fun _ => rfl
      rw [← hset] at hsubs
      have hsubs' : Subscriptions internal Settled
          (addToServiceRegistry cfg .publisherCount m.serviceDescription
            ((pm.setPublisher i { p with offered := true }).report [])).publishers.get
          (addToServiceRegistry cfg .publisherCount m.serviceDescription
            ((pm.setPublisher i { p with offered := true }).report [])).subscribers.get := by
        rw [hports.publishers, hports.subscribers]
        exact hsubs
      have hget : (addToServiceRegistry cfg .publisherCount m.serviceDescription
          ((pm.setPublisher i { p with offered := true }).report [])).publishers.get i =
          some { p with offered := true } := by
        rw [hports.publishers]
        simp [report, setPublisher, hp]
      have hkept := invite_kept hpolicy _ hsubs' hget rfl hm (by
        rw [hports.subscribers]
        intro hint j s hs hcomp hstate
        have := ((h.agreement hint).connected_iff hp hs hcomp).mp (by simp [pubSub, hstate])
        simp [pubSub, hoff] at this)
      refine ⟨hkept.1, ?_⟩
      refine Adds.trans (Adds.trans (Adds.of_eq ?_) (hports.adds _)) hkept.2
      simp [report, setPublisher]
    · rw [htry]
      simp only [hm]
      have hsubs : Subscriptions internal (fun k l => k = i ∧ l ∈ pm.subscribers.content)
          (Function.update pm.publishers.get i (some { p with offered := false, queues := [] }))
          pm.subscribers.get := h.stopOffer hp rfl rfl rfl
      rw [← hset] at hsubs
      have hget : (removePublisherFromServiceRegistry m.serviceDescription
          ((pm.setPublisher i { p with offered := false, queues := [] }).report
            [])).publishers.get i = some { p with offered := false, queues := [] } := by
        simp [removePublisherFromServiceRegistry, report, setPublisher, hp]
      have hkept := (dismiss_kept hpolicy _ hsubs hget rfl hm).1
      refine ⟨hkept.1, Adds.trans (Adds.of_eq ?_) hkept.2⟩
      simp [removePublisherFromServiceRegistry, report, setPublisher]

theorem destroyPublisher_kept (hpolicy : cfg.communicationPolicy = .oneToMany)
    (h : Subscriptions internal Settled pm.publishers.get pm.subscribers.get) (i : Nat) :
    Kept internal Settled (Loud cfg (destroyPublisherPort cfg i pm)) pm
      (destroyPublisherPort cfg i pm) := by
  unfold destroyPublisherPort
  split
  · exact ⟨h, Adds.refl pm⟩
  · next p hp =>
    have hset := fun p' => publishers_get_setPublisher hp p'
    have herase : ∀ (pm' : PortManager) {p'}, Kept internal Settled (Loud cfg pm') pm pm' →
        pm'.publishers.get i = some p' → p'.offered = false →
        Kept internal Settled (Loud cfg { pm' with publishers := pm'.publishers.erase i }) pm
          { pm' with publishers := pm'.publishers.erase i } := by
      intro pm' p' hkept hp' hoff
      refine ⟨?_, hkept.2⟩
      have := hkept.1.erasePublisher hp' hoff
      rw [← pm'.publishers.get_erase_eq] at this
      exact this
    obtain ⟨hoff, htry⟩ | ⟨-, m, htry, hm, -⟩ := p.tryGet_stopOffer
    · rw [htry]
      have hsubs : Subscriptions internal Settled
          (Function.update pm.publishers.get i (some p.stopOffer)) pm.subscribers.get := by
        refine h.setPublisher hp ?_ ?_
        · rfl
        intro hint
        exact (h.agreement hint).setProvider hp (samePublisher rfl rfl) rfl fun ho => ho
      rw [← hset] at hsubs
      have hget : ((pm.setPublisher i p.stopOffer).report []).publishers.get i =
          some p.stopOffer := by
        simp [report, setPublisher, hp]
      refine herase ((pm.setPublisher i p.stopOffer).report []) ⟨hsubs, ?_⟩ hget hoff
      exact Adds.of_eq (by simp [report, setPublisher])
    · rw [htry]
      have hensures : expects (decide (m.type = .stopOffer)) = [] := by simp [expects, hm]
      simp only [hensures]
      have hsubs : Subscriptions internal (fun k l => k = i ∧ l ∈ pm.subscribers.content)
          (Function.update pm.publishers.get i
            (some { p.stopOffer with offered := false, queues := [] })) pm.subscribers.get :=
        h.stopOffer hp rfl rfl rfl
      rw [← hset] at hsubs
      have hget : (removePublisherFromServiceRegistry m.serviceDescription
          (((pm.setPublisher i { p.stopOffer with offered := false, queues := [] }).report
            []).report [])).publishers.get i =
          some { p.stopOffer with offered := false, queues := [] } := by
        simp [removePublisherFromServiceRegistry, report, setPublisher, hp]
      obtain ⟨hkept, p', hp', hoff'⟩ := dismiss_kept hpolicy _ hsubs hget rfl hm
      refine herase _ ⟨hkept.1, Adds.trans (Adds.of_eq ?_) hkept.2⟩ hp' hoff'
      simp [removePublisherFromServiceRegistry, report, setPublisher]

end Messages

def OneToManyInv (internal : Prop) (pm : PortManager) : Prop :=
  Subscriptions internal Settled pm.publishers.get pm.subscribers.get

namespace OneToManyInv

variable {internal : Prop}

theorem of_same {pm' : PortManager} (h : OneToManyInv internal pm) (hsame : SamePubSub pm pm') :
    OneToManyInv internal pm' := by
  unfold OneToManyInv
  rw [hsame.publishers, hsame.subscribers]
  exact h

theorem flagPublisher {f : PublisherPortData → PublisherPortData} (i : Nat)
    (hf : ∀ p, ∃ a b, f p = { p with offeringRequested := a, toBeDestroyed := b })
    (h : OneToManyInv internal pm) :
    OneToManyInv internal { pm with publishers := pm.publishers.modify i f } := by
  unfold OneToManyInv at *
  cases hp : pm.publishers.get i with
  | none =>
    simp only
    rw [pm.publishers.get_modify_none f hp]
    exact h
  | some p =>
    simp only
    rw [pm.publishers.get_modify_eq f hp]
    obtain ⟨a, b, hfp⟩ := hf p
    rw [hfp]
    refine h.setPublisher hp ?_ ?_
    · rfl
    intro hint
    exact (h.agreement hint).setProvider hp (samePublisher rfl rfl) rfl fun ho => ho

theorem flagSubscriber (j : Nat) (a b : Bool) (h : OneToManyInv internal pm) :
    OneToManyInv internal (writeSubscriber j a b pm) := by
  unfold OneToManyInv at *
  cases hs : pm.subscribers.get j with
  | none =>
    simp only [writeSubscriber]
    rw [pm.subscribers.get_modify_none _ hs]
    exact h
  | some s =>
    simp only [writeSubscriber]
    rw [pm.subscribers.get_modify_eq _ hs]
    exact h.setFlags hs rfl rfl rfl

theorem insertPublisher {service : ServiceDescription} {options : PublisherOptions}
    {name : String} (h : OneToManyInv internal pm)
    (hint : internal → service.interfaceSource = .internal)
    (hfree : ∀ k p, pm.publishers.get k = some p → ¬ service.Same p.serviceDescription) :
    OneToManyInv internal { pm with publishers := (pm.publishers.insert
      (PublisherPortData.create cfg.maxPublisherHistory service name options)).1 } := by
  unfold OneToManyInv at *
  simp only
  rw [pm.publishers.get_insert_eq]
  refine h.insertPublisher (pm.publishers.get_insert_slot _) ?_ rfl hint
  intro k t hk hkey
  exact hfree k t hk (ServiceDescription.same_iff.mpr hkey.symm)

theorem insertSubscriber {service : ServiceDescription} {options : SubscriberOptions}
    {name : String} (h : OneToManyInv internal pm)
    (hint : internal → service.interfaceSource = .internal) :
    OneToManyInv internal { pm with subscribers := (pm.subscribers.insert
      (SubscriberPortData.create service name options)).1 } := by
  unfold OneToManyInv at *
  simp only
  rw [pm.subscribers.get_insert_eq]
  exact h.insertSubscriber (pm.subscribers.get_insert_slot _) rfl hint

theorem keeps (hpolicy : cfg.communicationPolicy = .oneToMany) :
    Keeps cfg (OneToManyInv internal) where
  core hcore h := h.of_same (SamePubSub.of_core hcore)
  discoverPublisher i _ h := (discoverPublisher_kept hpolicy h i).1
  destroyPublisher i _ h := (destroyPublisher_kept hpolicy h i).1
  discoverSubscriber j _ h := (discoverSubscriber_kept hpolicy h j).1
  destroySubscriber j _ h := (destroySubscriber_kept hpolicy h j).1
  discoverServer j _ h := h.of_same (SamePubSub.discoverServer j _)
  destroyServer j _ h := h.of_same (SamePubSub.destroyServer j _)
  discoverClient i _ h := h.of_same (SamePubSub.discoverClient i _)
  destroyClient i _ h := h.of_same (SamePubSub.destroyClient i _)
  flagPublisher i _ _ hf h := h.flagPublisher i hf
  flagServer _ _ _ _ h := h
  flagSubscriber j a b _ h := h.flagSubscriber j a b
  flagClient _ _ _ _ h := h

theorem empty : OneToManyInv internal {} := by
  have hnone : ∀ {α : Type}, (({} : FixedPositionContainer α)).get = fun _ => none := by
    intro α
    funext i
    simp
  unfold OneToManyInv
  rw [hnone, hnone]
  exact ⟨by simp, by simp, fun _ => Agreement.empty, fun _ => ⟨by simp, by simp⟩⟩

theorem apply (hpolicy : cfg.communicationPolicy = .oneToMany) {op : Op}
    (hint : internal → Internal op) (h : OneToManyInv internal pm) :
    OneToManyInv internal (apply cfg pm op) := by
  have K : Keeps cfg (OneToManyInv internal) := keeps hpolicy
  apply K.apply h op
  · rintro service options name rfl
    exact K.acquirePublisher h fun hI _ hfree _ => hI.insertPublisher hint (hfree hpolicy)
  · rintro service options name rfl
    unfold acquireSubscriberPortData
    split
    · exact K.discoverSubscriber _ (h.insertSubscriber hint)
    · exact K.core (SameCore.report (by simp [Benign]) _) h
  · rintro service options name -
    exact K.acquireClient h h
  · rintro service options name -
    exact K.acquireServer h fun hI _ _ => hI

theorem run (hpolicy : cfg.communicationPolicy = .oneToMany) (ops : List Op)
    (hint : internal → ∀ op ∈ ops, Internal op) : OneToManyInv internal (run cfg ops) := by
  apply run_invariant ops empty
  intro pre op hpre h
  exact apply hpolicy (fun hi => hint hi op (hpre.subset (by simp))) h

end OneToManyInv

/-- After every operation of every run under the 1:n policy over ports of the internal
interface: at most one publisher is compatible with a subscriber; the subscriber is subscribed
if and only if that publisher offers and holds its queue; no subscriber rests in a transient
state; and no container holds a queue of nobody. -/
theorem one_to_many_subscriptions {cfg : Config} {ops : List Op}
    (hpolicy : cfg.communicationPolicy = .oneToMany) (hint : ∀ op ∈ ops, Internal op) :
    (∀ j s, (run cfg ops).subscribers.get j = some s →
      (∀ i k p p', (run cfg ops).publishers.get i = some p →
        (run cfg ops).publishers.get k = some p' → isCompatiblePubSub p s = true →
        isCompatiblePubSub p' s = true → i = k) ∧
      (s.subscriptionState = .subscribed ↔ ∃ i p, (run cfg ops).publishers.get i = some p ∧
        isCompatiblePubSub p s = true ∧ p.offered = true ∧ .subscriber j ∈ p.queues) ∧
      s.subscriptionState ≠ .subscribeRequested ∧ s.subscriptionState ≠ .unsubscribeRequested) ∧
    (∀ i p q, (run cfg ops).publishers.get i = some p → q ∈ p.queues →
      ∃ j s, q = .subscriber j ∧ (run cfg ops).subscribers.get j = some s ∧
        isCompatiblePubSub p s = true) := by
  have h : Subscriptions True Settled _ _ := OneToManyInv.run hpolicy ops fun _ => hint
  have hagree := h.agreement trivial
  refine ⟨?_, ?_⟩
  · intro j s hs
    refine ⟨fun i k p p' hp hp' hcomp hcomp' => h.publisher_unique hp hp' hcomp hcomp', ?_,
      h.atRest hs⟩
    constructor
    · intro hstate
      obtain ⟨i, p, hp, hcomp, hmem | hstale⟩ := hagree.linked hs (by simp [pubSub, hstate])
      · exact ⟨i, p, hp, hcomp, (hagree.held hp hmem).1, hmem⟩
      · exact hstale.elim
    · rintro ⟨i, p, hp, hcomp, hoff, hmem⟩
      simpa [pubSub] using (hagree.connected_iff hp hs hcomp).mpr ⟨hoff, hmem⟩
  · intro i p q hp hq
    obtain ⟨-, j, s, hname, hs, hcomp, -⟩ := hagree.held hp hq
    exact ⟨j, s, hname, hs, hcomp⟩

def oneQueueForTwo : List Op :=
  [.acquirePublisherPortData radar {} "sender", .acquireSubscriberPortData radar {} "first",
    .acquireSubscriberPortData radar {} "second"]

theorem one_to_many_subscriptions_full :
    ∃ s t, (run (smallConfig .oneToMany) oneQueueForTwo).subscribers.get 0 = some s ∧
      (run (smallConfig .oneToMany) oneQueueForTwo).subscribers.get 1 = some t ∧
      (∃ i p, (run (smallConfig .oneToMany) oneQueueForTwo).publishers.get i = some p ∧
        isCompatiblePubSub p s = true ∧ p.offered = true ∧ .subscriber 0 ∈ p.queues) ∧
      t.subscriptionState = .waitForOffer := by
  have hint : ∀ op ∈ oneQueueForTwo, Internal op := by decide
  have hpolicy : (smallConfig .oneToMany).communicationPolicy = .oneToMany := rfl
  refine ⟨_, _, rfl, rfl, ?_, rfl⟩
  have h := (one_to_many_subscriptions hpolicy hint).1 0 _ rfl
  exact h.2.1.mp rfl

end Iceoryx.Roudi.PortManager
