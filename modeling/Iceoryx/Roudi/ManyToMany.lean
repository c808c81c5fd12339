import Mathlib.Data.List.Infix
import Iceoryx.Lib.Mesh
import Iceoryx.Roudi.PubSub

namespace Iceoryx.Roudi.PortManager

open Capro Popo Lib.Rendezvous

variable {cfg : Config} {pm : PortManager} {i j : Nat} {p p' : PublisherPortData}
  {s s' : SubscriberPortData} {m : CaproMessage}

structure Net (n : Nat) (pending : Nat → Nat → Prop) (P : Nat → Option PublisherPortData)
    (S : Nat → Option SubscriberPortData) : Prop where
  mesh : pubSub.Mesh pending P S
  room : pubSub.Room n P S
  internal : AllInternal P S

section Net

variable {n : Nat} {pending pending' : Nat → Nat → Prop}
  {P : Nat → Option PublisherPortData} {S : Nat → Option SubscriberPortData}

theorem Net.setPublisher (h : Net n pending P S) (hp : P i = some p)
    (hd : p'.serviceDescription = p.serviceDescription) (ho : p'.options = p.options)
    (hmesh : pubSub.Mesh pending' (Function.update P i (some p')) S) :
    Net n pending' (Function.update P i (some p')) S where
  mesh := hmesh
  room := h.room.updateProvider hp (samePublisher hd ho).compatible
  internal := h.internal.updatePublisher (by rw [hd]; exact h.internal.publishers hp)

theorem Net.setSubscriber (h : Net n pending P S) (hs : S j = some s)
    (hd : s'.serviceDescription = s.serviceDescription) (ho : s'.options = s.options)
    (hmesh : pubSub.Mesh pending' P (Function.update S j (some s'))) :
    Net n pending' P (Function.update S j (some s')) where
  mesh := hmesh
  room := h.room.updateConsumer hs (sameSubscriber hd ho)
  internal := h.internal.updateSubscriber (by rw [hd]; exact h.internal.subscribers hs)

theorem Net.mono (h : Net n pending P S) (hmesh : pubSub.Mesh pending' P S) :
    Net n pending' P S :=
  ⟨hmesh, h.room, h.internal⟩

end Net

theorem dispatchMulti_answer (hpolicy : cfg.communicationPolicy = .manyToMany) {a : CaproMessage}
    (ha : a.type = .ack ∨ a.type = .nack ∨ a.type = .stopOffer) :
    s.dispatchCaProMessageAndGetPossibleResponse cfg.communicationPolicy j a = { port := s } := by
  unfold SubscriberPortData.dispatchCaProMessageAndGetPossibleResponse
  simp only [hpolicy]
  unfold SubscriberPortData.dispatchMulti
  obtain ha | ha | ha := ha <;> simp [ha]

theorem dispatchMulti_offer_silent (hpolicy : cfg.communicationPolicy = .manyToMany)
    (hm : m.type = .offer) (hstate : s.subscriptionState ≠ .subscribed) :
    ∃ fs, s.dispatchCaProMessageAndGetPossibleResponse cfg.communicationPolicy j m =
      { port := s, failures := fs } := by
  unfold SubscriberPortData.dispatchCaProMessageAndGetPossibleResponse
  simp only [hpolicy]
  unfold SubscriberPortData.dispatchMulti
  rw [hm]
  cases hst : s.subscriptionState with
  | subscribed => exact absurd hst hstate
  | _ => exact ⟨_, rfl⟩

structure Telling (n j : Nat) (m : CaproMessage) (rest : List Nat) (pm : PortManager) :
    Prop where
  net : Net n (fun k l => l = j ∧ k ∈ rest) pm.publishers.get pm.subscribers.get
  state : ∃ s, pm.subscribers.get j = some s ∧
    ((m.type = .sub ∧ s.subscriptionState = .subscribed) ∨
      (m.type = .unsub ∧ s.subscriptionState ≠ .subscribed))

theorem listed_of_not_offered {S : Nat → Option SubscriberPortData} (hkeeps : pubSub.Keeps S p)
    (hoff : p.offered = false) : pubSub.Listed p j s := by
  have hnot : ¬ pubSub.name j ∈ pubSub.queues p := by
    intro hmem
    have := (hkeeps.2 _ hmem).1
    simp [pubSub, hoff] at this
  have hoff' : pubSub.offered p = false := hoff
  simp [Listed, hnot, hoff']

theorem listed_of_incompatible {S : Nat → Option SubscriberPortData}
    (hkeeps : pubSub.Keeps S p) (hs : S j = some s) (hcomp : isCompatiblePubSub p s = false) :
    pubSub.Listed p j s := by
  have hcomp' : pubSub.compatible p s = false := hcomp
  have hnot : ¬ pubSub.name j ∈ pubSub.queues p := by
    intro hmem
    obtain ⟨-, k, t, hname, ht, hc⟩ := hkeeps.2 _ hmem
    rw [← pubSub.name_injective hname, hs] at ht
    cases ht
    simp [hcomp'] at hc
  simp [Listed, hnot, hcomp']

theorem Telling.advance {n : Nat} {rest : List Nat} {pm' : PortManager}
    (h : Telling n j m (i :: rest) pm)
    (hnet : Net n (fun k l => l = j ∧ k ∈ rest) pm'.publishers.get pm'.subscribers.get)
    (hsubs : pm'.subscribers.get = pm.subscribers.get) : Telling n j m rest pm' where
  net := hnet
  state := by
    rw [hsubs]
    exact h.state

theorem Telling.step {rest : List Nat} {b : Bool}
    (hpolicy : cfg.communicationPolicy = .manyToMany)
    (hq : m.chunkQueueData = some (.subscriber j))
    (h : Telling cfg.maxSubscribersPerPublisher j m (i :: rest) pm) :
    Telling cfg.maxSubscribersPerPublisher j m rest (sendToPublisherPort cfg m j (pm, b) i).1 := by
  have hnet := h.net
  have himp : ∀ k l, ¬ (k = i ∧ l = j) → (l = j ∧ k ∈ i :: rest) → l = j ∧ k ∈ rest := by
    rintro k l hne ⟨rfl, hk⟩
    exact ⟨rfl, List.mem_of_ne_of_mem (fun hki => hne ⟨hki, rfl⟩) hk⟩
  -- the pair is right as it is
  have hunmark : (∀ p s, pm.publishers.get i = some p → pm.subscribers.get j = some s →
      pubSub.Listed p j s) →
      pubSub.Mesh (fun k l => l = j ∧ k ∈ rest) pm.publishers.get pm.subscribers.get := by
    intro hlisted
    apply hnet.mesh.unmark
    rintro k l p s hpend hp hs
    by_cases hkl : k = i ∧ l = j
    · obtain ⟨rfl, rfl⟩ := hkl
      exact Or.inl (hlisted p s hp hs)
    · exact Or.inr (himp k l hkl hpend)
  obtain ⟨p, s, hp, hs, hcomp⟩ | ⟨hskip, hincomp⟩ := sendToPublisherPort_cases cfg m j (pm, b) i
  · have hkeeps := hnet.mesh.keeps hp
    have hwrite : ∀ (r : Reaction PublisherPortData) (a : CaproMessage),
        p.dispatchCaProMessageAndGetPossibleResponse cfg.maxSubscribersPerPublisher m = r →
        r.response = some a → (a.type = .ack ∨ a.type = .nack) →
        r.port.serviceDescription = p.serviceDescription → r.port.options = p.options →
        pubSub.Mesh (fun k l => l = j ∧ k ∈ rest)
          (Function.update pm.publishers.get i (some r.port)) pm.subscribers.get →
        Telling cfg.maxSubscribersPerPublisher j m rest
          (sendToPublisherPort cfg m j (pm, b) i).1 := by
      intro r a hr ha htype hd ho hmesh
      rw [sendToPublisherPort_eq hp hs hcomp b hr ha
        (dispatchMulti_answer hpolicy (htype.imp_right Or.inl))]
      have hsubs : (((((pm.setPublisher i r.port).report r.failures).setSubscriber j s).report
          ([] ++ expects true))).subscribers.get = pm.subscribers.get := setSubscriber_self hs
      have hnet' := hnet.setPublisher hp hd ho hmesh
      rw [← publishers_get_setPublisher hp, ← hsubs] at hnet'
      exact h.advance hnet' hsubs
    obtain ⟨s', hs', htell⟩ := h.state
    rw [hs] at hs'
    cases hs'
    obtain ⟨hm, hstate⟩ | ⟨hm, hstate⟩ := htell
    · obtain ⟨hoff, qs, hadd, a, hr, ha⟩ | ⟨hoff, hadd, -⟩ | ⟨hoff, a, hr, ha⟩ :=
        dispatch_sub cfg.maxSubscribersPerPublisher hm hq (p := p)
      · refine hwrite _ a hr rfl (Or.inl ha) rfl rfl ?_
        exact hnet.mesh.list hp hs (samePublisher rfl rfl).compatible rfl hoff
          (by simp [pubSub, hstate]) hcomp (tryAddQueue_eq hadd) himp
      · unfold tryAddQueue at hadd
        split at hadd
        · cases hadd
        · next hnew =>
          have hlt : p.queues.length < cfg.maxSubscribersPerPublisher :=
            hnet.room.length_lt hkeeps hp hs hcomp hnew
          simp [hlt] at hadd
      · refine hwrite _ a hr rfl (Or.inr ha) rfl rfl ?_
        rw [Function.update_eq_self_iff.mpr hp.symm]
        apply hunmark
        intro p' s' hp' hs'
        rw [hp] at hp'
        cases hp'
        exact listed_of_not_offered hkeeps hoff
    · obtain ⟨-, a, hr, ha⟩ | ⟨hoff, a, hr, ha⟩ :=
        dispatch_unsub cfg.maxSubscribersPerPublisher hm hq (p := p)
      · refine hwrite _ a hr rfl ha rfl rfl ?_
        exact hnet.mesh.unlist hp hs (samePublisher rfl rfl).compatible rfl
          (by simpa [pubSub] using hstate) rfl himp
      · refine hwrite _ a hr rfl (Or.inr ha) rfl rfl ?_
        rw [Function.update_eq_self_iff.mpr hp.symm]
        apply hunmark
        intro p' s' hp' hs'
        rw [hp] at hp'
        cases hp'
        exact listed_of_not_offered hkeeps hoff
  · rw [hskip]
    refine h.advance (hnet.mono (hunmark ?_)) rfl
    intro p s hp hs
    exact listed_of_incompatible (hnet.mesh.keeps hp) hs (hincomp p s hp hs)

theorem tell_all (hpolicy : cfg.communicationPolicy = .manyToMany)
    (hq : m.chunkQueueData = some (.subscriber j))
    (h : Telling cfg.maxSubscribersPerPublisher j m pm.publishers.content pm) :
    Telling cfg.maxSubscribersPerPublisher j m []
      (sendToAllMatchingPublisherPorts cfg m j pm).1 := by
  unfold sendToAllMatchingPublisherPorts
  rw [h.net.internal.reachedPublishers]
  refine Lib.foldl_pending
    (I := fun rest acc => Telling cfg.maxSubscribersPerPublisher j m rest acc.1)
    pm.publishers.content (pm, false) pm.publishers.content_nodup ?_ h
  rintro ⟨pm', b⟩ i rest _ hI
  exact hI.step hpolicy hq

theorem Telling.done {n : Nat} (h : Telling n j m [] pm) :
    Net n Settled pm.publishers.get pm.subscribers.get := by
  refine h.net.mono (h.net.mesh.mono ?_)
  rintro k l ⟨-, hk⟩
  cases hk

theorem tryGetMulti_cases (hpolicy : cfg.communicationPolicy = .manyToMany) (j : Nat)
    (s : SubscriberPortData) :
    s.tryGetCaProMessage cfg.communicationPolicy j = { port := s } ∨
    (s.tryGetCaProMessage cfg.communicationPolicy j =
      { port := s.toState .subscribed, response := some (s.subMessage j) }) ∨
    (s.tryGetCaProMessage cfg.communicationPolicy j =
      { port := s.toState .notSubscribed, response := some (s.unsubMessage j) }) := by
  unfold SubscriberPortData.tryGetCaProMessage
  simp only [hpolicy]
  unfold SubscriberPortData.tryGetCaProMessageMulti
  split <;> simp

theorem Net.startTelling {n : Nat} (pm : PortManager) {S : Nat → Option SubscriberPortData}
    (h : Net n Settled pm.publishers.get S) (hs : S j = some s)
    (hsubs : pm.subscribers.get = Function.update S j (some s'))
    (hd : s'.serviceDescription = s.serviceDescription) (ho : s'.options = s.options)
    (hstate : (m.type = .sub ∧ s'.subscriptionState = .subscribed) ∨
      (m.type = .unsub ∧ s'.subscriptionState ≠ .subscribed)) :
    Telling n j m pm.publishers.content pm where
  net := by
    rw [hsubs]
    refine h.setSubscriber hs hd ho (h.mesh.updateConsumer hs (sameSubscriber hd ho) ?_ ?_)
    · intro k l _ hpend
      exact hpend.elim
    · intro k p hp hnot
      exact absurd ⟨rfl, by simp [hp]⟩ hnot
  state := ⟨s', by simp [hsubs], hstate⟩

theorem nackSubscriber_net {n : Nat} (hpolicy : cfg.communicationPolicy = .manyToMany)
    (h : Net n Settled pm.publishers.get pm.subscribers.get) (j : Nat) :
    Net n Settled (nackSubscriber cfg j pm).publishers.get
      (nackSubscriber cfg j pm).subscribers.get := by
  unfold nackSubscriber
  split
  · exact h
  · next s hs =>
    have hnack := dispatchMulti_answer hpolicy (s := s) (j := j)
      (a := { type := .nack, serviceDescription := s.serviceDescription }) (by simp)
    simp only [hnack]
    rw [← setSubscriber_self hs] at h
    exact h

theorem discoverSubscriber_net (hpolicy : cfg.communicationPolicy = .manyToMany)
    (h : Net cfg.maxSubscribersPerPublisher Settled pm.publishers.get pm.subscribers.get)
    (j : Nat) :
    Net cfg.maxSubscribersPerPublisher Settled
      (doDiscoveryForSubscriberPort cfg j pm).publishers.get
      (doDiscoveryForSubscriberPort cfg j pm).subscribers.get := by
  unfold doDiscoveryForSubscriberPort
  split
  · exact h
  · next s hs =>
    -- the request is carried to all publishers, whatever they answer
    have hrequest : ∀ (m : CaproMessage) (state : SubscribeState),
        m.chunkQueueData = some (.subscriber j) →
        (m.type = .sub ∧ state = .subscribed) ∨ (m.type = .unsub ∧ state ≠ .subscribed) →
        Telling cfg.maxSubscribersPerPublisher j m [] (sendToAllMatchingPublisherPorts cfg m j
          ((pm.setSubscriber j (s.toState state)).report [])).1 := by
      intro m state hq hstate
      apply tell_all hpolicy hq
      exact Net.startTelling ((pm.setSubscriber j (s.toState state)).report []) h hs
        (subscribers_get_setSubscriber hs _) rfl rfl hstate
    obtain htry | htry | htry := tryGetMulti_cases hpolicy j s
    · rw [htry]
      rw [← setSubscriber_self hs] at h
      exact h
    · rw [htry]
      have hdone := (hrequest (s.subMessage j) .subscribed rfl (Or.inl ⟨rfl, rfl⟩)).done
      have htype : (s.subMessage j).type = .sub := rfl
      simp only [htype, true_or, if_true]
      split
      · exact hdone
      · exact nackSubscriber_net hpolicy hdone j
    · rw [htry]
      have hdone := (hrequest (s.unsubMessage j) .notSubscribed rfl (Or.inr ⟨rfl, by simp⟩)).done
      have htype : (s.unsubMessage j).type = .unsub := rfl
      simp only [htype, or_true, if_true]
      split
      · exact hdone
      · exact nackSubscriber_net hpolicy hdone j

theorem destroySubscriber_net (hpolicy : cfg.communicationPolicy = .manyToMany)
    (h : Net cfg.maxSubscribersPerPublisher Settled pm.publishers.get pm.subscribers.get)
    (j : Nat) :
    Net cfg.maxSubscribersPerPublisher Settled (destroySubscriberPort cfg j pm).publishers.get
      (destroySubscriberPort cfg j pm).subscribers.get := by
  -- once nobody holds the subscriber it may go
  have herase : ∀ (pm : PortManager) (t : SubscriberPortData),
      Net cfg.maxSubscribersPerPublisher Settled pm.publishers.get pm.subscribers.get →
      pm.subscribers.get j = some t → t.subscriptionState ≠ .subscribed →
      Net cfg.maxSubscribersPerPublisher Settled pm.publishers.get
        (pm.subscribers.erase j).get := by
    intro pm t h ht hstate
    rw [pm.subscribers.get_erase_eq]
    refine ⟨h.mesh.eraseConsumer ?_, h.room.eraseConsumer j, h.internal.eraseSubscriber j⟩
    intro i p hp hmem
    have := (h.mesh.listed hp ht id).mp hmem
    simp [pubSub, hstate] at this
  unfold destroySubscriberPort
  split
  · exact h
  · next s hs =>
    by_cases hstate : s.subscriptionState = .subscribed
    · have htry : s.unsubscribe.tryGetCaProMessage cfg.communicationPolicy j =
          { port := s.unsubscribe.toState .notSubscribed
            response := some (s.unsubscribe.unsubMessage j) } := by
        simp [SubscriberPortData.tryGetCaProMessage, hpolicy, SubscriberPortData.unsubscribe,
          SubscriberPortData.tryGetCaProMessageMulti, hstate]
      have hexpects : expects (decide ((s.unsubscribe.unsubMessage j).type = .unsub)) = [] := rfl
      rw [htry]
      simp only [hexpects]
      have htold := tell_all hpolicy (j := j) (m := s.unsubscribe.unsubMessage j) rfl
        (Net.startTelling (((pm.setSubscriber j
          (s.unsubscribe.toState .notSubscribed)).report []).report []) h hs
          (subscribers_get_setSubscriber hs _) rfl rfl
          (Or.inr ⟨rfl, by simp [SubscriberPortData.toState]⟩))
      obtain ⟨t, ht, ⟨hsub, -⟩ | ⟨-, hidle⟩⟩ := htold.state
      · cases hsub
      · exact herase _ t htold.done ht hidle
    · have htry : s.unsubscribe.tryGetCaProMessage cfg.communicationPolicy j =
          { port := s.unsubscribe } := by
        have hstate' : s.unsubscribe.subscriptionState ≠ .subscribed := hstate
        have hreq : s.unsubscribe.subscribeRequested = false := rfl
        unfold SubscriberPortData.tryGetCaProMessage
        simp only [hpolicy]
        unfold SubscriberPortData.tryGetCaProMessageMulti
        split <;> simp_all
      rw [htry]
      have hflag : Net cfg.maxSubscribersPerPublisher Settled pm.publishers.get
          (Function.update pm.subscribers.get j (some s.unsubscribe)) :=
        h.setSubscriber hs rfl rfl (h.mesh.setConsumer hs (sameSubscriber rfl rfl) rfl)
      rw [← subscribers_get_setSubscriber hs] at hflag
      exact herase ((pm.setSubscriber j s.unsubscribe).report []) s.unsubscribe hflag
        (by simp [report, PortManager.setSubscriber, hs]) hstate

structure Announcing (n i : Nat) (rest : List Nat) (pm : PortManager) : Prop where
  net : Net n (fun k l => k = i ∧ l ∈ rest) pm.publishers.get pm.subscribers.get
  offered : ∃ p, pm.publishers.get i = some p ∧ p.offered = true ∧
    ∀ l ∈ rest, .subscriber l ∉ p.queues

theorem Announcing.step {rest : List Nat} (hpolicy : cfg.communicationPolicy = .manyToMany)
    (hm : m.type = .offer) (hj : j ∉ rest)
    (h : Announcing cfg.maxSubscribersPerPublisher i (j :: rest) pm) :
    Announcing cfg.maxSubscribersPerPublisher i rest (sendToSubscriberPort cfg m i pm j) := by
  obtain ⟨p, hp, hoff, hnew⟩ := h.offered
  have hnet := h.net
  have hkeeps := hnet.mesh.keeps hp
  have himp : ∀ k l, ¬ (k = i ∧ l = j) → (k = i ∧ l ∈ j :: rest) → k = i ∧ l ∈ rest := by
    rintro k l hne ⟨rfl, hl⟩
    exact ⟨rfl, List.mem_of_ne_of_mem (fun hlj => hne ⟨rfl, hlj⟩) hl⟩
  have hrest : ∀ l ∈ rest, .subscriber l ∉ p.queues := fun l hl =>
    hnew l (List.mem_cons_of_mem j hl)
  -- the pair is right as it is, because the subscriber does not want the data
  have hunmark : (∀ s, pm.subscribers.get j = some s → isCompatiblePubSub p s = true →
      s.subscriptionState ≠ .subscribed) →
      pubSub.Mesh (fun k l => k = i ∧ l ∈ rest) pm.publishers.get pm.subscribers.get := by
    intro hidle
    apply hnet.mesh.unmark
    rintro k l p' s hpend hp' hs
    by_cases hkl : k = i ∧ l = j
    · obtain ⟨rfl, rfl⟩ := hkl
      rw [hp] at hp'
      cases hp'
      have hnot : ¬ pubSub.name l ∈ pubSub.queues p := hnew l List.mem_cons_self
      refine Or.inl ⟨fun hmem => absurd hmem hnot, ?_⟩
      rintro ⟨-, hconn, hcomp⟩
      exact absurd (by simpa [pubSub] using hconn) (hidle s hs hcomp)
    · exact Or.inr (himp k l hkl hpend)
  obtain ⟨p', s, hp', hs, hcomp⟩ | ⟨hskip, hincomp⟩ := sendToSubscriberPort_cases cfg m i pm j
  · rw [hp] at hp'
    cases hp'
    have hidle : s.subscriptionState ≠ .subscribed →
        pubSub.Mesh (fun k l => k = i ∧ l ∈ rest) pm.publishers.get pm.subscribers.get := by
      intro hstate
      apply hunmark
      intro s' hs' _
      rw [hs] at hs'
      cases hs'
      exact hstate
    by_cases hstate : s.subscriptionState = .subscribed
    · have hoffer : s.dispatchCaProMessageAndGetPossibleResponse cfg.communicationPolicy j m =
          { port := s, response := some (s.subMessage j) } := by
        simp [SubscriberPortData.dispatchCaProMessageAndGetPossibleResponse, hpolicy,
          SubscriberPortData.dispatchMulti, hm, hstate]
      have hnot : .subscriber j ∉ p.queues := hnew j List.mem_cons_self
      obtain ⟨-, qs, hadd, a, hr, ha⟩ | ⟨-, hadd, -⟩ | ⟨hoff', -⟩ :=
        dispatch_sub cfg.maxSubscribersPerPublisher (m := s.subMessage j) (p := p) (j := j) rfl rfl
      · rw [sendToSubscriberPort_sub hp hs hcomp hm hoffer hr rfl
          (dispatchMulti_answer hpolicy (Or.inl ha))]
        have hqs : qs = p.queues ++ [.subscriber j] := by
          rw [tryAddQueue_eq hadd, if_neg hnot]
        have hnet' : Net cfg.maxSubscribersPerPublisher (fun k l => k = i ∧ l ∈ rest)
            (Function.update pm.publishers.get i (some { p with queues := qs }))
            pm.subscribers.get :=
          hnet.setPublisher hp rfl rfl (hnet.mesh.list hp hs (samePublisher rfl rfl).compatible
            rfl hoff (by simp [pubSub, hstate]) hcomp (tryAddQueue_eq hadd) himp)
        have hsubs : (((pm.setSubscriber j s).report []).setSubscriber j s).subscribers.get =
            pm.subscribers.get := by
          have hself := setSubscriber_self hs
          have hs' : ((pm.setSubscriber j s).report []).subscribers.get j = some s := by
            simp [report, PortManager.setSubscriber, hs]
          rw [setSubscriber_self hs']
          exact hself
        rw [← publishers_get_setPublisher hp, ← hsubs] at hnet'
        refine ⟨hnet', { p with queues := qs }, ?_, hoff, ?_⟩
        · simp [report, PortManager.setSubscriber, PortManager.setPublisher, hp]
        · intro l hl hmem
          rw [hqs, List.mem_append, List.mem_singleton] at hmem
          obtain hmem | hlj := hmem
          · exact hrest l hl hmem
          · cases hlj
            exact hj hl
      · unfold tryAddQueue at hadd
        have hlt : p.queues.length < cfg.maxSubscribersPerPublisher :=
          hnet.room.length_lt hkeeps hp hs hcomp hnot
        simp [hnot, hlt] at hadd
      · simp [hoff] at hoff'
    · obtain ⟨fs, hsilent⟩ := dispatchMulti_offer_silent hpolicy hm hstate
      rw [sendToSubscriberPort_silent hp hs hcomp s fs hsilent]
      have hnet' := hnet.mono (hidle hstate)
      rw [← setSubscriber_self hs] at hnet'
      exact ⟨hnet', p, hp, hoff, hrest⟩
  · rw [hskip]
    refine ⟨hnet.mono (hunmark ?_), p, hp, hoff, hrest⟩
    intro s hs hcomp
    simp [hincomp p s hp hs] at hcomp

theorem stop_ignored (hpolicy : cfg.communicationPolicy = .manyToMany) (hm : m.type = .stopOffer)
    (i : Nat) (pm : PortManager) (j : Nat) :
    (sendToSubscriberPort cfg m i pm j).publishers.get = pm.publishers.get ∧
      (sendToSubscriberPort cfg m i pm j).subscribers.get = pm.subscribers.get := by
  obtain ⟨p, s, hp, hs, hcomp⟩ | ⟨hskip, -⟩ := sendToSubscriberPort_cases cfg m i pm j
  · rw [sendToSubscriberPort_silent hp hs hcomp s []
      (dispatchMulti_answer hpolicy (Or.inr (Or.inr hm)))]
    exact ⟨rfl, setSubscriber_self hs⟩
  · rw [hskip]
    exact ⟨rfl, rfl⟩

theorem forward_core (cfg : Config) (m : CaproMessage) (i : Nat) (pm : PortManager) :
    (forwardPublisherMessage cfg m i pm).publishers =
        (sendToAllMatchingSubscriberPorts cfg m i pm).publishers ∧
      (forwardPublisherMessage cfg m i pm).subscribers =
        (sendToAllMatchingSubscriberPorts cfg m i pm).subscribers :=
  have hcore := SameCore.sendToAllMatchingInterfacePorts cfg m
    (sendToAllMatchingSubscriberPorts cfg m i pm)
  ⟨hcore.publishers, hcore.subscribers⟩

theorem announce_net (hpolicy : cfg.communicationPolicy = .manyToMany) (hm : m.type = .offer)
    (h : Announcing cfg.maxSubscribersPerPublisher i pm.subscribers.content pm) :
    Net cfg.maxSubscribersPerPublisher Settled
      (forwardPublisherMessage cfg m i pm).publishers.get
      (forwardPublisherMessage cfg m i pm).subscribers.get := by
  obtain ⟨hpubs, hsubs⟩ := forward_core cfg m i pm
  rw [hpubs, hsubs]
  obtain ⟨p, hp, -⟩ := h.offered
  have hloop : Announcing cfg.maxSubscribersPerPublisher i []
      (sendToAllMatchingSubscriberPorts cfg m i pm) := by
    unfold sendToAllMatchingSubscriberPorts
    rw [hp]
    simp only
    rw [h.net.internal.reachedSubscribers]
    exact Lib.foldl_pending (I := Announcing cfg.maxSubscribersPerPublisher i) _ _
      pm.subscribers.content_nodup (fun _ _ _ ha hI => hI.step hpolicy hm ha)
      ⟨h.net, h.offered⟩
  refine hloop.net.mono (hloop.net.mesh.mono ?_)
  rintro k l ⟨-, hl⟩
  cases hl

theorem stop_net {n : Nat} (hpolicy : cfg.communicationPolicy = .manyToMany)
    (hm : m.type = .stopOffer) (h : Net n Settled pm.publishers.get pm.subscribers.get) (i : Nat) :
    Net n Settled (forwardPublisherMessage cfg m i pm).publishers.get
      (forwardPublisherMessage cfg m i pm).subscribers.get := by
  obtain ⟨hpubs, hsubs⟩ := forward_core cfg m i pm
  rw [hpubs, hsubs]
  unfold sendToAllMatchingSubscriberPorts
  split
  · exact h
  · refine Lib.foldl_invariant (I := fun pm : PortManager =>
      Net n Settled pm.publishers.get pm.subscribers.get) _ _ ?_ h
    intro pm j _ hI
    obtain ⟨hpubs, hsubs⟩ := stop_ignored hpolicy hm i pm j
    rw [hpubs, hsubs]
    exact hI

theorem Net.stopped {n : Nat} {P : Nat → Option PublisherPortData}
    {S : Nat → Option SubscriberPortData} (h : Net n Settled P S) (hp : P i = some p)
    (hd : p'.serviceDescription = p.serviceDescription) (ho : p'.options = p.options)
    (hoff : p'.offered = false) (hq : p'.queues = []) :
    Net n Settled (Function.update P i (some p')) S := by
  refine h.setPublisher hp hd ho (h.mesh.updateProvider (fun _ _ _ hp => hp) ?_ (Keeps.nil hq))
  intro l t _ _
  exact listed_of_not_offered (Keeps.nil hq : pubSub.Keeps S p') hoff

theorem Net.queues_of_not_offered {n : Nat} {pending : Nat → Nat → Prop}
    {P : Nat → Option PublisherPortData} {S : Nat → Option SubscriberPortData}
    (h : Net n pending P S) (hp : P i = some p) (hoff : p.offered = false) : p.queues = [] := by
  apply List.eq_nil_iff_forall_not_mem.mpr
  intro q hq
  have hoffered : p.offered = true := ((h.mesh.keeps hp).2 q hq).1
  simp [hoff] at hoffered

theorem discoverPublisher_net (hpolicy : cfg.communicationPolicy = .manyToMany)
    (h : Net cfg.maxSubscribersPerPublisher Settled pm.publishers.get pm.subscribers.get)
    (i : Nat) :
    Net cfg.maxSubscribersPerPublisher Settled
      (doDiscoveryForPublisherPort cfg i pm).publishers.get
      (doDiscoveryForPublisherPort cfg i pm).subscribers.get := by
  unfold doDiscoveryForPublisherPort
  split
  · exact h
  · next p hp =>
    have hset := fun p' => publishers_get_setPublisher hp p'
    obtain htry | ⟨hoff, m, htry, hm, -⟩ | ⟨-, m, htry, hm, -⟩ := p.tryGet_cases
    · rw [htry]
      rw [← setPublisher_self hp] at h
      exact h
    · rw [htry]
      simp only [hm]
      have hports := SamePorts.addToServiceRegistry cfg .publisherCount m.serviceDescription
        ((pm.setPublisher i { p with offered := true }).report [])
      have hqueues := h.queues_of_not_offered hp hoff
      apply announce_net hpolicy hm
      have hnet : Net cfg.maxSubscribersPerPublisher
          (fun k l => k = i ∧ l ∈ pm.subscribers.content)
          (Function.update pm.publishers.get i (some { p with offered := true }))
          pm.subscribers.get := by
        refine h.setPublisher hp rfl rfl (h.mesh.updateProvider ?_ ?_ (Keeps.nil hqueues))
        · intro k l _ hpend
          exact hpend.elim
        · intro l t ht hnot
          exact absurd ⟨rfl, by simp [ht]⟩ hnot
      rw [← hset] at hnet
      unfold addPublisherToServiceRegistry
      refine ⟨?_, ?_⟩
      · rw [hports.publishers, hports.subscribers]
        exact hnet
      · refine ⟨{ p with offered := true }, ?_, rfl, ?_⟩
        · rw [hports.publishers]
          simp [report, setPublisher, hp]
        · simp [hqueues]
    · rw [htry]
      simp only [hm]
      apply stop_net hpolicy hm
      have hnet : Net cfg.maxSubscribersPerPublisher Settled
          (Function.update pm.publishers.get i (some { p with offered := false, queues := [] }))
          pm.subscribers.get := h.stopped hp rfl rfl rfl rfl
      rw [← hset] at hnet
      exact hnet

theorem destroyPublisher_net (hpolicy : cfg.communicationPolicy = .manyToMany)
    (h : Net cfg.maxSubscribersPerPublisher Settled pm.publishers.get pm.subscribers.get)
    (i : Nat) :
    Net cfg.maxSubscribersPerPublisher Settled (destroyPublisherPort cfg i pm).publishers.get
      (destroyPublisherPort cfg i pm).subscribers.get := by
  have herase : ∀ pm : PortManager,
      Net cfg.maxSubscribersPerPublisher Settled pm.publishers.get pm.subscribers.get →
      Net cfg.maxSubscribersPerPublisher Settled (pm.publishers.erase i).get
        pm.subscribers.get := by
    intro pm h
    rw [pm.publishers.get_erase_eq]
    exact ⟨h.mesh.eraseProvider i, h.room.eraseProvider i, h.internal.erasePublisher i⟩
  unfold destroyPublisherPort
  split
  · exact h
  · next p hp =>
    obtain ⟨hoff, htry⟩ | ⟨-, m, htry, hm, -⟩ := p.tryGet_stopOffer
    · rw [htry]
      apply herase ((pm.setPublisher i p.stopOffer).report [])
      have hqueues := h.queues_of_not_offered hp hoff
      have hnet : Net cfg.maxSubscribersPerPublisher Settled
          (Function.update pm.publishers.get i (some p.stopOffer)) pm.subscribers.get :=
        h.stopped hp rfl rfl hoff hqueues
      rw [← publishers_get_setPublisher hp] at hnet
      exact hnet
    · rw [htry]
      apply herase (forwardPublisherMessage cfg m i _)
      apply stop_net hpolicy hm
      have hnet : Net cfg.maxSubscribersPerPublisher Settled
          (Function.update pm.publishers.get i
            (some { p.stopOffer with offered := false, queues := [] }))
          pm.subscribers.get := h.stopped hp rfl rfl rfl rfl
      rw [← publishers_get_setPublisher hp] at hnet
      exact hnet

def publisherId (p : PublisherPortData) : ServiceDescription × PublisherOptions :=
  (p.serviceDescription, p.options)

def subscriberId (s : SubscriberPortData) : ServiceDescription × SubscriberOptions :=
  (s.serviceDescription, s.options)

structure SameIds (pm pm' : PortManager) : Prop where
  publishers : ∀ k, (pm'.publishers.get k).map publisherId = (pm.publishers.get k).map publisherId
  subscribers : ∀ k,
    (pm'.subscribers.get k).map subscriberId = (pm.subscribers.get k).map subscriberId

namespace SameIds

variable {pm' pm'' : PortManager}

theorem refl (pm : PortManager) : SameIds pm pm := ⟨fun _ => rfl, fun _ => rfl⟩

theorem trans (h : SameIds pm pm') (h' : SameIds pm' pm'') : SameIds pm pm'' :=
  ⟨fun k => (h'.publishers k).trans (h.publishers k),
    fun k => (h'.subscribers k).trans (h.subscribers k)⟩

theorem of_eq (hp : pm'.publishers = pm.publishers) (hs : pm'.subscribers = pm.subscribers) :
    SameIds pm pm' := by
  refine ⟨?_, ?_⟩
  · rw [hp]
    exact fun _ => rfl
  · rw [hs]
    exact fun _ => rfl

theorem setPublisher (hp : pm.publishers.get i = some p) (hid : publisherId p' = publisherId p) :
    SameIds pm (pm.setPublisher i p') := by
  refine ⟨?_, fun _ => rfl⟩
  intro k
  rw [publishers_get_setPublisher hp]
  by_cases hk : k = i
  · subst hk
    simp [hp, hid]
  · rw [Function.update_of_ne hk]

theorem setSubscriber (hs : pm.subscribers.get j = some s)
    (hid : subscriberId s' = subscriberId s) : SameIds pm (pm.setSubscriber j s') := by
  refine ⟨fun _ => rfl, ?_⟩
  intro k
  rw [subscribers_get_setSubscriber hs]
  by_cases hk : k = j
  · subst hk
    simp [hs, hid]
  · rw [Function.update_of_ne hk]

theorem report (h : SameIds pm pm') (fs : List Failure) : SameIds pm (pm'.report fs) :=
  ⟨h.publishers, h.subscribers⟩

theorem dispatchPublisher (n : Nat) (p : PublisherPortData) (m : CaproMessage) :
    publisherId (p.dispatchCaProMessageAndGetPossibleResponse n m).port = publisherId p := by
  obtain ⟨qs, hport⟩ := p.dispatch_port n m
  rw [hport]
  rfl

theorem dispatchSubscriber (policy : CommunicationPolicy) (j : Nat) (s : SubscriberPortData)
    (m : CaproMessage) :
    subscriberId (s.dispatchCaProMessageAndGetPossibleResponse policy j m).port =
      subscriberId s := by
  obtain ⟨st, hport⟩ := s.dispatch_port policy j m
  rw [hport]
  rfl

theorem sendToPublisherPort (m : CaproMessage) (j : Nat) (acc : PortManager × Bool) (i : Nat) :
    SameIds acc.1 (sendToPublisherPort cfg m j acc i).1 := by
  obtain ⟨pm, b⟩ := acc
  obtain ⟨p, s, hp, hs, hcomp⟩ | ⟨hskip, -⟩ := sendToPublisherPort_cases cfg m j (pm, b) i
  · obtain ⟨a, ha, -⟩ := p.dispatch_response cfg.maxSubscribersPerPublisher m
    rw [sendToPublisherPort_eq hp hs hcomp b rfl ha rfl]
    have hpub := (setPublisher hp (dispatchPublisher cfg.maxSubscribersPerPublisher p m)).report
      (p.dispatchCaProMessageAndGetPossibleResponse cfg.maxSubscribersPerPublisher m).failures
    exact (hpub.trans (setSubscriber hs (dispatchSubscriber _ j s a))).report _
  · rw [hskip]
    exact refl pm

theorem sendToSubscriberPort (m : CaproMessage) (i : Nat) (pm : PortManager) (j : Nat) :
    SameIds pm (sendToSubscriberPort cfg m i pm j) := by
  unfold PortManager.sendToSubscriberPort
  split
  · next p s hp hs =>
    split
    · have hsub := (setSubscriber hs (dispatchSubscriber cfg.communicationPolicy j s m)).report
        (s.dispatchCaProMessageAndGetPossibleResponse cfg.communicationPolicy j m).failures
      simp only
      split
      · exact hsub
      · next a _ =>
        have hpub := (hsub.trans (setPublisher hp
          (dispatchPublisher cfg.maxSubscribersPerPublisher p a))).report
          (expects (decide (m.type = .offer)) ++
            (p.dispatchCaProMessageAndGetPossibleResponse cfg.maxSubscribersPerPublisher
              a).failures)
        split
        · exact hpub
        · next b _ =>
          refine (hpub.trans (setSubscriber ?_ (dispatchSubscriber _ j _ b))).report _
          simp [PortManager.report, PortManager.setPublisher, PortManager.setSubscriber, hs]
    · exact refl pm
  · exact refl pm

theorem discoverSubscriber (j : Nat) (pm : PortManager) :
    SameIds pm (doDiscoveryForSubscriberPort cfg j pm) := by
  unfold doDiscoveryForSubscriberPort
  split
  · exact refl pm
  · next s hs =>
    have hset : SameIds pm ((pm.setSubscriber j
        (s.tryGetCaProMessage cfg.communicationPolicy j).port).report
        (s.tryGetCaProMessage cfg.communicationPolicy j).failures) := by
      obtain ⟨st, hport⟩ := s.tryGet_port cfg.communicationPolicy j
      exact (setSubscriber hs (by rw [hport]; rfl)).report _
    simp only
    split
    · exact hset
    · next m _ =>
      split
      · have hsend : ∀ pm : PortManager,
            SameIds pm (sendToAllMatchingPublisherPorts cfg m j pm).1 := fun pm =>
          Lib.foldl_invariant (I := fun acc : PortManager × Bool => SameIds pm acc.1) _ _
            (fun acc i _ h => h.trans (sendToPublisherPort m j acc i)) (refl pm)
        split
        · exact hset.trans (hsend _)
        · refine (hset.trans (hsend _)).trans ?_
          unfold nackSubscriber
          split
          · exact refl _
          · next t ht => exact (setSubscriber ht (dispatchSubscriber _ j t _)).report _
      · exact hset.report _

theorem forwardPublisherMessage (m : CaproMessage) (i : Nat) (pm : PortManager) :
    SameIds pm (forwardPublisherMessage cfg m i pm) := by
  obtain ⟨hpubs, hsubs⟩ := forward_core cfg m i pm
  refine trans ?_ (of_eq hpubs hsubs)
  unfold sendToAllMatchingSubscriberPorts
  split
  · exact refl pm
  · exact Lib.foldl_invariant (I := SameIds pm) _ _
      (fun pm' j _ h => h.trans (sendToSubscriberPort m i pm' j)) ⟨fun _ => rfl, fun _ => rfl⟩

theorem discoverPublisher (i : Nat) (pm : PortManager) :
    SameIds pm (doDiscoveryForPublisherPort cfg i pm) := by
  unfold doDiscoveryForPublisherPort
  split
  · exact refl pm
  · next p hp =>
    obtain htry | ⟨-, m, htry, hm, -⟩ | ⟨-, m, htry, hm, -⟩ := p.tryGet_cases
    · rw [htry]
      exact (setPublisher hp rfl).report []
    · rw [htry]
      simp only [hm]
      refine trans ?_ (forwardPublisherMessage m i _)
      have hports := SamePorts.addToServiceRegistry cfg .publisherCount m.serviceDescription
        ((pm.setPublisher i { p with offered := true }).report [])
      refine trans ?_ (of_eq hports.publishers hports.subscribers)
      have hset : SameIds pm (pm.setPublisher i { p with offered := true }) := setPublisher hp rfl
      exact hset.report []
    · rw [htry]
      simp only [hm]
      refine trans ?_ (forwardPublisherMessage m i _)
      have hset : SameIds pm (pm.setPublisher i { p with offered := false, queues := [] }) :=
        setPublisher hp rfl
      exact hset.trans (of_eq rfl rfl)

theorem room {n : Nat} (h : SameIds pm pm')
    (hroom : pubSub.Room n pm'.publishers.get pm'.subscribers.get) :
    pubSub.Room n pm.publishers.get pm.subscribers.get := by
  intro i p hp js hnd hjs
  have hpub := h.publishers i
  rw [hp] at hpub
  obtain ⟨p', hp', hid⟩ := Option.map_eq_some_iff.mp hpub
  refine hroom i p' hp' js hnd ?_
  intro j hj
  obtain ⟨s, hs, hcomp⟩ := hjs j hj
  have hsub := h.subscribers j
  rw [hs] at hsub
  obtain ⟨s', hs', hid'⟩ := Option.map_eq_some_iff.mp hsub
  simp only [publisherId, Prod.mk.injEq] at hid
  simp only [subscriberId, Prod.mk.injEq] at hid'
  refine ⟨s', hs', ?_⟩
  rw [(samePublisher hid.1 hid.2).compatible, sameSubscriber hid'.1 hid'.2 p]
  exact hcomp

end SameIds

def WithinCapacity (cfg : Config) (pm : PortManager) : Prop :=
  ∀ i p, pm.publishers.get i = some p →
    (pm.subscribers.content.filter fun j =>
      (pm.subscribers.get j).any (isCompatiblePubSub p)).length ≤ cfg.maxSubscribersPerPublisher

theorem WithinCapacity.room (h : WithinCapacity cfg pm) :
    pubSub.Room cfg.maxSubscribersPerPublisher pm.publishers.get pm.subscribers.get := by
  intro i p hp js hnd hjs
  refine le_trans (List.Subperm.length_le (List.subperm_of_subset hnd ?_)) (h i p hp)
  intro j hj
  obtain ⟨s, hs, hcomp⟩ := hjs j hj
  have hcomp' : isCompatiblePubSub p s = true := hcomp
  simp [hs, hcomp']

instance decidableWithinCapacity : Decidable (WithinCapacity cfg pm) :=
  decidable_of_iff (∀ i ∈ pm.publishers.content, (pm.publishers.get i).all fun p =>
      decide ((pm.subscribers.content.filter fun j =>
        (pm.subscribers.get j).any (isCompatiblePubSub p)).length ≤
          cfg.maxSubscribersPerPublisher)) (by
    constructor
    · intro h i p hp
      have hi := h i (by simp [hp])
      simpa [hp] using hi
    · intro h i _
      cases hp : pm.publishers.get i with
      | none => rfl
      | some p => simpa using h i p hp)

def ManyToManyInv (cfg : Config) (pm : PortManager) : Prop :=
  Net cfg.maxSubscribersPerPublisher Settled pm.publishers.get pm.subscribers.get

namespace ManyToManyInv

theorem of_same {pm' : PortManager} (h : ManyToManyInv cfg pm) (hsame : SamePubSub pm pm') :
    ManyToManyInv cfg pm' := by
  unfold ManyToManyInv
  rw [hsame.publishers, hsame.subscribers]
  exact h

theorem keeps (hpolicy : cfg.communicationPolicy = .manyToMany) :
    Keeps cfg (ManyToManyInv cfg) where
  core hcore h := h.of_same (SamePubSub.of_core hcore)
  discoverPublisher i _ h := discoverPublisher_net hpolicy h i
  destroyPublisher i _ h := destroyPublisher_net hpolicy h i
  discoverSubscriber j _ h := discoverSubscriber_net hpolicy h j
  destroySubscriber j _ h := destroySubscriber_net hpolicy h j
  discoverServer j _ h := h.of_same (SamePubSub.discoverServer j _)
  destroyServer j _ h := h.of_same (SamePubSub.destroyServer j _)
  discoverClient i _ h := h.of_same (SamePubSub.discoverClient i _)
  destroyClient i _ h := h.of_same (SamePubSub.destroyClient i _)
  flagPublisher := by
    intro i pm f hf h
    unfold ManyToManyInv at *
    cases hp : pm.publishers.get i with
    | none =>
      simp only
      rw [pm.publishers.get_modify_none f hp]
      exact h
    | some p =>
      simp only
      rw [pm.publishers.get_modify_eq f hp]
      obtain ⟨a, b, hfp⟩ := hf p
      rw [hfp]
      exact h.setPublisher hp rfl rfl
        (h.mesh.setProvider hp (samePublisher rfl rfl).compatible rfl rfl)
  flagServer _ _ _ _ h := h
  flagSubscriber := by
    intro j a b pm h
    unfold ManyToManyInv at *
    cases hs : pm.subscribers.get j with
    | none =>
      simp only [writeSubscriber]
      rw [pm.subscribers.get_modify_none _ hs]
      exact h
    | some s =>
      simp only [writeSubscriber]
      rw [pm.subscribers.get_modify_eq _ hs]
      exact h.setSubscriber hs rfl rfl (h.mesh.setConsumer hs (sameSubscriber rfl rfl) rfl)
  flagClient _ _ _ _ h := h

theorem apply (hpolicy : cfg.communicationPolicy = .manyToMany) {op : Op} (hint : Internal op)
    (hcap : WithinCapacity cfg (apply cfg pm op)) (h : ManyToManyInv cfg pm) :
    ManyToManyInv cfg (PortManager.apply cfg pm op) := by
  have K : Keeps cfg (ManyToManyInv cfg) := keeps hpolicy
  apply K.apply h op
  · rintro service options name rfl
    apply K.acquirePublisher h
    intro pm' hI _ _ hacq
    simp only [PortManager.apply, hacq] at hcap
    have hroom := (SameIds.discoverPublisher _ _).room hcap.room
    unfold ManyToManyInv at *
    simp only at hroom ⊢
    rw [pm'.publishers.get_insert_eq] at hroom ⊢
    exact ⟨hI.mesh.insertProvider rfl rfl, hroom, hI.internal.updatePublisher hint⟩
  · rintro service options name rfl
    simp only [PortManager.apply] at hcap
    unfold acquireSubscriberPortData at *
    split
    · next hspace =>
      simp only [hspace, if_true] at hcap
      apply K.discoverSubscriber
      have hroom := (SameIds.discoverSubscriber _ _).room hcap.room
      unfold ManyToManyInv at *
      simp only at hroom ⊢
      rw [pm.subscribers.get_insert_eq] at hroom ⊢
      exact ⟨h.mesh.insertConsumer (pm.subscribers.get_insert_slot _) rfl, hroom,
        h.internal.updateSubscriber hint⟩
    · exact K.core (SameCore.report (by simp [Benign]) _) h
  · rintro service options name -
    exact K.acquireClient h h
  · rintro service options name -
    exact K.acquireServer h fun hI _ _ => hI

theorem run (hpolicy : cfg.communicationPolicy = .manyToMany) (ops : List Op)
    (hint : ∀ op ∈ ops, Internal op)
    (hcap : ∀ pre, pre <+: ops → WithinCapacity cfg (run cfg pre)) :
    ManyToManyInv cfg (run cfg ops) := by
  apply run_invariant ops
  · have hnone : ∀ {α : Type}, (({} : FixedPositionContainer α)).get = fun _ => none := by
      intro α
      funext i
      simp
    unfold ManyToManyInv
    rw [hnone, hnone]
    exact ⟨Mesh.empty, (by intro i p hp; cases hp), ⟨by simp, by simp⟩⟩
  · intro pre op hpre h
    apply apply hpolicy (hint op (hpre.subset (by simp))) _ h
    rw [← run_append]
    exact hcap _ hpre

end ManyToManyInv

/-- After every operation of every run under the n:m policy, over ports of the internal
interface and within the capacity of the publishers: a subscriber is in the container of a
publisher, and there only once, if and only if the publisher offers, the subscriber is
subscribed and the two are compatible; and no container holds a queue of nobody. -/
theorem many_to_many_connections {cfg : Config} {ops : List Op}
    (hpolicy : cfg.communicationPolicy = .manyToMany) (hint : ∀ op ∈ ops, Internal op)
    (hcap : ∀ pre, pre <+: ops → WithinCapacity cfg (run cfg pre)) :
    (∀ i j p s, (run cfg ops).publishers.get i = some p →
      (run cfg ops).subscribers.get j = some s →
      (.subscriber j ∈ p.queues ↔
        p.offered = true ∧ s.subscriptionState = .subscribed ∧ isCompatiblePubSub p s = true) ∧
      p.queues.count (.subscriber j) ≤ 1) ∧
    (∀ i p q, (run cfg ops).publishers.get i = some p → q ∈ p.queues →
      ∃ j s, q = .subscriber j ∧ (run cfg ops).subscribers.get j = some s) := by
  have h : Net cfg.maxSubscribersPerPublisher Settled _ _ := ManyToManyInv.run hpolicy ops hint hcap
  refine ⟨?_, ?_⟩
  · intro i j p s hp hs
    refine ⟨?_, List.nodup_iff_count_le_one.mp (h.mesh.keeps hp).1 _⟩
    have hlisted := h.mesh.listed hp hs id
    simpa [Listed, pubSub] using hlisted
  · intro i p q hp hq
    obtain ⟨-, j, s, hname, hs, -⟩ := (h.mesh.keeps hp).2 q hq
    exact ⟨j, s, hname, hs⟩

def publishAndSubscribe : List Op :=
  [.acquirePublisherPortData radar {} "sender", .acquireSubscriberPortData radar {} "receiver"]

theorem many_to_many_connections_radar :
    ∃ p s, (run (smallConfig .manyToMany) publishAndSubscribe).publishers.get 0 = some p ∧
      (run (smallConfig .manyToMany) publishAndSubscribe).subscribers.get 0 = some s ∧
      .subscriber 0 ∈ p.queues := by
  have hint : ∀ op ∈ publishAndSubscribe, Internal op := by decide
  have hcap : ∀ pre, pre <+: publishAndSubscribe →
      WithinCapacity (smallConfig .manyToMany) (run (smallConfig .manyToMany) pre) := by
    have hinits : ∀ pre ∈ publishAndSubscribe.inits,
        WithinCapacity (smallConfig .manyToMany) (run (smallConfig .manyToMany) pre) := by
      decide
    intro pre hpre
    exact hinits pre ((List.mem_inits pre publishAndSubscribe).mpr hpre)
  refine ⟨_, _, rfl, rfl, ?_⟩
  have h := (many_to_many_connections rfl hint hcap).1 0 0 _ _ rfl rfl
  exact h.1.mpr ⟨rfl, rfl, by decide⟩

end Iceoryx.Roudi.PortManager
