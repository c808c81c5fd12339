import Iceoryx.Roudi.PubSub

namespace Iceoryx.Roudi.PortManager

open Capro Popo

variable (cfg : Config)

def connects (pm : PortManager) (i j : Nat) : Bool :=
  match pm.publishers.get i, pm.subscribers.get j with
  | some p, some s => isCompatiblePubSub p s
  | _, _ => false

def dispatchedPublishers (m : CaproMessage) (j : Nat) (pm : PortManager) : List Nat :=
  Lib.visited (sendToPublisherPort cfg m j) (fun acc i => connects acc.1 i j)
    (reachedPublishers m pm) (pm, false)

def dispatchedSubscribers (m : CaproMessage) (i : Nat) (pm : PortManager) : List Nat :=
  match pm.publishers.get i with
  | none => []
  | some p =>
    Lib.visited (sendToSubscriberPort cfg m i) (fun pm j => connects pm i j)
      (reachedSubscribers m pm)
      (pm.record (.toSubscribers m.type
        ((matchingSubscribers m p pm).map (·.subscriptionState))))

/-- The source's comment on the loops: internal ports receive all messages, all others only
messages of another interface. -/
def Receives (port : ServiceDescription) (m : CaproMessage) : Prop :=
  port.interfaceSource = .internal ∨
    port.interfaceSource ≠ m.serviceDescription.interfaceSource

theorem receives_iff {port : ServiceDescription} {m : CaproMessage} :
    Receives port m ↔ isCyclic port m.serviceDescription = false := by
  unfold Receives isCyclic
  by_cases hinternal : port.interfaceSource = .internal
  · simp [hinternal]
  · simp [hinternal]

variable {cfg} {pm pm' : PortManager} {m : CaproMessage} {i j : Nat}

structure SameFit (pm pm' : PortManager) : Prop where
  publishers : ∀ i, (pm'.publishers.get i).map (fun p => (p.serviceDescription, p.options)) =
    (pm.publishers.get i).map fun p => (p.serviceDescription, p.options)
  subscribers : ∀ j, (pm'.subscribers.get j).map (fun s => (s.serviceDescription, s.options)) =
    (pm.subscribers.get j).map fun s => (s.serviceDescription, s.options)

namespace SameFit

theorem refl (pm : PortManager) : SameFit pm pm := ⟨fun _ => rfl, fun _ => rfl⟩

theorem trans {pm'' : PortManager} (h : SameFit pm pm') (h' : SameFit pm' pm'') :
    SameFit pm pm'' where
  publishers i := (h'.publishers i).trans (h.publishers i)
  subscribers j := (h'.subscribers j).trans (h.subscribers j)

theorem connects_eq (h : SameFit pm pm') (i j : Nat) : connects pm' i j = connects pm i j := by
  have hp := h.publishers i
  have hs := h.subscribers j
  unfold connects
  cases hp' : pm'.publishers.get i <;> cases hp₀ : pm.publishers.get i <;>
    cases hs' : pm'.subscribers.get j <;> cases hs₀ : pm.subscribers.get j <;>
    simp_all [isCompatiblePubSub]

theorem setPublisher (h : SameFit pm pm') {p p' : PublisherPortData}
    (hp : pm.publishers.get i = some p) (hd : p'.serviceDescription = p.serviceDescription)
    (ho : p'.options = p.options) (fs : List Failure) :
    SameFit pm ((pm'.setPublisher i p').report fs) := by
  refine ⟨?_, h.subscribers⟩
  intro k
  have hk := h.publishers k
  simp only [report, PortManager.setPublisher, FixedPositionContainer.get_modify]
  split
  · next hik =>
    subst hik
    rw [hp] at hk ⊢
    cases hq : pm'.publishers.get i with
    | none => simp [hq] at hk
    | some q => simp [hd, ho]
  · exact hk

theorem setSubscriber (h : SameFit pm pm') {s s' : SubscriberPortData}
    (hs : pm.subscribers.get j = some s) (hd : s'.serviceDescription = s.serviceDescription)
    (ho : s'.options = s.options) (fs : List Failure) :
    SameFit pm ((pm'.setSubscriber j s').report fs) := by
  refine ⟨h.publishers, ?_⟩
  intro k
  have hk := h.subscribers k
  simp only [report, PortManager.setSubscriber, FixedPositionContainer.get_modify]
  split
  · next hjk =>
    subst hjk
    rw [hs] at hk ⊢
    cases hq : pm'.subscribers.get j with
    | none => simp [hq] at hk
    | some q => simp [hd, ho]
  · exact hk

theorem publisher (h : SameFit pm pm') {p : PublisherPortData} (hp : pm.publishers.get i = some p)
    (n : Nat) (m : CaproMessage) (fs : List Failure) :
    SameFit pm ((pm'.setPublisher i
      (p.dispatchCaProMessageAndGetPossibleResponse n m).port).report fs) := by
  obtain ⟨qs, hqs⟩ := PublisherPortData.dispatch_port n p m
  exact h.setPublisher hp (by rw [hqs]) (by rw [hqs]) fs

theorem subscriber (h : SameFit pm pm') {s s' : SubscriberPortData}
    (hs : pm.subscribers.get j = some s) (hd : s'.serviceDescription = s.serviceDescription)
    (ho : s'.options = s.options) (policy : CommunicationPolicy) (m : CaproMessage)
    (fs : List Failure) :
    SameFit pm ((pm'.setSubscriber j
      (s'.dispatchCaProMessageAndGetPossibleResponse policy j m).port).report fs) := by
  obtain ⟨st, hst⟩ := SubscriberPortData.dispatch_port policy j s' m
  exact h.setSubscriber hs (by rw [hst]; exact hd) (by rw [hst]; exact ho) fs

theorem sendToPublisherPort (m : CaproMessage) (j : Nat) (acc : PortManager × Bool) (i : Nat) :
    SameFit acc.1 (sendToPublisherPort cfg m j acc i).1 := by
  obtain ⟨pm, b⟩ := acc
  unfold PortManager.sendToPublisherPort
  simp only
  split
  · next p s hp hs =>
    split
    · have hpub := (refl pm).publisher hp cfg.maxSubscribersPerPublisher m
      split
      · exact hpub _
      · exact (hpub _).subscriber hs rfl rfl _ _ _
    · exact refl pm
  · exact refl pm

theorem sendToSubscriberPort (m : CaproMessage) (i : Nat) (pm : PortManager) (j : Nat) :
    SameFit pm (sendToSubscriberPort cfg m i pm j) := by
  unfold PortManager.sendToSubscriberPort
  split
  · next p s hp hs =>
    split
    · have hsub := (refl pm).subscriber hs rfl rfl cfg.communicationPolicy m
      simp only
      split
      · exact hsub _
      · next response _ =>
        have hpub := fun fs => (hsub fs).publisher hp cfg.maxSubscribersPerPublisher response
        split
        · exact hpub _ _
        · obtain ⟨st, hst⟩ := SubscriberPortData.dispatch_port cfg.communicationPolicy j s m
          exact (hpub _ _).subscriber hs (by rw [hst]; rfl) (by rw [hst]; rfl) _ _ _
    · exact refl pm
  · exact refl pm

end SameFit

theorem dispatchedPublishers_eq (m : CaproMessage) (j : Nat) (pm : PortManager) :
    dispatchedPublishers cfg m j pm = (reachedPublishers m pm).filter (connects pm · j) :=
  Lib.visited_eq_filter
    (fun acc i k => (SameFit.sendToPublisherPort m j acc i).connects_eq k j) _ _

theorem dispatchedSubscribers_eq {p : PublisherPortData} (hp : pm.publishers.get i = some p)
    (m : CaproMessage) :
    dispatchedSubscribers cfg m i pm = (reachedSubscribers m pm).filter (connects pm i ·) := by
  unfold dispatchedSubscribers
  rw [hp]
  exact Lib.visited_eq_filter
    (fun pm j k => (SameFit.sendToSubscriberPort m i pm j).connects_eq i k) _ _

theorem sendToPublisherPort_found (m : CaproMessage) (j : Nat) (acc : PortManager × Bool)
    (i : Nat) :
    (sendToPublisherPort cfg m j acc i).2 = (acc.2 || connects acc.1 i j) := by
  obtain ⟨pm, b⟩ := acc
  unfold sendToPublisherPort connects
  cases hp : pm.publishers.get i with
  | none => simp [hp]
  | some p =>
    cases hs : pm.subscribers.get j with
    | none => simp [hp, hs]
    | some s =>
      by_cases hc : isCompatiblePubSub p s = true
      · simp only [hp, hs, hc, if_true, Bool.or_true]
        split <;> rfl
      · simp [hp, hs, hc]

theorem sendToPublisherPorts_found (m : CaproMessage) (j : Nat) (is : List Nat)
    (acc : PortManager × Bool) :
    (is.foldl (sendToPublisherPort cfg m j) acc).2 = (acc.2 || is.any (connects acc.1 · j)) := by
  induction is generalizing acc with
  | nil => simp
  | cons i is ih =>
    have hsame : (connects (sendToPublisherPort cfg m j acc i).1 · j) = (connects acc.1 · j) := by
      funext k
      exact (SameFit.sendToPublisherPort m j acc i).connects_eq k j
    rw [List.foldl_cons, ih, sendToPublisherPort_found, hsame, List.any_cons, Bool.or_assoc]

theorem sendToAllMatchingPublisherPorts_found (m : CaproMessage) (j : Nat) (pm : PortManager) :
    (sendToAllMatchingPublisherPorts cfg m j pm).2 = true ↔
      ∃ i, i ∈ dispatchedPublishers cfg m j pm := by
  unfold sendToAllMatchingPublisherPorts
  rw [sendToPublisherPorts_found, dispatchedPublishers_eq]
  simp

theorem mem_reached {α : Type} {c : FixedPositionContainer α} {d : α → ServiceDescription} :
    i ∈ (c.content.takeWhile fun i =>
        (c.get i).all fun a => !isCyclic (d a) m.serviceDescription) ↔
      ∃ a, c.get i = some a ∧ ∀ k ≤ i, ∀ b, c.get k = some b → Receives (d b) m := by
  rw [FixedPositionContainer.mem_takeWhile_content, FixedPositionContainer.mem_content]
  constructor
  · rintro ⟨⟨a, ha⟩, hall⟩
    refine ⟨a, ha, ?_⟩
    intro k hk b hb
    have := hall k ((c.mem_content k).mpr ⟨b, hb⟩) hk
    rw [hb] at this
    exact receives_iff.mpr (by simpa using this)
  · rintro ⟨a, ha, hall⟩
    refine ⟨⟨a, ha⟩, ?_⟩
    intro k hk hki
    obtain ⟨b, hb⟩ := (c.mem_content k).mp hk
    simpa [hb] using receives_iff.mp (hall k hki b hb)

/-- In the order of the pool no port that should get the message stands behind a port
of the message's own interface. -/
def NoneBehindGateway {α : Type} (c : FixedPositionContainer α) (d : α → ServiceDescription)
    (compatible : α → Bool) (m : CaproMessage) : Prop :=
  ∀ k b, c.get k = some b → ¬ Receives (d b) m →
    ∀ i a, k < i → c.get i = some a → compatible a = true → ¬ Receives (d a) m

section filter

variable {α : Type} {c : FixedPositionContainer α} {d : α → ServiceDescription}
  {compatible : α → Bool}

def Addressed (c : FixedPositionContainer α) (d : α → ServiceDescription)
    (compatible : α → Bool) (m : CaproMessage) (i : Nat) : Prop :=
  ∃ a, c.get i = some a ∧ compatible a = true ∧ Receives (d a) m

theorem filter_reached_iff (hit : Nat → Bool)
    (hhit : ∀ i a, c.get i = some a → hit i = compatible a) :
    (∀ i, i ∈ (c.content.takeWhile fun i =>
        (c.get i).all fun a => !isCyclic (d a) m.serviceDescription).filter hit ↔
      Addressed c d compatible m i) ↔ NoneBehindGateway c d compatible m := by
  simp only [List.mem_filter, mem_reached]
  constructor
  · intro h k b hb hgateway i a hki ha hcomp hreceives
    obtain ⟨⟨-, -, hall⟩, -⟩ := (h i).mpr ⟨a, ha, hcomp, hreceives⟩
    exact hgateway (hall k (Nat.le_of_lt hki) b hb)
  · intro h i
    constructor
    · rintro ⟨⟨a, ha, hall⟩, hcomp⟩
      rw [hhit i a ha] at hcomp
      exact ⟨a, ha, hcomp, hall i (Nat.le_refl i) a ha⟩
    · rintro ⟨a, ha, hcomp, hreceives⟩
      refine ⟨⟨a, ha, ?_⟩, by rw [hhit i a ha, hcomp]⟩
      intro k hk b hb
      by_contra hgateway
      rcases Nat.lt_or_eq_of_le hk with hlt | rfl
      · exact h k b hb hgateway i a hlt ha hcomp hreceives
      · rw [ha] at hb
        cases hb
        exact hgateway hreceives

end filter

/-- The message of a subscriber goes to exactly the publishers it is for, and that of a
publisher to exactly the subscribers it is for, unless one of them stands behind a
port of the message's own interface. -/
theorem gateway_filter (cfg : Config) (pm : PortManager) (m : CaproMessage) :
    (∀ j s, pm.subscribers.get j = some s →
      ((∀ i, i ∈ dispatchedPublishers cfg m j pm ↔
          Addressed pm.publishers (·.serviceDescription) (isCompatiblePubSub · s) m i) ∧
        ((sendToAllMatchingPublisherPorts cfg m j pm).2 = true ↔
          ∃ i, Addressed pm.publishers (·.serviceDescription) (isCompatiblePubSub · s) m i) ↔
        NoneBehindGateway pm.publishers (·.serviceDescription) (isCompatiblePubSub · s) m)) ∧
    ∀ i p, pm.publishers.get i = some p →
      ((∀ j, j ∈ dispatchedSubscribers cfg m i pm ↔
          Addressed pm.subscribers (·.serviceDescription) (isCompatiblePubSub p) m j) ↔
        NoneBehindGateway pm.subscribers (·.serviceDescription) (isCompatiblePubSub p) m) := by
  constructor
  · intro j s hs
    rw [sendToAllMatchingPublisherPorts_found, dispatchedPublishers_eq]
    have hiff : (∀ i, i ∈ (reachedPublishers m pm).filter (connects pm · j) ↔
        Addressed pm.publishers (·.serviceDescription) (isCompatiblePubSub · s) m i) ↔ _ :=
      filter_reached_iff (connects pm · j) fun i p hp => by simp [connects, hp, hs]
    rw [← hiff]
    constructor
    · intro h
      exact h.1
    · intro h
      exact ⟨h, exists_congr h⟩
  · intro i p hp
    rw [dispatchedSubscribers_eq hp]
    exact filter_reached_iff (connects pm i ·) fun j s hs => by simp [connects, hp, hs]

def gatewayPool (first second : Interfaces) : PortManager :=
  run (smallConfig .manyToMany)
    [.acquirePublisherPortData { radar with interfaceSource := first } {} "app1",
      .acquirePublisherPortData { radar with interfaceSource := second } {} "app2",
      .acquireSubscriberPortData { radar with interfaceSource := .dds } {} "gateway"]

def gatewayUnsub : CaproMessage :=
  { type := .unsub
    serviceDescription := { radar with interfaceSource := .dds }
    chunkQueueData := some (.subscriber 0) }

theorem gateway_filter_publisher_in_front :
    ∃ s, (gatewayPool .internal .dds).subscribers.get 0 = some s ∧
      ∀ i, i ∈ dispatchedPublishers (smallConfig .manyToMany) gatewayUnsub 0
          (gatewayPool .internal .dds) ↔
        Addressed (gatewayPool .internal .dds).publishers (·.serviceDescription)
          (isCompatiblePubSub · s) gatewayUnsub i := by
  refine ⟨_, rfl, (((gateway_filter (smallConfig .manyToMany) (gatewayPool .internal .dds)
    gatewayUnsub).1 0 _ rfl).mpr ?_).1⟩
  intro k b hb hgateway i a hki ha
  have hlen : ∀ n, 2 ≤ n → (gatewayPool .internal .dds).publishers.get n = none := by
    intro n hn
    exact congrArg Option.join (List.getElem?_eq_none hn)
  have hk : k = 1 := by
    rcases k with _ | _ | k
    · cases hb
      exact absurd (Or.inl rfl) hgateway
    · rfl
    · rw [hlen (k + 2) (by omega)] at hb
      cases hb
  rw [hlen i (by omega)] at ha
  cases ha

/-- The UNSUB of the gateway does not get to an internal publisher behind a publisher
of the gateway's interface; in the other order it does. -/
theorem publisher_behind_gateway_missed :
    ∃ s, (gatewayPool .dds .internal).subscribers.get 0 = some s ∧
      ¬ (∀ i, i ∈ dispatchedPublishers (smallConfig .manyToMany) gatewayUnsub 0
          (gatewayPool .dds .internal) ↔
        Addressed (gatewayPool .dds .internal).publishers (·.serviceDescription)
          (isCompatiblePubSub · s) gatewayUnsub i) ∧
      (sendToAllMatchingPublisherPorts (smallConfig .manyToMany) gatewayUnsub 0
        (gatewayPool .dds .internal)).2 = false ∧
      dispatchedPublishers (smallConfig .manyToMany) gatewayUnsub 0 (gatewayPool .internal .dds) =
        [0] := by
  refine ⟨_, rfl, ?_, by decide, by decide⟩
  intro h
  have hmissed : 1 ∉ dispatchedPublishers (smallConfig .manyToMany) gatewayUnsub 0
      (gatewayPool .dds .internal) := by decide
  exact hmissed ((h 1).mpr ⟨_, rfl, by decide, Or.inl rfl⟩)

end Iceoryx.Roudi.PortManager
