import Iceoryx.Roudi.IntrospectionBooks

namespace Iceoryx.Roudi.PortIntrospection

open Capro Lib
open Popo (CommunicationPolicy)

def Linked (publishers : FixedSizeContainer PublisherInfo)
    (connections : FixedSizeContainer ConnectionInfo) : Prop :=
  ∀ i v, connections.Holds i v → ∀ p ∈ v.publisherInfo,
    ∃ w, publishers.Holds p w ∧ w.service.Same v.subscriberInfo.service

namespace Linked

variable {publishers publishers' : FixedSizeContainer PublisherInfo}
  {connections connections' : FixedSizeContainer ConnectionInfo}

theorem mono (h : Linked publishers connections)
    (hpublishers : ∀ i v, publishers.Holds i v →
      ∃ w, publishers'.Holds i w ∧ w.service = v.service)
    (hconnections : ∀ i w, connections'.Holds i w →
      ∃ v, connections.Holds i v ∧ PortData.Restated v w) :
    Linked publishers' connections' := by
  intro i w hw p hp
  obtain ⟨v, hv, hinfo, hpublisher⟩ := hconnections i w hw
  obtain ⟨u, hu, hsame⟩ := h i v hv p (hpublisher ▸ hp)
  obtain ⟨u', hu', hservice⟩ := hpublishers p u hu
  refine ⟨u', hu', ?_⟩
  rw [hservice, hinfo]
  exact hsame

theorem publishers_mono (h : Linked publishers connections)
    (hpublishers : ∀ i v, publishers.Holds i v →
      ∃ w, publishers'.Holds i w ∧ w.service = v.service) : Linked publishers' connections :=
  h.mono hpublishers fun _ w hw => ⟨w, hw, rfl, rfl⟩

theorem connections_mono (h : Linked publishers connections)
    (hconnections : ∀ i w, connections'.Holds i w →
      ∃ v, connections.Holds i v ∧ PortData.Restated v w) : Linked publishers connections' :=
  h.mono (fun _ w hw => ⟨w, hw, rfl⟩) hconnections

theorem put_publisher (h : Linked publishers connections) {element : PublisherInfo} {index : Nat}
    (hput : Put publishers element index publishers') : Linked publishers' connections :=
  h.publishers_mono fun _ v hv => ⟨v, (hput.other hv).2, rfl⟩

theorem put_connection (h : Linked publishers connections) {element : ConnectionInfo}
    {index : Nat} (hput : Put connections element index connections')
    (helement : ∀ p ∈ element.publisherInfo,
      ∃ w, publishers.Holds p w ∧ w.service.Same element.subscriberInfo.service) :
    Linked publishers connections' := by
  intro i v hv
  have hcases := (hput.holds i v).mp hv
  split at hcases
  · rw [hcases]
    exact helement
  · exact h i v hcases

theorem reconnect (h : Linked publishers connections) {service : ServiceDescription} {index : Nat}
    {publisher : PublisherInfo} (hpublisher : publishers.Holds index publisher)
    (hservice : publisher.service = service)
    (hchanged : Changed (fun _ => PortData.Reconnected service (some index)) connections
      connections') : Linked publishers connections' := by
  intro i w hw p hp
  obtain ⟨v, hv, hinfo, hkept | ⟨hsame, hnew⟩⟩ := hchanged.holds i w hw
  · rw [hinfo]
    exact h i v hv p (hkept ▸ hp)
  · rw [hnew] at hp
    cases hp
    refine ⟨publisher, hpublisher, ?_⟩
    rw [hinfo, hservice]
    exact hsame

theorem remove_publisher_iff (h : Linked publishers connections) (hok : publishers.Ok) (p : Nat) :
    Linked (publishers.remove p) connections ↔
      ∀ i v, connections.Holds i v → v.publisherInfo ≠ some p := by
  obtain ⟨-, -, hholds⟩ := hok.remove p
  constructor
  · intro hlinked i v hv hp
    obtain ⟨w, hw, -⟩ := hlinked i v hv p hp
    exact ((hholds p w).mp hw).1 rfl
  · intro hnone i v hv q hq
    obtain ⟨w, hw, hsame⟩ := h i v hv q hq
    refine ⟨w, (hholds q w).mpr ⟨?_, hw⟩, hsame⟩
    rintro rfl
    exact hnone i v hv hq

end Linked

namespace PortData

structure Consistent (s : PortData) : Prop where
  publishersOnce : s.publisherMap.indices.Nodup
  publishers : ∀ i, s.publisherContainer.isValid i = true ↔ i ∈ s.publisherMap.indices
  connectionsOnce : s.connectionMap.indices.Nodup
  connections : ∀ i, s.connectionContainer.isValid i = true ↔ i ∈ s.connectionMap.indices
  linked : Linked s.publisherContainer s.connectionContainer

/-- A port that is known comes again only if there is no slot left, and a publisher goes only if
no connection points to it. -/
def Admits (s : PortData) : Operation → Prop
  | .addPublisher port =>
    s.publisherMap.lookup port.serviceDescription port.uniqueId = none ∨ s.publisherContainer.Full
  | .addSubscriber port =>
    s.connectionMap.lookup port.serviceDescription port.uniqueId = none ∨
      s.connectionContainer.Full
  | .removePublisher port =>
    ∀ p ∈ s.publisherMap.lookup port.serviceDescription port.uniqueId,
      ∀ i < s.connectionContainer.values.length, s.connectionContainer.isValid i = true →
        (s.connectionContainer.value i).publisherInfo ≠ some p
  | _ => True

instance decidableAdmits (s : PortData) : ∀ op, Decidable (s.Admits op)
  | .addPublisher _ => inferInstanceAs (Decidable (_ ∨ _))
  | .addSubscriber _ => inferInstanceAs (Decidable (_ ∨ _))
  | .removePublisher port =>
    inferInstanceAs (Decidable (∀ p ∈ s.publisherMap.lookup port.serviceDescription port.uniqueId,
      ∀ i < s.connectionContainer.values.length, s.connectionContainer.isValid i = true →
        (s.connectionContainer.value i).publisherInfo ≠ some p))
  | .removeSubscriber _ | .reportMessage _ | .reportMessageTo _ _ | .prepareTopic =>
    inferInstanceAs (Decidable True)

variable {s s' : PortData} {policy : CommunicationPolicy}

theorem Consistent.tight (h : Consistent s) :
    Tight s.publisherMap s.publisherContainer ∧ Tight s.connectionMap s.connectionContainer :=
  ⟨fun i v hv => (h.publishers i).mp (FixedSizeContainer.isValid_iff.mpr ⟨v, hv⟩),
    fun i v hv => (h.connections i).mp (FixedSizeContainer.isValid_iff.mpr ⟨v, hv⟩)⟩

theorem Booked.consistent (h : Booked s) (hpublishers : Tight s.publisherMap s.publisherContainer)
    (hconnections : Tight s.connectionMap s.connectionContainer)
    (hlinked : Linked s.publisherContainer s.connectionContainer) : Consistent s where
  publishersOnce := h.publishers.once
  publishers := h.publishers.valid_iff hpublishers
  connectionsOnce := h.connections.once
  connections := h.connections.valid_iff hconnections
  linked := hlinked

theorem not_admits_known {map : PortMap} {T : Type} {c c' : FixedSizeContainer T} {element : T}
    {service : ServiceDescription} {uniqueId index i : Nat} (hput : Put c element index c')
    (hknown : map.lookup service uniqueId = some i) :
    ¬ (map.lookup service uniqueId = none ∨ c.Full) := by
  rintro (hnone | hfull)
  · rw [hknown] at hnone
    cases hnone
  · exact hput.not_full hfull

theorem consistent_addPublisher (hs : Booked s) (hs' : Booked s') (h : Consistent s)
    (port : MemberType) (hop : s.perform policy (.addPublisher port) = some s') :
    Consistent s' ↔ s.Admits (.addPublisher port) := by
  rw [perform] at hop
  rcases hs.addPublisher port with ⟨hfull, heq⟩ | ⟨index, c, hput, hcases⟩
  · rw [heq] at hop
    cases hop
    exact iff_of_true h (Or.inr hfull)
  · rcases hcases with ⟨⟨i, hknown⟩, heq⟩ | ⟨map, connections, henter, hchanged, heq⟩
    · rw [heq] at hop
      cases hop
      exact iff_of_false (fun h' => hs.publishers.lost hput h'.publishers)
        (not_admits_known hput hknown)
    · rw [heq] at hop
      cases hop
      refine iff_of_true (hs'.consistent ?_ ?_ ?_) (Or.inl (PortMap.lookup_eq_none henter))
      · exact (hs.publishers.enter hput henter).2 h.tight.1
      · exact (hs.connections.changed hchanged fun _ _ _ hr => by rw [hr.1]).2 h.tight.2
      · exact (h.linked.put_publisher hput).reconnect hput.self rfl hchanged

theorem consistent_addSubscriber (hs : Booked s) (hs' : Booked s') (h : Consistent s)
    (port : MemberType) (hop : s.perform policy (.addSubscriber port) = some s') :
    Consistent s' ↔ s.Admits (.addSubscriber port) := by
  rw [perform] at hop
  rcases hs.addSubscriber port with ⟨hfull, heq⟩ | ⟨index, hcases⟩
  · rw [heq] at hop
    cases hop
    exact iff_of_true h (Or.inr hfull)
  · rcases hcases with ⟨c, hput, ⟨i, hknown⟩, heq⟩ |
      ⟨map, c, connection, henter, hinfo, hpublisher, hput, heq⟩
    · rw [heq] at hop
      cases hop
      exact iff_of_false (fun h' => hs.connections.lost hput h'.connections)
        (not_admits_known hput hknown)
    · rw [heq] at hop
      cases hop
      have hservice : connection.subscriberInfo.service = port.serviceDescription := by
        rw [hinfo]
        rfl
      refine iff_of_true (hs'.consistent h.tight.1 ?_ ?_) (Or.inl (PortMap.lookup_eq_none henter))
      · exact (hs.connections.enter hput (by rw [hservice]; exact henter)).2 h.tight.2
      · refine h.linked.put_connection hput fun p hp => ?_
        obtain ⟨uniqueId, hcell⟩ := hpublisher p hp
        obtain ⟨w, hw, horder⟩ := hs.publishers.held _ _ _ hcell
        exact ⟨w, hw, hservice ▸ ServiceDescription.order_eq.mp horder⟩

theorem consistent_removePublisher (hs : Booked s) (hs' : Booked s') (h : Consistent s)
    (port : MemberType) (hop : s.perform policy (.removePublisher port) = some s') :
    Consistent s' ↔ s.Admits (.removePublisher port) := by
  rw [perform] at hop
  rcases hs.removePublisher port with ⟨hunknown, heq⟩ | ⟨index, hlookup, heq⟩
  · rw [heq] at hop
    cases hop
    refine iff_of_true h fun p hp => ?_
    rw [hunknown] at hp
    cases hp
  · rw [heq] at hop
    cases hop
    have hlinked := h.linked.remove_publisher_iff hs.publishers.ok index
    constructor
    · intro h' p hp i _ hvalid
      rw [hlookup] at hp
      cases hp
      obtain ⟨v, hv⟩ := FixedSizeContainer.isValid_iff.mp hvalid
      rw [hv.value_eq]
      exact hlinked.mp h'.linked i v hv
    · intro hadmits
      refine hs'.consistent ((hs.publishers.leave hlookup).2 h.tight.1) h.tight.2
        (hlinked.mpr fun i v hv => ?_)
      obtain ⟨hi, -⟩ := List.getElem?_eq_some_iff.mp hv
      rw [← hv.value_eq]
      exact hadmits index hlookup i hi (FixedSizeContainer.isValid_iff.mpr ⟨v, hv⟩)

theorem consistent_removeSubscriber (hs : Booked s) (hs' : Booked s') (h : Consistent s)
    (port : MemberType) (hop : s.perform policy (.removeSubscriber port) = some s') :
    Consistent s' := by
  rw [perform] at hop
  rcases hs.removeSubscriber port with ⟨-, heq⟩ | ⟨index, publishers, hlookup, hchanged, heq⟩
  · rw [heq] at hop
    cases hop
    exact h
  · rw [heq] at hop
    cases hop
    obtain ⟨-, -, hholds⟩ := hs.connections.ok.remove index
    refine hs'.consistent ?_ ((hs.connections.leave hlookup).2 h.tight.2) (h.linked.mono ?_ ?_)
    · exact (hs.publishers.changed hchanged fun _ _ _ hr => by rw [hr.2.1]).2 h.tight.1
    · intro i v hv
      obtain ⟨w, hw, -, hservice, -⟩ := hchanged.image hv
      exact ⟨w, hw, hservice⟩
    · intro i w hw
      exact ⟨w, ((hholds i w).mp hw).2, rfl, rfl⟩

theorem consistent_report {c : FixedSizeContainer ConnectionInfo} (hs : Booked s)
    (h : Consistent s) (hc : Changed (fun _ => Restated) s.connectionContainer c) :
    Consistent { s with connectionContainer := c, newData := true } :=
  (hs.report hc true).consistent h.tight.1
    ((hs.connections.changed hc fun _ _ _ hr => by rw [hr.1]).2 h.tight.2)
    (h.linked.connections_mono hc.holds)

theorem consistent_renumber {c : FixedSizeContainer PublisherInfo} (hs : Booked s)
    (h : Consistent s) (hc : Changed (fun _ => Renumbered) s.publisherContainer c) :
    Consistent { s with publisherContainer := c, newData := false } :=
  (hs.renumber hc false).consistent
    ((hs.publishers.changed hc fun _ _ _ hr => by rw [hr.2.1]).2 h.tight.1) h.tight.2
    (h.linked.publishers_mono fun i v hv => by
      obtain ⟨w, hw, -, hservice, -⟩ := hc.image hv
      exact ⟨w, hw, hservice⟩)

theorem consistent_perform (hs : Booked s) (h : Consistent s) (op : Operation)
    (hop : s.perform policy op = some s') : Booked s' ∧ (Consistent s' ↔ s.Admits op) := by
  have hs' : Booked s' := by
    obtain ⟨s'', hs'', hbooked⟩ := hs.perform policy op
    rw [hop] at hs''
    cases hs''
    exact hbooked
  refine ⟨hs', ?_⟩
  cases op with
  | addPublisher port => exact consistent_addPublisher hs hs' h port hop
  | addSubscriber port => exact consistent_addSubscriber hs hs' h port hop
  | removePublisher port => exact consistent_removePublisher hs hs' h port hop
  | removeSubscriber port =>
    exact iff_of_true (consistent_removeSubscriber hs hs' h port hop) trivial
  | reportMessage message =>
    refine iff_of_true ?_ trivial
    cases hop
    rcases hs.updateConnectionState policy message with heq | ⟨c, hc, heq⟩
    · rw [heq]
      exact h
    · rw [heq]
      exact consistent_report hs h hc
  | reportMessageTo message uniqueId =>
    refine iff_of_true ?_ trivial
    cases hop
    rcases hs.updateSubscriberConnectionState policy message uniqueId with heq | ⟨c, hc, heq⟩
    · rw [heq]
      exact h
    · rw [heq]
      exact consistent_report hs h hc
  | prepareTopic =>
    cases hop
    exact iff_of_true (consistent_renumber hs h (prepareTopic_changed hs)) trivial

theorem start_consistent (maxPublishers maxSubscribers : Nat) :
    Consistent (start maxPublishers maxSubscribers) :=
  (start_booked maxPublishers maxSubscribers).consistent
    (fun _ _ hv => absurd hv (FixedSizeContainer.ofCapacity_holds _))
    (fun _ _ hv => absurd hv (FixedSizeContainer.ofCapacity_holds _))
    (fun _ _ hv => absurd hv (FixedSizeContainer.ofCapacity_holds _))

/-- The bookkeeping stays consistent exactly as long as no known port is added again and no
publisher is removed that a connection points to. -/
theorem bookkeeping_consistent_iff (policy : CommunicationPolicy)
    (maxPublishers maxSubscribers : Nat) (ops : List Operation) :
    (∀ n, ∃ m, runSteps (PortData.perform policy) (start maxPublishers maxSubscribers)
      (ops.take n) = some m ∧ Consistent m) ↔
    Meets (PortData.perform policy) Admits (start maxPublishers maxSubscribers) ops := by
  have hbooked := start_booked maxPublishers maxSubscribers
  obtain ⟨s', hrun⟩ := hbooked.run policy ops
  rw [runSteps_prefixes_iff Consistent fun n => hbooked.run policy (ops.take n)]
  refine runSteps_always_iff (I := fun s => Booked s ∧ Consistent s) (P := Consistent)
    (fun _ h => h.2) (fun s op s' h hop => ?_) ops _ s'
    ⟨hbooked, start_consistent maxPublishers maxSubscribers⟩ hrun
  obtain ⟨hs', hiff⟩ := consistent_perform h.1 h.2 op hop
  exact ⟨fun hadmits => ⟨hs', hiff.mpr hadmits⟩, hiff.mp⟩

def radarPublisher : MemberType where
  runtimeName := "radar"
  serviceDescription := ⟨"Radar", "Front", "Speed", [0, 0, 0, 0], .worldwide, .internal⟩
  nodeName := "radar"
  uniqueId := 1

def displaySubscriber : MemberType where
  runtimeName := "display"
  serviceDescription := radarPublisher.serviceDescription
  nodeName := "display"
  uniqueId := 2

/-- A second `addPublisher` takes a slot that is never given back, and a publisher that is removed
leaves the pointer of its subscriber behind. -/
theorem known_publisher_breaks_bookkeeping :
    (∃ s, runSteps (PortData.perform .manyToMany) (start 512 1024)
      [.addPublisher radarPublisher, .addPublisher radarPublisher] = some s ∧ ¬ Consistent s) ∧
    ∃ s, runSteps (PortData.perform .manyToMany) (start 512 1024)
      [.addPublisher radarPublisher, .addSubscriber displaySubscriber,
        .removePublisher radarPublisher] = some s ∧ ¬ Consistent s := by
  constructor
  · have hrun : (runSteps (PortData.perform .manyToMany) (start 512 1024)
        [.addPublisher radarPublisher, .addPublisher radarPublisher]).map (fun s =>
          (s.publisherContainer.isValid 1, s.publisherMap.indices)) = some (true, [0]) := by
      decide +kernel
    obtain ⟨s, hs, heq⟩ := Option.map_eq_some_iff.mp hrun
    obtain ⟨hvalid, hindices⟩ := Prod.mk.inj heq
    refine ⟨s, hs, fun h => ?_⟩
    have hindex := (h.publishers 1).mp hvalid
    rw [hindices] at hindex
    exact absurd hindex (by decide)
  · have hrun : (runSteps (PortData.perform .manyToMany) (start 512 1024)
        [.addPublisher radarPublisher, .addSubscriber displaySubscriber,
          .removePublisher radarPublisher]).map (fun s => (s.connectionContainer.isValid 0,
            (s.connectionContainer.value 0).publisherInfo, s.publisherContainer.isValid 0)) =
        some (true, some 0, false) := by
      decide +kernel
    obtain ⟨s, hs, heq⟩ := Option.map_eq_some_iff.mp hrun
    simp only [Prod.mk.injEq] at heq
    obtain ⟨hvalid, hpublisher, hgone⟩ := heq
    refine ⟨s, hs, fun h => ?_⟩
    obtain ⟨v, hv⟩ := FixedSizeContainer.isValid_iff.mp hvalid
    rw [hv.value_eq] at hpublisher
    obtain ⟨w, hw, -⟩ := h.linked 0 v hv 0 hpublisher
    exact Bool.false_ne_true (hgone.symm.trans (FixedSizeContainer.isValid_iff.mpr ⟨w, hw⟩))

end PortData

end Iceoryx.Roudi.PortIntrospection
