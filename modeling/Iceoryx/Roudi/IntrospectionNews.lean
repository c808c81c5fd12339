import Iceoryx.Lib.Indices
import Iceoryx.Roudi.IntrospectionBooks

namespace Iceoryx.Roudi.PortIntrospection

open Capro Lib
open Popo (CommunicationPolicy)

section Rows

variable {T R : Type} {service : T → ServiceDescription} {map : PortMap}
  {c c' : FixedSizeContainer T}

theorem Filed.rows_eq [Inhabited T] (h : Filed service map c) (row : T → R)
    (hc : ∀ i v, c.Holds i v → ∃ w, c'.Holds i w ∧ row w = row v) :
    map.indices.map (fun i => row (c'.value i)) = map.indices.map fun i => row (c.value i) := by
  refine List.map_congr_left fun i hi => ?_
  obtain ⟨v, hv⟩ := h.holds hi
  obtain ⟨w, hw, hrow⟩ := hc i v hv
  rw [hv.value_eq, hw.value_eq, hrow]

theorem Filed.length_le (h : Filed service map c) : map.indices.length ≤ c.values.length := by
  refine length_le_of_nodup_lt h.once fun i hi => ?_
  obtain ⟨v, hv⟩ := h.holds hi
  exact (List.getElem?_eq_some_iff.mp hv).1

end Rows

namespace PortData

variable {s s' : PortData}

theorem topic_eq (hs : Booked s) (hpublisherMap : s'.publisherMap = s.publisherMap)
    (hconnectionMap : s'.connectionMap = s.connectionMap)
    (hpublishers : s'.publisherContainer.values.length = s.publisherContainer.values.length ∧
      ∀ i v, s.publisherContainer.Holds i v →
        ∃ w, s'.publisherContainer.Holds i w ∧ w.toRow = v.toRow)
    (hconnections : s'.connectionContainer.values.length = s.connectionContainer.values.length ∧
      ∀ i v, s.connectionContainer.Holds i v →
        ∃ w, s'.connectionContainer.Holds i w ∧ w.toRow = v.toRow) :
    s'.topic = s.topic := by
  unfold topic
  rw [hpublisherMap, hconnectionMap, hs.publishers.rows_eq PublisherInfo.toRow hpublishers.2,
    hs.connections.rows_eq ConnectionInfo.toRow hconnections.2, hpublishers.1, hconnections.1]

theorem topic_put_publisher (hs : Booked s) {element : PublisherInfo} {index : Nat}
    {c : FixedSizeContainer PublisherInfo} (hput : Put s.publisherContainer element index c) :
    { s with publisherContainer := c }.topic = s.topic :=
  topic_eq hs rfl rfl ⟨hput.length, fun _ v hv => ⟨v, (hput.other hv).2, rfl⟩⟩
    ⟨rfl, fun _ v hv => ⟨v, hv, rfl⟩⟩

theorem topic_put_connection (hs : Booked s) {element : ConnectionInfo} {index : Nat}
    {c : FixedSizeContainer ConnectionInfo} (hput : Put s.connectionContainer element index c) :
    { s with connectionContainer := c }.topic = s.topic :=
  topic_eq hs rfl rfl ⟨rfl, fun _ v hv => ⟨v, hv, rfl⟩⟩
    ⟨hput.length, fun _ v hv => ⟨v, (hput.other hv).2, rfl⟩⟩

theorem topic_prepareTopic (hs : Booked s) : s.prepareTopic.2.topic = s.topic := by
  have hchanged := prepareTopic_changed hs
  refine topic_eq hs rfl rfl ⟨hchanged.length, fun i v hv => ?_⟩ ⟨rfl, fun _ v hv => ⟨v, hv, rfl⟩⟩
  obtain ⟨w, hw, hrow, -⟩ := hchanged.image hv
  exact ⟨w, hw, hrow⟩

theorem length_subscriberList (hs : Booked s) :
    s.topic.subscriberList.length = s.connectionMap.indices.length := by
  unfold topic
  dsimp only
  rw [List.length_take, List.length_map, min_eq_right hs.connections.length_le]

def Announces (s : PortData) : Operation → Prop
  | .addSubscriber port =>
    s.newData = true ∨ s.connectionContainer.Full ∨
      s.connectionMap.lookup port.serviceDescription port.uniqueId ≠ none
  | _ => True

instance decidableAnnounces (s : PortData) : ∀ op, Decidable (s.Announces op)
  | .addSubscriber _ => inferInstanceAs (Decidable (_ ∨ _ ∨ _))
  | .addPublisher _ | .removePublisher _ | .removeSubscriber _ | .reportMessage _
  | .reportMessageTo _ _ | .prepareTopic => inferInstanceAs (Decidable True)

def Heard (s s' : PortData) : Prop :=
  s'.newData = false → s.newData = false ∧ s'.topic = s.topic

structure Follows (s : PortData) (op : Operation) (s' : PortData) : Prop where
  newData : s'.newData = false → s.newData = false
  heard : Heard s s' ↔ s.Announces op

variable {policy : CommunicationPolicy} {op : Operation}

theorem Follows.raised (hnew : s'.newData = true) (hop : s.Announces op) : Follows s op s' where
  newData := fun hdown => absurd (hnew.symm.trans hdown) (by decide)
  heard := iff_of_true (fun hdown => absurd (hnew.symm.trans hdown) (by decide)) hop

theorem Follows.quiet (hnew : s'.newData = s.newData) (htopic : s'.topic = s.topic)
    (hop : s.Announces op) : Follows s op s' where
  newData := fun hdown => hnew ▸ hdown
  heard := iff_of_true (fun hdown => ⟨hnew ▸ hdown, htopic⟩) hop

theorem follows_addPublisher (hs : Booked s) (port : MemberType)
    (hop : s.perform policy (.addPublisher port) = some s') :
    Follows s (.addPublisher port) s' := by
  rw [perform] at hop
  rcases hs.addPublisher port with ⟨-, heq⟩ | ⟨index, c, hput, hcases⟩
  · rw [heq] at hop
    cases hop
    exact .quiet rfl rfl trivial
  · rcases hcases with ⟨-, heq⟩ | ⟨map, connections, -, -, heq⟩
    · rw [heq] at hop
      cases hop
      exact .quiet rfl (topic_put_publisher hs hput) trivial
    · rw [heq] at hop
      cases hop
      exact .raised rfl trivial

theorem follows_addSubscriber (hs : Booked s) (hs' : Booked s') (port : MemberType)
    (hop : s.perform policy (.addSubscriber port) = some s') :
    Follows s (.addSubscriber port) s' := by
  rw [perform] at hop
  rcases hs.addSubscriber port with ⟨hfull, heq⟩ | ⟨index, hcases⟩
  · rw [heq] at hop
    cases hop
    exact .quiet rfl rfl (Or.inr (Or.inl hfull))
  · rcases hcases with ⟨c, hput, ⟨i, hknown⟩, heq⟩ | ⟨map, c, connection, henter, -, -, hput, heq⟩
    · rw [heq] at hop
      cases hop
      refine .quiet rfl (topic_put_connection hs hput) (Or.inr (Or.inr ?_))
      rw [hknown]
      exact Option.some_ne_none i
    · rw [heq] at hop
      cases hop
      have hlonger : map.indices.length = s.connectionMap.indices.length + 1 := by
        have hperm : map.indices.Perm (index :: s.connectionMap.indices) :=
          (PortMap.enter_perm henter).map _
        exact hperm.length_eq
      refine ⟨id, fun hheard => Or.inl ?_, ?_⟩
      · refine Bool.of_not_eq_false fun hdown => ?_
        have hsame := length_subscriberList hs
        rw [← (hheard hdown).2, length_subscriberList hs'] at hsame
        exact Nat.succ_ne_self _ (hlonger.symm.trans hsame)
      · rintro (hup | hfull | hknown) hdown
        · exact absurd (hup.symm.trans hdown) (by decide)
        · exact absurd hfull hput.not_full
        · exact absurd (PortMap.lookup_eq_none henter) hknown

theorem follows_perform (hs : Booked s) (hs' : Booked s') (hop : s.perform policy op = some s')
    (hne : op ≠ .prepareTopic) : Follows s op s' := by
  cases op with
  | addPublisher port => exact follows_addPublisher hs port hop
  | addSubscriber port => exact follows_addSubscriber hs hs' port hop
  | removePublisher port =>
    cases hop
    rcases hs.removePublisher port with ⟨-, heq⟩ | ⟨index, -, heq⟩
    · rw [heq]
      exact .quiet rfl rfl trivial
    · rw [heq]
      exact .raised rfl trivial
  | removeSubscriber port =>
    cases hop
    rcases hs.removeSubscriber port with ⟨-, heq⟩ | ⟨index, publishers, -, -, heq⟩
    · rw [heq]
      exact .quiet rfl rfl trivial
    · rw [heq]
      exact .raised rfl trivial
  | reportMessage message =>
    cases hop
    rcases hs.updateConnectionState policy message with heq | ⟨c, -, heq⟩
    · rw [heq]
      exact .quiet rfl rfl trivial
    · rw [heq]
      exact .raised rfl trivial
  | reportMessageTo message uniqueId =>
    cases hop
    rcases hs.updateSubscriberConnectionState policy message uniqueId with heq | ⟨c, -, heq⟩
    · rw [heq]
      exact .quiet rfl rfl trivial
    · rw [heq]
      exact .raised rfl trivial
  | prepareTopic => exact absurd rfl hne

end PortData

structure News where
  data : PortData
  published : Option PortIntrospectionFieldTopic := none

namespace News

def start (maxPublishers maxSubscribers : Nat) : News where
  data := .start maxPublishers maxSubscribers

def publishedBy (s : News) : Operation → Option PortIntrospectionFieldTopic
  | .prepareTopic => some s.data.prepareTopic.1
  | _ => s.published

def perform (policy : CommunicationPolicy) (s : News) (op : Operation) : Option News :=
  (s.data.perform policy op).map fun data => {
    data := data
    published := s.publishedBy op }

/-- `isNew()` is true whenever the topic would be another one now. -/
def Told (s : News) : Prop := s.published ≠ some s.data.prepareTopic.1 → s.data.newData = true

variable {s s' : News} {policy : CommunicationPolicy} {op : Operation}

theorem told_iff : Told s ↔ (s.data.newData = false → s.published = some s.data.topic) := by
  unfold Told
  rw [← Bool.not_eq_true, not_imp_comm]
  exact Iff.rfl

theorem publishedBy_eq (hop : op ≠ .prepareTopic) : s.publishedBy op = s.published := by
  cases op with
  | prepareTopic => exact absurd rfl hop
  | _ => rfl

theorem told_perform (hs : s.data.Booked) (h : Told s) (hop : s.perform policy op = some s') :
    s'.data.Booked ∧ (Told s' ↔ s.data.Announces op) := by
  obtain ⟨data, hdata, rfl⟩ := Option.map_eq_some_iff.mp hop
  obtain ⟨data', hdata', hbooked⟩ := hs.perform policy op
  obtain rfl := Option.some.inj (hdata.symm.trans hdata')
  refine ⟨hbooked, ?_⟩
  by_cases hne : op = .prepareTopic
  · subst hne
    cases hdata
    exact iff_of_true (told_iff.mpr fun _ => congrArg some (PortData.topic_prepareTopic hs).symm)
      trivial
  · obtain ⟨hnew, hheard⟩ := PortData.follows_perform hs hbooked hdata hne
    rw [← hheard, told_iff]
    dsimp only
    rw [publishedBy_eq hne]
    constructor
    · intro htold hdown
      exact ⟨hnew hdown, Option.some.inj ((htold hdown).symm.trans (told_iff.mp h (hnew hdown)))⟩
    · intro hheard hdown
      obtain ⟨hold, htopic⟩ := hheard hdown
      rw [htopic]
      exact told_iff.mp h hold

theorem exists_run (policy : CommunicationPolicy) (hs : s.data.Booked) (ops : List Operation) :
    ∃ s', runSteps (News.perform policy) s ops = some s' := by
  have hstep : ∀ (s : News) (op : Operation), s.data.Booked →
      ∃ s', s.perform policy op = some s' ∧ s'.data.Booked := by
    intro s op hs
    obtain ⟨data, hdata, hbooked⟩ := hs.perform policy op
    exact ⟨_, by rw [News.perform, hdata]; rfl, hbooked⟩
  obtain ⟨s', hrun, -⟩ := runSteps_total hstep ops s hs
  exact ⟨s', hrun⟩

/-- The flag tells of every change of the topic exactly as long as no subscriber is added while it
is down. -/
theorem introspection_told_iff (policy : CommunicationPolicy)
    (maxPublishers maxSubscribers : Nat) (ops : List Operation) :
    (∀ n, ∃ m, runSteps (News.perform policy) (start maxPublishers maxSubscribers)
      (ops.take n) = some m ∧ Told m) ↔
    Meets (News.perform policy) (fun s => s.data.Announces)
      (start maxPublishers maxSubscribers) ops := by
  have hbooked : (start maxPublishers maxSubscribers).data.Booked :=
    PortData.start_booked maxPublishers maxSubscribers
  obtain ⟨s', hrun⟩ := exists_run policy hbooked ops
  rw [runSteps_prefixes_iff Told fun n => exists_run policy hbooked (ops.take n)]
  refine runSteps_always_iff (I := fun s => s.data.Booked ∧ Told s) (P := Told)
    (fun _ h => h.2) (fun s op s' h hop => ?_) ops _ s' ⟨hbooked, fun _ => rfl⟩ hrun
  obtain ⟨hs', hiff⟩ := told_perform h.1 h.2 hop
  exact ⟨fun hadmits => ⟨hs', hiff.mpr hadmits⟩, hiff.mp⟩

def cameraSubscriber : MemberType where
  runtimeName := "camera"
  serviceDescription := ⟨"Camera", "Rear", "Image", [0, 0, 0, 0], .worldwide, .internal⟩
  nodeName := "camera"
  uniqueId := 1

theorem new_subscriber_untold :
    ∃ s, runSteps (News.perform .manyToMany) (start 512 1024)
      [.prepareTopic, .addSubscriber cameraSubscriber] = some s ∧ ¬ Told s := by
  have hrun : (runSteps (News.perform .manyToMany) (start 512 1024)
      [.prepareTopic, .addSubscriber cameraSubscriber]).map (fun s =>
        (s.data.newData, decide (s.published = some s.data.prepareTopic.1))) =
      some (false, false) := by
    decide +kernel
  obtain ⟨s, hs, heq⟩ := Option.map_eq_some_iff.mp hrun
  obtain ⟨hnew, hdiffers⟩ := Prod.mk.inj heq
  exact ⟨s, hs, fun h => Bool.false_ne_true (hnew.symm.trans (h (of_decide_eq_false hdiffers)))⟩

end News

end Iceoryx.Roudi.PortIntrospection
