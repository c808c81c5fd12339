import Iceoryx.Lib.Run
import Iceoryx.Roudi.PortIntrospection

namespace Iceoryx.Roudi.PortIntrospection

open Capro Lib
open Popo (CommunicationPolicy)

namespace PortMap

variable {map map' : PortMap} {service : ServiceDescription} {uniqueId index : Nat}
  {x : ServiceDescription.Order}

theorem mem_cells : (x, uniqueId, index) ∈ map.cells ↔
    ∃ inner, map.find x = some inner ∧ inner.find uniqueId = some index := by
  simp only [cells, List.mem_flatMap, List.mem_map, Prod.mk.injEq]
  constructor
  · rintro ⟨⟨y, inner⟩, hinner, pair, hpair, rfl, rfl⟩
    exact ⟨inner, SortedMap.mem_iff_find.mp hinner, SortedMap.mem_iff_find.mp hpair⟩
  · rintro ⟨inner, hinner, hpair⟩
    exact ⟨(x, inner), SortedMap.mem_iff_find.mpr hinner, (uniqueId, index),
      SortedMap.mem_iff_find.mpr hpair, rfl, rfl⟩

theorem lookup_eq_some : map.lookup service uniqueId = some index ↔
    (service.order, uniqueId, index) ∈ map.cells := by
  rw [mem_cells, lookup, Option.bind_eq_some_iff]

theorem enter_eq_none :
    map.enter service uniqueId index = none ↔ ∃ i, map.lookup service uniqueId = some i := by
  unfold enter lookup
  cases map.find service.order with
  | none => simp
  | some inner => cases hinner : inner.find uniqueId <;> simp [hinner]

theorem lookup_eq_none (h : map.enter service uniqueId index = some map') :
    map.lookup service uniqueId = none := by
  refine Option.eq_none_iff_forall_ne_some.mpr fun i hi => ?_
  rw [enter_eq_none.mpr ⟨i, hi⟩] at h
  cases h

theorem enter_perm (h : map.enter service uniqueId index = some map') :
    map'.cells.Perm ((service.order, uniqueId, index) :: map.cells) := by
  unfold enter at h
  cases hfind : map.find service.order with
  | none =>
    rw [hfind] at h
    cases h
    exact (SortedMap.insert_perm hfind).flatMap_right _
  | some inner =>
    rw [hfind] at h
    cases hinner : inner.find uniqueId with
    | none =>
      simp only [hinner, Option.some.injEq] at h
      subst h
      have hnew := (SortedMap.modify_perm hfind
        fun inner => inner.insert uniqueId index).flatMap_right
          fun e => e.2.entries.map fun pair => (e.1, pair)
      have hold := (SortedMap.erase_perm hfind).flatMap_right
        fun e => e.2.entries.map fun pair => (e.1, pair)
      have hentry := ((SortedMap.insert_perm (v := index) hinner).map
        fun pair => (service.order, pair))
      rw [List.flatMap_cons] at hnew hold
      exact hnew.trans ((hentry.append_right _).trans (hold.symm.cons _))
    | some i =>
      simp only [hinner] at h
      cases h

theorem leave_perm (h : map.lookup service uniqueId = some index) :
    map.cells.Perm ((service.order, uniqueId, index) :: (map.leave service uniqueId).cells) := by
  obtain ⟨inner, hfind, hinner⟩ := Option.bind_eq_some_iff.mp h
  have hnew := (SortedMap.modify_perm hfind fun inner => inner.erase uniqueId).flatMap_right
    fun e => e.2.entries.map fun pair => (e.1, pair)
  have hold := (SortedMap.erase_perm hfind).flatMap_right
    fun e => e.2.entries.map fun pair => (e.1, pair)
  have hentry := (SortedMap.erase_perm hinner).map fun pair => (service.order, pair)
  rw [List.flatMap_cons] at hnew hold
  exact hold.trans ((hentry.append_right _).trans (hnew.symm.cons _))

end PortMap

structure Filed {T : Type} (service : T → ServiceDescription) (map : PortMap)
    (c : FixedSizeContainer T) : Prop where
  ok : c.Ok
  once : map.indices.Nodup
  held : ∀ x uniqueId i, (x, uniqueId, i) ∈ map.cells → ∃ v, c.Holds i v ∧ (service v).order = x

def Tight {T : Type} (map : PortMap) (c : FixedSizeContainer T) : Prop :=
  ∀ i v, c.Holds i v → i ∈ map.indices

variable {T : Type} {service : T → ServiceDescription} {map map' : PortMap}
  {c c' : FixedSizeContainer T} {d : ServiceDescription} {uniqueId index i : Nat} {element v : T}

theorem PortMap.mem_indices : i ∈ map.indices ↔ ∃ x uniqueId, (x, uniqueId, i) ∈ map.cells := by
  rw [indices, List.mem_map]
  constructor
  · rintro ⟨⟨x, uniqueId, i⟩, hcell, rfl⟩
    exact ⟨x, uniqueId, hcell⟩
  · rintro ⟨x, uniqueId, hcell⟩
    exact ⟨(x, uniqueId, i), hcell, rfl⟩

theorem Filed.holds (h : Filed service map c) (hi : i ∈ map.indices) : ∃ v, c.Holds i v := by
  obtain ⟨x, uniqueId, hcell⟩ := PortMap.mem_indices.mp hi
  obtain ⟨v, hv, -⟩ := h.held x uniqueId i hcell
  exact ⟨v, hv⟩

structure Put (c : FixedSizeContainer T) (element : T) (index : Nat) (c' : FixedSizeContainer T) :
    Prop where
  lt : index < c.values.length
  free : c.isValid index = false
  ok : c'.Ok
  length : c'.values.length = c.values.length
  holds : ∀ j w, c'.Holds j w ↔ if j = index then w = element else c.Holds j w

theorem Put.not_full (h : Put c element index c') : ¬ c.Full := fun hfull =>
  Bool.false_ne_true (h.free.symm.trans (hfull index h.lt))

theorem Put.self (h : Put c element index c') : c'.Holds index element :=
  (h.holds index element).mpr (by rw [if_pos rfl])

theorem Put.other (h : Put c element index c') (hv : c.Holds i v) : i ≠ index ∧ c'.Holds i v := by
  have hne : i ≠ index := by
    rintro rfl
    exact Bool.false_ne_true (h.free.symm.trans (FixedSizeContainer.isValid_iff.mpr ⟨v, hv⟩))
  exact ⟨hne, (h.holds i v).mpr (by rwa [if_neg hne])⟩

theorem Filed.put (h : Filed service map c) (hput : Put c element index c') :
    Filed service map c' ∧ index ∉ map.indices := by
  refine ⟨⟨hput.ok, h.once, fun x uniqueId i hcell => ?_⟩, fun hindex => ?_⟩
  · obtain ⟨v, hv, hservice⟩ := h.held x uniqueId i hcell
    exact ⟨v, (hput.other hv).2, hservice⟩
  · obtain ⟨v, hv⟩ := h.holds hindex
    exact (hput.other hv).1 rfl

theorem Filed.lost (h : Filed service map c) (hput : Put c element index c') :
    ¬ ∀ i, c'.isValid i = true ↔ i ∈ map.indices := fun hall =>
  (h.put hput).2 ((hall index).mp (FixedSizeContainer.isValid_iff.mpr ⟨element, hput.self⟩))

theorem Filed.valid_iff (h : Filed service map c) (htight : Tight map c) (i : Nat) :
    c.isValid i = true ↔ i ∈ map.indices := by
  rw [FixedSizeContainer.isValid_iff]
  constructor
  · rintro ⟨v, hv⟩
    exact htight i v hv
  · exact h.holds

theorem Filed.enter (h : Filed service map c) (hput : Put c element index c')
    (henter : map.enter (service element) uniqueId index = some map') :
    Filed service map' c' ∧ (Tight map c → Tight map' c') := by
  obtain ⟨hfiled, hnew⟩ := h.put hput
  have hcells := PortMap.enter_perm henter
  have hindices : map'.indices.Perm (index :: map.indices) := hcells.map _
  refine ⟨⟨hput.ok, ?_, fun x id i hcell => ?_⟩, fun htight i v hv => ?_⟩
  · exact hindices.nodup_iff.mpr (List.nodup_cons.mpr ⟨hnew, h.once⟩)
  · rcases List.mem_cons.mp (hcells.mem_iff.mp hcell) with heq | hcell
    · cases heq
      exact ⟨element, hput.self, rfl⟩
    · exact hfiled.held x id i hcell
  · rw [hindices.mem_iff]
    by_cases hi : i = index
    · exact hi ▸ List.mem_cons_self
    · have hold := (hput.holds i v).mp hv
      rw [if_neg hi] at hold
      exact List.mem_cons_of_mem index (htight i v hold)

theorem Filed.leave (h : Filed service map c) (hlookup : map.lookup d uniqueId = some index) :
    Filed service (map.leave d uniqueId) (c.remove index) ∧
      (Tight map c → Tight (map.leave d uniqueId) (c.remove index)) := by
  obtain ⟨hok, -, hholds⟩ := h.ok.remove index
  have hcells := PortMap.leave_perm hlookup
  have hindices : map.indices.Perm (index :: (map.leave d uniqueId).indices) := hcells.map _
  obtain ⟨hgone, hnodup⟩ := List.nodup_cons.mp (hindices.nodup_iff.mp h.once)
  refine ⟨⟨hok, hnodup, fun x id i hcell => ?_⟩, fun htight i v hv => ?_⟩
  · obtain ⟨v, hv, hservice⟩ := h.held x id i (hcells.mem_iff.mpr (List.mem_cons_of_mem _ hcell))
    refine ⟨v, (hholds i v).mpr ⟨?_, hv⟩, hservice⟩
    rintro rfl
    exact hgone (PortMap.mem_indices.mpr ⟨x, id, hcell⟩)
  · obtain ⟨hne, hv⟩ := (hholds i v).mp hv
    exact List.mem_of_ne_of_mem hne (hindices.mem_iff.mp (htight i v hv))

structure Changed (R : Nat → T → T → Prop) (c c' : FixedSizeContainer T) : Prop where
  ok : c'.Ok
  length : c'.values.length = c.values.length
  holds : ∀ i w, c'.Holds i w → ∃ v, c.Holds i v ∧ R i v w
  kept : ∀ i v, c.Holds i v → ∃ w, c'.Holds i w

theorem Changed.image {R : Nat → T → T → Prop} (hc : Changed R c c') (hv : c.Holds i v) :
    ∃ w, c'.Holds i w ∧ R i v w := by
  obtain ⟨w, hw⟩ := hc.kept i v hv
  obtain ⟨u, hu, hr⟩ := hc.holds i w hw
  obtain rfl := hv.unique hu
  exact ⟨w, hw, hr⟩

theorem Filed.changed {R : Nat → T → T → Prop} (h : Filed service map c) (hc : Changed R c c')
    (hR : ∀ i v w, R i v w → (service w).order = (service v).order) :
    Filed service map c' ∧ (Tight map c → Tight map c') := by
  refine ⟨⟨hc.ok, h.once, fun x id i hcell => ?_⟩, fun htight i w hw => ?_⟩
  · obtain ⟨v, hv, hservice⟩ := h.held x id i hcell
    obtain ⟨w, hw, hr⟩ := hc.image hv
    exact ⟨w, hw, (hR i v w hr).trans hservice⟩
  · obtain ⟨v, hv, -⟩ := hc.holds i w hw
    exact htight i v hv

theorem Changed.refl {R : Nat → T → T → Prop} (hok : c.Ok) (hR : ∀ i v, R i v v) :
    Changed R c c :=
  ⟨hok, rfl, fun i w hw => ⟨w, hw, hR i w⟩, fun _ v hv => ⟨v, hv⟩⟩

theorem Changed.modify {R : Nat → T → T → Prop} (hc : Changed R c c') (j : Nat) (f : T → T)
    (hf : ∀ v w, c'.Holds j w → R j v w → R j v (f w)) : Changed R c (c'.modify j f) := by
  obtain ⟨hok, hlength, hholds⟩ := hc.ok.modify j f
  refine ⟨hok, hlength.trans hc.length, fun i w hw => ?_, fun i v hv => ?_⟩
  · obtain ⟨u, hu, rfl⟩ := (hholds i w).mp hw
    obtain ⟨v, hv, hr⟩ := hc.holds i u hu
    refine ⟨v, hv, ?_⟩
    split
    · next hij =>
      subst hij
      exact hf v u hu hr
    · exact hr
  · obtain ⟨w, hw⟩ := hc.kept i v hv
    exact ⟨_, (hholds i _).mpr ⟨w, hw, rfl⟩⟩

theorem Put.modify (h : Put c element index c') (f : T → T) :
    Put c (f element) index (c'.modify index f) := by
  obtain ⟨hok, hlength, hholds⟩ := h.ok.modify index f
  refine ⟨h.lt, h.free, hok, hlength.trans h.length, fun j w => ?_⟩
  rw [hholds]
  by_cases hj : j = index
  · subst hj
    rw [if_pos rfl]
    constructor
    · rintro ⟨v, hv, rfl⟩
      rw [if_pos rfl, h.self.unique hv]
    · rintro rfl
      exact ⟨element, h.self, (if_pos rfl).symm⟩
  · rw [if_neg hj]
    constructor
    · rintro ⟨v, hv, rfl⟩
      rw [if_neg hj]
      have hold := (h.holds j v).mp hv
      rwa [if_neg hj] at hold
    · intro hw
      exact ⟨w, (h.other hw).2, (if_neg hj).symm⟩

theorem add_cases (h : c.Ok) (element : T) :
    (c.Full ∧ c.add element = some (none, c)) ∨
    ∃ index c', c.add element = some (some index, c') ∧ Put c element index c' := by
  rcases h.add element with hfull | ⟨index, c', hlt, hfree, hadd, hok, hlength, -, hholds⟩
  · exact Or.inl hfull
  · exact Or.inr ⟨index, c', hadd, hlt, hfree, hok, hlength, hholds⟩

namespace PortData

def Reconnected (service : ServiceDescription) (publisher : Option Nat) (v w : ConnectionInfo) :
    Prop :=
  w.subscriberInfo = v.subscriberInfo ∧ (w.publisherInfo = v.publisherInfo ∨
    (service.Same v.subscriberInfo.service ∧ w.publisherInfo = publisher))

def Renumbered (v w : PublisherInfo) : Prop :=
  w.toRow = v.toRow ∧ w.service = v.service ∧
    (v.connectionMap.entries = [] → w.connectionMap.entries = [])

def Restated (v w : ConnectionInfo) : Prop :=
  w.subscriberInfo = v.subscriberInfo ∧ w.publisherInfo = v.publisherInfo

structure Booked (s : PortData) : Prop where
  publishers : Filed PublisherInfo.service s.publisherMap s.publisherContainer
  connections : Filed (fun connection => connection.subscriberInfo.service) s.connectionMap
    s.connectionContainer
  unlinked : ∀ i v, s.publisherContainer.Holds i v → v.connectionMap.entries = []

variable {s : PortData} {port : MemberType}

theorem connectSubscribers_changed {c : FixedSizeContainer ConnectionInfo} (hok : c.Ok)
    (service : ServiceDescription) (publisher : Option Nat) (pairs : List (Nat × Nat)) :
    Changed (fun _ => Reconnected service publisher) c
      (connectSubscribers service publisher pairs c) := by
  refine foldl_invariant (I := Changed (fun _ => Reconnected service publisher) c) pairs c
    (fun c' pair _ hc => ?_) (Changed.refl hok fun _ v => ⟨rfl, Or.inl rfl⟩)
  split
  · next hsame =>
    refine hc.modify pair.2 _ fun v w hw hr => ?_
    rw [hw.value_eq, hr.1] at hsame
    exact ⟨hr.1, Or.inr ⟨hsame, rfl⟩⟩
  · exact hc

theorem Booked.addPublisher (h : Booked s) (port : MemberType) :
    (s.publisherContainer.Full ∧ s.addPublisher port = some (false, s)) ∨
    ∃ index c, Put s.publisherContainer (.ofPort port) index c ∧
      (((∃ i, s.publisherMap.lookup port.serviceDescription port.uniqueId = some i) ∧
        s.addPublisher port = some (false, { s with publisherContainer := c })) ∨
      ∃ map connections,
        s.publisherMap.enter port.serviceDescription port.uniqueId index = some map ∧
        Changed (fun _ => Reconnected port.serviceDescription (some index))
          s.connectionContainer connections ∧
        s.addPublisher port = some (true, { s with
          publisherMap := map
          publisherContainer := c
          connectionContainer := connections
          newData := true })) := by
  unfold PortData.addPublisher
  rcases add_cases h.publishers.ok (.ofPort port) with
    ⟨hfull, hadd⟩ | ⟨index, c, hadd, hput⟩
  · rw [hadd]
    exact Or.inl ⟨hfull, rfl⟩
  · rw [hadd]
    refine Or.inr ⟨index, c, hput, ?_⟩
    rw [Option.map_some]
    cases henter : s.publisherMap.enter port.serviceDescription port.uniqueId index with
    | none =>
      simp only [henter]
      exact Or.inl ⟨PortMap.enter_eq_none.mp henter, trivial⟩
    | some map =>
      have hget : c.get index = some index :=
        if_pos (FixedSizeContainer.isValid_iff.mpr ⟨_, hput.self⟩)
      simp only [henter, hget]
      refine Or.inr ⟨map, _, rfl, ?_, rfl⟩
      split
      · exact Changed.refl h.connections.ok fun _ v => ⟨rfl, Or.inl rfl⟩
      · exact connectSubscribers_changed h.connections.ok _ _ _

theorem put_publisherInfo {c c' : FixedSizeContainer ConnectionInfo} {index : Nat}
    (hput : Put c (.ofPort port) index c') (publishers : FixedSizeContainer PublisherInfo)
    (pairs : List (Nat × Nat)) :
    ∃ connection : ConnectionInfo, connection.subscriberInfo = .ofPort port ∧
      (∀ p ∈ connection.publisherInfo, ∃ pair ∈ pairs, p = pair.2 ∧ publishers.isValid p = true) ∧
      Put c connection index (pairs.foldl (fun c pair => c.modify index fun connection =>
        { connection with publisherInfo := publishers.get pair.2 }) c') := by
  refine foldl_invariant (I := fun c'' => ∃ connection : ConnectionInfo,
      connection.subscriberInfo = .ofPort port ∧
      (∀ p ∈ connection.publisherInfo, ∃ pair ∈ pairs, p = pair.2 ∧ publishers.isValid p = true) ∧
      Put c connection index c'') pairs c' ?_
      ⟨.ofPort port, rfl, fun p hp => absurd hp (Option.not_mem_none p), hput⟩
  rintro c'' pair hpair ⟨connection, hinfo, -, hput⟩
  refine ⟨{ connection with publisherInfo := publishers.get pair.2 }, hinfo, fun p hp => ?_,
    hput.modify fun connection => { connection with publisherInfo := publishers.get pair.2 }⟩
  change publishers.get pair.2 = some p at hp
  unfold FixedSizeContainer.get at hp
  split at hp
  · next hvalid =>
    cases hp
    exact ⟨pair, hpair, rfl, hvalid⟩
  · cases hp

theorem Booked.addSubscriber (h : Booked s) (port : MemberType) :
    (s.connectionContainer.Full ∧ s.addSubscriber port = some (false, s)) ∨
    ∃ index,
      ((∃ c, Put s.connectionContainer (.ofPort port) index c ∧
        (∃ i, s.connectionMap.lookup port.serviceDescription port.uniqueId = some i) ∧
        s.addSubscriber port = some (false, { s with connectionContainer := c })) ∨
      ∃ map c connection,
        s.connectionMap.enter port.serviceDescription port.uniqueId index = some map ∧
        connection.subscriberInfo = .ofPort port ∧
        (∀ p ∈ connection.publisherInfo, ∃ uniqueId,
          (port.serviceDescription.order, uniqueId, p) ∈ s.publisherMap.cells) ∧
        Put s.connectionContainer connection index c ∧
        s.addSubscriber port = some (true, { s with
          connectionMap := map
          connectionContainer := c })) := by
  unfold PortData.addSubscriber
  rcases add_cases h.connections.ok (.ofPort port) with
    ⟨hfull, hadd⟩ | ⟨index, c, hadd, hput⟩
  · rw [hadd]
    exact Or.inl ⟨hfull, rfl⟩
  · rw [hadd]
    refine Or.inr ⟨index, ?_⟩
    rw [Option.map_some]
    cases henter : s.connectionMap.enter port.serviceDescription port.uniqueId index with
    | none =>
      simp only [henter]
      exact Or.inl ⟨c, hput, PortMap.enter_eq_none.mp henter, rfl⟩
    | some map =>
      simp only [henter]
      cases hfind : s.publisherMap.find port.serviceDescription.order with
      | none =>
        exact Or.inr ⟨map, c, .ofPort port, rfl, rfl,
          fun p hp => absurd hp (Option.not_mem_none p), hput, rfl⟩
      | some inner =>
        obtain ⟨connection, hinfo, hpublisher, hput⟩ :=
          put_publisherInfo hput s.publisherContainer inner.entries
        refine Or.inr ⟨map, _, connection, rfl, hinfo, fun p hp => ?_, hput, rfl⟩
        obtain ⟨⟨uniqueId, i⟩, hpair, rfl, -⟩ := hpublisher p hp
        exact ⟨uniqueId, PortMap.mem_cells.mpr ⟨inner, hfind, SortedMap.mem_iff_find.mp hpair⟩⟩

theorem Booked.removePublisher (h : Booked s) (port : MemberType) :
    (s.publisherMap.lookup port.serviceDescription port.uniqueId = none ∧
      s.removePublisher port = (false, s)) ∨
    ∃ index, s.publisherMap.lookup port.serviceDescription port.uniqueId = some index ∧
      s.removePublisher port = (true, { s with
        publisherMap := s.publisherMap.leave port.serviceDescription port.uniqueId
        publisherContainer := s.publisherContainer.remove index
        newData := true }) := by
  unfold PortData.removePublisher
  cases hlookup : s.publisherMap.lookup port.serviceDescription port.uniqueId with
  | none => exact Or.inl ⟨rfl, rfl⟩
  | some index =>
    obtain ⟨v, hv, -⟩ := h.publishers.held _ _ _ (PortMap.lookup_eq_some.mp hlookup)
    dsimp only
    rw [hv.value_eq, h.unlinked index v hv]
    exact Or.inr ⟨index, rfl, rfl⟩

theorem Booked.removeSubscriber (h : Booked s) (port : MemberType) :
    (s.connectionMap.lookup port.serviceDescription port.uniqueId = none ∧
      s.removeSubscriber port = (false, s)) ∨
    ∃ index publishers,
      s.connectionMap.lookup port.serviceDescription port.uniqueId = some index ∧
      Changed (fun _ => Renumbered) s.publisherContainer publishers ∧
      s.removeSubscriber port = (true, { s with
        connectionMap := s.connectionMap.leave port.serviceDescription port.uniqueId
        connectionContainer := s.connectionContainer.remove index
        publisherContainer := publishers
        newData := true }) := by
  have hrefl : Changed (fun _ => Renumbered) s.publisherContainer s.publisherContainer :=
    Changed.refl h.publishers.ok fun _ _ => ⟨rfl, rfl, id⟩
  unfold PortData.removeSubscriber
  cases hlookup : s.connectionMap.lookup port.serviceDescription port.uniqueId with
  | none => exact Or.inl ⟨rfl, rfl⟩
  | some index =>
    refine Or.inr ⟨index, _, rfl, ?_, rfl⟩
    split
    · exact hrefl
    · refine hrefl.modify _ _ fun v w _ hr => ⟨hr.1, hr.2.1, fun hnil => ?_⟩
      change w.connectionMap.entries.eraseP _ = []
      rw [hr.2.2 hnil]
      rfl

theorem prepareTopic_changed (h : Booked s) :
    Changed (fun _ => Renumbered) s.publisherContainer s.prepareTopic.2.publisherContainer :=
  foldl_invariant (I := Changed _ s.publisherContainer) _ _
    (fun _ numbered _ hc => hc.modify numbered.1 _ fun _ _ _ hr => hr)
    (Changed.refl h.publishers.ok fun _ _ => ⟨rfl, rfl, id⟩)

theorem setState_changed (h : Booked s) (policy : CommunicationPolicy)
    (messageType : CaproMessageType) (pairs : List (Nat × Nat)) :
    Changed (fun _ => Restated) s.connectionContainer
      (pairs.foldl (fun c pair => setState policy messageType pair.2 c) s.connectionContainer) :=
  foldl_invariant (I := Changed _ s.connectionContainer) pairs _
    (fun _ pair _ hc => hc.modify pair.2 _ fun _ _ _ hr => hr)
    (Changed.refl h.connections.ok fun _ _ => ⟨rfl, rfl⟩)

theorem Booked.updateConnectionState (h : Booked s) (policy : CommunicationPolicy)
    (message : CaproMessage) :
    (s.updateConnectionState policy message).2 = s ∨
    ∃ c, Changed (fun _ => Restated) s.connectionContainer c ∧
      (s.updateConnectionState policy message).2 = { s with
        connectionContainer := c
        newData := true } := by
  unfold PortData.updateConnectionState
  cases s.connectionMap.find message.serviceDescription.order with
  | none => exact Or.inl rfl
  | some inner => exact Or.inr ⟨_, setState_changed h policy message.type inner.entries, rfl⟩

theorem Booked.updateSubscriberConnectionState (h : Booked s) (policy : CommunicationPolicy)
    (message : CaproMessage) (uniqueId : Nat) :
    (s.updateSubscriberConnectionState policy message uniqueId).2 = s ∨
    ∃ c, Changed (fun _ => Restated) s.connectionContainer c ∧
      (s.updateSubscriberConnectionState policy message uniqueId).2 = { s with
        connectionContainer := c
        newData := true } := by
  unfold PortData.updateSubscriberConnectionState
  cases s.connectionMap.lookup message.serviceDescription uniqueId with
  | none => exact Or.inl rfl
  | some index => exact Or.inr ⟨_, setState_changed h policy message.type [(uniqueId, index)], rfl⟩

theorem Booked.report (h : Booked s) {c : FixedSizeContainer ConnectionInfo}
    (hc : Changed (fun _ => Restated) s.connectionContainer c) (newData : Bool) :
    Booked { s with connectionContainer := c, newData := newData } where
  publishers := h.publishers
  connections := (h.connections.changed hc fun _ _ _ hr => by rw [hr.1]).1
  unlinked := h.unlinked

theorem Booked.renumber (h : Booked s) {c : FixedSizeContainer PublisherInfo}
    (hc : Changed (fun _ => Renumbered) s.publisherContainer c) (newData : Bool) :
    Booked { s with publisherContainer := c, newData := newData } where
  publishers := (h.publishers.changed hc fun _ _ _ hr => by rw [hr.2.1]).1
  connections := h.connections
  unlinked := fun i w hw => by
    obtain ⟨v, hv, -, -, hnil⟩ := hc.holds i w hw
    exact hnil (h.unlinked i v hv)

theorem unlinked_put (h : Booked s) {c : FixedSizeContainer PublisherInfo} {index : Nat}
    (hput : Put s.publisherContainer (.ofPort port) index c) (i : Nat) (v : PublisherInfo)
    (hv : c.Holds i v) : v.connectionMap.entries = [] := by
  have hcases := (hput.holds i v).mp hv
  split at hcases
  · rw [hcases]
    rfl
  · exact h.unlinked i v hcases

theorem Booked.perform (h : Booked s) (policy : CommunicationPolicy) (op : Operation) :
    ∃ s', s.perform policy op = some s' ∧ Booked s' := by
  cases op with
  | addPublisher port =>
    rw [PortData.perform]
    rcases h.addPublisher port with ⟨-, heq⟩ | ⟨index, c, hput, hcases⟩
    · rw [heq]
      exact ⟨s, rfl, h⟩
    · rcases hcases with ⟨-, heq⟩ | ⟨map, connections, henter, hchanged, heq⟩
      · rw [heq]
        exact ⟨_, rfl, (h.publishers.put hput).1, h.connections, unlinked_put h hput⟩
      · rw [heq]
        exact ⟨_, rfl, (h.publishers.enter hput henter).1,
          (h.connections.changed hchanged fun _ _ _ hr => by rw [hr.1]).1, unlinked_put h hput⟩
  | addSubscriber port =>
    rw [PortData.perform]
    rcases h.addSubscriber port with ⟨-, heq⟩ | ⟨index, hcases⟩
    · rw [heq]
      exact ⟨s, rfl, h⟩
    · rcases hcases with ⟨c, hput, -, heq⟩ | ⟨map, c, connection, henter, hinfo, -, hput, heq⟩
      · rw [heq]
        exact ⟨_, rfl, h.publishers, (h.connections.put hput).1, h.unlinked⟩
      · rw [heq]
        refine ⟨_, rfl, h.publishers, ?_, h.unlinked⟩
        exact (h.connections.enter hput (by rw [hinfo]; exact henter)).1
  | removePublisher port =>
    rw [PortData.perform]
    rcases h.removePublisher port with ⟨-, heq⟩ | ⟨index, hlookup, heq⟩
    · rw [heq]
      exact ⟨s, rfl, h⟩
    · rw [heq]
      refine ⟨_, rfl, (h.publishers.leave hlookup).1, h.connections, fun i v hv => ?_⟩
      obtain ⟨-, -, hholds⟩ := h.publishers.ok.remove index
      exact h.unlinked i v ((hholds i v).mp hv).2
  | removeSubscriber port =>
    rw [PortData.perform]
    rcases h.removeSubscriber port with ⟨-, heq⟩ | ⟨index, publishers, hlookup, hchanged, heq⟩
    · rw [heq]
      exact ⟨s, rfl, h⟩
    · rw [heq]
      have hrenumber := h.renumber hchanged true
      exact ⟨_, rfl, hrenumber.publishers, (h.connections.leave hlookup).1, hrenumber.unlinked⟩
  | reportMessage message =>
    rw [PortData.perform]
    rcases h.updateConnectionState policy message with heq | ⟨c, hc, heq⟩
    · rw [heq]
      exact ⟨s, rfl, h⟩
    · rw [heq]
      exact ⟨_, rfl, h.report hc true⟩
  | reportMessageTo message uniqueId =>
    rw [PortData.perform]
    rcases h.updateSubscriberConnectionState policy message uniqueId with heq | ⟨c, hc, heq⟩
    · rw [heq]
      exact ⟨s, rfl, h⟩
    · rw [heq]
      exact ⟨_, rfl, h.report hc true⟩
  | prepareTopic => exact ⟨_, rfl, h.renumber (prepareTopic_changed h) false⟩

theorem start_booked (maxPublishers maxSubscribers : Nat) :
    Booked (start maxPublishers maxSubscribers) where
  publishers := ⟨FixedSizeContainer.ofCapacity_ok _, List.nodup_nil,
    fun _ _ _ hcell => absurd hcell List.not_mem_nil⟩
  connections := ⟨FixedSizeContainer.ofCapacity_ok _, List.nodup_nil,
    fun _ _ _ hcell => absurd hcell List.not_mem_nil⟩
  unlinked := fun _ _ hv => absurd hv (FixedSizeContainer.ofCapacity_holds _)

theorem Booked.run (h : Booked s) (policy : CommunicationPolicy) (ops : List Operation) :
    ∃ s', runSteps (PortData.perform policy) s ops = some s' := by
  obtain ⟨s', hrun, -⟩ := runSteps_total (fun s op hs => Booked.perform hs policy op) ops s h
  exact ⟨s', hrun⟩

end PortData

end Iceoryx.Roudi.PortIntrospection
