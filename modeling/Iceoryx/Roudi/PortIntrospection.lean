import Mathlib.Data.Prod.Lex
import Mathlib.Data.String.Basic
import Mathlib.Order.OrderDual
import Iceoryx.Lib.Fold
import Iceoryx.Lib.SortedMap
import Iceoryx.Popo.Ports
import Iceoryx.Roudi.FixedSizeContainer

namespace Iceoryx

namespace Capro.ServiceDescription

/-- `operator<`, which has the greater string first. -/
def Less (d rhs : ServiceDescription) : Prop :=
  if d.serviceString ≠ rhs.serviceString then rhs.serviceString < d.serviceString
  else if d.instanceString ≠ rhs.instanceString then rhs.instanceString < d.instanceString
  else rhs.eventString < d.eventString

abbrev Order := (String ×ₗ String ×ₗ String)ᵒᵈ

def order (d : ServiceDescription) : Order :=
  OrderDual.toDual (toLex (d.serviceString, toLex (d.instanceString, d.eventString)))

variable {d rhs : ServiceDescription}

theorem order_lt : d.order < rhs.order ↔ d.Less rhs := by
  rw [order, order, OrderDual.toDual_lt_toDual, Prod.Lex.toLex_lt_toLex, Prod.Lex.toLex_lt_toLex,
    Less]
  dsimp only
  split
  · next hservice =>
    exact or_iff_left fun h => hservice h.1.symm
  · next hservice =>
    rw [not_not] at hservice
    rw [hservice]
    split
    · next hinstance =>
      simp only [lt_irrefl, false_or, true_and]
      exact or_iff_left fun h => hinstance h.1.symm
    · next hinstance =>
      rw [not_not] at hinstance
      rw [hinstance]
      simp only [lt_irrefl, false_or, true_and]

theorem order_eq : d.order = rhs.order ↔ d.Same rhs := by
  simp only [order, OrderDual.toDual_inj, toLex_inj, Prod.mk.injEq, same_iff, key]

end Capro.ServiceDescription

namespace Roudi.PortIntrospection

open Capro Lib
open Popo (CommunicationPolicy)

structure MemberType where
  runtimeName : String
  serviceDescription : ServiceDescription
  nodeName : String
  uniqueId : Nat
  deriving DecidableEq, Repr

inductive ConnectionState
  | default | subRequested | connected
  deriving DecidableEq, Repr

structure PublisherInfo where
  portData : Option MemberType := none
  process : String := ""
  service : ServiceDescription := ⟨"", "", "", [0, 0, 0, 0], .worldwide, .internal⟩
  node : String := ""
  connectionMap : SortedMap Nat Nat := .empty
  index : Int := -1

def PublisherInfo.ofPort (port : MemberType) : PublisherInfo where
  portData := port
  process := port.runtimeName
  service := port.serviceDescription
  node := port.nodeName

structure SubscriberInfo where
  portData : Option MemberType := none
  process : String := ""
  service : ServiceDescription := ⟨"", "", "", [0, 0, 0, 0], .worldwide, .internal⟩
  node : String := ""

def SubscriberInfo.ofPort (port : MemberType) : SubscriberInfo where
  portData := port
  process := port.runtimeName
  service := port.serviceDescription
  node := port.nodeName

/-- `publisherInfo` points to a slot of the publisher container. -/
structure ConnectionInfo where
  subscriberInfo : SubscriberInfo := {}
  publisherInfo : Option Nat := none
  state : ConnectionState := .default

def ConnectionInfo.ofPort (port : MemberType) : ConnectionInfo where
  subscriberInfo := .ofPort port

instance : Inhabited PublisherInfo := ⟨{}⟩
instance : Inhabited ConnectionInfo := ⟨{}⟩

abbrev PortMap := SortedMap ServiceDescription.Order (SortedMap Nat Nat)

structure PortData where
  publisherMap : PortMap := .empty
  connectionMap : PortMap := .empty
  publisherContainer : FixedSizeContainer PublisherInfo
  connectionContainer : FixedSizeContainer ConnectionInfo
  newData : Bool := true

def getNextState (policy : CommunicationPolicy) (currentState : ConnectionState)
    (messageType : CaproMessageType) : ConnectionState :=
  match policy, currentState, messageType with
  | .oneToMany, .default, .sub => .subRequested
  | .oneToMany, .subRequested, .ack => .connected
  | .oneToMany, .subRequested, .nack => .default
  | .oneToMany, .connected, .stopOffer => .default
  | .oneToMany, .connected, .unsub => .default
  | .manyToMany, .default, .sub => .connected
  | .manyToMany, .connected, .unsub => .default
  | _, currentState, _ => currentState

namespace PortMap

def lookup (map : PortMap) (service : ServiceDescription) (uniqueId : Nat) : Option Nat :=
  (map.find service.order).bind fun inner => inner.find uniqueId

def enter (map : PortMap) (service : ServiceDescription) (uniqueId index : Nat) :
    Option PortMap :=
  match map.find service.order with
  | none => some (map.insert service.order (.single uniqueId index))
  | some inner =>
    match inner.find uniqueId with
    | none => some (map.modify service.order fun inner => inner.insert uniqueId index)
    | some _ => none

def leave (map : PortMap) (service : ServiceDescription) (uniqueId : Nat) : PortMap :=
  map.modify service.order fun inner => inner.erase uniqueId

def cells (map : PortMap) : List (ServiceDescription.Order × Nat × Nat) :=
  map.entries.flatMap fun e => e.2.entries.map fun pair => (e.1, pair)

def indices (map : PortMap) : List Nat := map.cells.map fun cell => cell.2.2

end PortMap

namespace PortData

def start (maxPublishers maxSubscribers : Nat) : PortData where
  publisherContainer := .ofCapacity maxPublishers
  connectionContainer := .ofCapacity maxSubscribers

def setState (policy : CommunicationPolicy) (messageType : CaproMessageType) (index : Nat)
    (c : FixedSizeContainer ConnectionInfo) : FixedSizeContainer ConnectionInfo :=
  c.modify index fun connection =>
    { connection with state := getNextState policy connection.state messageType }

def updateConnectionState (policy : CommunicationPolicy) (message : CaproMessage) (s : PortData) :
    Bool × PortData :=
  match s.connectionMap.find message.serviceDescription.order with
  | none => (false, s)
  | some innerConnectionMap =>
    (true, { s with
      connectionContainer := innerConnectionMap.entries.foldl
        (fun c pair => setState policy message.type pair.2 c) s.connectionContainer
      newData := true })

def updateSubscriberConnectionState (policy : CommunicationPolicy) (message : CaproMessage)
    (uniqueId : Nat) (s : PortData) : Bool × PortData :=
  match s.connectionMap.lookup message.serviceDescription uniqueId with
  | none => (false, s)
  | some index =>
    (true, { s with
      connectionContainer := setState policy message.type index s.connectionContainer
      newData := true })

def connectSubscribers (service : ServiceDescription) (publisher : Option Nat)
    (pairs : List (Nat × Nat)) (c : FixedSizeContainer ConnectionInfo) :
    FixedSizeContainer ConnectionInfo :=
  pairs.foldl (fun c pair =>
    if service.Same (c.value pair.2).subscriberInfo.service then
      c.modify pair.2 fun connection => { connection with publisherInfo := publisher }
    else c) c

def addPublisher (port : MemberType) (s : PortData) : Option (Bool × PortData) :=
  (s.publisherContainer.add (.ofPort port)).map fun
    | (none, _) => (false, s)
    | (some index, publisherContainer) =>
      match s.publisherMap.enter port.serviceDescription port.uniqueId index with
      | none => (false, { s with publisherContainer := publisherContainer })
      | some publisherMap =>
        let publisher := publisherContainer.get index
        let connectionContainer :=
          match s.connectionMap.find port.serviceDescription.order with
          | none => s.connectionContainer
          | some innerConnectionMap =>
            connectSubscribers port.serviceDescription publisher innerConnectionMap.entries
              s.connectionContainer
        (true, { s with
          publisherMap := publisherMap
          publisherContainer := publisherContainer
          connectionContainer := connectionContainer
          newData := true })

/-- Of several publishers of the service the last one stays. -/
def addSubscriber (port : MemberType) (s : PortData) : Option (Bool × PortData) :=
  (s.connectionContainer.add (.ofPort port)).map fun
    | (none, _) => (false, s)
    | (some index, connectionContainer) =>
      match s.connectionMap.enter port.serviceDescription port.uniqueId index with
      | none => (false, { s with connectionContainer := connectionContainer })
      | some connectionMap =>
        let connectionContainer :=
          match s.publisherMap.find port.serviceDescription.order with
          | none => connectionContainer
          | some innerPublisherMap =>
            innerPublisherMap.entries.foldl (fun c pair =>
              c.modify index fun connection =>
                { connection with publisherInfo := s.publisherContainer.get pair.2 })
              connectionContainer
        (true, { s with
          connectionMap := connectionMap
          connectionContainer := connectionContainer })

def removePublisher (port : MemberType) (s : PortData) : Bool × PortData :=
  match s.publisherMap.lookup port.serviceDescription port.uniqueId with
  | none => (false, s)
  | some publisherIndex =>
    let publisher := s.publisherContainer.value publisherIndex
    (true, { s with
      publisherMap := s.publisherMap.leave port.serviceDescription port.uniqueId
      publisherContainer := s.publisherContainer.remove publisherIndex
      connectionContainer := publisher.connectionMap.entries.foldl (fun c pair =>
        c.modify pair.2 fun connection =>
          { connection with publisherInfo := none, state := .default }) s.connectionContainer
      newData := true })

def removeSubscriber (port : MemberType) (s : PortData) : Bool × PortData :=
  match s.connectionMap.lookup port.serviceDescription port.uniqueId with
  | none => (false, s)
  | some connectionIndex =>
    let connection := s.connectionContainer.value connectionIndex
    let publisherContainer :=
      match connection.publisherInfo with
      | none => s.publisherContainer
      | some publisher => s.publisherContainer.modify publisher fun info =>
          { info with connectionMap := info.connectionMap.erase connectionIndex }
    (true, { s with
      connectionMap := s.connectionMap.leave port.serviceDescription port.uniqueId
      connectionContainer := s.connectionContainer.remove connectionIndex
      publisherContainer := publisherContainer
      newData := true })

end PortData

structure SubscriberPortData where
  name : String
  caproInstanceID : String
  caproServiceID : String
  caproEventMethodID : String
  node : String
  deriving DecidableEq, Repr

structure PublisherPortData extends SubscriberPortData where
  publisherPortID : Nat
  sourceInterface : Interfaces
  deriving DecidableEq, Repr

structure PortIntrospectionFieldTopic where
  subscriberList : List SubscriberPortData
  publisherList : List PublisherPortData
  deriving DecidableEq, Repr

def PublisherInfo.toRow (info : PublisherInfo) : PublisherPortData where
  name := info.process
  caproInstanceID := info.service.instanceString
  caproServiceID := info.service.serviceString
  caproEventMethodID := info.service.eventString
  node := info.node
  publisherPortID := info.portData.elim 0 (·.uniqueId)
  sourceInterface := info.service.interfaceSource

def ConnectionInfo.toRow (connection : ConnectionInfo) : SubscriberPortData where
  name := connection.subscriberInfo.process
  caproInstanceID := connection.subscriberInfo.service.instanceString
  caproServiceID := connection.subscriberInfo.service.serviceString
  caproEventMethodID := connection.subscriberInfo.service.eventString
  node := connection.subscriberInfo.node

namespace PortData

def topic (s : PortData) : PortIntrospectionFieldTopic where
  subscriberList := (s.connectionMap.indices.map fun i =>
    (s.connectionContainer.value i).toRow).take s.connectionContainer.values.length
  publisherList := (s.publisherMap.indices.map fun i =>
    (s.publisherContainer.value i).toRow).take s.publisherContainer.values.length

def prepareTopic (s : PortData) : PortIntrospectionFieldTopic × PortData :=
  (s.topic, { s with
    publisherContainer := s.publisherMap.indices.zipIdx.foldl (fun c numbered =>
      c.modify numbered.1 fun info => { info with index := numbered.2 }) s.publisherContainer
    newData := false })

end PortData

inductive Operation
  | addPublisher (port : MemberType)
  | addSubscriber (port : MemberType)
  | removePublisher (port : MemberType)
  | removeSubscriber (port : MemberType)
  | reportMessage (message : CaproMessage)
  | reportMessageTo (message : CaproMessage) (uniqueId : Nat)
  | prepareTopic

def PortData.perform (policy : CommunicationPolicy) (s : PortData) : Operation → Option PortData
  | .addPublisher port => (s.addPublisher port).map Prod.snd
  | .addSubscriber port => (s.addSubscriber port).map Prod.snd
  | .removePublisher port => some (s.removePublisher port).2
  | .removeSubscriber port => some (s.removeSubscriber port).2
  | .reportMessage message => some (s.updateConnectionState policy message).2
  | .reportMessageTo message uniqueId =>
    some (s.updateSubscriberConnectionState policy message uniqueId).2
  | .prepareTopic => some s.prepareTopic.2

end Roudi.PortIntrospection

end Iceoryx
