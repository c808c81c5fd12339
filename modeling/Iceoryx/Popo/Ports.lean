import Iceoryx.Capro.Message

namespace Iceoryx.Popo

open Capro

inductive ConsumerTooSlowPolicy
  | waitForConsumer | discardOldestData
  deriving DecidableEq, Repr

inductive QueueFullPolicy
  | blockProducer | discardOldestData
  deriving DecidableEq, Repr

inductive ErrorLevel
  | fatal | severe | moderate
  deriving DecidableEq, Repr

inductive PoshError
  | popoCaproProtocolError
  | popoChunkDistributorOverflowOfQueueContainer
  | popoServerPortNoClientResponseQueueToConnect
  | portManagerHandlePublisherPortsInvalidCaproMessage
  | portManagerHandleSubscriberPortsInvalidCaproMessage
  | portManagerHandleClientPortsInvalidCaproMessage
  | portManagerHandleServerPortsInvalidCaproMessage
  | portManagerPublisherportNotUnique
  | portManagerServerportNotUnique
  | portManagerInternalServiceDescriptionIsForbidden
  | portManagerCouldNotAddServiceToRegistry
  | portPoolPublisherlistOverflow
  | portPoolSubscriberlistOverflow
  | portPoolClientlistOverflow
  | portPoolServerlistOverflow
  | portPoolInterfacelistOverflow
  | portPoolNodelistOverflow
  | portPoolConditionVariableListOverflow
  | interfaceportCaproMessageDismissed
  deriving DecidableEq, Repr

inductive Failure
  | error (e : PoshError) (level : ErrorLevel)
  | contract
  deriving DecidableEq, Repr

def Failure.caproProtocolError (level : ErrorLevel) : Failure :=
  .error .popoCaproProtocolError level

/-- What a port does with a message: its new data, a possible response, and what
it reported on the way. -/
structure Reaction (P : Type) where
  port : P
  response : Option CaproMessage := none
  failures : List Failure := []

structure BasePortData where
  serviceDescription : ServiceDescription
  runtimeName : String
  nodeName : String
  toBeDestroyed : Bool := false
  deriving DecidableEq, Repr

def tryAddQueue (maxQueues : Nat) (queues : List QueuePtr) (queueToAdd : QueuePtr) :
    Option (List QueuePtr) :=
  if queueToAdd ∈ queues then some queues
  else if queues.length < maxQueues then some (queues ++ [queueToAdd])
  else none

def tryRemoveQueue (queues : List QueuePtr) (queueToRemove : QueuePtr) : Option (List QueuePtr) :=
  if queueToRemove ∈ queues then some (queues.erase queueToRemove) else none

def overflowOfQueueContainer : Failure :=
  .error .popoChunkDistributorOverflowOfQueueContainer .moderate

inductive ConnectionState
  | notConnected | connectRequested | connected | disconnectRequested | waitForOffer
  deriving DecidableEq, Repr

structure ClientOptions where
  responseQueueCapacity : Nat := 16
  nodeName : String := ""
  connectOnCreate : Bool := true
  responseQueueFullPolicy : QueueFullPolicy := .discardOldestData
  serverTooSlowPolicy : ConsumerTooSlowPolicy := .discardOldestData
  deriving DecidableEq, Repr

structure ClientPortData extends BasePortData where
  consumerTooSlowPolicy : ConsumerTooSlowPolicy
  queueFullPolicy : QueueFullPolicy
  connectRequested : Bool
  connectionState : ConnectionState := .notConnected
  queues : List QueuePtr := []
  deriving DecidableEq, Repr

namespace ClientPortData

def maxQueues : Nat := 1

def create (service : ServiceDescription) (runtimeName : String) (options : ClientOptions) :
    ClientPortData where
  serviceDescription := service
  runtimeName := runtimeName
  nodeName := options.nodeName
  consumerTooSlowPolicy := options.serverTooSlowPolicy
  queueFullPolicy := options.responseQueueFullPolicy
  connectRequested := options.connectOnCreate

def handleCaProProtocolViolation (c : ClientPortData) : Reaction ClientPortData :=
  { port := c, failures := [.caproProtocolError .severe] }

def connectMessage (self : Nat) (c : ClientPortData) : CaproMessage where
  type := .connect
  serviceDescription := c.serviceDescription
  chunkQueueData := some (.client self)

def disconnectMessage (self : Nat) (c : ClientPortData) : CaproMessage where
  type := .disconnect
  serviceDescription := c.serviceDescription
  chunkQueueData := some (.client self)

def handleCaProMessageForStateNotConnected (self : Nat) (c : ClientPortData) (m : CaproMessage) :
    Reaction ClientPortData :=
  match m.type with
  | .connect =>
    { port := { c with connectionState := .connectRequested }
      response := some (connectMessage self c) }
  | .offer => { port := c }
  | _ => c.handleCaProProtocolViolation

def handleCaProMessageForStateConnectRequested (c : ClientPortData) (m : CaproMessage) :
    Reaction ClientPortData :=
  match m.type with
  | .ack =>
    match m.chunkQueueData with
    | none => { port := c, failures := [.contract] }
    | some q =>
      match tryAddQueue maxQueues c.queues q with
      | some queues => { port := { c with queues := queues, connectionState := .connected } }
      | none => { port := c, failures := [overflowOfQueueContainer, .contract] }
  | .nack => { port := { c with connectionState := .waitForOffer } }
  | _ => c.handleCaProProtocolViolation

def handleCaProMessageForStateWaitForOffer (self : Nat) (c : ClientPortData) (m : CaproMessage) :
    Reaction ClientPortData :=
  match m.type with
  | .offer =>
    { port := { c with connectionState := .connectRequested }
      response := some (connectMessage self c) }
  | .disconnect => { port := { c with connectionState := .notConnected } }
  | _ => c.handleCaProProtocolViolation

def handleCaProMessageForStateConnected (self : Nat) (c : ClientPortData) (m : CaproMessage) :
    Reaction ClientPortData :=
  match m.type with
  | .stopOffer => { port := { c with connectionState := .waitForOffer, queues := [] } }
  | .disconnect =>
    { port := { c with connectionState := .disconnectRequested, queues := [] }
      response := some (disconnectMessage self c) }
  | _ => c.handleCaProProtocolViolation

def handleCaProMessageForStateDisconnectRequested (c : ClientPortData) (m : CaproMessage) :
    Reaction ClientPortData :=
  match m.type with
  | .ack | .nack => { port := { c with connectionState := .notConnected } }
  | _ => c.handleCaProProtocolViolation

def dispatchCaProMessageAndGetPossibleResponse (self : Nat) (c : ClientPortData)
    (m : CaproMessage) : Reaction ClientPortData :=
  match c.connectionState with
  | .notConnected => c.handleCaProMessageForStateNotConnected self m
  | .connectRequested => c.handleCaProMessageForStateConnectRequested m
  | .waitForOffer => c.handleCaProMessageForStateWaitForOffer self m
  | .connected => c.handleCaProMessageForStateConnected self m
  | .disconnectRequested => c.handleCaProMessageForStateDisconnectRequested m

def tryGetCaProMessage (self : Nat) (c : ClientPortData) : Reaction ClientPortData :=
  match c.connectionState with
  | .notConnected =>
    if c.connectRequested then
      c.dispatchCaProMessageAndGetPossibleResponse self
        { type := .connect, serviceDescription := c.serviceDescription }
    else { port := c }
  | .waitForOffer | .connected =>
    if c.connectRequested then { port := c }
    else c.dispatchCaProMessageAndGetPossibleResponse self
        { type := .disconnect, serviceDescription := c.serviceDescription }
  | .connectRequested | .disconnectRequested => { port := c }

def disconnect (c : ClientPortData) : ClientPortData := { c with connectRequested := false }

end ClientPortData

structure ServerOptions where
  requestQueueCapacity : Nat := 1024
  nodeName : String := ""
  offerOnCreate : Bool := true
  requestQueueFullPolicy : QueueFullPolicy := .discardOldestData
  clientTooSlowPolicy : ConsumerTooSlowPolicy := .discardOldestData
  deriving DecidableEq, Repr

structure ServerPortData extends BasePortData where
  consumerTooSlowPolicy : ConsumerTooSlowPolicy
  queueFullPolicy : QueueFullPolicy
  offeringRequested : Bool
  offered : Bool := false
  queues : List QueuePtr := []
  deriving DecidableEq, Repr

namespace ServerPortData

def create (service : ServiceDescription) (runtimeName : String) (options : ServerOptions) :
    ServerPortData where
  serviceDescription := service
  runtimeName := runtimeName
  nodeName := options.nodeName
  consumerTooSlowPolicy := options.clientTooSlowPolicy
  queueFullPolicy := options.requestQueueFullPolicy
  offeringRequested := options.offerOnCreate

def handleCaProProtocolViolation (s : ServerPortData) : Reaction ServerPortData :=
  { port := s, failures := [.caproProtocolError .severe] }

def nackMessage (s : ServerPortData) : CaproMessage :=
  { type := .nack, serviceDescription := s.serviceDescription }

def ackMessage (self : Nat) (s : ServerPortData) : CaproMessage :=
  { type := .ack, serviceDescription := s.serviceDescription,
    chunkQueueData := some (.server self) }

def handleCaProMessageForStateOffered (maxClients self : Nat) (s : ServerPortData)
    (m : CaproMessage) : Reaction ServerPortData :=
  match m.type with
  | .stopOffer => { port := { s with offered := false, queues := [] }, response := some m }
  | .offer => { port := s, response := some s.nackMessage }
  | .connect =>
    match m.chunkQueueData with
    | none =>
      { port := s, response := some s.nackMessage,
        failures := [.error .popoServerPortNoClientResponseQueueToConnect .moderate] }
    | some q =>
      match tryAddQueue maxClients s.queues q with
      | some queues => { port := { s with queues := queues }, response := some (s.ackMessage self) }
      | none =>
        { port := s, response := some s.nackMessage, failures := [overflowOfQueueContainer] }
  | .disconnect =>
    match m.chunkQueueData with
    | none => { port := s, failures := [.contract] }
    | some q =>
      match tryRemoveQueue s.queues q with
      | some queues =>
        { port := { s with queues := queues }
          response := some { type := .ack, serviceDescription := s.serviceDescription } }
      | none => { port := s, response := some s.nackMessage }
  | _ => s.handleCaProProtocolViolation

def handleCaProMessageForStateNotOffered (s : ServerPortData) (m : CaproMessage) :
    Reaction ServerPortData :=
  match m.type with
  | .offer => { port := { s with offered := true }, response := some m }
  | .stopOffer | .connect | .disconnect => { port := s, response := some s.nackMessage }
  | _ => s.handleCaProProtocolViolation

def dispatchCaProMessageAndGetPossibleResponse (maxClients self : Nat) (s : ServerPortData)
    (m : CaproMessage) : Reaction ServerPortData :=
  if s.offered then s.handleCaProMessageForStateOffered maxClients self m
  else s.handleCaProMessageForStateNotOffered m

def tryGetCaProMessage (maxClients self : Nat) (s : ServerPortData) : Reaction ServerPortData :=
  if s.offered then
    if s.offeringRequested then { port := s }
    else s.dispatchCaProMessageAndGetPossibleResponse maxClients self
      { type := .stopOffer, serviceDescription := s.serviceDescription, serviceType := .server }
  else
    if s.offeringRequested then s.dispatchCaProMessageAndGetPossibleResponse maxClients self
      { type := .offer, serviceDescription := s.serviceDescription, serviceType := .server }
    else { port := s }

def stopOffer (s : ServerPortData) : ServerPortData := { s with offeringRequested := false }

end ServerPortData

structure PublisherOptions where
  historyCapacity : Nat := 0
  nodeName : String := ""
  offerOnCreate : Bool := true
  subscriberTooSlowPolicy : ConsumerTooSlowPolicy := .discardOldestData
  deriving DecidableEq, Repr

structure PublisherPortData extends BasePortData where
  options : PublisherOptions
  /-- `m_historyCapacity` of the distributor, already limited to its maximum. -/
  historyCapacity : Nat
  offeringRequested : Bool
  offered : Bool := false
  queues : List QueuePtr := []
  deriving DecidableEq, Repr

namespace PublisherPortData

def create (maxHistory : Nat) (service : ServiceDescription) (runtimeName : String)
    (options : PublisherOptions) : PublisherPortData where
  serviceDescription := service
  runtimeName := runtimeName
  nodeName := options.nodeName
  options := options
  historyCapacity := min options.historyCapacity maxHistory
  offeringRequested := options.offerOnCreate

def tryGetCaProMessage (p : PublisherPortData) : Reaction PublisherPortData :=
  if p.offeringRequested && !p.offered then
    { port := { p with offered := true }
      response := some
        { type := .offer, serviceDescription := p.serviceDescription, serviceType := .publisher,
          historyCapacity := p.historyCapacity } }
  else if !p.offeringRequested && p.offered then
    { port := { p with offered := false, queues := [] }
      response := some
        { type := .stopOffer, serviceDescription := p.serviceDescription,
          serviceType := .publisher } }
  else { port := p }

def dispatchCaProMessageAndGetPossibleResponse (maxSubscribers : Nat) (p : PublisherPortData)
    (m : CaproMessage) : Reaction PublisherPortData :=
  let nack : CaproMessage := { type := .nack, serviceDescription := p.serviceDescription }
  let ack : CaproMessage := { nack with type := .ack }
  if p.offered then
    match m.type, m.chunkQueueData with
    | .sub, some q =>
      match tryAddQueue maxSubscribers p.queues q with
      | some queues => { port := { p with queues := queues }, response := some ack }
      | none => { port := p, response := some nack, failures := [overflowOfQueueContainer] }
    | .unsub, some q =>
      match tryRemoveQueue p.queues q with
      | some queues => { port := { p with queues := queues }, response := some ack }
      | none => { port := p, response := some nack }
    -- the queue pointer is a `not_null`
    | .sub, none | .unsub, none => { port := p, response := some nack, failures := [.contract] }
    | _, _ => { port := p, response := some nack, failures := [.caproProtocolError .severe] }
  else { port := p, response := some nack }

def stopOffer (p : PublisherPortData) : PublisherPortData := { p with offeringRequested := false }

end PublisherPortData

inductive SubscribeState
  | notSubscribed | subscribeRequested | subscribed | unsubscribeRequested | waitForOffer
  deriving DecidableEq, Repr

inductive CommunicationPolicy
  | oneToMany | manyToMany
  deriving DecidableEq, Repr

structure SubscriberOptions where
  queueCapacity : Nat := 256
  historyRequest : Nat := 0
  nodeName : String := ""
  subscribeOnCreate : Bool := true
  queueFullPolicy : QueueFullPolicy := .discardOldestData
  requiresPublisherHistorySupport : Bool := false
  deriving DecidableEq, Repr

structure SubscriberPortData extends BasePortData where
  options : SubscriberOptions
  subscribeRequested : Bool
  subscriptionState : SubscribeState := .notSubscribed
  deriving DecidableEq, Repr

namespace SubscriberPortData

def create (service : ServiceDescription) (runtimeName : String) (options : SubscriberOptions) :
    SubscriberPortData where
  serviceDescription := service
  runtimeName := runtimeName
  nodeName := options.nodeName
  options := options
  subscribeRequested := options.subscribeOnCreate

def subMessage (self : Nat) (s : SubscriberPortData) : CaproMessage where
  type := .sub
  serviceDescription := s.serviceDescription
  chunkQueueData := some (.subscriber self)
  historyCapacity := s.options.historyRequest

def unsubMessage (self : Nat) (s : SubscriberPortData) : CaproMessage where
  type := .unsub
  serviceDescription := s.serviceDescription
  chunkQueueData := some (.subscriber self)

def toState (s : SubscriberPortData) (state : SubscribeState) : SubscriberPortData :=
  { s with subscriptionState := state }

def tryGetCaProMessageSingle (self : Nat) (s : SubscriberPortData) : Reaction SubscriberPortData :=
  match s.subscribeRequested, s.subscriptionState with
  | true, .notSubscribed =>
    { port := s.toState .subscribeRequested, response := some (s.subMessage self) }
  | false, .subscribed =>
    { port := s.toState .unsubscribeRequested, response := some (s.unsubMessage self) }
  | false, .waitForOffer => { port := s.toState .notSubscribed }
  | _, _ => { port := s }

def dispatchSingle (self : Nat) (s : SubscriberPortData) (m : CaproMessage) :
    Reaction SubscriberPortData :=
  match m.type, s.subscriptionState with
  | .offer, .waitForOffer =>
    { port := s.toState .subscribeRequested, response := some (s.subMessage self) }
  | .stopOffer, .subscribed => { port := s.toState .waitForOffer }
  | .ack, .subscribeRequested => { port := s.toState .subscribed }
  | .ack, .unsubscribeRequested => { port := s.toState .notSubscribed }
  | .nack, .subscribeRequested => { port := s.toState .waitForOffer }
  | .nack, .unsubscribeRequested => { port := s.toState .notSubscribed }
  | .ack, _ | .nack, _ => { port := s, failures := [.caproProtocolError .moderate] }
  | .offer, .notSubscribed | .stopOffer, .notSubscribed => { port := s }
  | _, _ => { port := s, failures := [.caproProtocolError .severe] }

def tryGetCaProMessageMulti (self : Nat) (s : SubscriberPortData) : Reaction SubscriberPortData :=
  match s.subscribeRequested, s.subscriptionState with
  | true, .notSubscribed => { port := s.toState .subscribed, response := some (s.subMessage self) }
  | false, .subscribed =>
    { port := s.toState .notSubscribed, response := some (s.unsubMessage self) }
  | _, _ => { port := s }

def dispatchMulti (self : Nat) (s : SubscriberPortData) (m : CaproMessage) :
    Reaction SubscriberPortData :=
  match m.type, s.subscriptionState with
  | .offer, .subscribed => { port := s, response := some (s.subMessage self) }
  | .offer, .notSubscribed => { port := s }
  | .ack, _ | .nack, _ | .stopOffer, _ => { port := s }
  | _, _ => { port := s, failures := [.caproProtocolError .severe] }

/-- `SubscriberPortType` is chosen by the communication policy of the build. -/
def tryGetCaProMessage (policy : CommunicationPolicy) (self : Nat) (s : SubscriberPortData) :
    Reaction SubscriberPortData :=
  match policy with
  | .oneToMany => s.tryGetCaProMessageSingle self
  | .manyToMany => s.tryGetCaProMessageMulti self

def dispatchCaProMessageAndGetPossibleResponse (policy : CommunicationPolicy) (self : Nat)
    (s : SubscriberPortData) (m : CaproMessage) : Reaction SubscriberPortData :=
  match policy with
  | .oneToMany => s.dispatchSingle self m
  | .manyToMany => s.dispatchMulti self m

def unsubscribe (s : SubscriberPortData) : SubscriberPortData :=
  { s with subscribeRequested := false }

end SubscriberPortData

structure InterfacePortData extends BasePortData where
  caproMessageFiFo : List CaproMessage := []
  doInitialOfferForward : Bool := true
  deriving DecidableEq, Repr

namespace InterfacePortData

def create (runtimeName : String) (interface : Interfaces) : InterfacePortData where
  serviceDescription :=
    { serviceString := "", instanceString := "", eventString := "", interfaceSource := interface }
  runtimeName := runtimeName
  nodeName := ""

def dispatchCaProMessage (fifoSize : Nat) (p : InterfacePortData) (m : CaproMessage) :
    Reaction InterfacePortData :=
  let messageInterface := m.serviceDescription.interfaceSource
  let myInterface := p.serviceDescription.interfaceSource
  if myInterface ≠ .internal ∧ myInterface = messageInterface then { port := p }
  else if p.caproMessageFiFo.length < fifoSize then
    { port := { p with caproMessageFiFo := p.caproMessageFiFo ++ [m] } }
  else { port := p, failures := [.error .interfaceportCaproMessageDismissed .severe] }

end InterfacePortData

structure NodeData where
  runtimeName : String
  nodeName : String
  nodeDeviceIdentifier : Nat
  toBeDestroyed : Bool := false
  deriving DecidableEq, Repr

structure ConditionVariableData where
  runtimeName : String
  toBeDestroyed : Bool := false
  deriving DecidableEq, Repr

end Iceoryx.Popo
