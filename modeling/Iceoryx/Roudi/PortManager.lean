import Iceoryx.Popo.Ports
import Iceoryx.Roudi.FixedPositionContainer
import Iceoryx.Roudi.ServiceRegistry

namespace Iceoryx.Roudi

open Capro Popo

structure Config where
  maxPublishers : Nat
  maxSubscribers : Nat
  maxClients : Nat
  maxServers : Nat
  maxInterfaceNumber : Nat
  maxNodeNumber : Nat
  maxNumberOfConditionVariables : Nat
  maxSubscribersPerPublisher : Nat
  maxClientsPerServer : Nat
  maxPublisherHistory : Nat
  maxInterfaceCaproFifoSize : Nat
  numberOfInternalPublishers : Nat
  communicationPolicy : CommunicationPolicy
  deriving Repr

namespace Config

def serviceRegistryCapacity (cfg : Config) : Nat := cfg.maxPublishers + cfg.maxServers

end Config

def ipcChannelRoudiName : String := "roudi"

inductive PortPoolError
  | uniquePublisherPortAlreadyExists
  | internalServiceDescriptionIsForbidden
  | publisherPortListFull
  | subscriberPortListFull
  | interfacePortListFull
  | clientPortListFull
  | uniqueServerPortAlreadyExists
  | serverPortListFull
  | nodeDataListFull
  | conditionVariableListFull
  deriving DecidableEq, Repr

/-- What an OFFER or STOP_OFFER finds when its broadcast starts: the states of the
ports it is going to be sent to. -/
inductive Broadcast
  | toSubscribers (message : CaproMessageType) (states : List SubscribeState)
  | toClients (message : CaproMessageType) (states : List ConnectionState)
  deriving DecidableEq, Repr

/-- What `publishServiceRegistry` publishes, and the flag of the port that it sends with, if there
is one: a port that is not asked to offer keeps the chunk for its history. -/
structure RegistryPublication where
  registry : ServiceRegistry
  offeringRequested : Option Bool
  deriving DecidableEq, Repr

/-- The port pool and the data of the port manager.  `publications`, `failures` and
`broadcasts` only record what happened: no function reads them. -/
structure PortManager where
  publishers : FixedPositionContainer PublisherPortData := {}
  subscribers : FixedPositionContainer SubscriberPortData := {}
  clients : FixedPositionContainer ClientPortData := {}
  servers : FixedPositionContainer ServerPortData := {}
  interfaces : FixedPositionContainer InterfacePortData := {}
  nodes : FixedPositionContainer NodeData := {}
  conditionVariables : FixedPositionContainer ConditionVariableData := {}
  serviceRegistry : ServiceRegistry := {}
  serviceRegistryPublisherPortData : Option Nat := none
  publications : List RegistryPublication := []
  internalServices : List ServiceDescription := []
  failures : List Failure := []
  broadcasts : List Broadcast := []
  deriving DecidableEq, Repr

namespace PortManager

variable (cfg : Config)

def report (fs : List Failure) (pm : PortManager) : PortManager :=
  { pm with failures := pm.failures ++ fs }

def record (b : Broadcast) (pm : PortManager) : PortManager :=
  { pm with broadcasts := pm.broadcasts ++ [b] }

def expects (condition : Bool) : List Failure := if condition then [] else [.contract]

def setPublisher (i : Nat) (p : PublisherPortData) (pm : PortManager) : PortManager :=
  { pm with publishers := pm.publishers.modify i fun _ => p }

def setSubscriber (j : Nat) (s : SubscriberPortData) (pm : PortManager) : PortManager :=
  { pm with subscribers := pm.subscribers.modify j fun _ => s }

def setClient (i : Nat) (c : ClientPortData) (pm : PortManager) : PortManager :=
  { pm with clients := pm.clients.modify i fun _ => c }

def setServer (j : Nat) (s : ServerPortData) (pm : PortManager) : PortManager :=
  { pm with servers := pm.servers.modify j fun _ => s }

def sendToInterfacePort (m : CaproMessage) (pm : PortManager) (i : Nat) : PortManager :=
  match pm.interfaces.get i with
  | none => pm
  | some p =>
    if m.serviceDescription.interfaceSource ≠ p.serviceDescription.interfaceSource then
      let r := p.dispatchCaProMessage cfg.maxInterfaceCaproFifoSize m
      { pm with interfaces := pm.interfaces.modify i fun _ => r.port }.report r.failures
    else pm

def sendToAllMatchingInterfacePorts (m : CaproMessage) (pm : PortManager) : PortManager :=
  pm.interfaces.content.foldl (sendToInterfacePort cfg m) pm

def publishServiceRegistry (pm : PortManager) : PortManager :=
  { pm with publications := pm.publications ++
      [{ registry := pm.serviceRegistry
         offeringRequested := (pm.serviceRegistryPublisherPortData.bind pm.publishers.get).map
           (·.offeringRequested) }] }

def addToServiceRegistry (k : ReferenceCounter) (d : ServiceDescription) (pm : PortManager) :
    PortManager :=
  publishServiceRegistry
    (match pm.serviceRegistry.add cfg.serviceRegistryCapacity d k with
    | some r => { pm with serviceRegistry := r }
    | none => pm.report [.error .portManagerCouldNotAddServiceToRegistry .moderate])

def addPublisherToServiceRegistry (d : ServiceDescription) (pm : PortManager) : PortManager :=
  addToServiceRegistry cfg .publisherCount d pm

def addServerToServiceRegistry (d : ServiceDescription) (pm : PortManager) : PortManager :=
  addToServiceRegistry cfg .serverCount d pm

def removePublisherFromServiceRegistry (d : ServiceDescription) (pm : PortManager) : PortManager :=
  publishServiceRegistry { pm with serviceRegistry := pm.serviceRegistry.removePublisher d }

def removeServerFromServiceRegistry (d : ServiceDescription) (pm : PortManager) : PortManager :=
  publishServiceRegistry { pm with serviceRegistry := pm.serviceRegistry.removeServer d }

section publishServiceRegistry

variable (pm : PortManager)

@[simp] theorem publishers_publish : pm.publishServiceRegistry.publishers = pm.publishers := rfl

@[simp] theorem subscribers_publish : pm.publishServiceRegistry.subscribers = pm.subscribers := rfl

@[simp] theorem clients_publish : pm.publishServiceRegistry.clients = pm.clients := rfl

@[simp] theorem servers_publish : pm.publishServiceRegistry.servers = pm.servers := rfl

@[simp] theorem failures_publish : pm.publishServiceRegistry.failures = pm.failures := rfl

@[simp] theorem broadcasts_publish : pm.publishServiceRegistry.broadcasts = pm.broadcasts := rfl

end publishServiceRegistry

def isCompatiblePubSub (p : PublisherPortData) (s : SubscriberPortData) : Bool :=
  let blockingPoliciesAreCompatible :=
    !(p.options.subscriberTooSlowPolicy = .discardOldestData
      && s.options.queueFullPolicy = .blockProducer)
  let historyRequestIsCompatible :=
    !s.options.requiresPublisherHistorySupport || decide (0 < p.options.historyCapacity)
  decide (s.serviceDescription.Same p.serviceDescription)
    && (blockingPoliciesAreCompatible && historyRequestIsCompatible)

/-- The `break` that keeps a gateway from receiving its own messages. -/
def isCyclic (port message : ServiceDescription) : Bool :=
  decide (port.interfaceSource ≠ .internal)
    && decide (port.interfaceSource = message.interfaceSource)

def reachedPublishers (m : CaproMessage) (pm : PortManager) : List Nat :=
  pm.publishers.content.takeWhile fun i =>
    (pm.publishers.get i).all fun p => !isCyclic p.serviceDescription m.serviceDescription

def reachedSubscribers (m : CaproMessage) (pm : PortManager) : List Nat :=
  pm.subscribers.content.takeWhile fun j =>
    (pm.subscribers.get j).all fun s => !isCyclic s.serviceDescription m.serviceDescription

def sendToPublisherPort (m : CaproMessage) (j : Nat) (acc : PortManager × Bool) (i : Nat) :
    PortManager × Bool :=
  let (pm, _) := acc
  match pm.publishers.get i, pm.subscribers.get j with
  | some p, some s =>
    if isCompatiblePubSub p s then
      let r := p.dispatchCaProMessageAndGetPossibleResponse cfg.maxSubscribersPerPublisher m
      let pm := (pm.setPublisher i r.port).report r.failures
      match r.response with
      | none => (pm, true)
      | some response =>
        let r := s.dispatchCaProMessageAndGetPossibleResponse cfg.communicationPolicy j response
        ((pm.setSubscriber j r.port).report (r.failures ++ expects r.response.isNone), true)
    else acc
  | _, _ => acc

def sendToAllMatchingPublisherPorts (m : CaproMessage) (j : Nat) (pm : PortManager) :
    PortManager × Bool :=
  (reachedPublishers m pm).foldl (sendToPublisherPort cfg m j) (pm, false)

def sendToSubscriberPort (m : CaproMessage) (i : Nat) (pm : PortManager) (j : Nat) : PortManager :=
  match pm.publishers.get i, pm.subscribers.get j with
  | some p, some s =>
    if isCompatiblePubSub p s then
      let r := s.dispatchCaProMessageAndGetPossibleResponse cfg.communicationPolicy j m
      let pm := (pm.setSubscriber j r.port).report r.failures
      match r.response with
      | none => pm
      | some response =>
        let r' :=
          p.dispatchCaProMessageAndGetPossibleResponse cfg.maxSubscribersPerPublisher response
        let pm := (pm.setPublisher i r'.port).report
          (expects (m.type = CaproMessageType.offer) ++ r'.failures)
        match r'.response with
        | none => pm
        | some response =>
          let r'' :=
            r.port.dispatchCaProMessageAndGetPossibleResponse cfg.communicationPolicy j response
          (pm.setSubscriber j r''.port).report (r''.failures ++ expects r''.response.isNone)
    else pm
  | _, _ => pm

def matchingSubscribers (m : CaproMessage) (p : PublisherPortData) (pm : PortManager) :
    List SubscriberPortData :=
  ((reachedSubscribers m pm).filterMap pm.subscribers.get).filter (isCompatiblePubSub p)

def sendToAllMatchingSubscriberPorts (m : CaproMessage) (i : Nat) (pm : PortManager) :
    PortManager :=
  match pm.publishers.get i with
  | none => pm
  | some p =>
    (reachedSubscribers m pm).foldl (sendToSubscriberPort cfg m i)
      (pm.record (.toSubscribers m.type
        ((matchingSubscribers m p pm).map (·.subscriptionState))))

def forwardPublisherMessage (m : CaproMessage) (i : Nat) (pm : PortManager) : PortManager :=
  sendToAllMatchingInterfacePorts cfg m (sendToAllMatchingSubscriberPorts cfg m i pm)

def doDiscoveryForPublisherPort (i : Nat) (pm : PortManager) : PortManager :=
  match pm.publishers.get i with
  | none => pm
  | some p =>
    let r := p.tryGetCaProMessage
    let pm := (pm.setPublisher i r.port).report r.failures
    match r.response with
    | none => pm
    | some m =>
      match m.type with
      | .offer =>
        forwardPublisherMessage cfg m i (addPublisherToServiceRegistry cfg m.serviceDescription pm)
      | .stopOffer =>
        forwardPublisherMessage cfg m i
          (removePublisherFromServiceRegistry m.serviceDescription pm)
      | _ => pm.report [.error .portManagerHandlePublisherPortsInvalidCaproMessage .moderate]

def destroyPublisherPort (i : Nat) (pm : PortManager) : PortManager :=
  match pm.publishers.get i with
  | none => pm
  | some p =>
    let r := p.stopOffer.tryGetCaProMessage
    let pm := (pm.setPublisher i r.port).report r.failures
    let pm :=
      match r.response with
      | none => pm
      | some m =>
        forwardPublisherMessage cfg m i (removePublisherFromServiceRegistry m.serviceDescription
          (pm.report (expects (m.type = CaproMessageType.stopOffer))))
    { pm with publishers := pm.publishers.erase i }

def handlePublisherPort (pm : PortManager) (i : Nat) : PortManager :=
  let pm := doDiscoveryForPublisherPort cfg i pm
  if (pm.publishers.get i).any (·.toBeDestroyed) then destroyPublisherPort cfg i pm else pm

def handlePublisherPorts (pm : PortManager) : PortManager :=
  pm.publishers.content.foldl (handlePublisherPort cfg) pm

def nackSubscriber (j : Nat) (pm : PortManager) : PortManager :=
  match pm.subscribers.get j with
  | none => pm
  | some s =>
    let r := s.dispatchCaProMessageAndGetPossibleResponse cfg.communicationPolicy j
      { type := .nack, serviceDescription := s.serviceDescription }
    (pm.setSubscriber j r.port).report (r.failures ++ expects r.response.isNone)

def doDiscoveryForSubscriberPort (j : Nat) (pm : PortManager) : PortManager :=
  match pm.subscribers.get j with
  | none => pm
  | some s =>
    let r := s.tryGetCaProMessage cfg.communicationPolicy j
    let pm := (pm.setSubscriber j r.port).report r.failures
    match r.response with
    | none => pm
    | some m =>
      if m.type = .sub ∨ m.type = .unsub then
        let (pm, publisherFound) := sendToAllMatchingPublisherPorts cfg m j pm
        if publisherFound then pm else nackSubscriber cfg j pm
      else pm.report [.error .portManagerHandleSubscriberPortsInvalidCaproMessage .moderate]

def destroySubscriberPort (j : Nat) (pm : PortManager) : PortManager :=
  match pm.subscribers.get j with
  | none => pm
  | some s =>
    let r := s.unsubscribe.tryGetCaProMessage cfg.communicationPolicy j
    let pm := (pm.setSubscriber j r.port).report r.failures
    let pm :=
      match r.response with
      | none => pm
      | some m =>
        (sendToAllMatchingPublisherPorts cfg m j
          (pm.report (expects (m.type = CaproMessageType.unsub)))).1
    { pm with subscribers := pm.subscribers.erase j }

def handleSubscriberPort (pm : PortManager) (j : Nat) : PortManager :=
  let pm := doDiscoveryForSubscriberPort cfg j pm
  if (pm.subscribers.get j).any (·.toBeDestroyed) then destroySubscriberPort cfg j pm else pm

def handleSubscriberPorts (pm : PortManager) : PortManager :=
  pm.subscribers.content.foldl (handleSubscriberPort cfg) pm

def isCompatibleClientServer (s : ServerPortData) (c : ClientPortData) : Bool :=
  let requestMatch :=
    !(c.consumerTooSlowPolicy = .discardOldestData && s.queueFullPolicy = .blockProducer)
  let responseMatch :=
    !(s.consumerTooSlowPolicy = .discardOldestData && c.queueFullPolicy = .blockProducer)
  decide (s.serviceDescription.Same c.serviceDescription) && (requestMatch && responseMatch)

def sendToServerPort (m : CaproMessage) (i : Nat) (acc : PortManager × Bool) (j : Nat) :
    PortManager × Bool :=
  let (pm, _) := acc
  match pm.servers.get j, pm.clients.get i with
  | some s, some c =>
    if isCompatibleClientServer s c then
      let r := s.dispatchCaProMessageAndGetPossibleResponse cfg.maxClientsPerServer j m
      let pm := (pm.setServer j r.port).report r.failures
      match r.response with
      | none => (pm, true)
      | some response =>
        let r := c.dispatchCaProMessageAndGetPossibleResponse i response
        ((pm.setClient i r.port).report (r.failures ++ expects r.response.isNone), true)
    else acc
  | _, _ => acc

def sendToAllMatchingServerPorts (m : CaproMessage) (i : Nat) (pm : PortManager) :
    PortManager × Bool :=
  pm.servers.content.foldl (sendToServerPort cfg m i) (pm, false)

def sendToClientPort (m : CaproMessage) (j : Nat) (pm : PortManager) (i : Nat) : PortManager :=
  match pm.servers.get j, pm.clients.get i with
  | some s, some c =>
    if isCompatibleClientServer s c then
      let r := c.dispatchCaProMessageAndGetPossibleResponse i m
      let pm := (pm.setClient i r.port).report r.failures
      match r.response with
      | none => pm
      | some response =>
        let r' := s.dispatchCaProMessageAndGetPossibleResponse cfg.maxClientsPerServer j response
        let pm := (pm.setServer j r'.port).report
          (expects (response.type = CaproMessageType.connect) ++ r'.failures)
        match r'.response with
        | none => pm
        | some response =>
          let r'' := r.port.dispatchCaProMessageAndGetPossibleResponse i response
          (pm.setClient i r''.port).report (r''.failures ++ expects r''.response.isNone)
    else pm
  | _, _ => pm

def matchingClients (s : ServerPortData) (pm : PortManager) : List ClientPortData :=
  (pm.clients.content.filterMap pm.clients.get).filter (isCompatibleClientServer s)

def sendToAllMatchingClientPorts (m : CaproMessage) (j : Nat) (pm : PortManager) : PortManager :=
  match pm.servers.get j with
  | none => pm
  | some s =>
    pm.clients.content.foldl (sendToClientPort cfg m j)
      (pm.record (.toClients m.type ((matchingClients s pm).map (·.connectionState))))

def forwardServerMessage (m : CaproMessage) (j : Nat) (pm : PortManager) : PortManager :=
  sendToAllMatchingInterfacePorts cfg m (sendToAllMatchingClientPorts cfg m j pm)

def doDiscoveryForServerPort (j : Nat) (pm : PortManager) : PortManager :=
  match pm.servers.get j with
  | none => pm
  | some s =>
    let r := s.tryGetCaProMessage cfg.maxClientsPerServer j
    let pm := (pm.setServer j r.port).report r.failures
    match r.response with
    | none => pm
    | some m =>
      match m.type with
      | .offer =>
        forwardServerMessage cfg m j (addServerToServiceRegistry cfg m.serviceDescription pm)
      | .stopOffer =>
        forwardServerMessage cfg m j (removeServerFromServiceRegistry m.serviceDescription pm)
      | _ => pm.report [.error .portManagerHandleServerPortsInvalidCaproMessage .moderate]

def destroyServerPort (j : Nat) (pm : PortManager) : PortManager :=
  match pm.servers.get j with
  | none => pm
  | some s =>
    let r := s.stopOffer.tryGetCaProMessage cfg.maxClientsPerServer j
    let pm := (pm.setServer j r.port).report r.failures
    let pm :=
      match r.response with
      | none => pm
      | some m =>
        forwardServerMessage cfg m j (removeServerFromServiceRegistry m.serviceDescription
          (pm.report (expects (m.type = CaproMessageType.stopOffer) ++
            expects (m.serviceType = CaproServiceType.server))))
    { pm with servers := pm.servers.erase j }

def handleServerPort (pm : PortManager) (j : Nat) : PortManager :=
  let pm := doDiscoveryForServerPort cfg j pm
  if (pm.servers.get j).any (·.toBeDestroyed) then destroyServerPort cfg j pm else pm

def handleServerPorts (pm : PortManager) : PortManager :=
  pm.servers.content.foldl (handleServerPort cfg) pm

def nackClient (i : Nat) (pm : PortManager) : PortManager :=
  match pm.clients.get i with
  | none => pm
  | some c =>
    let r := c.dispatchCaProMessageAndGetPossibleResponse i
      { type := .nack, serviceDescription := c.serviceDescription }
    (pm.setClient i r.port).report (r.failures ++ expects r.response.isNone)

def doDiscoveryForClientPort (i : Nat) (pm : PortManager) : PortManager :=
  match pm.clients.get i with
  | none => pm
  | some c =>
    let r := c.tryGetCaProMessage i
    let pm := (pm.setClient i r.port).report r.failures
    match r.response with
    | none => pm
    | some m =>
      if m.type = .connect ∨ m.type = .disconnect then
        let (pm, serverFound) := sendToAllMatchingServerPorts cfg m i pm
        if serverFound then pm else nackClient i pm
      else pm.report [.error .portManagerHandleClientPortsInvalidCaproMessage .moderate]

def destroyClientPort (i : Nat) (pm : PortManager) : PortManager :=
  match pm.clients.get i with
  | none => pm
  | some c =>
    let r := c.disconnect.tryGetCaProMessage i
    let pm := (pm.setClient i r.port).report r.failures
    let pm :=
      match r.response with
      | none => pm
      | some m =>
        (sendToAllMatchingServerPorts cfg m i
          (pm.report (expects (m.type = CaproMessageType.disconnect)))).1
    { pm with clients := pm.clients.erase i }

def handleClientPort (pm : PortManager) (i : Nat) : PortManager :=
  let pm := doDiscoveryForClientPort cfg i pm
  if (pm.clients.get i).any (·.toBeDestroyed) then destroyClientPort cfg i pm else pm

def handleClientPorts (pm : PortManager) : PortManager :=
  pm.clients.content.foldl (handleClientPort cfg) pm

def removeInterfacePort (i : Nat) (pm : PortManager) : PortManager :=
  { pm with interfaces := pm.interfaces.erase i }

def removeNodeData (i : Nat) (pm : PortManager) : PortManager :=
  { pm with nodes := pm.nodes.erase i }

def removeConditionVariableData (i : Nat) (pm : PortManager) : PortManager :=
  { pm with conditionVariables := pm.conditionVariables.erase i }

def handleInterfacePort (acc : PortManager × List Nat) (i : Nat) : PortManager × List Nat :=
  let (pm, forwarding) := acc
  match pm.interfaces.get i with
  | none => acc
  | some p =>
    let forwarding := if p.doInitialOfferForward then forwarding ++ [i] else forwarding
    let pm := { pm with
      interfaces := pm.interfaces.modify i fun p => { p with doInitialOfferForward := false } }
    (if p.toBeDestroyed then removeInterfacePort i pm else pm, forwarding)

/-- The initial OFFER of one offered port for all new interfaces.  For a new interface that the
first loop has already destroyed the source writes to a stale pointer; here it is skipped. -/
def forwardInitialOffer (forwarding : List Nat) (serviceType : CaproServiceType)
    (pm : PortManager) (d : ServiceDescription) : PortManager :=
  forwarding.foldl (sendToInterfacePort cfg
    { type := .offer, serviceDescription := d, serviceType := serviceType }) pm

def handleInterfaces (pm : PortManager) : PortManager :=
  let (pm, forwarding) := pm.interfaces.content.foldl handleInterfacePort (pm, [])
  let offeredPublishers :=
    ((pm.publishers.content.filterMap pm.publishers.get).filter (·.offered)).map
      (·.serviceDescription)
  let offeredServers :=
    ((pm.servers.content.filterMap pm.servers.get).filter (·.offered)).map (·.serviceDescription)
  offeredServers.foldl (forwardInitialOffer cfg forwarding .server)
    (offeredPublishers.foldl (forwardInitialOffer cfg forwarding .publisher) pm)

def handleNode (pm : PortManager) (i : Nat) : PortManager :=
  if (pm.nodes.get i).any (·.toBeDestroyed) then removeNodeData i pm else pm

def handleNodes (pm : PortManager) : PortManager :=
  pm.nodes.content.foldl handleNode pm

def handleConditionVariable (pm : PortManager) (i : Nat) : PortManager :=
  if (pm.conditionVariables.get i).any (·.toBeDestroyed) then removeConditionVariableData i pm
  else pm

def handleConditionVariables (pm : PortManager) : PortManager :=
  pm.conditionVariables.content.foldl handleConditionVariable pm

def doDiscovery (pm : PortManager) : PortManager :=
  handleConditionVariables (handleNodes (handleInterfaces cfg (handleClientPorts cfg
    (handleServerPorts cfg (handleSubscriberPorts cfg (handlePublisherPorts cfg pm))))))

def stopOfferOfPublisher (pm : PortManager) (i : Nat) : PortManager :=
  doDiscoveryForPublisherPort cfg i
    { pm with publishers := pm.publishers.modify i PublisherPortData.stopOffer }

def stopOfferOfServer (pm : PortManager) (j : Nat) : PortManager :=
  doDiscoveryForServerPort cfg j
    { pm with servers := pm.servers.modify j ServerPortData.stopOffer }

def makeAllPublisherPortsToStopOffer (pm : PortManager) : PortManager :=
  pm.publishers.content.foldl (stopOfferOfPublisher cfg) pm

def makeAllServerPortsToStopOffer (pm : PortManager) : PortManager :=
  pm.servers.content.foldl (stopOfferOfServer cfg) pm

def unblockRouDiShutdown (pm : PortManager) : PortManager :=
  makeAllServerPortsToStopOffer cfg (makeAllPublisherPortsToStopOffer cfg pm)

def ifOwner (owner : PortManager → Nat → Option String) (runtimeName : String)
    (f : PortManager → Nat → PortManager) (pm : PortManager) (i : Nat) : PortManager :=
  if owner pm i = some runtimeName then f pm i else pm

def publisherOwner (pm : PortManager) (i : Nat) : Option String :=
  (pm.publishers.get i).map (·.runtimeName)

def subscriberOwner (pm : PortManager) (i : Nat) : Option String :=
  (pm.subscribers.get i).map (·.runtimeName)

def clientOwner (pm : PortManager) (i : Nat) : Option String :=
  (pm.clients.get i).map (·.runtimeName)

def serverOwner (pm : PortManager) (i : Nat) : Option String :=
  (pm.servers.get i).map (·.runtimeName)

def interfaceOwner (pm : PortManager) (i : Nat) : Option String :=
  (pm.interfaces.get i).map (·.runtimeName)

def nodeOwner (pm : PortManager) (i : Nat) : Option String :=
  (pm.nodes.get i).map (·.runtimeName)

def conditionVariableOwner (pm : PortManager) (i : Nat) : Option String :=
  (pm.conditionVariables.get i).map (·.runtimeName)

def unblockProcessShutdown (runtimeName : String) (pm : PortManager) : PortManager :=
  let pm := pm.publishers.content.foldl
    (ifOwner publisherOwner runtimeName (stopOfferOfPublisher cfg)) pm
  pm.servers.content.foldl (ifOwner serverOwner runtimeName (stopOfferOfServer cfg)) pm

def resetServiceRegistryPublisher (runtimeName : String) (pm : PortManager) : PortManager :=
  if runtimeName = ipcChannelRoudiName then { pm with serviceRegistryPublisherPortData := none }
  else pm

def deletePortsOfProcess (runtimeName : String) (pm : PortManager) : PortManager :=
  let pm := resetServiceRegistryPublisher runtimeName pm
  let pm := pm.publishers.content.foldl
    (ifOwner publisherOwner runtimeName fun pm i => destroyPublisherPort cfg i pm) pm
  let pm := pm.subscribers.content.foldl
    (ifOwner subscriberOwner runtimeName fun pm j => destroySubscriberPort cfg j pm) pm
  let pm := pm.servers.content.foldl
    (ifOwner serverOwner runtimeName fun pm j => destroyServerPort cfg j pm) pm
  let pm := pm.clients.content.foldl
    (ifOwner clientOwner runtimeName fun pm i => destroyClientPort cfg i pm) pm
  let pm := pm.interfaces.content.foldl
    (ifOwner interfaceOwner runtimeName fun pm i => removeInterfacePort i pm) pm
  let pm := pm.nodes.content.foldl
    (ifOwner nodeOwner runtimeName fun pm i => removeNodeData i pm) pm
  pm.conditionVariables.content.foldl
    (ifOwner conditionVariableOwner runtimeName fun pm i => removeConditionVariableData i pm) pm

/-- The loop of `doesViolateCommunicationPolicy` for the 1:n policy: the runtime that already
publishes the service, unless its port is about to be destroyed anyway. -/
def findPublisherInUse (service : ServiceDescription) :
    List Nat → PortManager → PortManager × Option String
  | [], pm => (pm, none)
  | i :: is, pm =>
    match pm.publishers.get i with
    | none => findPublisherInUse service is pm
    | some p =>
      if service.Same p.serviceDescription then
        if p.toBeDestroyed then findPublisherInUse service is (destroyPublisherPort cfg i pm)
        else (pm, some p.runtimeName)
      else findPublisherInUse service is pm

def doesViolateCommunicationPolicy (service : ServiceDescription) (pm : PortManager) :
    PortManager × Option String :=
  match cfg.communicationPolicy with
  | .oneToMany => findPublisherInUse cfg service pm.publishers.content pm
  | .manyToMany => (pm, none)

def isInternal (service : ServiceDescription) (pm : PortManager) : Bool :=
  pm.internalServices.any fun d => service.Same d

def addPublisherPort (service : ServiceDescription) (runtimeName : String)
    (options : PublisherOptions) (pm : PortManager) : PortManager × Except PortPoolError Nat :=
  if pm.publishers.hasFreeSpace cfg.maxPublishers then
    let (publishers, i) := pm.publishers.insert
      (PublisherPortData.create cfg.maxPublisherHistory service runtimeName options)
    ({ pm with publishers := publishers }, .ok i)
  else
    (pm.report [.error .portPoolPublisherlistOverflow .moderate], .error .publisherPortListFull)

def pushInternalService (service : ServiceDescription) (pm : PortManager) : PortManager :=
  if pm.internalServices.length < cfg.numberOfInternalPublishers then
    { pm with internalServices := pm.internalServices ++ [service] }
  else pm

def acquirePublisherPortDataWithoutDiscovery (service : ServiceDescription)
    (options : PublisherOptions) (runtimeName : String) (pm : PortManager) :
    PortManager × Except PortPoolError Nat :=
  let (pm, usedByProcess) := doesViolateCommunicationPolicy cfg service pm
  if usedByProcess.isSome then
    (pm.report [.error .portManagerPublisherportNotUnique .moderate],
      .error .uniquePublisherPortAlreadyExists)
  else if runtimeName = ipcChannelRoudiName then
    addPublisherPort cfg service runtimeName options (pushInternalService cfg service pm)
  else if isInternal service pm then
    (pm.report [.error .portManagerInternalServiceDescriptionIsForbidden .moderate],
      .error .internalServiceDescriptionIsForbidden)
  else addPublisherPort cfg service runtimeName options pm

def acquirePublisherPortData (service : ServiceDescription) (options : PublisherOptions)
    (runtimeName : String) (pm : PortManager) : PortManager × Except PortPoolError Nat :=
  match acquirePublisherPortDataWithoutDiscovery cfg service options runtimeName pm with
  | (pm, .ok i) => (doDiscoveryForPublisherPort cfg i pm, .ok i)
  | (pm, .error e) => (pm, .error e)

def acquireInternalPublisherPortDataWithoutDiscovery (service : ServiceDescription)
    (options : PublisherOptions) (pm : PortManager) : Option (PortManager × Nat) :=
  match acquirePublisherPortDataWithoutDiscovery cfg service options ipcChannelRoudiName pm with
  | (pm, .ok i) => some (pm, i)
  | (_, .error _) => none

def acquireInternalPublisherPortData (service : ServiceDescription) (options : PublisherOptions)
    (pm : PortManager) : Option PortManager :=
  (acquireInternalPublisherPortDataWithoutDiscovery cfg service options pm).map fun (pm, i) =>
    doDiscoveryForPublisherPort cfg i pm

def acquireSubscriberPortData (service : ServiceDescription) (options : SubscriberOptions)
    (runtimeName : String) (pm : PortManager) : PortManager × Except PortPoolError Nat :=
  if pm.subscribers.hasFreeSpace cfg.maxSubscribers then
    let (subscribers, j) := pm.subscribers.insert
      (SubscriberPortData.create service runtimeName options)
    (doDiscoveryForSubscriberPort cfg j { pm with subscribers := subscribers }, .ok j)
  else
    (pm.report [.error .portPoolSubscriberlistOverflow .moderate], .error .subscriberPortListFull)

def acquireClientPortData (service : ServiceDescription) (options : ClientOptions)
    (runtimeName : String) (pm : PortManager) : PortManager × Except PortPoolError Nat :=
  if pm.clients.hasFreeSpace cfg.maxClients then
    let (clients, i) := pm.clients.insert (ClientPortData.create service runtimeName options)
    (doDiscoveryForClientPort cfg i { pm with clients := clients }, .ok i)
  else
    (pm.report [.error .portPoolClientlistOverflow .moderate], .error .clientPortListFull)

/-- The loop at the start of `acquireServerPortData`; `true` if the service is in use. -/
def findServerInUse (service : ServiceDescription) : List Nat → PortManager → PortManager × Bool
  | [], pm => (pm, false)
  | j :: js, pm =>
    match pm.servers.get j with
    | none => findServerInUse service js pm
    | some s =>
      if service.Same s.serviceDescription then
        if s.toBeDestroyed then findServerInUse service js (destroyServerPort cfg j pm)
        else (pm, true)
      else findServerInUse service js pm

def acquireServerPortData (service : ServiceDescription) (options : ServerOptions)
    (runtimeName : String) (pm : PortManager) : PortManager × Except PortPoolError Nat :=
  let (pm, inUse) := findServerInUse cfg service pm.servers.content pm
  if inUse then
    (pm.report [.error .portManagerServerportNotUnique .moderate],
      .error .uniqueServerPortAlreadyExists)
  else if pm.servers.hasFreeSpace cfg.maxServers then
    let (servers, j) := pm.servers.insert (ServerPortData.create service runtimeName options)
    (doDiscoveryForServerPort cfg j { pm with servers := servers }, .ok j)
  else
    (pm.report [.error .portPoolServerlistOverflow .moderate], .error .serverPortListFull)

/-- The source returns a null pointer for the error. -/
def acquireInterfacePortData (interface : Interfaces) (runtimeName : String) (pm : PortManager) :
    PortManager × Option Nat :=
  if pm.interfaces.hasFreeSpace cfg.maxInterfaceNumber then
    let (interfaces, i) := pm.interfaces.insert (InterfacePortData.create runtimeName interface)
    ({ pm with interfaces := interfaces }, some i)
  else (pm.report [.error .portPoolInterfacelistOverflow .moderate], none)

def acquireNodeData (runtimeName nodeName : String) (pm : PortManager) :
    PortManager × Except PortPoolError Nat :=
  if pm.nodes.hasFreeSpace cfg.maxNodeNumber then
    let (nodes, i) := pm.nodes.insert
      { runtimeName := runtimeName, nodeName := nodeName, nodeDeviceIdentifier := 0 }
    ({ pm with nodes := nodes }, .ok i)
  else (pm.report [.error .portPoolNodelistOverflow .moderate], .error .nodeDataListFull)

def acquireConditionVariableData (runtimeName : String) (pm : PortManager) :
    PortManager × Except PortPoolError Nat :=
  if pm.conditionVariables.hasFreeSpace cfg.maxNumberOfConditionVariables then
    let (conditionVariables, i) := pm.conditionVariables.insert { runtimeName := runtimeName }
    ({ pm with conditionVariables := conditionVariables }, .ok i)
  else
    (pm.report [.error .portPoolConditionVariableListOverflow .moderate],
      .error .conditionVariableListFull)

def serviceDiscoveryService : ServiceDescription where
  serviceString := "ServiceDiscovery"
  instanceString := "RouDi_ID"
  eventString := "ServiceRegistry"

def introspectionPortServices : List ServiceDescription :=
  ["Port", "PortThroughput", "SubscriberPortsData"].map fun event =>
    { serviceString := "Introspection", instanceString := "RouDi_ID", eventString := event }

def registryPortOptions : PublisherOptions where
  historyCapacity := 1
  nodeName := "Service Registry"

def introspectionPortOptions : PublisherOptions where
  historyCapacity := 1
  nodeName := "introspection"

def create : Option PortManager :=
  (acquireInternalPublisherPortDataWithoutDiscovery cfg serviceDiscoveryService
    registryPortOptions {}).bind fun (pm, i) =>
      introspectionPortServices.foldlM
        (fun pm service => acquireInternalPublisherPortData cfg service introspectionPortOptions pm)
        (doDiscoveryForPublisherPort cfg i { pm with serviceRegistryPublisherPortData := some i })

end PortManager

end Iceoryx.Roudi
