import Iceoryx.Popo.Options
import Iceoryx.Runtime.IpcMessage

namespace Iceoryx.Runtime

open Capro Popo Hoofs
open Hoofs.Convert hiding toString

/-- The enumerators in the order of their values, from `NOTYPE = 0` on. -/
inductive IpcMessageType
  | notype | reg | regAck
  | createPublisher | createPublisherAck
  | createSubscriber | createSubscriberAck
  | createClient | createClientAck
  | createServer | createServerAck
  | createInterface | createInterfaceAck
  | createConditionVariable | createConditionVariableAck
  | createNode | createNodeAck
  | keepalive | termination | terminationAck
  | prepareAppTermination | prepareAppTerminationAck
  | error | appWait | wakeupTrigger | replay | messageNotSupported
  deriving DecidableEq, Repr

inductive IpcMessageErrorType
  | begin | notype
  | noUniqueCreated | internalServiceDescriptionIsForbidden
  | requestPublisherInvalidResponse | requestPublisherWrongIpcMessageResponse
  | requestPublisherNoWritableShmSegment
  | requestSubscriberInvalidResponse | requestSubscriberWrongIpcMessageResponse
  | requestClientInvalidResponse | requestClientWrongIpcMessageResponse
  | requestClientNoWritableShmSegment
  | requestServerInvalidResponse | requestServerWrongIpcMessageResponse
  | requestServerNoWritableShmSegment
  | requestConditionVariableInvalidResponse | requestConditionVariableWrongIpcMessageResponse
  | publisherListFull | subscriberListFull | clientListFull | serverListFull
  | conditionVariableListFull | eventVariableListFull | nodeDataListFull
  deriving DecidableEq, Repr

def ipcMessageTypeToString (msg : IpcMessageType) : List Char := Convert.toString msg.ctorIdx

def ipcMessageErrorTypeToString (msg : IpcMessageErrorType) : List Char :=
  Convert.toString msg.ctorIdx

def ipcMessageTypeEnd : Nat := IpcMessageType.messageNotSupported.ctorIdx + 1

def stringToIpcMessageType (str : List Char) : IpcMessageType :=
  match fromStringInt32 str with
  | some msg =>
    if msg ≤ -1 ∨ (ipcMessageTypeEnd : Int) ≤ msg then .notype else .ofNat msg.toNat
  | none => .notype

theorem stringToIpcMessageType_toString (t : IpcMessageType) :
    stringToIpcMessageType (ipcMessageTypeToString t) = t := by
  have h : t.ctorIdx < ipcMessageTypeEnd := by cases t <;> decide
  have hend : ipcMessageTypeEnd < 2 ^ 31 := by decide
  rw [stringToIpcMessageType, ipcMessageTypeToString, fromStringInt32_toString (by omega)]
  simp only
  rw [if_neg (by omega), Int.toNat_natCast]
  cases t <;> rfl

structure PortConfigInfo where
  portType : Nat := 0
  deviceId : Nat := 0
  memoryType : Nat := 0
  deriving DecidableEq, Repr

def PortConfigInfo.serialize (c : PortConfigInfo) : List Char :=
  Serialization.create [
    Convert.toString c.portType,
    Convert.toString c.deviceId,
    Convert.toString c.memoryType]

structure NodeProperty where
  name : String
  nodeDeviceIdentifier : Nat
  deriving DecidableEq, Repr

def NodeProperty.serialize (p : NodeProperty) : List Char :=
  Serialization.create [fixedToString p.name, Convert.toString p.nodeDeviceIdentifier]

/-- The constructor from a serialization keeps what it could extract. -/
def NodeProperty.nameOf (serialized : List Char) : String :=
  match Serialization.next fromStringFixed serialized with
  | some (name, _) => name
  | none => ""

structure QueueLimits where
  subscriber : Nat := 256
  response : Nat := 16
  request : Nat := 1024
  subscriber_lt : subscriber < 2 ^ 32 := by decide
  response_lt : response < 2 ^ 32 := by decide
  request_lt : request < 2 ^ 32 := by decide

def limitCapacity (max capacity : Nat) : Nat :=
  if max < capacity then max else if capacity = 0 then 1 else capacity

theorem limitCapacity_lt {max : Nat} (capacity : Nat) (h : max < 2 ^ 32) :
    limitCapacity max capacity < 2 ^ 32 := by
  unfold limitCapacity
  split
  · exact h
  · split
    · decide
    · omega

section requests

variable (limits : QueueLimits) (appName : String)

/-- The copy of the options with a limited history capacity is not the one that
is sent. -/
def getMiddlewarePublisher (service : ServiceDescription) (publisherOptions : PublisherOptions)
    (portConfigInfo : PortConfigInfo) : IpcMessage :=
  .ofEntries [ipcMessageTypeToString .createPublisher, fixedToString appName,
    service.serialize, publisherOptions.serialize, portConfigInfo.serialize]

def subscriberOptionsSent (subscriberOptions : SubscriberOptions) : SubscriberOptions :=
  { subscriberOptions with
    queueCapacity := limitCapacity limits.subscriber subscriberOptions.queueCapacity
    historyRequest :=
      if subscriberOptions.queueCapacity < subscriberOptions.historyRequest then
        subscriberOptions.queueCapacity
      else subscriberOptions.historyRequest
    nodeName := if subscriberOptions.nodeName = "" then appName else subscriberOptions.nodeName }

def getMiddlewareSubscriber (service : ServiceDescription) (subscriberOptions : SubscriberOptions)
    (portConfigInfo : PortConfigInfo) : IpcMessage :=
  .ofEntries [ipcMessageTypeToString .createSubscriber, fixedToString appName,
    service.serialize, (subscriberOptionsSent limits appName subscriberOptions).serialize,
    portConfigInfo.serialize]

def clientOptionsSent (clientOptions : ClientOptions) : ClientOptions :=
  { clientOptions with
    responseQueueCapacity := limitCapacity limits.response clientOptions.responseQueueCapacity }

def getMiddlewareClient (service : ServiceDescription) (clientOptions : ClientOptions)
    (portConfigInfo : PortConfigInfo) : IpcMessage :=
  .ofEntries [ipcMessageTypeToString .createClient, fixedToString appName,
    service.serialize, (clientOptionsSent limits clientOptions).serialize,
    portConfigInfo.serialize]

def serverOptionsSent (serverOptions : ServerOptions) : ServerOptions :=
  { serverOptions with
    requestQueueCapacity := limitCapacity limits.request serverOptions.requestQueueCapacity }

def getMiddlewareServer (service : ServiceDescription) (serverOptions : ServerOptions)
    (portConfigInfo : PortConfigInfo) : IpcMessage :=
  .ofEntries [ipcMessageTypeToString .createServer, fixedToString appName,
    service.serialize, (serverOptionsSent limits serverOptions).serialize,
    portConfigInfo.serialize]

def getMiddlewareInterface (interface : Interfaces) (nodeName : String) : IpcMessage :=
  .ofEntries [ipcMessageTypeToString .createInterface, fixedToString appName,
    Convert.toString interface.toUint16, fixedToString nodeName]

def getMiddlewareConditionVariable : IpcMessage :=
  .ofEntries [ipcMessageTypeToString .createConditionVariable, fixedToString appName]

def createNode (nodeProperty : NodeProperty) : IpcMessage :=
  .ofEntries [ipcMessageTypeToString .createNode, fixedToString appName, nodeProperty.serialize]

end requests

inductive Request
  | publisher (service : ServiceDescription) (options : PublisherOptions) (config : PortConfigInfo)
  | subscriber (service : ServiceDescription) (options : SubscriberOptions)
      (config : PortConfigInfo)
  | client (service : ServiceDescription) (options : ClientOptions) (config : PortConfigInfo)
  | server (service : ServiceDescription) (options : ServerOptions) (config : PortConfigInfo)
  | interface (source : Interfaces) (nodeName : String)
  | conditionVariable
  | node (property : NodeProperty)

namespace Request

def message (limits : QueueLimits) (appName : String) : Request → IpcMessage
  | .publisher service options config => getMiddlewarePublisher appName service options config
  | .subscriber service options config =>
    getMiddlewareSubscriber limits appName service options config
  | .client service options config => getMiddlewareClient limits appName service options config
  | .server service options config => getMiddlewareServer limits appName service options config
  | .interface source nodeName => getMiddlewareInterface appName source nodeName
  | .conditionVariable => getMiddlewareConditionVariable appName
  | .node property => createNode appName property

def ackType : Request → IpcMessageType
  | .publisher .. => .createPublisherAck
  | .subscriber .. => .createSubscriberAck
  | .client .. => .createClientAck
  | .server .. => .createServerAck
  | .interface .. => .createInterfaceAck
  | .conditionVariable => .createConditionVariableAck
  | .node .. => .createNodeAck

end Request

structure PlainString (s : String) : Prop where
  fixed : FixedString s
  comma : IpcMessage.separator ∉ s.toList

structure PlainService (d : ServiceDescription) : Prop where
  wellFormed : d.WellFormed
  service : IpcMessage.separator ∉ d.serviceString.toList
  inst : IpcMessage.separator ∉ d.instanceString.toList
  event : IpcMessage.separator ∉ d.eventString.toList

def Request.WellFormed : Request → Prop
  | .publisher service options _ =>
    PlainService service ∧ options.WellFormed ∧ PlainString options.nodeName
  | .subscriber service options _ =>
    PlainService service ∧ options.WellFormed ∧ PlainString options.nodeName
  | .client service options _ =>
    PlainService service ∧ options.WellFormed ∧ PlainString options.nodeName
  | .server service options _ =>
    PlainService service ∧ options.WellFormed ∧ PlainString options.nodeName
  | .interface _ nodeName => PlainString nodeName
  | .conditionVariable => True
  | .node property => PlainString property.name

def Special (c : Char) : Prop := c = '\x00' ∨ c = IpcMessage.separator

namespace Special

variable {c : Char}

theorem isDigit (h : Special c) : c.isDigit = false := by
  rcases h with rfl | rfl <;> decide

theorem ne_separator (h : Special c) : c ≠ Serialization.separator := by
  rcases h with rfl | rfl <;> decide

theorem not_mem_toString (h : Special c) (n : Nat) : c ∉ Convert.toString n :=
  Convert.not_mem_toString h.isDigit

theorem not_mem_fixedToString (h : Special c) {s : String} (hs : PlainString s) :
    c ∉ fixedToString s := by
  rw [fixedToString, cStr_eq_self hs.fixed.2]
  rcases h with rfl | rfl
  · exact hs.fixed.2
  · exact hs.comma

theorem not_mem_create (h : Special c) {entries : List (List Char)} (he : ∀ e ∈ entries, c ∉ e) :
    c ∉ Serialization.create entries :=
  Serialization.not_mem_create h.isDigit h.ne_separator he

theorem not_mem_service (h : Special c) {d : ServiceDescription} (hd : PlainService d) :
    c ∉ d.serialize := by
  apply h.not_mem_create
  simp [h.not_mem_toString, h.not_mem_fixedToString ⟨hd.wellFormed.service, hd.service⟩,
    h.not_mem_fixedToString ⟨hd.wellFormed.inst, hd.inst⟩,
    h.not_mem_fixedToString ⟨hd.wellFormed.event, hd.event⟩]

theorem not_mem_publisherOptions (h : Special c) {o : PublisherOptions}
    (ho : PlainString o.nodeName) : c ∉ o.serialize := by
  apply h.not_mem_create
  simp [boolToString, h.not_mem_toString, h.not_mem_fixedToString ho]

theorem not_mem_subscriberOptions (h : Special c) {o : SubscriberOptions}
    (ho : PlainString o.nodeName) : c ∉ o.serialize := by
  apply h.not_mem_create
  simp [boolToString, h.not_mem_toString, h.not_mem_fixedToString ho]

theorem not_mem_clientOptions (h : Special c) {o : ClientOptions} (ho : PlainString o.nodeName) :
    c ∉ o.serialize := by
  apply h.not_mem_create
  simp [boolToString, h.not_mem_toString, h.not_mem_fixedToString ho]

theorem not_mem_serverOptions (h : Special c) {o : ServerOptions} (ho : PlainString o.nodeName) :
    c ∉ o.serialize := by
  apply h.not_mem_create
  simp [boolToString, h.not_mem_toString, h.not_mem_fixedToString ho]

theorem not_mem_portConfigInfo (h : Special c) (p : PortConfigInfo) : c ∉ p.serialize := by
  apply h.not_mem_create
  simp [h.not_mem_toString]

theorem not_mem_nodeProperty (h : Special c) {p : NodeProperty} (hp : PlainString p.name) :
    c ∉ p.serialize := by
  apply h.not_mem_create
  simp [h.not_mem_toString, h.not_mem_fixedToString hp]

end Special

def Request.arguments (limits : QueueLimits) (appName : String) : Request → List (List Char)
  | .publisher service options config =>
    [service.serialize, options.serialize, config.serialize]
  | .subscriber service options config =>
    [service.serialize, (subscriberOptionsSent limits appName options).serialize, config.serialize]
  | .client service options config =>
    [service.serialize, (clientOptionsSent limits options).serialize, config.serialize]
  | .server service options config =>
    [service.serialize, (serverOptionsSent limits options).serialize, config.serialize]
  | .interface source nodeName => [Convert.toString source.toUint16, fixedToString nodeName]
  | .conditionVariable => []
  | .node property => [property.serialize]

def Request.type : Request → IpcMessageType
  | .publisher .. => .createPublisher
  | .subscriber .. => .createSubscriber
  | .client .. => .createClient
  | .server .. => .createServer
  | .interface .. => .createInterface
  | .conditionVariable => .createConditionVariable
  | .node .. => .createNode

theorem Request.message_eq (limits : QueueLimits) (appName : String) (r : Request) :
    r.message limits appName =
      .ofEntries (ipcMessageTypeToString r.type :: fixedToString appName ::
        r.arguments limits appName) := by
  cases r <;> rfl

theorem plain_subscriberOptionsSent {limits : QueueLimits} {appName : String}
    {o : SubscriberOptions} (happ : PlainString appName) (ho : PlainString o.nodeName) :
    PlainString (subscriberOptionsSent limits appName o).nodeName := by
  simp only [subscriberOptionsSent]
  split
  · exact happ
  · exact ho

theorem Request.not_mem_entry {limits : QueueLimits} {appName : String} {r : Request}
    (happ : PlainString appName) (hr : r.WellFormed) {c : Char} (hc : Special c) {e : List Char}
    (he : e ∈ ipcMessageTypeToString r.type :: fixedToString appName ::
      r.arguments limits appName) : c ∉ e := by
  simp only [List.mem_cons] at he
  rcases he with rfl | rfl | he
  · exact hc.not_mem_toString _
  · exact hc.not_mem_fixedToString happ
  · revert e
    cases r with
    | publisher service options config =>
      obtain ⟨hservice, -, ho⟩ := hr
      simp [arguments, hc.not_mem_service hservice, hc.not_mem_publisherOptions ho,
        hc.not_mem_portConfigInfo]
    | subscriber service options config =>
      obtain ⟨hservice, -, ho⟩ := hr
      simp [arguments, hc.not_mem_service hservice,
        hc.not_mem_subscriberOptions (plain_subscriberOptionsSent happ ho),
        hc.not_mem_portConfigInfo]
    | client service options config =>
      obtain ⟨hservice, -, ho⟩ := hr
      simp [arguments, hc.not_mem_service hservice,
        hc.not_mem_clientOptions (o := clientOptionsSent limits options) ho,
        hc.not_mem_portConfigInfo]
    | server service options config =>
      obtain ⟨hservice, -, ho⟩ := hr
      simp [arguments, hc.not_mem_service hservice,
        hc.not_mem_serverOptions (o := serverOptionsSent limits options) ho,
        hc.not_mem_portConfigInfo]
    | interface source nodeName =>
      simp [arguments, hc.not_mem_toString, hc.not_mem_fixedToString hr]
    | conditionVariable => simp [arguments]
    | node property => simp [arguments, hc.not_mem_nodeProperty hr]

end Iceoryx.Runtime
