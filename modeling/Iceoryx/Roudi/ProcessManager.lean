import Iceoryx.Roudi.Operations
import Iceoryx.Runtime.Requests

namespace Iceoryx.Roudi

open Capro Popo Hoofs Iceoryx.Runtime
open Hoofs.Convert hiding toString

structure Process where
  name : String
  pid : Nat := 0
  user : Nat
  isMonitored : Bool := false
  timestamp : Int := 0
  deriving DecidableEq, Repr

inductive Member
  | publisher (slot : Nat)
  | subscriber (slot : Nat)
  | client (slot : Nat)
  | server (slot : Nat)
  | interface (slot : Option Nat)
  | node (slot : Nat)
  | conditionVariable (slot : Nat)
  deriving DecidableEq, Repr

/-- What the process manager knows of the rest of RouDi: the management segment, the
offsets of the port data in it, the users with a writable segment, the versions
it is compatible with, the monitoring mode and what the clock shows, in nanoseconds. -/
structure Surroundings where
  cfg : Config
  mgmtSegmentId : Nat
  mgmtSize : Nat
  segmentManagerOffset : Nat
  getOffset : Member → Nat
  hasWritableSegment : Nat → Bool
  checkCompatibility : List Char → Bool
  maxProcessNumber : Nat
  monitoringMode : Bool := false
  now : Int := 0

/-- `sent` records what was written to the channels of the processes. -/
structure ProcessManager where
  portManager : PortManager := {}
  processList : List Process := []
  sent : List (String × IpcMessage) := []

namespace ProcessManager

variable (env : Surroundings)

def findProcess (name : String) (s : ProcessManager) : Option Process :=
  s.processList.find? (·.name = name)

def sendViaIpcChannel (process : Process) (data : IpcMessage) (s : ProcessManager) :
    ProcessManager :=
  { s with sent := s.sent ++ [(process.name, data)] }

def ack (type : IpcMessageType) (member : Member) : IpcMessage :=
  .ofEntries [ipcMessageTypeToString type, Convert.toString (env.getOffset member),
    Convert.toString env.mgmtSegmentId]

def errorReply (e : IpcMessageErrorType) : IpcMessage :=
  .ofEntries [ipcMessageTypeToString .error, ipcMessageErrorTypeToString e]

def reply (process : Process) (type : IpcMessageType) (member : Nat → Member)
    (errorType : PortPoolError → IpcMessageErrorType) (s : ProcessManager)
    (result : PortManager × Except PortPoolError Nat) : ProcessManager :=
  let s := { s with portManager := result.1 }
  match result.2 with
  | .ok slot => s.sendViaIpcChannel process (ack env type (member slot))
  | .error e => s.sendViaIpcChannel process (errorReply (errorType e))

def addInterfaceForProcess (name : String) (interface : Interfaces) (s : ProcessManager) :
    ProcessManager :=
  match s.findProcess name with
  | none => s
  | some process =>
    let (portManager, port) := s.portManager.acquireInterfacePortData env.cfg interface name
    { s with portManager := portManager }.sendViaIpcChannel process
      (ack env .createInterfaceAck (.interface port))

def addNodeForProcess (runtimeName nodeName : String) (s : ProcessManager) : ProcessManager :=
  match s.findProcess runtimeName with
  | none => s
  | some process =>
    match s.portManager.acquireNodeData env.cfg runtimeName nodeName with
    | (portManager, .ok slot) =>
      { s with portManager := portManager }.sendViaIpcChannel process
        (ack env .createNodeAck (.node slot))
    | (portManager, .error e) =>
      let sendBuffer := IpcMessage.ofEntries [ipcMessageTypeToString .error]
      let sendBuffer := if e = .nodeDataListFull then
        sendBuffer.addEntry (ipcMessageErrorTypeToString .nodeDataListFull) else sendBuffer
      { s with portManager := portManager }.sendViaIpcChannel process sendBuffer

def addConditionVariableForProcess (runtimeName : String) (s : ProcessManager) : ProcessManager :=
  match s.findProcess runtimeName with
  | none => s
  | some process =>
    match s.portManager.acquireConditionVariableData env.cfg runtimeName with
    | (portManager, .ok slot) =>
      { s with portManager := portManager }.sendViaIpcChannel process
        (ack env .createConditionVariableAck (.conditionVariable slot))
    | (portManager, .error e) =>
      let sendBuffer := IpcMessage.ofEntries [ipcMessageTypeToString .error]
      let sendBuffer := if e = .conditionVariableListFull then
        sendBuffer.addEntry (ipcMessageErrorTypeToString .conditionVariableListFull)
        else sendBuffer
      { s with portManager := portManager }.sendViaIpcChannel process sendBuffer

def sendMessageNotSupportedToRuntime (name : String) (s : ProcessManager) : ProcessManager :=
  match s.findProcess name with
  | none => s
  | some process =>
    s.sendViaIpcChannel process (.ofEntries [ipcMessageTypeToString .messageNotSupported])

def addSubscriberForProcess (name : String) (service : ServiceDescription)
    (subscriberOptions : SubscriberOptions) (s : ProcessManager) : ProcessManager :=
  match s.findProcess name with
  | none => s
  | some process =>
    reply env process .createSubscriberAck .subscriber (fun _ => .subscriberListFull) s
      (s.portManager.acquireSubscriberPortData env.cfg service subscriberOptions name)

def publisherError : PortPoolError → IpcMessageErrorType
  | .uniquePublisherPortAlreadyExists => .noUniqueCreated
  | .internalServiceDescriptionIsForbidden => .internalServiceDescriptionIsForbidden
  | _ => .publisherListFull

def addPublisherForProcess (name : String) (service : ServiceDescription)
    (publisherOptions : PublisherOptions) (s : ProcessManager) : ProcessManager :=
  match s.findProcess name with
  | none => s
  | some process =>
    if !env.hasWritableSegment process.user then
      s.sendViaIpcChannel process (errorReply .requestPublisherNoWritableShmSegment)
    else
      reply env process .createPublisherAck .publisher publisherError s
        (s.portManager.acquirePublisherPortData env.cfg service publisherOptions name)

def addClientForProcess (name : String) (service : ServiceDescription)
    (clientOptions : ClientOptions) (s : ProcessManager) : ProcessManager :=
  match s.findProcess name with
  | none => s
  | some process =>
    if !env.hasWritableSegment process.user then
      s.sendViaIpcChannel process (errorReply .requestClientNoWritableShmSegment)
    else
      reply env process .createClientAck .client (fun _ => .clientListFull) s
        (s.portManager.acquireClientPortData env.cfg service clientOptions name)

def addServerForProcess (name : String) (service : ServiceDescription)
    (serverOptions : ServerOptions) (s : ProcessManager) : ProcessManager :=
  match s.findProcess name with
  | none => s
  | some process =>
    if !env.hasWritableSegment process.user then
      s.sendViaIpcChannel process (errorReply .requestServerNoWritableShmSegment)
    else
      reply env process .createServerAck .server (fun _ => .serverListFull) s
        (s.portManager.acquireServerPortData env.cfg service serverOptions name)

def handleProcessShutdownPreparationRequest (name : String) (s : ProcessManager) :
    ProcessManager :=
  match s.findProcess name with
  | none => s
  | some process =>
    { s with portManager := s.portManager.unblockProcessShutdown env.cfg name }.sendViaIpcChannel process
      (.ofEntries [ipcMessageTypeToString .prepareAppTerminationAck])

inductive TerminationFeedback
  | sendAckToProcess | doNotSendAckToProcess
  deriving DecidableEq, Repr

def searchForProcessAndRemoveIt (name : String) (feedback : TerminationFeedback)
    (s : ProcessManager) : ProcessManager :=
  match s.findProcess name with
  | none => s
  | some process =>
    let s := { s with portManager := s.portManager.deletePortsOfProcess env.cfg name }
    let s := if feedback = .sendAckToProcess then
      s.sendViaIpcChannel process (.ofEntries [ipcMessageTypeToString .terminationAck]) else s
    { s with processList := s.processList.erase process }

def addProcess (name : String) (pid user : Nat) (transmissionTimestamp : Int)
    (versionInfo : List Char) (s : ProcessManager) : ProcessManager :=
  if !env.checkCompatibility versionInfo then s
  else if env.maxProcessNumber ≤ s.processList.length then s
  else
    let process : Process :=
      { name, pid, user, isMonitored := env.monitoringMode, timestamp := env.now }
    { s with processList := s.processList ++ [process] }.sendViaIpcChannel process
      (.ofEntries [ipcMessageTypeToString .regAck, Convert.toString env.mgmtSize,
        Convert.toString env.segmentManagerOffset, intToString transmissionTimestamp,
        Convert.toString env.mgmtSegmentId])

def registerProcess (name : String) (pid user : Nat) (transmissionTimestamp : Int)
    (versionInfo : List Char) (s : ProcessManager) : ProcessManager :=
  match s.findProcess name with
  | some _ =>
    addProcess env name pid user transmissionTimestamp versionInfo
      (s.searchForProcessAndRemoveIt env name .doNotSendAckToProcess)
  | none => addProcess env name pid user transmissionTimestamp versionInfo s

def unregisterProcess (name : String) (s : ProcessManager) : ProcessManager :=
  s.searchForProcessAndRemoveIt env name .sendAckToProcess

def updateLivelinessOfProcess (name : String) (s : ProcessManager) : ProcessManager :=
  let isNamed (process : Process) : Bool := process.name = name
  { s with
    processList := s.processList.modify (s.processList.findIdx isNamed)
      (fun process => { process with timestamp := env.now }) }

def processKeepAliveTimeout : Int := 1500000000

def notResponding (process : Process) : Bool :=
  process.isMonitored && decide (processKeepAliveTimeout < env.now - process.timestamp)

/-- The loop of `monitorProcesses` over the list of processes, which erases elements on
its way. -/
def monitorLoop : List Process → PortManager → List Process × PortManager
  | [], portManager => ([], portManager)
  | process :: rest, portManager =>
    if notResponding env process then
      monitorLoop rest (portManager.deletePortsOfProcess env.cfg process.name)
    else
      let (rest, portManager) := monitorLoop rest portManager
      (process :: rest, portManager)

def monitorProcesses (s : ProcessManager) : ProcessManager :=
  let (processList, portManager) := monitorLoop env s.processList s.portManager
  { s with processList := processList, portManager := portManager }

def discoveryUpdate (s : ProcessManager) : ProcessManager :=
  { s with portManager := s.portManager.doDiscovery env.cfg }

def stringToCaProInterface (str : List Char) : Interfaces :=
  let i := (fromStringInt32 str).getD 0
  if (Interfaces.interfaceEnd.toUint16 : Int) ≤ i then .internal
  else .ofUint16 (i % 2 ^ 16).toNat

/-- What the four cases that create a port do with the elements of the message: the
service description and the options must be well formed. -/
def createPort {O : Type} (message : IpcMessage) (deserialize : List Char → Option O)
    (add : ServiceDescription → O → ProcessManager → ProcessManager) (s : ProcessManager) :
    ProcessManager :=
  if message.getNumberOfElements ≠ 5 then s
  else
    match ServiceDescription.deserialize (message.getElementAtIndex 2) with
    | none => s
    | some service =>
      match deserialize (message.getElementAtIndex 3) with
      | none => s
      | some options => add service options s

def processMessage (message : IpcMessage) (cmd : IpcMessageType) (runtimeName : String)
    (s : ProcessManager) : ProcessManager :=
  match cmd with
  | .reg =>
    if message.getNumberOfElements ≠ 6 then s
    else
      registerProcess env runtimeName
        ((fromStringUint32 (cStr (message.getElementAtIndex 2))).getD 0)
        ((fromStringUint32 (cStr (message.getElementAtIndex 3))).getD 0)
        ((fromStringInt64 (cStr (message.getElementAtIndex 4))).getD 0)
        (message.getElementAtIndex 5) s
  | .createPublisher =>
    createPort message PublisherOptions.deserialize (addPublisherForProcess env runtimeName) s
  | .createSubscriber =>
    createPort message SubscriberOptions.deserialize (addSubscriberForProcess env runtimeName) s
  | .createClient =>
    createPort message ClientOptions.deserialize (addClientForProcess env runtimeName) s
  | .createServer =>
    createPort message ServerOptions.deserialize (addServerForProcess env runtimeName) s
  | .createConditionVariable =>
    if message.getNumberOfElements ≠ 2 then s
    else addConditionVariableForProcess env runtimeName s
  | .createInterface =>
    if message.getNumberOfElements ≠ 4 then s
    else
      addInterfaceForProcess env runtimeName
        (stringToCaProInterface (cStr ((message.getElementAtIndex 2).take stringCapacity))) s
  | .createNode =>
    if message.getNumberOfElements ≠ 3 then s
    else addNodeForProcess env runtimeName (NodeProperty.nameOf (message.getElementAtIndex 2)) s
  | .keepalive => updateLivelinessOfProcess env runtimeName s
  | .prepareAppTermination =>
    if message.getNumberOfElements ≠ 2 then s
    else handleProcessShutdownPreparationRequest env runtimeName s
  | .termination =>
    if message.getNumberOfElements ≠ 2 then s else unregisterProcess env runtimeName s
  | _ => sendMessageNotSupportedToRuntime runtimeName s

def processRuntimeMessage (buffer : List Char) (s : ProcessManager) : ProcessManager :=
  let message := IpcMessage.setMessage {} (cStr buffer)
  if !message.isValid then s
  else
    processMessage env message (stringToIpcMessageType (cStr (message.getElementAtIndex 0)))
      (String.ofList ((message.getElementAtIndex 1).take stringCapacity)) s

def IsAck (type : IpcMessageType) (m : IpcMessage) : Prop :=
  m.isValid = true ∧ m.getNumberOfElements = 3 ∧
    stringToIpcMessageType (cStr (m.getElementAtIndex 0)) = type

def IsError (m : IpcMessage) : Prop :=
  m.isValid = true ∧ stringToIpcMessageType (cStr (m.getElementAtIndex 0)) = .error

/-- From `s` to `s'` one message was sent: to the named application, and either an
acknowledgement of the given type or an error. -/
def AnsweredOnce (name : String) (type : IpcMessageType) (s s' : ProcessManager) : Prop :=
  ∃ m, s'.sent = s.sent ++ [(name, m)] ∧ (IsAck type m ∨ IsError m)

theorem not_answeredOnce_self {name : String} {type : IpcMessageType} {s : ProcessManager} :
    ¬ AnsweredOnce name type s s := by
  rintro ⟨m, hsent, -⟩
  simpa using congrArg List.length hsent

theorem cStr_ipcMessageTypeToString (t : IpcMessageType) :
    cStr (ipcMessageTypeToString t) = ipcMessageTypeToString t :=
  cStr_eq_self (not_mem_toString (by decide))

theorem isAck_ack (type : IpcMessageType) (member : Member) : IsAck type (ack env type member) := by
  have hfree : ∀ e ∈ [ipcMessageTypeToString type, Convert.toString (env.getOffset member),
      Convert.toString env.mgmtSegmentId], IpcMessage.separator ∉ e := by
    have hdigits : ∀ n : Nat, IpcMessage.separator ∉ Convert.toString n :=
      fun n => not_mem_toString (by decide)
    simp [ipcMessageTypeToString, hdigits]
  refine ⟨?_, ?_, ?_⟩
  · rw [ack, IpcMessage.ofEntries_eq hfree]
  · rw [ack, IpcMessage.getNumberOfElements_ofEntries hfree]
    rfl
  · rw [ack, IpcMessage.getElementAtIndex_ofEntries hfree (by decide)]
    simp only [List.getD_cons_zero, cStr_ipcMessageTypeToString]
    exact stringToIpcMessageType_toString type

theorem isError_ofEntries {rest : List (List Char)} (h : ∀ e ∈ rest, IpcMessage.separator ∉ e) :
    IsError (.ofEntries (ipcMessageTypeToString .error :: rest)) := by
  have hfree : ∀ e ∈ ipcMessageTypeToString .error :: rest, IpcMessage.separator ∉ e := by
    have htype : IpcMessage.separator ∉ ipcMessageTypeToString .error :=
      not_mem_toString (by decide)
    simpa [htype] using h
  refine ⟨?_, ?_⟩
  · rw [IpcMessage.ofEntries_eq hfree]
  · rw [IpcMessage.getElementAtIndex_ofEntries hfree (by decide)]
    simp only [List.getD_cons_zero, cStr_ipcMessageTypeToString]
    exact stringToIpcMessageType_toString .error

theorem isError_errorReply (e : IpcMessageErrorType) : IsError (errorReply e) := by
  apply isError_ofEntries
  have hdigits : IpcMessage.separator ∉ ipcMessageErrorTypeToString e :=
    not_mem_toString (by decide)
  simpa using hdigits

section answers

variable {env} {s : ProcessManager} {name : String} {process : Process}

theorem name_of_findProcess (h : s.findProcess name = some process) : process.name = name := by
  simpa using List.find?_some h

theorem answeredOnce_send (h : s.findProcess name = some process) {type : IpcMessageType}
    {m : IpcMessage} (hm : IsAck type m ∨ IsError m) {portManager : PortManager} :
    AnsweredOnce name type s
      ({ s with portManager := portManager }.sendViaIpcChannel process m) := by
  refine ⟨m, ?_, hm⟩
  rw [← name_of_findProcess h]
  rfl

theorem answeredOnce_reply (h : s.findProcess name = some process) (type : IpcMessageType)
    (member : Nat → Member) (errorType : PortPoolError → IpcMessageErrorType)
    (result : PortManager × Except PortPoolError Nat) :
    AnsweredOnce name type s (reply env process type member errorType s result) := by
  unfold reply
  simp only
  split
  · exact answeredOnce_send h (Or.inl (isAck_ack env type _))
  · exact answeredOnce_send h (Or.inr (isError_errorReply _))

theorem answeredOnce_addSubscriber (h : s.findProcess name = some process)
    (service : ServiceDescription) (o : SubscriberOptions) :
    AnsweredOnce name .createSubscriberAck s (addSubscriberForProcess env name service o s) := by
  rw [addSubscriberForProcess, h]
  exact answeredOnce_reply h _ _ _ _

theorem answeredOnce_addPublisher (h : s.findProcess name = some process)
    (service : ServiceDescription) (o : PublisherOptions) :
    AnsweredOnce name .createPublisherAck s (addPublisherForProcess env name service o s) := by
  rw [addPublisherForProcess, h]
  simp only
  split
  · exact answeredOnce_send h (Or.inr (isError_errorReply _))
  · exact answeredOnce_reply h _ _ _ _

theorem answeredOnce_addClient (h : s.findProcess name = some process)
    (service : ServiceDescription) (o : ClientOptions) :
    AnsweredOnce name .createClientAck s (addClientForProcess env name service o s) := by
  rw [addClientForProcess, h]
  simp only
  split
  · exact answeredOnce_send h (Or.inr (isError_errorReply _))
  · exact answeredOnce_reply h _ _ _ _

theorem answeredOnce_addServer (h : s.findProcess name = some process)
    (service : ServiceDescription) (o : ServerOptions) :
    AnsweredOnce name .createServerAck s (addServerForProcess env name service o s) := by
  rw [addServerForProcess, h]
  simp only
  split
  · exact answeredOnce_send h (Or.inr (isError_errorReply _))
  · exact answeredOnce_reply h _ _ _ _

theorem answeredOnce_addInterface (h : s.findProcess name = some process) (i : Interfaces) :
    AnsweredOnce name .createInterfaceAck s (addInterfaceForProcess env name i s) := by
  rw [addInterfaceForProcess, h]
  exact answeredOnce_send h (Or.inl (isAck_ack env _ _))

theorem isError_optional (b : Prop) [Decidable b] (e : IpcMessageErrorType) :
    IsError (if b then
      (IpcMessage.ofEntries [ipcMessageTypeToString .error]).addEntry
        (ipcMessageErrorTypeToString e)
      else IpcMessage.ofEntries [ipcMessageTypeToString .error]) := by
  split
  · exact isError_errorReply e
  · exact isError_ofEntries (by simp)

theorem answeredOnce_addNode (h : s.findProcess name = some process) (nodeName : String) :
    AnsweredOnce name .createNodeAck s (addNodeForProcess env name nodeName s) := by
  rw [addNodeForProcess, h]
  simp only
  split
  · exact answeredOnce_send h (Or.inl (isAck_ack env _ _))
  · exact answeredOnce_send h (Or.inr (isError_optional _ _))

theorem answeredOnce_addConditionVariable (h : s.findProcess name = some process) :
    AnsweredOnce name .createConditionVariableAck s
      (addConditionVariableForProcess env name s) := by
  rw [addConditionVariableForProcess, h]
  simp only
  split
  · exact answeredOnce_send h (Or.inl (isAck_ack env _ _))
  · exact answeredOnce_send h (Or.inr (isError_optional _ _))

theorem answeredOnce_createPort_iff {O : Type} {message : IpcMessage} {type : IpcMessageType}
    {deserialize : List Char → Option O}
    {add : ServiceDescription → O → ProcessManager → ProcessManager} {d : ServiceDescription}
    (hcount : message.getNumberOfElements = 5)
    (hservice : message.getElementAtIndex 2 = d.serialize)
    (hd : d.WellFormed) (hadd : ∀ o, AnsweredOnce name type s (add d o s)) :
    AnsweredOnce name type s (createPort message deserialize add s) ↔
      (d.scope ≠ .invalid ∧ d.interfaceSource ≠ .interfaceEnd) ∧
        (deserialize (message.getElementAtIndex 3)).isSome = true := by
  rw [createPort, if_neg (by simp [hcount]), hservice,
    ServiceDescription.deserialize_serialize hd]
  by_cases hvalid : d.scope ≠ .invalid ∧ d.interfaceSource ≠ .interfaceEnd
  · rw [if_pos hvalid]
    cases ho : deserialize (message.getElementAtIndex 3) with
    | none => simpa using not_answeredOnce_self
    | some o => simpa [hvalid] using hadd o
  · rw [if_neg hvalid]
    simpa [hvalid] using not_answeredOnce_self

end answers

def Answerable : Request → Prop
  | .publisher service options _ =>
    (service.scope ≠ .invalid ∧ service.interfaceSource ≠ .interfaceEnd) ∧
      options.historyCapacity ≠ 2 ^ 64 - 1
  | .subscriber service options _ =>
    (service.scope ≠ .invalid ∧ service.interfaceSource ≠ .interfaceEnd) ∧
      ¬ (options.queueCapacity = 2 ^ 64 - 1 ∧ options.historyRequest = 2 ^ 64 - 1)
  | .client service _ _ => service.scope ≠ .invalid ∧ service.interfaceSource ≠ .interfaceEnd
  | .server service _ _ => service.scope ≠ .invalid ∧ service.interfaceSource ≠ .interfaceEnd
  | .interface _ _ => True
  | .conditionVariable => True
  | .node _ => True

section requests

variable {env} {limits : QueueLimits} {appName : String} {r : Request} {s : ProcessManager}

theorem getNumberOfElements_request (happ : PlainString appName) (hr : r.WellFormed) :
    (r.message limits appName).getNumberOfElements = (r.arguments limits appName).length + 2 := by
  rw [r.message_eq, IpcMessage.getNumberOfElements_ofEntries
    fun e => Request.not_mem_entry happ hr (Or.inr rfl)]
  cases r <;> rfl

theorem getElementAtIndex_request (happ : PlainString appName) (hr : r.WellFormed) {i : Nat}
    (hi : i < 2 ^ 32) :
    (r.message limits appName).getElementAtIndex i =
      (ipcMessageTypeToString r.type :: fixedToString appName ::
        r.arguments limits appName).getD i [] := by
  rw [r.message_eq, IpcMessage.getElementAtIndex_ofEntries
    (fun e => Request.not_mem_entry happ hr (Or.inr rfl)) hi]

theorem processRuntimeMessage_request (happ : PlainString appName) (hr : r.WellFormed) :
    processRuntimeMessage env (r.message limits appName).getMessage s =
      processMessage env (r.message limits appName) r.type appName s := by
  have hcomma : ∀ e ∈ ipcMessageTypeToString r.type :: fixedToString appName ::
      r.arguments limits appName, IpcMessage.separator ∉ e :=
    fun e => Request.not_mem_entry happ hr (Or.inr rfl)
  have hnul : '\x00' ∉ (r.message limits appName).getMessage := by
    rw [IpcMessage.getMessage, r.message_eq, IpcMessage.ofEntries_eq hcomma]
    simp only [Lib.Text.terminated, List.mem_flatMap, not_exists, not_and]
    intro e he
    have := Request.not_mem_entry happ hr (Or.inl rfl) he
    simp [this, IpcMessage.separator]
  have hset : IpcMessage.setMessage {} (cStr (r.message limits appName).getMessage) =
      r.message limits appName := by
    rw [cStr_eq_self hnul, r.message_eq, IpcMessage.setMessage_ofEntries {} hcomma]
  have hvalid : (r.message limits appName).isValid = true := by
    rw [r.message_eq, IpcMessage.ofEntries_eq hcomma]
  have happList : fixedToString appName = appName.toList := by
    rw [fixedToString, cStr_eq_self happ.fixed.2]
  rw [processRuntimeMessage, hset]
  simp only [hvalid, Bool.not_true, Bool.false_eq_true, if_false,
    getElementAtIndex_request happ hr (show 0 < 2 ^ 32 by decide),
    getElementAtIndex_request happ hr (show 1 < 2 ^ 32 by decide), List.getD_cons_zero,
    List.getD_cons_succ, cStr_ipcMessageTypeToString, stringToIpcMessageType_toString, happList,
    List.take_of_length_le happ.fixed.1, String.ofList_toList]

theorem wellFormed_subscriberOptionsSent {o : SubscriberOptions} (happ : PlainString appName)
    (ho : o.WellFormed) (hnode : PlainString o.nodeName) :
    (subscriberOptionsSent limits appName o).WellFormed where
  queue := by
    have := limitCapacity_lt o.queueCapacity limits.subscriber_lt
    simp only [subscriberOptionsSent]
    omega
  history := by
    have hq := ho.queue
    have hh := ho.history
    simp only [subscriberOptionsSent]
    split <;> assumption
  node := (plain_subscriberOptionsSent happ hnode).fixed

theorem isSome_deserialize_subscriber {o : SubscriberOptions} (happ : PlainString appName)
    (ho : o.WellFormed) (hnode : PlainString o.nodeName) :
    (SubscriberOptions.deserialize (subscriberOptionsSent limits appName o).serialize).isSome =
      true ↔ ¬ (o.queueCapacity = 2 ^ 64 - 1 ∧ o.historyRequest = 2 ^ 64 - 1) := by
  have hlimit := limitCapacity_lt o.queueCapacity limits.subscriber_lt
  have hq := ho.queue
  have hh := ho.history
  have hqueue : (subscriberOptionsSent limits appName o).queueCapacity ≠ 2 ^ 64 - 1 := by
    simp only [subscriberOptionsSent]
    omega
  have hhistory : (subscriberOptionsSent limits appName o).historyRequest = 2 ^ 64 - 1 ↔
      o.queueCapacity = 2 ^ 64 - 1 ∧ o.historyRequest = 2 ^ 64 - 1 := by
    simp only [subscriberOptionsSent]
    split <;> omega
  rw [SubscriberOptions.deserialize_serialize (wellFormed_subscriberOptionsSent happ ho hnode),
    if_neg hqueue, ← hhistory]
  split <;> simp_all

theorem isSome_deserialize_client {o : ClientOptions} (ho : o.WellFormed) :
    (ClientOptions.deserialize (clientOptionsSent limits o).serialize).isSome = true := by
  have hlimit := limitCapacity_lt o.responseQueueCapacity limits.response_lt
  have hqueue : (clientOptionsSent limits o).responseQueueCapacity < 2 ^ 32 := hlimit
  have hsent : (clientOptionsSent limits o).WellFormed := ⟨by omega, ho.node⟩
  rw [ClientOptions.deserialize_serialize hsent, if_neg (by omega)]
  rfl

theorem isSome_deserialize_server {o : ServerOptions} (ho : o.WellFormed) :
    (ServerOptions.deserialize (serverOptionsSent limits o).serialize).isSome = true := by
  have hlimit := limitCapacity_lt o.requestQueueCapacity limits.request_lt
  have hqueue : (serverOptionsSent limits o).requestQueueCapacity < 2 ^ 32 := hlimit
  have hsent : (serverOptionsSent limits o).WellFormed := ⟨by omega, ho.node⟩
  rw [ServerOptions.deserialize_serialize hsent, if_neg (by omega)]
  rfl

end requests

/-- A registered application gets exactly one reply to a request, unless the service
description is not valid or a capacity of `2 ^ 64 - 1` was sent; then it gets none. -/
theorem request_answered_iff (env : Surroundings) (limits : QueueLimits) (s : ProcessManager)
    (appName : String) (r : Request) (happ : PlainString appName) (hr : r.WellFormed)
    (hregistered : ∃ p ∈ s.processList, p.name = appName) :
    AnsweredOnce appName r.ackType s
        (processRuntimeMessage env (r.message limits appName).getMessage s) ↔
      Answerable r := by
  obtain ⟨process, hfind⟩ : ∃ process, s.findProcess appName = some process := by
    obtain ⟨p, hp, hname⟩ := hregistered
    rw [← Option.isSome_iff_exists, findProcess, List.find?_isSome]
    exact ⟨p, hp, by simpa using hname⟩
  have hcount : (r.message limits appName).getNumberOfElements = _ :=
    getNumberOfElements_request happ hr
  have helement : ∀ i < 2 ^ 32, (r.message limits appName).getElementAtIndex i = _ :=
    fun i hi => getElementAtIndex_request happ hr hi
  rw [processRuntimeMessage_request happ hr]
  cases r with
  | publisher service options config =>
    obtain ⟨hservice, ho, -⟩ := hr
    refine (answeredOnce_createPort_iff hcount (helement 2 (by decide)) hservice.wellFormed
      fun o => answeredOnce_addPublisher hfind service o).trans ?_
    rw [helement 3 (by decide)]
    simp only [Request.arguments, List.getD_cons_succ, List.getD_cons_zero,
      PublisherOptions.deserialize_serialize ho, Answerable]
    split <;> simp_all
  | subscriber service options config =>
    obtain ⟨hservice, ho, hnode⟩ := hr
    refine (answeredOnce_createPort_iff hcount (helement 2 (by decide)) hservice.wellFormed
      fun o => answeredOnce_addSubscriber hfind service o).trans ?_
    rw [helement 3 (by decide)]
    exact and_congr_right' (isSome_deserialize_subscriber happ ho hnode)
  | client service options config =>
    obtain ⟨hservice, ho, -⟩ := hr
    refine (answeredOnce_createPort_iff hcount (helement 2 (by decide)) hservice.wellFormed
      fun o => answeredOnce_addClient hfind service o).trans ?_
    rw [helement 3 (by decide)]
    exact and_iff_left (isSome_deserialize_client ho)
  | server service options config =>
    obtain ⟨hservice, ho, -⟩ := hr
    refine (answeredOnce_createPort_iff hcount (helement 2 (by decide)) hservice.wellFormed
      fun o => answeredOnce_addServer hfind service o).trans ?_
    rw [helement 3 (by decide)]
    exact and_iff_left (isSome_deserialize_server ho)
  | interface source nodeName =>
    simp only [Answerable, iff_true, Request.type, processMessage]
    rw [if_neg (by simp [hcount, Request.arguments])]
    exact answeredOnce_addInterface hfind _
  | conditionVariable =>
    simp only [Answerable, iff_true, Request.type, processMessage]
    rw [if_neg (by simp [hcount, Request.arguments])]
    exact answeredOnce_addConditionVariable hfind
  | node property =>
    simp only [Answerable, iff_true, Request.type, processMessage]
    rw [if_neg (by simp [hcount, Request.arguments])]
    exact answeredOnce_addNode hfind _

def smallSurroundings : Surroundings where
  cfg := PortManager.smallConfig .manyToMany
  mgmtSegmentId := 1
  mgmtSize := 4096
  segmentManagerOffset := 64
  getOffset _ := 128
  hasWritableSegment _ := true
  checkCompatibility _ := true
  maxProcessNumber := 300

def oneProcess : ProcessManager := { processList := [{ name := "app", user := 1000 }] }

theorem plainService_radar : PlainService PortManager.radar :=
  ⟨⟨by decide, by decide, by decide, 0, 0, 0, 0, rfl, by decide⟩, by decide, by decide, by decide⟩

theorem request_answered_subscriber :
    AnsweredOnce "app" .createSubscriberAck oneProcess
      (processRuntimeMessage smallSurroundings
        (Request.message {} "app"
          (.subscriber PortManager.radar { queueCapacity := 2 ^ 64 - 1 } {})).getMessage
        oneProcess) := by
  have hr : Request.WellFormed
      (.subscriber PortManager.radar { queueCapacity := 2 ^ 64 - 1 } {}) :=
    ⟨plainService_radar, ⟨by decide, by decide, by decide⟩, by decide, by decide⟩
  refine (request_answered_iff smallSurroundings {} oneProcess "app" _ ⟨by decide, by decide⟩ hr
    ⟨_, List.mem_singleton_self _, rfl⟩).mpr ?_
  exact ⟨by decide, by decide⟩

theorem largest_historyCapacity_unanswered :
    PlainString "app" ∧
    Request.WellFormed (.publisher PortManager.radar { historyCapacity := 2 ^ 64 - 1 } {}) ∧
    oneProcess.findProcess "app" = some { name := "app", user := 1000 } ∧
    ¬ AnsweredOnce "app" .createPublisherAck oneProcess
      (processRuntimeMessage smallSurroundings
        (Request.message {} "app"
          (.publisher PortManager.radar { historyCapacity := 2 ^ 64 - 1 } {})).getMessage
        oneProcess) := by
  have happ : PlainString "app" := ⟨by decide, by decide⟩
  have hr : Request.WellFormed
      (.publisher PortManager.radar { historyCapacity := 2 ^ 64 - 1 } {}) :=
    ⟨plainService_radar, ⟨by decide, by decide⟩, by decide, by decide⟩
  refine ⟨happ, hr, rfl, ?_⟩
  rw [processRuntimeMessage_request happ hr]
  refine fun h => absurd ((answeredOnce_createPort_iff (getNumberOfElements_request happ hr)
    (getElementAtIndex_request happ hr (by decide)) plainService_radar.wellFormed
    fun o => answeredOnce_addPublisher rfl PortManager.radar o).mp h).2 ?_
  rw [getElementAtIndex_request happ hr (by decide)]
  simp only [Request.arguments, List.getD_cons_succ, List.getD_cons_zero,
    PublisherOptions.deserialize_serialize hr.2.1, if_true, Option.isSome_none,
    Bool.false_eq_true, not_false_eq_true]

end ProcessManager

end Iceoryx.Roudi
