import Iceoryx.Roudi.ProcessManager

namespace Iceoryx

open Hoofs Hoofs.Serialization
open Hoofs.Convert hiding toString

namespace Runtime

def PortConfigInfo.extractArgs : StateT (List Char) Option PortConfigInfo := do
  let portType ← next fromStringUint32
  let deviceId ← next fromStringUint32
  let memoryType ← next fromStringUint32
  return { portType, deviceId, memoryType }

/-- The constructor from a serialization keeps what it could extract. -/
def PortConfigInfo.ofSerialization (serialization : List Char) : PortConfigInfo :=
  match next fromStringUint32 serialization with
  | none => {}
  | some (portType, remainder) =>
    match next fromStringUint32 remainder with
    | none => { portType }
    | some (deviceId, remainder) =>
      match next fromStringUint32 remainder with
      | none => { portType, deviceId }
      | some (memoryType, _) => { portType, deviceId, memoryType }

def NodeProperty.extractArgs : StateT (List Char) Option NodeProperty := do
  let name ← next fromStringFixed
  let nodeDeviceIdentifier ← next fromStringUint64
  return { name, nodeDeviceIdentifier }

def VersionInfo.extractArgs :
    StateT (List Char) Option (Nat × Nat × Nat × Nat × String × String) := do
  let versionMajor ← next fromStringUint16
  let versionMinor ← next fromStringUint16
  let versionPatch ← next fromStringUint16
  let versionTweak ← next fromStringUint16
  let buildDateString ← next fromStringFixed
  let commitIdString ← next fromStringFixed
  return (versionMajor, versionMinor, versionPatch, versionTweak, buildDateString, commitIdString)

end Runtime

namespace Roudi

open Capro Popo Iceoryx.Runtime

inductive Call
  | registerProcess (pid user : Nat) (transmissionTimestamp : Int) (versionInfo : List Char)
  | addPublisherForProcess (service : ServiceDescription) (options : PublisherOptions)
      (config : PortConfigInfo)
  | addSubscriberForProcess (service : ServiceDescription) (options : SubscriberOptions)
      (config : PortConfigInfo)
  | addClientForProcess (service : ServiceDescription) (options : ClientOptions)
      (config : PortConfigInfo)
  | addServerForProcess (service : ServiceDescription) (options : ServerOptions)
      (config : PortConfigInfo)
  | addConditionVariableForProcess
  | addInterfaceForProcess (interface : Interfaces)
  | addNodeForProcess (nodeName : String)
  | updateLivelinessOfProcess
  | handleProcessShutdownPreparationRequest
  | unregisterProcess
  | sendMessageNotSupportedToRuntime
  deriving DecidableEq, Repr

namespace Call

/-- The memory info of the port config is only stored in the port. -/
def perform (env : Surroundings) (name : String) : Call → ProcessManager → ProcessManager
  | .registerProcess pid user transmissionTimestamp versionInfo =>
    ProcessManager.registerProcess env name pid user transmissionTimestamp versionInfo
  | .addPublisherForProcess service options _ =>
    ProcessManager.addPublisherForProcess env name service options
  | .addSubscriberForProcess service options _ =>
    ProcessManager.addSubscriberForProcess env name service options
  | .addClientForProcess service options _ =>
    ProcessManager.addClientForProcess env name service options
  | .addServerForProcess service options _ =>
    ProcessManager.addServerForProcess env name service options
  | .addConditionVariableForProcess => ProcessManager.addConditionVariableForProcess env name
  | .addInterfaceForProcess interface => ProcessManager.addInterfaceForProcess env name interface
  | .addNodeForProcess nodeName => ProcessManager.addNodeForProcess env name nodeName
  | .updateLivelinessOfProcess => ProcessManager.updateLivelinessOfProcess env name
  | .handleProcessShutdownPreparationRequest =>
    ProcessManager.handleProcessShutdownPreparationRequest env name
  | .unregisterProcess => ProcessManager.unregisterProcess env name
  | .sendMessageNotSupportedToRuntime => ProcessManager.sendMessageNotSupportedToRuntime name

def Creates : Call → Prop
  | .updateLivelinessOfProcess => False
  | .handleProcessShutdownPreparationRequest => False
  | .unregisterProcess => False
  | .sendMessageNotSupportedToRuntime => False
  | _ => True

end Call

def portCall {O : Type} (message : IpcMessage) (deserialize : List Char → Option O)
    (call : ServiceDescription → O → PortConfigInfo → Call) : Option Call :=
  if message.getNumberOfElements ≠ 5 then none
  else
    match ServiceDescription.deserialize (message.getElementAtIndex 2) with
    | none => none
    | some service =>
      match deserialize (message.getElementAtIndex 3) with
      | none => none
      | some options =>
        some (call service options (.ofSerialization (message.getElementAtIndex 4)))

def callOf (message : IpcMessage) : IpcMessageType → Option Call
  | .reg =>
    if message.getNumberOfElements ≠ 6 then none
    else
      some (.registerProcess
        ((fromStringUint32 (cStr (message.getElementAtIndex 2))).getD 0)
        ((fromStringUint32 (cStr (message.getElementAtIndex 3))).getD 0)
        ((fromStringInt64 (cStr (message.getElementAtIndex 4))).getD 0)
        (message.getElementAtIndex 5))
  | .createPublisher => portCall message PublisherOptions.deserialize .addPublisherForProcess
  | .createSubscriber => portCall message SubscriberOptions.deserialize .addSubscriberForProcess
  | .createClient => portCall message ClientOptions.deserialize .addClientForProcess
  | .createServer => portCall message ServerOptions.deserialize .addServerForProcess
  | .createConditionVariable =>
    if message.getNumberOfElements ≠ 2 then none else some .addConditionVariableForProcess
  | .createInterface =>
    if message.getNumberOfElements ≠ 4 then none
    else
      some (.addInterfaceForProcess (ProcessManager.stringToCaProInterface
        (cStr ((message.getElementAtIndex 2).take stringCapacity))))
  | .createNode =>
    if message.getNumberOfElements ≠ 3 then none
    else some (.addNodeForProcess (NodeProperty.nameOf (message.getElementAtIndex 2)))
  | .keepalive => some .updateLivelinessOfProcess
  | .prepareAppTermination =>
    if message.getNumberOfElements ≠ 2 then none
    else some .handleProcessShutdownPreparationRequest
  | .termination =>
    if message.getNumberOfElements ≠ 2 then none else some .unregisterProcess
  | _ => some .sendMessageNotSupportedToRuntime

def received (buffer : List Char) : IpcMessage := IpcMessage.setMessage {} (cStr buffer)

def command (message : IpcMessage) : IpcMessageType :=
  stringToIpcMessageType (cStr (message.getElementAtIndex 0))

def sender (message : IpcMessage) : String :=
  String.ofList ((message.getElementAtIndex 1).take stringCapacity)

def called (buffer : List Char) : Option Call :=
  if !(received buffer).isValid then none
  else callOf (received buffer) (command (received buffer))

section

variable {env : Surroundings} {s : ProcessManager} {name : String} {message : IpcMessage}

theorem callOf_ne_registerProcess {message : IpcMessage} {cmd : IpcMessageType}
    (hcmd : cmd ≠ .reg) (pid user : Nat) (t : Int) (versionInfo : List Char) :
    callOf message cmd ≠ some (.registerProcess pid user t versionInfo) := by
  have hport : ∀ {O : Type} (deserialize : List Char → Option O)
      (call : ServiceDescription → O → PortConfigInfo → Call),
      (∀ service options config,
        call service options config ≠ .registerProcess pid user t versionInfo) →
      portCall message deserialize call ≠ some (.registerProcess pid user t versionInfo) := by
    intro O deserialize call hcall h
    unfold portCall at h
    split at h
    · cases h
    · split at h
      · cases h
      · split at h
        · cases h
        · exact hcall _ _ _ (Option.some.inj h)
  cases cmd with
  | reg => exact absurd rfl hcmd
  | createPublisher => exact hport _ _ fun _ _ _ => nofun
  | createSubscriber => exact hport _ _ fun _ _ _ => nofun
  | createClient => exact hport _ _ fun _ _ _ => nofun
  | createServer => exact hport _ _ fun _ _ _ => nofun
  | createConditionVariable | createInterface | createNode | prepareAppTermination |
    termination =>
    simp only [callOf]
    split <;> nofun
  | _ =>
    intro h
    cases h

theorem createPort_eq {O : Type} (deserialize : List Char → Option O)
    (call : ServiceDescription → O → PortConfigInfo → Call)
    (add : ServiceDescription → O → ProcessManager → ProcessManager)
    (hadd : ∀ service options config, (call service options config).perform env name =
      add service options) :
    ProcessManager.createPort message deserialize add s =
      match portCall message deserialize call with
      | none => s
      | some c => c.perform env name s := by
  unfold ProcessManager.createPort portCall
  split
  · rfl
  · cases ServiceDescription.deserialize (message.getElementAtIndex 2) with
    | none => rfl
    | some service =>
      cases deserialize (message.getElementAtIndex 3) with
      | none => rfl
      | some options => simp only [hadd]

theorem processMessage_eq (cmd : IpcMessageType) :
    ProcessManager.processMessage env message cmd name s =
      match callOf message cmd with
      | none => s
      | some c => c.perform env name s := by
  cases cmd with
  | createPublisher => exact createPort_eq _ _ _ fun _ _ _ => rfl
  | createSubscriber => exact createPort_eq _ _ _ fun _ _ _ => rfl
  | createClient => exact createPort_eq _ _ _ fun _ _ _ => rfl
  | createServer => exact createPort_eq _ _ _ fun _ _ _ => rfl
  | reg | createConditionVariable | createInterface | createNode |
    prepareAppTermination | termination =>
    simp only [ProcessManager.processMessage, callOf]
    split <;> rfl
  | _ => rfl

theorem processRuntimeMessage_eq (buffer : List Char) :
    ProcessManager.processRuntimeMessage env buffer s =
      match called buffer with
      | none => s
      | some c => c.perform env (sender (received buffer)) s := by
  have hround : ProcessManager.processRuntimeMessage env buffer s =
      if !(received buffer).isValid then s
      else ProcessManager.processMessage env (received buffer) (command (received buffer))
        (sender (received buffer)) s := rfl
  rw [hround, called]
  cases (received buffer).isValid with
  | false => rfl
  | true => exact processMessage_eq _

end

/-- A serialization that yields its arguments, which are in the ranges that `inRange` states. -/
def Decodes {α : Type} (args : StateT (List Char) Option α) (inRange : α → Prop)
    (serialized : List Char) : Prop :=
  ∃ t, extract args serialized = some t ∧ inRange t

def ServiceDecodes : List Char → Prop :=
  Decodes ServiceDescription.extractArgs fun (_, scope, interfaceSource) =>
    scope < Scope.invalid.toUint16 ∧ interfaceSource < Interfaces.interfaceEnd.toUint16

def PublisherOptionsDecode : List Char → Prop :=
  Decodes PublisherOptions.extractArgs fun (_, subscriberTooSlowPolicy) =>
    subscriberTooSlowPolicy ≤ ConsumerTooSlowPolicy.discardOldestData.toUint8

def SubscriberOptionsDecode : List Char → Prop :=
  Decodes SubscriberOptions.extractArgs fun (_, queueFullPolicy) =>
    queueFullPolicy ≤ QueueFullPolicy.discardOldestData.toUint8

def ClientOptionsDecode : List Char → Prop :=
  Decodes ClientOptions.extractArgs fun (_, responseQueueFullPolicy, serverTooSlowPolicy) =>
    responseQueueFullPolicy ≤ QueueFullPolicy.discardOldestData.toUint8 ∧
      serverTooSlowPolicy ≤ ConsumerTooSlowPolicy.discardOldestData.toUint8

def ServerOptionsDecode : List Char → Prop :=
  Decodes ServerOptions.extractArgs fun (_, requestQueueFullPolicy, clientTooSlowPolicy) =>
    requestQueueFullPolicy ≤ QueueFullPolicy.discardOldestData.toUint8 ∧
      clientTooSlowPolicy ≤ ConsumerTooSlowPolicy.discardOldestData.toUint8

theorem isSome_bind_extract_iff {α β : Type} {args : StateT (List Char) Option α}
    {inRange : α → Prop} {f : α → Option β} (h : ∀ t, (f t).isSome = true ↔ inRange t)
    (serialized : List Char) :
    ((extract args serialized).bind f).isSome = true ↔ Decodes args inRange serialized := by
  unfold Decodes
  cases extract args serialized with
  | none => simp
  | some t => simpa using h t

theorem isSome_service_iff (serialized : List Char) :
    (ServiceDescription.deserialize serialized).isSome = true ↔ ServiceDecodes serialized := by
  refine isSome_bind_extract_iff ?_ serialized
  rintro ⟨d, scope, interfaceSource⟩
  simp

theorem isSome_publisherOptions_iff (serialized : List Char) :
    (PublisherOptions.deserialize serialized).isSome = true ↔
      PublisherOptionsDecode serialized := by
  refine isSome_bind_extract_iff ?_ serialized
  rintro ⟨o, subscriberTooSlowPolicy⟩
  simp

theorem isSome_subscriberOptions_iff (serialized : List Char) :
    (SubscriberOptions.deserialize serialized).isSome = true ↔
      SubscriberOptionsDecode serialized := by
  refine isSome_bind_extract_iff ?_ serialized
  rintro ⟨o, queueFullPolicy⟩
  simp

theorem isSome_clientOptions_iff (serialized : List Char) :
    (ClientOptions.deserialize serialized).isSome = true ↔ ClientOptionsDecode serialized := by
  refine isSome_bind_extract_iff ?_ serialized
  rintro ⟨o, responseQueueFullPolicy, serverTooSlowPolicy⟩
  simp

theorem isSome_serverOptions_iff (serialized : List Char) :
    (ServerOptions.deserialize serialized).isSome = true ↔ ServerOptionsDecode serialized := by
  refine isSome_bind_extract_iff ?_ serialized
  rintro ⟨o, requestQueueFullPolicy, clientTooSlowPolicy⟩
  simp

def PortConfigDecodes : List Char → Prop := Decodes PortConfigInfo.extractArgs fun _ => True

def NodePropertyDecodes : List Char → Prop := Decodes NodeProperty.extractArgs fun _ => True

def RegistrationDecodes (message : IpcMessage) : Prop :=
  (fromStringUint32 (cStr (message.getElementAtIndex 2))).isSome = true ∧
  (fromStringUint32 (cStr (message.getElementAtIndex 3))).isSome = true ∧
  (fromStringInt64 (cStr (message.getElementAtIndex 4))).isSome = true ∧
  Decodes VersionInfo.extractArgs (fun _ => True) (message.getElementAtIndex 5)

def InterfaceDecodes (element : List Char) : Prop :=
  ∃ i, fromStringInt32 (cStr (element.take stringCapacity)) = some i ∧
    0 ≤ i ∧ i < Interfaces.interfaceEnd.toUint16

def PortRequest (optionsDecode : List Char → Prop) (message : IpcMessage) : Prop :=
  message.getNumberOfElements = 5 ∧ ServiceDecodes (message.getElementAtIndex 2) ∧
    optionsDecode (message.getElementAtIndex 3) ∧ PortConfigDecodes (message.getElementAtIndex 4)

def WellFormedAs (message : IpcMessage) : IpcMessageType → Prop
  | .reg => message.getNumberOfElements = 6 ∧ RegistrationDecodes message
  | .createPublisher => PortRequest PublisherOptionsDecode message
  | .createSubscriber => PortRequest SubscriberOptionsDecode message
  | .createClient => PortRequest ClientOptionsDecode message
  | .createServer => PortRequest ServerOptionsDecode message
  | .createConditionVariable => message.getNumberOfElements = 2
  | .createInterface =>
    message.getNumberOfElements = 4 ∧ InterfaceDecodes (message.getElementAtIndex 2)
  | .createNode =>
    message.getNumberOfElements = 3 ∧ NodePropertyDecodes (message.getElementAtIndex 2)
  | .keepalive => True
  | .prepareAppTermination => message.getNumberOfElements = 2
  | .termination => message.getNumberOfElements = 2
  | _ => False

def WellFormedRequest (buffer : List Char) : Prop :=
  (received buffer).isValid = true ∧
    WellFormedAs (received buffer) (command (received buffer))

/-- The elements whose decoder reports a failure that nobody looks at do decode. -/
def UncheckedDecode (message : IpcMessage) : IpcMessageType → Prop
  | .reg => message.getNumberOfElements = 6 → RegistrationDecodes message
  | .createPublisher => message.getNumberOfElements = 5 →
    ServiceDecodes (message.getElementAtIndex 2) →
    PublisherOptionsDecode (message.getElementAtIndex 3) →
    PortConfigDecodes (message.getElementAtIndex 4)
  | .createSubscriber => message.getNumberOfElements = 5 →
    ServiceDecodes (message.getElementAtIndex 2) →
    SubscriberOptionsDecode (message.getElementAtIndex 3) →
    PortConfigDecodes (message.getElementAtIndex 4)
  | .createClient => message.getNumberOfElements = 5 →
    ServiceDecodes (message.getElementAtIndex 2) →
    ClientOptionsDecode (message.getElementAtIndex 3) →
    PortConfigDecodes (message.getElementAtIndex 4)
  | .createServer => message.getNumberOfElements = 5 →
    ServiceDecodes (message.getElementAtIndex 2) →
    ServerOptionsDecode (message.getElementAtIndex 3) →
    PortConfigDecodes (message.getElementAtIndex 4)
  | .createInterface => message.getNumberOfElements = 4 →
    InterfaceDecodes (message.getElementAtIndex 2)
  | .createNode => message.getNumberOfElements = 3 →
    NodePropertyDecodes (message.getElementAtIndex 2)
  | _ => True

section

variable {message : IpcMessage} {cmd : IpcMessageType}

theorem isSome_portCall_iff {O : Type} {deserialize : List Char → Option O}
    {optionsDecode : List Char → Prop}
    (h : ∀ serialized, (deserialize serialized).isSome = true ↔ optionsDecode serialized)
    (call : ServiceDescription → O → PortConfigInfo → Call) :
    (portCall message deserialize call).isSome = true ↔
      message.getNumberOfElements = 5 ∧ ServiceDecodes (message.getElementAtIndex 2) ∧
        optionsDecode (message.getElementAtIndex 3) := by
  rw [← h, ← isSome_service_iff]
  unfold portCall
  by_cases hcount : message.getNumberOfElements = 5
  · cases ServiceDescription.deserialize (message.getElementAtIndex 2) with
    | none => simp [hcount]
    | some service =>
      cases deserialize (message.getElementAtIndex 3) with
      | none => simp [hcount]
      | some options => simp [hcount]
  · simp [hcount]

theorem portCall_creates {O : Type} {deserialize : List Char → Option O}
    {call : ServiceDescription → O → PortConfigInfo → Call} {c : Call}
    (hcall : ∀ service options config, (call service options config).Creates)
    (h : portCall message deserialize call = some c) : c.Creates := by
  unfold portCall at h
  split at h
  · cases h
  · split at h
    · cases h
    · split at h
      · cases h
      · cases h
        exact hcall _ _ _

theorem creates_iff :
    (∃ c, callOf message cmd = some c ∧ c.Creates) ↔
      match cmd with
      | .reg => message.getNumberOfElements = 6
      | .createPublisher => message.getNumberOfElements = 5 ∧
        ServiceDecodes (message.getElementAtIndex 2) ∧
        PublisherOptionsDecode (message.getElementAtIndex 3)
      | .createSubscriber => message.getNumberOfElements = 5 ∧
        ServiceDecodes (message.getElementAtIndex 2) ∧
        SubscriberOptionsDecode (message.getElementAtIndex 3)
      | .createClient => message.getNumberOfElements = 5 ∧
        ServiceDecodes (message.getElementAtIndex 2) ∧
        ClientOptionsDecode (message.getElementAtIndex 3)
      | .createServer => message.getNumberOfElements = 5 ∧
        ServiceDecodes (message.getElementAtIndex 2) ∧
        ServerOptionsDecode (message.getElementAtIndex 3)
      | .createConditionVariable => message.getNumberOfElements = 2
      | .createInterface => message.getNumberOfElements = 4
      | .createNode => message.getNumberOfElements = 3
      | _ => False := by
  have hport : ∀ {O : Type} {deserialize : List Char → Option O}
      {call : ServiceDescription → O → PortConfigInfo → Call},
      (∀ service options config, (call service options config).Creates) →
      ((∃ c, portCall message deserialize call = some c ∧ c.Creates) ↔
        (portCall message deserialize call).isSome = true) := by
    intro O deserialize call hcall
    rw [Option.isSome_iff_exists]
    constructor
    · rintro ⟨c, hc, -⟩
      exact ⟨c, hc⟩
    · rintro ⟨c, hc⟩
      exact ⟨c, hc, portCall_creates hcall hc⟩
  cases cmd with
  | createPublisher =>
    refine (hport ?_).trans (isSome_portCall_iff isSome_publisherOptions_iff _)
    exact fun _ _ _ => trivial
  | createSubscriber =>
    refine (hport ?_).trans (isSome_portCall_iff isSome_subscriberOptions_iff _)
    exact fun _ _ _ => trivial
  | createClient =>
    refine (hport ?_).trans (isSome_portCall_iff isSome_clientOptions_iff _)
    exact fun _ _ _ => trivial
  | createServer =>
    refine (hport ?_).trans (isSome_portCall_iff isSome_serverOptions_iff _)
    exact fun _ _ _ => trivial
  | _ => simp [callOf, Call.Creates]

theorem portRequest_imp_iff {optionsDecode : List Char → Prop} :
    ((message.getNumberOfElements = 5 ∧ ServiceDecodes (message.getElementAtIndex 2) ∧
        optionsDecode (message.getElementAtIndex 3)) → PortRequest optionsDecode message) ↔
      (message.getNumberOfElements = 5 → ServiceDecodes (message.getElementAtIndex 2) →
        optionsDecode (message.getElementAtIndex 3) →
          PortConfigDecodes (message.getElementAtIndex 4)) := by
  constructor
  · intro h hcount hservice hoptions
    exact (h ⟨hcount, hservice, hoptions⟩).2.2.2
  · rintro h ⟨hcount, hservice, hoptions⟩
    exact ⟨hcount, hservice, hoptions, h hcount hservice hoptions⟩

theorem uncheckedDecode_iff :
    ((∃ c, callOf message cmd = some c ∧ c.Creates) → WellFormedAs message cmd) ↔
      UncheckedDecode message cmd := by
  rw [creates_iff]
  cases cmd with
  | createPublisher | createSubscriber | createClient | createServer =>
    exact portRequest_imp_iff
  | reg | createInterface | createNode =>
    exact ⟨fun h hcount => (h hcount).2, fun h hcount => ⟨hcount, h hcount⟩⟩
  | _ => simp [WellFormedAs, UncheckedDecode]

theorem wellFormed_of_not_creates {c : Call} (hc : callOf message cmd = some c)
    (hcreates : ¬ c.Creates) :
    WellFormedAs message cmd ∨ c = .sendMessageNotSupportedToRuntime := by
  have hnot : ¬ ∃ c, callOf message cmd = some c ∧ c.Creates := by
    rintro ⟨c', hc', h⟩
    rw [hc] at hc'
    cases hc'
    exact hcreates h
  cases cmd with
  | createPublisher | createSubscriber | createClient | createServer =>
    refine absurd ⟨c, hc, portCall_creates ?_ hc⟩ hnot
    exact fun _ _ _ => trivial
  | reg | createConditionVariable | createInterface | createNode =>
    simp only [callOf] at hc
    split at hc
    · cases hc
    · cases hc
      exact absurd trivial hcreates
  | keepalive => exact Or.inl trivial
  | prepareAppTermination | termination =>
    simp only [callOf] at hc
    split at hc
    · cases hc
    · next hcount => exact Or.inl (not_not.mp hcount)
  | _ =>
    cases hc
    exact Or.inr rfl

end

theorem sendMessageNotSupported_unchanged (name : String) (s : ProcessManager) :
    (s.sendMessageNotSupportedToRuntime name).processList = s.processList ∧
      (s.sendMessageNotSupportedToRuntime name).portManager = s.portManager := by
  unfold ProcessManager.sendMessageNotSupportedToRuntime
  split
  · exact ⟨rfl, rfl⟩
  · exact ⟨rfl, rfl⟩

/-- RouDi registers or adds something only on well-formed requests and other byte strings
change nothing, exactly as long as what it does not check decodes. -/
theorem acts_on_wellFormed_requests_iff (env : Surroundings) (buffer : List Char) :
    ((∀ c, called buffer = some c → c.Creates → WellFormedRequest buffer) ∧
      (¬ WellFormedRequest buffer → ∀ s,
        (ProcessManager.processRuntimeMessage env buffer s).processList = s.processList ∧
        (ProcessManager.processRuntimeMessage env buffer s).portManager = s.portManager)) ↔
    ((received buffer).isValid = true →
      UncheckedDecode (received buffer) (command (received buffer))) := by
  rw [← uncheckedDecode_iff]
  unfold WellFormedRequest called
  cases hvalid : (received buffer).isValid with
  | false =>
    have hnone : called buffer = none := by simp [called, hvalid]
    simp [processRuntimeMessage_eq, hnone]
  | true =>
    have hcalled : called buffer = callOf (received buffer) (command (received buffer)) := by
      simp [called, hvalid]
    simp only [Bool.not_true, Bool.false_eq_true, if_false, true_and, forall_const]
    constructor
    · rintro ⟨h, -⟩ ⟨c, hc, hcreates⟩
      exact h c hc hcreates
    · intro h
      refine ⟨fun c hc hcreates => h ⟨c, hc, hcreates⟩, ?_⟩
      intro hill s
      rw [processRuntimeMessage_eq, hcalled]
      cases hc : callOf (received buffer) (command (received buffer)) with
      | none => exact ⟨rfl, rfl⟩
      | some c =>
        rcases wellFormed_of_not_creates hc (fun hcreates => hill (h ⟨c, hc, hcreates⟩)) with
          hwell | rfl
        · exact absurd hwell hill
        · exact sendMessageNotSupported_unchanged _ s

theorem received_ofEntries {entries : List (List Char)}
    (hcomma : ∀ e ∈ entries, IpcMessage.separator ∉ e) (hnul : ∀ e ∈ entries, '\x00' ∉ e) :
    received (IpcMessage.ofEntries entries).getMessage = IpcMessage.ofEntries entries := by
  have hfree : '\x00' ∉ (IpcMessage.ofEntries entries).getMessage := by
    rw [IpcMessage.getMessage, IpcMessage.ofEntries_eq hcomma]
    simp only [Lib.Text.terminated, List.mem_flatMap, not_exists, not_and]
    intro e he
    simp [hnul e he, IpcMessage.separator]
  rw [received, cStr_eq_self hfree, IpcMessage.setMessage_ofEntries {} hcomma]

def illFormedReg : List (List Char) :=
  [['1'], ['a', 'p', 'p'], ['a', 'b', 'c'], ['1', '0', '0', '0'], ['4', '2'],
    create [['2'], ['0'], ['0'], ['0'], ['d', 'a', 't', 'e'], ['c', 'o', 'm', 'm', 'i', 't']]]

theorem ill_formed_registration_accepted :
    called (IpcMessage.ofEntries illFormedReg).getMessage =
      some (.registerProcess 0 1000 42 (illFormedReg.getD 5 [])) ∧
    ¬ WellFormedRequest (IpcMessage.ofEntries illFormedReg).getMessage := by
  have hcomma : ∀ e ∈ illFormedReg, IpcMessage.separator ∉ e := by decide
  have hreceived := received_ofEntries hcomma (by decide)
  have helement : ∀ i < 2 ^ 32, (IpcMessage.ofEntries illFormedReg).getElementAtIndex i =
      illFormedReg.getD i [] := fun i hi => IpcMessage.getElementAtIndex_ofEntries hcomma hi
  have hcommand : command (IpcMessage.ofEntries illFormedReg) = .reg := by
    rw [command, helement 0 (by decide)]
    decide
  have hcount : (IpcMessage.ofEntries illFormedReg).getNumberOfElements = 6 := by
    rw [IpcMessage.getNumberOfElements_ofEntries hcomma]
    decide
  constructor
  · have hvalid : (IpcMessage.ofEntries illFormedReg).isValid = true := by
      rw [IpcMessage.ofEntries_eq hcomma]
    rw [called, hreceived, hcommand, hvalid]
    simp only [callOf, hcount, helement 2 (by decide), helement 3 (by decide),
      helement 4 (by decide), helement 5 (by decide)]
    decide
  · rintro ⟨-, hwell⟩
    rw [hreceived, hcommand] at hwell
    obtain ⟨-, hpid, -⟩ := hwell
    rw [helement 2 (by decide)] at hpid
    exact absurd hpid (by decide)

structure PortLimits extends QueueLimits where
  history : Nat := 16
  history_lt : history < 2 ^ 32 := by decide
  subscriber_pos : 0 < subscriber := by decide
  response_pos : 0 < response := by decide
  request_pos : 0 < request := by decide

def InLimits (max capacity : Nat) : Prop := 1 ≤ capacity ∧ capacity ≤ max

theorem inLimits_limitCapacity {max : Nat} (capacity : Nat) (h : 0 < max) :
    InLimits max (limitCapacity max capacity) := by
  unfold InLimits limitCapacity
  split
  · exact ⟨h, Nat.le_refl max⟩
  · split
    · exact ⟨Nat.le_refl 1, h⟩
    · omega

def nodeNameOr (appName nodeName : String) : String :=
  if nodeName = "" then appName else nodeName

section requests

variable (limits : PortLimits) (appName : String) (service : ServiceDescription)
  (config : PortConfigInfo)

/-- RouDi is asked for this service, and the options are within the limits and apart from
that the given ones. -/
def PublisherArrives (o : PublisherOptions) : Prop :=
  ∃ o' config', called (getMiddlewarePublisher appName service o config).getMessage =
      some (.addPublisherForProcess service o' config') ∧
    o'.historyCapacity ≤ limits.history ∧
    o'.nodeName = nodeNameOr appName o.nodeName ∧
    { o' with historyCapacity := o.historyCapacity, nodeName := o.nodeName } = o

def SubscriberArrives (o : SubscriberOptions) : Prop :=
  ∃ o' config', called
      (getMiddlewareSubscriber limits.toQueueLimits appName service o config).getMessage =
      some (.addSubscriberForProcess service o' config') ∧
    InLimits limits.subscriber o'.queueCapacity ∧
    o'.historyRequest ≤ o'.queueCapacity ∧
    o'.nodeName = nodeNameOr appName o.nodeName ∧
    { o' with
      queueCapacity := o.queueCapacity
      historyRequest := o.historyRequest
      nodeName := o.nodeName } = o

def ClientArrives (o : ClientOptions) : Prop :=
  ∃ o' config', called
      (getMiddlewareClient limits.toQueueLimits appName service o config).getMessage =
      some (.addClientForProcess service o' config') ∧
    InLimits limits.response o'.responseQueueCapacity ∧
    { o' with responseQueueCapacity := o.responseQueueCapacity } = o

def ServerArrives (o : ServerOptions) : Prop :=
  ∃ o' config', called
      (getMiddlewareServer limits.toQueueLimits appName service o config).getMessage =
      some (.addServerForProcess service o' config') ∧
    InLimits limits.request o'.requestQueueCapacity ∧
    { o' with requestQueueCapacity := o.requestQueueCapacity } = o

end requests

section requests

variable {limits : PortLimits} {appName : String} {service : ServiceDescription}
  {config : PortConfigInfo}

theorem called_request {r : Request} (happ : PlainString appName) (hr : r.WellFormed) :
    called (r.message limits.toQueueLimits appName).getMessage =
      callOf (r.message limits.toQueueLimits appName) r.type := by
  have hcomma : ∀ e ∈ ipcMessageTypeToString r.type :: fixedToString appName ::
      r.arguments limits.toQueueLimits appName, IpcMessage.separator ∉ e :=
    fun e => Request.not_mem_entry happ hr (Or.inr rfl)
  have hnul : ∀ e ∈ ipcMessageTypeToString r.type :: fixedToString appName ::
      r.arguments limits.toQueueLimits appName, '\x00' ∉ e :=
    fun e => Request.not_mem_entry happ hr (Or.inl rfl)
  have hreceived := received_ofEntries hcomma hnul
  have hvalid : (r.message limits.toQueueLimits appName).isValid = true := by
    rw [r.message_eq, IpcMessage.ofEntries_eq hcomma]
  have hcommand : command (r.message limits.toQueueLimits appName) = r.type := by
    rw [command, ProcessManager.getElementAtIndex_request happ hr (by decide),
      List.getD_cons_zero, ProcessManager.cStr_ipcMessageTypeToString,
      stringToIpcMessageType_toString]
  rw [← r.message_eq] at hreceived
  rw [called, hreceived, hvalid, hcommand]
  rfl

theorem portCall_request {O : Type} {r : Request} (happ : PlainString appName) (hr : r.WellFormed)
    (hservice : PlainService service) {deserialize : List Char → Option O} {options c : List Char}
    (hargs : r.arguments limits.toQueueLimits appName = [service.serialize, options, c])
    (call : ServiceDescription → O → PortConfigInfo → Call) :
    portCall (r.message limits.toQueueLimits appName) deserialize call =
      if service.scope ≠ .invalid ∧ service.interfaceSource ≠ .interfaceEnd then
        (deserialize options).map fun o => call service o (.ofSerialization c)
      else none := by
  have hcount : (r.message limits.toQueueLimits appName).getNumberOfElements = 5 := by
    rw [ProcessManager.getNumberOfElements_request happ hr, hargs]
    rfl
  have helement : ∀ i < 2 ^ 32, (r.message limits.toQueueLimits appName).getElementAtIndex i = _ :=
    fun i hi => ProcessManager.getElementAtIndex_request happ hr hi
  rw [portCall, hcount, helement 2 (by decide), helement 3 (by decide), helement 4 (by decide),
    hargs]
  simp only [List.getD_cons_succ, List.getD_cons_zero,
    ServiceDescription.deserialize_serialize hservice.wellFormed, ne_eq, not_true_eq_false,
    if_false]
  by_cases hvalid : ¬ service.scope = .invalid ∧ ¬ service.interfaceSource = .interfaceEnd
  · simp only [hvalid, not_false_eq_true, and_self, if_true]
    cases deserialize options with
    | none => rfl
    | some o => rfl
  · simp only [if_neg hvalid]

def ValidService (d : ServiceDescription) : Prop :=
  d.scope ≠ .invalid ∧ d.interfaceSource ≠ .interfaceEnd

theorem exists_call_iff {O : Type} {call : ServiceDescription → O → PortConfigInfo → Call}
    (hinj : ∀ o o' c c', call service o c = call service o' c' → o = o') {x : Option O}
    {c : PortConfigInfo} {P : O → Prop} :
    (∃ o' config', (if service.scope ≠ .invalid ∧ service.interfaceSource ≠ .interfaceEnd then
        x.map fun o => call service o c else none) = some (call service o' config') ∧ P o') ↔
      ValidService service ∧ ∃ o', x = some o' ∧ P o' := by
  unfold ValidService
  by_cases hvalid : service.scope ≠ .invalid ∧ service.interfaceSource ≠ .interfaceEnd
  · simp only [if_pos hvalid, Option.map_eq_some_iff]
    constructor
    · rintro ⟨o', config', ⟨o, ho, hcall⟩, hP⟩
      exact ⟨hvalid, o', by rw [ho, hinj _ _ _ _ hcall], hP⟩
    · rintro ⟨-, o', ho, hP⟩
      exact ⟨o', c, ⟨o', ho, rfl⟩, hP⟩
  · simp [hvalid]

theorem publisherArrives_iff {o : PublisherOptions} (happ : PlainString appName)
    (hservice : PlainService service) (ho : o.WellFormed) (hnode : PlainString o.nodeName) :
    PublisherArrives limits appName service config o ↔
      ValidService service ∧ o.historyCapacity ≤ limits.history ∧
        (o.nodeName = "" → appName = "") := by
  have hr : Request.WellFormed (.publisher service o config) := ⟨hservice, ho, hnode⟩
  have hlt := limits.history_lt
  have hcalled : called (getMiddlewarePublisher appName service o config).getMessage = _ :=
    (@called_request limits _ _ happ hr).trans (portCall_request happ hr hservice rfl _)
  unfold PublisherArrives
  rw [hcalled, PublisherOptions.deserialize_serialize ho,
    exists_call_iff fun _ _ _ _ h => (Call.addPublisherForProcess.inj h).2.1]
  refine and_congr_right fun _ => ?_
  constructor
  · rintro ⟨o', ho', hle, hname, -⟩
    split at ho'
    · cases ho'
    · cases ho'
      refine ⟨hle, ?_⟩
      intro hempty
      rw [nodeNameOr, if_pos hempty, hempty] at hname
      exact hname.symm
  · rintro ⟨hle, hname⟩
    refine ⟨o, if_neg (by omega), hle, ?_, rfl⟩
    unfold nodeNameOr
    split
    · next hempty => rw [hempty, hname hempty]
    · rfl

theorem subscriberArrives_iff {o : SubscriberOptions} (happ : PlainString appName)
    (hservice : PlainService service) (ho : o.WellFormed) (hnode : PlainString o.nodeName) :
    SubscriberArrives limits appName service config o ↔
      ValidService service ∧
        (o.queueCapacity ≤ limits.subscriber ∨ o.historyRequest ≤ limits.subscriber) := by
  have hr : Request.WellFormed (.subscriber service o config) := ⟨hservice, ho, hnode⟩
  have hlt := limits.subscriber_lt
  have hin := inLimits_limitCapacity o.queueCapacity limits.subscriber_pos
  have hcalled : called
      (getMiddlewareSubscriber limits.toQueueLimits appName service o config).getMessage = _ :=
    (called_request happ hr).trans (portCall_request happ hr hservice rfl _)
  -- the request is limited by the capacity that was asked for, not by the one that is sent
  have hrequest : (subscriberOptionsSent limits.toQueueLimits appName o).historyRequest ≤
      (subscriberOptionsSent limits.toQueueLimits appName o).queueCapacity ↔
      o.queueCapacity ≤ limits.subscriber ∨ o.historyRequest ≤ limits.subscriber := by
    simp only [subscriberOptionsSent, limitCapacity]
    split <;> split <;> try split
    all_goals omega
  unfold SubscriberArrives
  rw [hcalled, SubscriberOptions.deserialize_serialize
      (ProcessManager.wellFormed_subscriberOptionsSent happ ho hnode),
    exists_call_iff fun _ _ _ _ h => (Call.addSubscriberForProcess.inj h).2.1, ← hrequest]
  refine and_congr_right fun _ => ?_
  constructor
  · rintro ⟨o', ho', -, hle, -⟩
    split at ho'
    · cases ho'
    · split at ho'
      · cases ho'
      · cases ho'
        exact hle
  · intro hle
    have hqueue : (subscriberOptionsSent limits.toQueueLimits appName o).queueCapacity < 2 ^ 32 :=
      Nat.lt_of_le_of_lt hin.2 hlt
    refine ⟨_, ?_, hin, hle, rfl, rfl⟩
    rw [if_neg (by omega), if_neg (by omega)]

theorem clientArrives_iff {o : ClientOptions} (happ : PlainString appName)
    (hservice : PlainService service) (ho : o.WellFormed) (hnode : PlainString o.nodeName) :
    ClientArrives limits appName service config o ↔ ValidService service := by
  have hr : Request.WellFormed (.client service o config) := ⟨hservice, ho, hnode⟩
  have hlt := limits.response_lt
  have hin : InLimits limits.response
      (clientOptionsSent limits.toQueueLimits o).responseQueueCapacity :=
    inLimits_limitCapacity o.responseQueueCapacity limits.response_pos
  have hqueue := hin.2
  have hcalled : called
      (getMiddlewareClient limits.toQueueLimits appName service o config).getMessage = _ :=
    (called_request happ hr).trans (portCall_request happ hr hservice rfl _)
  have hsent : (clientOptionsSent limits.toQueueLimits o).WellFormed := ⟨by omega, ho.node⟩
  have hne : (clientOptionsSent limits.toQueueLimits o).responseQueueCapacity ≠ 2 ^ 64 - 1 := by
    omega
  unfold ClientArrives
  rw [hcalled, ClientOptions.deserialize_serialize hsent, if_neg hne,
    exists_call_iff fun _ _ _ _ h => (Call.addClientForProcess.inj h).2.1]
  exact and_iff_left ⟨_, rfl, hin, rfl⟩

theorem serverArrives_iff {o : ServerOptions} (happ : PlainString appName)
    (hservice : PlainService service) (ho : o.WellFormed) (hnode : PlainString o.nodeName) :
    ServerArrives limits appName service config o ↔ ValidService service := by
  have hr : Request.WellFormed (.server service o config) := ⟨hservice, ho, hnode⟩
  have hlt := limits.request_lt
  have hin : InLimits limits.request
      (serverOptionsSent limits.toQueueLimits o).requestQueueCapacity :=
    inLimits_limitCapacity o.requestQueueCapacity limits.request_pos
  have hqueue := hin.2
  have hcalled : called
      (getMiddlewareServer limits.toQueueLimits appName service o config).getMessage = _ :=
    (called_request happ hr).trans (portCall_request happ hr hservice rfl _)
  have hsent : (serverOptionsSent limits.toQueueLimits o).WellFormed := ⟨by omega, ho.node⟩
  have hne : (serverOptionsSent limits.toQueueLimits o).requestQueueCapacity ≠ 2 ^ 64 - 1 := by
    omega
  unfold ServerArrives
  rw [hcalled, ServerOptions.deserialize_serialize hsent, if_neg hne,
    exists_call_iff fun _ _ _ _ h => (Call.addServerForProcess.inj h).2.1]
  exact and_iff_left ⟨_, rfl, hin, rfl⟩

end requests

/-- Port requests for a valid service arrive within the limits, but for a publisher whose
history capacity is too large or whose node name is empty, and for a subscriber that asks for
too large a queue and for more history than a queue can hold. -/
theorem port_requests_normalised_iff {limits : PortLimits} {appName : String}
    {service : ServiceDescription} {config : PortConfigInfo} (happ : PlainString appName)
    (hservice : PlainService service) :
    (∀ o : PublisherOptions, o.WellFormed → PlainString o.nodeName →
      (PublisherArrives limits appName service config o ↔
        ValidService service ∧ o.historyCapacity ≤ limits.history ∧
          (o.nodeName = "" → appName = ""))) ∧
    (∀ o : SubscriberOptions, o.WellFormed → PlainString o.nodeName →
      (SubscriberArrives limits appName service config o ↔
        ValidService service ∧
          (o.queueCapacity ≤ limits.subscriber ∨ o.historyRequest ≤ limits.subscriber))) ∧
    (∀ o : ClientOptions, o.WellFormed → PlainString o.nodeName →
      (ClientArrives limits appName service config o ↔ ValidService service)) ∧
    ∀ o : ServerOptions, o.WellFormed → PlainString o.nodeName →
      (ServerArrives limits appName service config o ↔ ValidService service) := by
  refine ⟨?_, ?_, ?_, ?_⟩
  · intro o ho hnode
    exact publisherArrives_iff happ hservice ho hnode
  · intro o ho hnode
    exact subscriberArrives_iff happ hservice ho hnode
  · intro o ho hnode
    exact clientArrives_iff happ hservice ho hnode
  · intro o ho hnode
    exact serverArrives_iff happ hservice ho hnode

theorem port_requests_normalised_subscriber :
    PlainString "app" ∧ PlainService PortManager.radar ∧
    SubscriberArrives {} "app" PortManager.radar {}
      { queueCapacity := 0, historyRequest := 7, nodeName := "3:a" } := by
  have happ : PlainString "app" := ⟨by decide, by decide⟩
  have hservice := ProcessManager.plainService_radar
  refine ⟨happ, hservice, ((port_requests_normalised_iff happ hservice).2.1 _
    ⟨by decide, by decide, by decide⟩ ⟨by decide, by decide⟩).mpr ?_⟩
  exact ⟨⟨by decide, by decide⟩, Or.inl (by decide)⟩

theorem history_capacity_not_limited :
    ¬ PublisherArrives {} "app" PortManager.radar {}
      { historyCapacity := 17, nodeName := "node" } := by
  have happ : PlainString "app" := ⟨by decide, by decide⟩
  rw [publisherArrives_iff happ ProcessManager.plainService_radar ⟨by decide, by decide⟩
    ⟨by decide, by decide⟩]
  rintro ⟨-, hle, -⟩
  exact absurd hle (by decide)

end Roudi

end Iceoryx
