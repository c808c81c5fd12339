import Iceoryx.Lib.Pipeline
import Iceoryx.Lib.Run
import Iceoryx.Roudi.Acknowledgements

/-! The registration of an application: the loop of the constructor of
`IpcRuntimeInterface` against RouDi.  Every message that is written, carried and read is a
step of its own, and what another application or RouDi itself does comes in between. -/

namespace Iceoryx.Runtime

open Hoofs Roudi
open Hoofs.Convert hiding toString

structure VersionInfo where
  versionMajor : Nat
  versionMinor : Nat
  versionPatch : Nat
  versionTweak : Nat
  buildDateString : String
  commitIdString : String

def VersionInfo.serialize (v : VersionInfo) : List Char :=
  Serialization.create [Convert.toString v.versionMajor, Convert.toString v.versionMinor,
    Convert.toString v.versionPatch, Convert.toString v.versionTweak,
    fixedToString v.buildDateString, fixedToString v.commitIdString]

structure Application where
  runtimeName : String
  pid : Nat
  user : Nat
  currentVersion : VersionInfo
  fixed : FixedString runtimeName

namespace Application

def regEntries (app : Application) (transmissionTimestamp : Int) : List (List Char) :=
  [ipcMessageTypeToString .reg, fixedToString app.runtimeName, Convert.toString app.pid,
    Convert.toString app.user, intToString transmissionTimestamp, app.currentVersion.serialize]

def reg (app : Application) (transmissionTimestamp : Int) : IpcMessage :=
  .ofEntries (app.regEntries transmissionTimestamp)

def isFrom (app : Application) (buffer : List Char) : Bool :=
  sender (received buffer) = app.runtimeName

end Application

/-- What RouDi tells about the management segment.  The largest number stands for the null
pointer. -/
structure Announcement where
  mgmtSize : Nat
  segmentManagerOffset : Nat
  mgmtSegmentId : Nat
  size_lt : mgmtSize < addressRange - 1
  offset_lt : segmentManagerOffset < addressRange - 1
  id_lt : mgmtSegmentId < addressRange - 1

namespace Announcement

def surroundings (a : Announcement) (env : Surroundings) (now : Int) : Surroundings :=
  { env with
    mgmtSize := a.mgmtSize
    segmentManagerOffset := a.segmentManagerOffset
    mgmtSegmentId := a.mgmtSegmentId
    now := now }

def regAckEntries (a : Announcement) (transmissionTimestamp : Int) : List (List Char) :=
  [ipcMessageTypeToString .regAck, Convert.toString a.mgmtSize,
    Convert.toString a.segmentManagerOffset, intToString transmissionTimestamp,
    Convert.toString a.mgmtSegmentId]

def regAck (a : Announcement) (transmissionTimestamp : Int) : IpcMessage :=
  .ofEntries (a.regAckEntries transmissionTimestamp)

end Announcement

inductive RegState
  | waitForRoudi | sendRegisterRequest | waitForRegisterAck | finished
  deriving DecidableEq, Repr

namespace Registration

/-- The loop is at its head, in one of the cases or has ended; `finished` at the head is
the end of the constructor, after which comes the first request. -/
inductive Pc
  | loop (regState : RegState)
  | waitForRoudi
  | readClock
  | timedSend
  | waitForRegAck (retryCounter : Nat)
  | expired (regState : RegState)
  | terminated
  | requested
  | answered (answer : IpcMessage)
  deriving DecidableEq, Repr

inductive Act
  | iterate (hasExpired channelUsable : Bool)
  | waitForRoudi (isInitialized : Bool)
  | readClock (now : Int)
  | timedSend (successfullySent : Bool)
  | timedReceive (inTime : Bool)
  | sendRequestToRouDi (msg : IpcMessage)
  | receive
  | others (buffer : List Char)
  | processRuntimeMessage (now : Int) (announcement : Announcement)
  | manage (now : Int) (op : ManagerOp)
  | arrive

end Registration

/-- `requests` is the channel of RouDi, `channel` the one of the application and `onTheWay`
what RouDi has written to it.  The last two fields record the registrations that were sent
and, for each one that RouDi has handled, what RouDi wrote in return. -/
structure Registration where
  pc : Registration.Pc
  transmissionTimestamp : Int
  clock : Int
  shmTopicSize : Nat
  segmentManagerAddressOffset : Option Nat
  segmentId : Nat
  roudi : ProcessManager
  requests : List (List Char)
  onTheWay : List IpcMessage
  channel : List IpcMessage
  registered : List Int
  answers : List (List Char × List IpcMessage)

namespace Registration

def start (roudi : ProcessManager) (requests : List (List Char)) (clock : Int) : Registration where
  pc := .loop .waitForRoudi
  transmissionTimestamp := 0
  clock := clock
  shmTopicSize := 0
  segmentManagerAddressOffset := none
  segmentId := 0
  roudi := roudi
  requests := requests
  onTheWay := []
  channel := []
  registered := []
  answers := []

def Pc.case : RegState → Pc
  | .waitForRoudi => .waitForRoudi
  | .sendRegisterRequest => .readClock
  | .waitForRegisterAck => .waitForRegAck 0
  | .finished => .loop .finished

def iterate (s : Registration) (hasExpired channelUsable : Bool) : Option Registration :=
  match s.pc with
  | .loop .finished => none
  | .loop regState =>
    if hasExpired then some { s with pc := .expired regState }
    else some { s with pc := .case (if channelUsable then regState else .waitForRoudi) }
  | _ => none

def waitForRoudi (s : Registration) (isInitialized : Bool) : Option Registration :=
  match s.pc with
  | .waitForRoudi =>
    some { s with pc := .loop (if isInitialized then .sendRegisterRequest else .waitForRoudi) }
  | _ => none

/-- The clock counts nanoseconds in 64 bits.  It is read again until it shows another
microsecond. -/
def readClock (s : Registration) (now : Int) : Option Registration :=
  match s.pc with
  | .readClock =>
    if s.clock ≤ now ∧ -2 ^ 63 ≤ now ∧ now < 2 ^ 63 then
      let timestamp := now.tdiv 1000
      if s.transmissionTimestamp = timestamp then some { s with clock := now }
      else
        some { s with
          clock := now
          transmissionTimestamp := timestamp
          pc := .timedSend }
    else none
  | _ => none

def timedSend (app : Application) (s : Registration) (successfullySent : Bool) :
    Option Registration :=
  match s.pc with
  | .timedSend =>
    let sendBuffer := app.reg s.transmissionTimestamp
    if successfullySent then
      if sendBuffer.isValid then
        some { s with
          requests := s.requests ++ [sendBuffer.getMessage]
          registered := s.registered ++ [s.transmissionTimestamp]
          pc := .loop .waitForRegisterAck }
      else none
    else some { s with pc := .loop .waitForRoudi }
  | _ => none

def Pc.retry (retryCounter : Nat) : Pc :=
  if retryCounter < 3 then .waitForRegAck retryCounter else .loop .waitForRoudi

/-- The values are stored before the timestamp is looked at. -/
def storeRegAck (s : Registration) (receiveBuffer : IpcMessage) (retryCounter : Nat) :
    Registration :=
  let receivedTimestamp := (fromStringInt64 (cStr (receiveBuffer.getElementAtIndex 3))).getD 0
  { s with
    shmTopicSize :=
      (fromStringUint64 (cStr (receiveBuffer.getElementAtIndex 1))).getD s.shmTopicSize
    segmentManagerAddressOffset :=
      some ((fromStringUint64 (cStr (receiveBuffer.getElementAtIndex 2))).getD 0)
    segmentId := (fromStringUint64 (cStr (receiveBuffer.getElementAtIndex 4))).getD s.segmentId
    pc := if s.transmissionTimestamp = receivedTimestamp then .loop .finished
      else .retry (retryCounter + 1) }

def receiveRegAck (s : Registration) (receiveBuffer : IpcMessage) (retryCounter : Nat) :
    Registration :=
  if !receiveBuffer.isValid then { s with pc := .retry (retryCounter + 1) }
  else if command receiveBuffer = .regAck then
    if receiveBuffer.getNumberOfElements ≠ 5 then { s with pc := .terminated }
    else s.storeRegAck receiveBuffer retryCounter
  else { s with pc := .retry (retryCounter + 1) }

def timedReceive (s : Registration) (inTime : Bool) : Option Registration :=
  match s.pc with
  | .waitForRegAck retryCounter =>
    if inTime then
      match s.channel with
      | [] => none
      | m :: channel =>
        some ({ s with channel := channel }.receiveRegAck (received m.getMessage) retryCounter)
    else some { s with pc := .retry (retryCounter + 1) }
  | _ => none

def sendRequestToRouDi (s : Registration) (msg : IpcMessage) : Option Registration :=
  match s.pc with
  | .loop .finished =>
    if msg.isValid ∧ command (received msg.getMessage) ≠ .reg then
      some { s with
        requests := s.requests ++ [msg.getMessage]
        pc := .requested }
    else none
  | _ => none

def receive (s : Registration) : Option Registration :=
  match s.pc, s.channel with
  | .requested, m :: channel =>
    some { s with
      channel := channel
      pc := .answered (received m.getMessage) }
  | _, _ => none

def written (app : Application) (sent sent' : List (String × IpcMessage)) : List IpcMessage :=
  ((sent'.drop sent.length).filter fun p => p.1 = app.runtimeName && p.2.isValid).map Prod.snd

def processRuntimeMessage (env : Surroundings) (app : Application) (s : Registration) :
    Option Registration :=
  match s.requests with
  | [] => none
  | buffer :: requests =>
    let roudi := s.roudi.processRuntimeMessage env buffer
    let messages := written app s.roudi.sent roudi.sent
    some { s with
      roudi := roudi
      requests := requests
      onTheWay := s.onTheWay ++ messages
      answers := if app.isFrom buffer && command (received buffer) = .reg then
        s.answers ++ [(buffer, messages)] else s.answers }

def manage (env : Surroundings) (app : Application) (s : Registration) :
    ManagerOp → Option Registration
  | .call .. => none
  | .monitorProcesses =>
    if s.roudi.processList.any fun p => ProcessManager.notResponding env p &&
        p.name = app.runtimeName then none
    else some { s with roudi := s.roudi.apply env .monitorProcesses }
  | op => some { s with roudi := s.roudi.apply env op }

def arrive (s : Registration) : Option Registration :=
  match s.onTheWay with
  | [] => none
  | m :: onTheWay =>
    some { s with
      channel := s.channel ++ [m]
      onTheWay := onTheWay }

def step (env : Surroundings) (app : Application) (s : Registration) :
    Act → Option Registration
  | .iterate hasExpired channelUsable => s.iterate hasExpired channelUsable
  | .waitForRoudi isInitialized => s.waitForRoudi isInitialized
  | .readClock now => s.readClock now
  | .timedSend successfullySent => s.timedSend app successfullySent
  | .timedReceive inTime => s.timedReceive inTime
  | .sendRequestToRouDi msg => s.sendRequestToRouDi msg
  | .receive => s.receive
  | .others buffer =>
    if app.isFrom buffer then none else some { s with requests := s.requests ++ [buffer] }
  | .processRuntimeMessage now announcement =>
    s.processRuntimeMessage (announcement.surroundings env now) app
  | .manage now op => s.manage { env with now := now } app op
  | .arrive => s.arrive

end Registration

def Representable (t : Int) : Prop := -2 ^ 63 < t ∧ t < 2 ^ 63 - 1

theorem representable_tdiv {now : Int} (hleast : -2 ^ 63 ≤ now) (hgreatest : now < 2 ^ 63) :
    Representable (now.tdiv 1000) := by
  have hlow := Int.tdiv_le_tdiv (c := 1000) (by decide) hleast
  have hhigh := Int.tdiv_le_tdiv (c := 1000) (by decide) hgreatest.le
  have hleast' : (-2 ^ 63 : Int) < (-2 ^ 63 : Int).tdiv 1000 := by decide
  have hgreatest' : (2 ^ 63 : Int).tdiv 1000 < 2 ^ 63 - 1 := by decide
  exact ⟨hleast'.trans_le hlow, hhigh.trans_lt hgreatest'⟩

theorem Special.not_mem_intToString {c : Char} (h : Special c) (t : Int) : c ∉ intToString t :=
  Convert.not_mem_intToString h.isDigit (by rcases h with rfl | rfl <;> decide)

namespace Announcement

variable (a : Announcement) (t : Int)

theorem not_mem_regAckEntries {c : Char} (hc : Special c) : ∀ e ∈ a.regAckEntries t, c ∉ e := by
  simp [regAckEntries, ipcMessageTypeToString, hc.not_mem_toString, hc.not_mem_intToString]

theorem received_regAck : received (a.regAck t).getMessage = a.regAck t :=
  received_ofEntries (fun e he => a.not_mem_regAckEntries t (Or.inr rfl) e he)
    (fun e he => a.not_mem_regAckEntries t (Or.inl rfl) e he)

theorem element_regAck {i : Nat} (hi : i < 2 ^ 32) :
    (a.regAck t).getElementAtIndex i = (a.regAckEntries t).getD i [] :=
  IpcMessage.getElementAtIndex_ofEntries (a.not_mem_regAckEntries t (Or.inr rfl)) hi

theorem isValid_regAck : (a.regAck t).isValid = true := by
  rw [regAck, IpcMessage.ofEntries_eq (a.not_mem_regAckEntries t (Or.inr rfl))]

theorem command_regAck : command (a.regAck t) = .regAck := by
  rw [command, a.element_regAck t (by decide)]
  exact (congrArg stringToIpcMessageType (ProcessManager.cStr_ipcMessageTypeToString .regAck)).trans
    (stringToIpcMessageType_toString .regAck)

theorem count_regAck : (a.regAck t).getNumberOfElements = 5 :=
  IpcMessage.getNumberOfElements_ofEntries (a.not_mem_regAckEntries t (Or.inr rfl))

end Announcement

theorem fromStringInt64_cStr {t : Int} (ht : Representable t) :
    fromStringInt64 (cStr (intToString t)) = some t := by
  rw [cStr_eq_self (Convert.not_mem_intToString (by decide) (by decide)),
    fromStringInt64_intToString ht.1 ht.2]

theorem Registration.receiveRegAck_regAck (s : Registration) (a : Announcement) {t : Int}
    (ht : Representable t) (retryCounter : Nat) :
    s.receiveRegAck (received (a.regAck t).getMessage) retryCounter =
      { s with
        shmTopicSize := a.mgmtSize
        segmentManagerAddressOffset := some a.segmentManagerOffset
        segmentId := a.mgmtSegmentId
        pc := if s.transmissionTimestamp = t then .loop .finished
          else .retry (retryCounter + 1) } := by
  rw [a.received_regAck, receiveRegAck, a.isValid_regAck, a.command_regAck, a.count_regAck]
  simp only [Bool.not_true, Bool.false_eq_true, if_false, if_true, ne_eq, not_true_eq_false,
    storeRegAck]
  rw [a.element_regAck t (by decide), a.element_regAck t (by decide),
    a.element_regAck t (by decide), a.element_regAck t (by decide)]
  simp only [Announcement.regAckEntries, List.getD_cons_succ, List.getD_cons_zero,
    fromStringUint64_toString a.size_lt, fromStringUint64_toString a.offset_lt,
    fromStringUint64_toString a.id_lt, fromStringInt64_cStr ht, Option.getD_some]

namespace Application

variable {app : Application} {t : Int}

theorem nul_not_mem_regEntries : ∀ e ∈ app.regEntries t, '\x00' ∉ e := by
  have hnul : Special '\x00' := Or.inl rfl
  have hversion : '\x00' ∉ app.currentVersion.serialize := by
    apply hnul.not_mem_create
    simp [hnul.not_mem_toString, fixedToString, nul_not_mem_cStr]
  simp [regEntries, ipcMessageTypeToString, hnul.not_mem_toString, hnul.not_mem_intToString,
    hversion, fixedToString, nul_not_mem_cStr]

section Valid

variable (hvalid : (app.reg t).isValid = true)
include hvalid

theorem separator_not_mem_regEntries : ∀ e ∈ app.regEntries t, IpcMessage.separator ∉ e :=
  IpcMessage.not_mem_of_isValid (m := {}) hvalid

theorem received_reg : received (app.reg t).getMessage = app.reg t :=
  received_ofEntries (separator_not_mem_regEntries hvalid) nul_not_mem_regEntries

theorem element_reg {i : Nat} (hi : i < 2 ^ 32) :
    (app.reg t).getElementAtIndex i = (app.regEntries t).getD i [] :=
  IpcMessage.getElementAtIndex_ofEntries (separator_not_mem_regEntries hvalid) hi

theorem command_reg : command (app.reg t) = .reg := by
  rw [command, element_reg hvalid (by decide)]
  exact (congrArg stringToIpcMessageType (ProcessManager.cStr_ipcMessageTypeToString .reg)).trans
    (stringToIpcMessageType_toString .reg)

theorem sender_reg : sender (app.reg t) = app.runtimeName := by
  rw [sender, element_reg hvalid (by decide)]
  simp only [regEntries, List.getD_cons_succ, List.getD_cons_zero, fixedToString]
  rw [cStr_eq_self app.fixed.2, List.take_of_length_le app.fixed.1, String.ofList_toList]

theorem called_reg (ht : Representable t) : ∃ pid user,
    called (app.reg t).getMessage =
      some (.registerProcess pid user t app.currentVersion.serialize) := by
  have hcount : (app.reg t).getNumberOfElements = 6 :=
    IpcMessage.getNumberOfElements_ofEntries (separator_not_mem_regEntries hvalid)
  rw [called, received_reg hvalid, command_reg hvalid, hvalid, callOf, hcount,
    element_reg hvalid (by decide), element_reg hvalid (by decide),
    element_reg hvalid (by decide), element_reg hvalid (by decide)]
  simp only [regEntries, List.getD_cons_succ, List.getD_cons_zero, fromStringInt64_cStr ht,
    Option.getD_some, Bool.not_true, Bool.false_eq_true, ne_eq, not_true_eq_false, if_false]
  exact ⟨_, _, rfl⟩

end Valid

end Application

namespace Registration

open ProcessManager (addProcess registerProcess sent_searchForProcess)

variable {env : Surroundings} {app : Application} {roudi roudi' : ProcessManager}
  {buffer : List Char}
  {a : Announcement} {now t : Int}

theorem registerProcess_answer (name : String) (pid user : Nat) (versionInfo : List Char) :
    let roudi' := registerProcess (a.surroundings env now) name pid user t versionInfo roudi
    roudi'.sent = roudi.sent ∨
      roudi'.sent = roudi.sent ++ [(name, a.regAck t)] ∧ roudi'.IsRegistered name := by
  have hadd : ∀ s : ProcessManager, s.sent = roudi.sent →
      let s' := addProcess (a.surroundings env now) name pid user t versionInfo s
      s'.sent = roudi.sent ∨
        s'.sent = roudi.sent ++ [(name, a.regAck t)] ∧ s'.IsRegistered name := by
    intro s hsent
    unfold addProcess
    split
    · exact Or.inl hsent
    · split
      · exact Or.inl hsent
      · refine Or.inr ⟨?_, _, List.mem_append_right _ (List.mem_singleton_self _), rfl⟩
        rw [← hsent]
        rfl
  unfold registerProcess
  split
  · exact hadd _ ((sent_searchForProcess name .doNotSendAckToProcess roudi).resolve_right
      (by simp))
  · exact hadd roudi rfl

theorem written_self (sent : List (String × IpcMessage)) : written app sent sent = [] := by
  rw [written, List.drop_length, List.filter_nil, List.map_nil]

theorem written_append (sent : List (String × IpcMessage)) (name : String) (m : IpcMessage) :
    written app sent (sent ++ [(name, m)]) =
      if name = app.runtimeName ∧ m.isValid = true then [m] else [] := by
  rw [written, List.drop_left]
  by_cases h : name = app.runtimeName ∧ m.isValid = true
  · rw [if_pos h]
    simp [h]
  · rw [if_neg h, List.map_eq_nil_iff, List.filter_eq_nil_iff]
    simpa using h

theorem owned_surroundings : roudi.Owned (a.surroundings env now) ↔ roudi.Owned env :=
  ⟨fun h => ⟨h.names, h.bounded, h.within, h.owners⟩,
    fun h => ⟨h.names, h.bounded, h.within, h.owners⟩⟩

theorem owned_process (h : roudi.Owned env) :
    (roudi.processRuntimeMessage (a.surroundings env now) buffer).Owned env := by
  rw [processRuntimeMessage_eq]
  split
  · exact h
  · exact owned_surroundings.mp ((owned_surroundings.mpr h).perform _)

theorem process_others (h : roudi.Owned env) (hfrom : app.isFrom buffer = false)
    (hroudi : roudi.processRuntimeMessage (a.surroundings env now) buffer = roudi') :
    written app roudi.sent roudi'.sent = [] ∧
      (roudi'.IsRegistered app.runtimeName ↔ roudi.IsRegistered app.runtimeName) := by
  have hne : sender (received buffer) ≠ app.runtimeName := by simpa [Application.isFrom] using hfrom
  rw [processRuntimeMessage_eq] at hroudi
  split at hroudi <;> subst hroudi
  · exact ⟨written_self _, Iff.rfl⟩
  · next c _ =>
    refine ⟨?_, (owned_surroundings.mpr h).isRegistered_perform c hne.symm⟩
    rcases ProcessManager.sent_perform c with hsent | ⟨m, hsent⟩
    · rw [hsent]
      exact written_self _
    · rw [hsent, written_append, if_neg (fun h => hne h.1)]

theorem process_reg (hvalid : (app.reg t).isValid = true) (ht : Representable t)
    (hroudi : roudi.processRuntimeMessage (a.surroundings env now) (app.reg t).getMessage =
      roudi') :
    written app roudi.sent roudi'.sent = [] ∨
      written app roudi.sent roudi'.sent = [a.regAck t] ∧
        roudi'.IsRegistered app.runtimeName := by
  obtain ⟨pid, user, hcalled⟩ := Application.called_reg hvalid ht
  rw [processRuntimeMessage_eq, hcalled, Application.received_reg hvalid,
    Application.sender_reg hvalid] at hroudi
  subst hroudi
  rcases @registerProcess_answer env roudi a now t app.runtimeName pid user
    app.currentVersion.serialize with hsent | ⟨hsent, hregistered⟩
  · left
    simp only [Call.perform, hsent]
    exact written_self _
  · refine Or.inr ⟨?_, hregistered⟩
    simp only [Call.perform, hsent]
    rw [written_append, if_pos ⟨rfl, a.isValid_regAck t⟩]

theorem process_request (hcommand : command (received buffer) ≠ .reg)
    (hroudi : roudi.processRuntimeMessage (a.surroundings env now) buffer = roudi') :
    ∀ m ∈ written app roudi.sent roudi'.sent, command (received m.getMessage) ≠ .regAck := by
  rw [processRuntimeMessage_eq] at hroudi
  split at hroudi <;> subst hroudi
  · rw [written_self]
    nofun
  · next c hcalled =>
    have hc : ∀ pid user t versionInfo, c ≠ .registerProcess pid user t versionInfo := by
      rintro pid user t versionInfo rfl
      unfold called at hcalled
      split at hcalled
      · cases hcalled
      · exact callOf_ne_registerProcess hcommand pid user t versionInfo hcalled
    rcases @ProcessManager.sent_perform_of_not_register (a.surroundings env now) roudi
      (sender (received buffer)) c hc with hsent | ⟨type, rest, htype, hrest, hsent⟩
    · rw [hsent, written_self]
      nofun
    · rw [hsent, written_append]
      split
      · intro m hm
        rw [List.mem_singleton.mp hm, ProcessManager.command_received hrest]
        exact htype
      · nofun

theorem owned_now (h : roudi.Owned env) : roudi.Owned { env with now := now } := h.at_any_time

theorem of_owned_now (h : roudi.Owned { env with now := now }) : roudi.Owned env :=
  ⟨h.names, h.bounded, h.within, h.owners⟩

theorem manage_eq_some {s s' : Registration} {op : ManagerOp} (h : s.roudi.Owned env)
    (hs : s.manage { env with now := now } app op = some s') :
    ∃ roudi, s' = { s with roudi := roudi } ∧ roudi.Owned env ∧
      (s.roudi.IsRegistered app.runtimeName → roudi.IsRegistered app.runtimeName) := by
  have howned : (s.roudi.apply { env with now := now } op).Owned env :=
    of_owned_now ((owned_now h).apply op)
  cases op with
  | call name c => cases hs
  | monitorProcesses =>
    simp only [manage] at hs
    split at hs
    · cases hs
    · next hresponding =>
      refine ⟨_, (Option.some.inj hs).symm, howned, ?_⟩
      intro hregistered
      rw [ProcessManager.apply, (h.monitorProcesses_removed _).processes]
      refine ⟨hregistered, ?_⟩
      rintro ⟨p, hp, hsilent, hname⟩
      apply hresponding
      rw [List.any_eq_true]
      exact ⟨p, hp, by simp [hsilent, hname]⟩
  | _ =>
    refine ⟨_, (Option.some.inj hs).symm, howned, ?_⟩
    simp only [ProcessManager.IsRegistered, ProcessManager.apply, ProcessManager.discoveryUpdate,
      ProcessManager.addIntrospectionPublisherPort]
    exact id

theorem processRuntimeMessage_eq_some {s s' : Registration}
    (hs : s.processRuntimeMessage env app = some s') :
    ∃ buffer requests roudi messages, s.requests = buffer :: requests ∧
      s.roudi.processRuntimeMessage env buffer = roudi ∧
      written app s.roudi.sent roudi.sent = messages ∧
      s' = { s with
        roudi := roudi
        requests := requests
        onTheWay := s.onTheWay ++ messages
        answers := if app.isFrom buffer && command (received buffer) = .reg then
          s.answers ++ [(buffer, messages)] else s.answers } := by
  unfold processRuntimeMessage at hs
  split at hs
  · cases hs
  · next buffer requests hrequests =>
    exact ⟨buffer, requests, _, _, hrequests, rfl, rfl, (Option.some.inj hs).symm⟩

def Carries (t : Int) (m : IpcMessage) : Prop :=
  Representable t ∧ ∃ a : Announcement, m = a.regAck t

theorem Carries.unique {t t' : Int} {m : IpcMessage} (h : Carries t m) (h' : Carries t' m) :
    t = t' := by
  obtain ⟨ht, a, rfl⟩ := h
  obtain ⟨ht', a', heq⟩ := h'
  have helement := congrArg (fun m : IpcMessage => m.getElementAtIndex 3) heq
  simp only [a.element_regAck t (show 3 < 2 ^ 32 by decide),
    a'.element_regAck t' (show 3 < 2 ^ 32 by decide), Announcement.regAckEntries,
    List.getD_cons_succ, List.getD_cons_zero] at helement
  have hsome : some t = some t' := by
    rw [← fromStringInt64_cStr ht, ← fromStringInt64_cStr ht', helement]
  exact Option.some.inj hsome

def Phase (s : Registration) : Prop :=
  match s.pc with
  | .timedSend => Representable s.transmissionTimestamp ∧
      s.transmissionTimestamp ≤ s.clock.tdiv 1000 ∧
      ∀ t ∈ s.registered, t < s.transmissionTimestamp
  | .loop .waitForRegisterAck => s.registered.getLast? = some s.transmissionTimestamp
  | .waitForRegAck _ => s.registered.getLast? = some s.transmissionTimestamp
  | .loop .finished => False
  | .requested => False
  | .answered _ => False
  | _ => True

/-- Registrations are handled in the order they are sent, and what RouDi has answered comes
back in that order. -/
structure Running (env : Surroundings) (app : Application) (s : Registration) : Prop where
  owned : s.roudi.Owned env
  pipeline : Lib.Pipeline Carries s.registered (s.answers.map Prod.snd) (s.channel ++ s.onTheWay)
  upTo : ∀ t ∈ s.registered,
    t ≤ s.transmissionTimestamp ∧ s.transmissionTimestamp ≤ s.clock.tdiv 1000
  valid : ∀ t ∈ s.registered, Representable t ∧ (app.reg t).isValid = true
  pending : s.requests.filter app.isFrom =
    (s.registered.drop s.answers.length).map fun t => (app.reg t).getMessage
  handled : s.answers.map Prod.fst =
    (s.registered.take s.answers.length).map fun t => (app.reg t).getMessage
  known : ∀ buffer m, s.answers.getLast? = some (buffer, [m]) →
    s.roudi.IsRegistered app.runtimeName
  phase : s.Phase

def Stored (app : Application) (s : Registration) : Prop :=
  ∃ (t : Int) (a : Announcement), s.registered.getLast? = some t ∧
    s.answers.length = s.registered.length ∧
    s.answers.getLast? = some ((app.reg t).getMessage, [a.regAck t]) ∧
    s.shmTopicSize = a.mgmtSize ∧
    s.segmentManagerAddressOffset = some a.segmentManagerOffset ∧ s.segmentId = a.mgmtSegmentId

structure Settled (app : Application) (s : Registration) : Prop where
  registered : s.roudi.IsRegistered app.runtimeName
  channel : s.channel = []
  onTheWay : s.onTheWay = []
  requests : ∀ buffer ∈ s.requests, app.isFrom buffer = false

structure Over (env : Surroundings) (app : Application) (s : Registration) : Prop where
  owned : s.roudi.Owned env
  stored : s.Stored app
  requests : ∀ buffer ∈ s.requests, app.isFrom buffer = true → command (received buffer) ≠ .reg
  quiet : ∀ m ∈ s.channel ++ s.onTheWay, command (received m.getMessage) ≠ .regAck
  settled : s.pc = .loop .finished → s.Settled app
  pc : s.pc = .loop .finished ∨ s.pc = .requested ∨
    ∃ answer, s.pc = .answered answer ∧ command answer ≠ .regAck

namespace Running

variable {s s' : Registration}

theorem goto (h : s.Running env app) {pc : Pc} (hphase : { s with pc := pc }.Phase) :
    { s with pc := pc }.Running env app :=
  ⟨h.owned, h.pipeline, h.upTo, h.valid, h.pending, h.handled, h.known, hphase⟩

theorem iterate (h : s.Running env app) {hasExpired channelUsable : Bool}
    (hs : s.iterate hasExpired channelUsable = some s') : s'.Running env app := by
  have hphase := h.phase
  unfold Registration.iterate at hs
  split at hs
  · cases hs
  · next regState hne hpc =>
    split at hs <;> cases hs
    · exact h.goto trivial
    · apply h.goto
      rw [Phase, hpc] at hphase
      cases channelUsable with
      | false => exact trivial
      | true =>
        cases regState with
        | waitForRoudi => exact trivial
        | sendRegisterRequest => exact trivial
        | waitForRegisterAck => exact hphase
        | finished => exact absurd rfl hne
  · cases hs

theorem waitForRoudi (h : s.Running env app) {isInitialized : Bool}
    (hs : s.waitForRoudi isInitialized = some s') : s'.Running env app := by
  unfold Registration.waitForRoudi at hs
  split at hs
  · cases hs
    apply h.goto
    cases isInitialized <;> exact trivial
  · cases hs

theorem readClock (h : s.Running env app) (hs : s.readClock now = some s') :
    s'.Running env app := by
  unfold Registration.readClock at hs
  split at hs
  · next hpc =>
    split at hs
    · next hnow =>
      have hclock : s.clock.tdiv 1000 ≤ now.tdiv 1000 := Int.tdiv_le_tdiv (by decide) hnow.1
      dsimp only at hs
      split at hs <;> cases hs
      · refine ⟨h.owned, h.pipeline, ?_, h.valid, h.pending, h.handled, h.known, ?_⟩
        · intro t ht
          exact ⟨(h.upTo t ht).1, (h.upTo t ht).2.trans hclock⟩
        · rw [Phase, hpc]
          exact trivial
      · next hne =>
        have hnew : ∀ t ∈ s.registered, t < now.tdiv 1000 := by
          intro t ht
          obtain ⟨hle, hle'⟩ := h.upTo t ht
          exact hle.trans_lt (lt_of_le_of_ne (hle'.trans hclock) hne)
        refine ⟨h.owned, h.pipeline, ?_, h.valid, h.pending, h.handled, h.known, ?_⟩
        · intro t ht
          exact ⟨(hnew t ht).le, le_refl _⟩
        · exact ⟨representable_tdiv hnow.2.1 hnow.2.2, le_refl _, hnew⟩
    · cases hs
  · cases hs

theorem timedSend (h : s.Running env app) {successfullySent : Bool}
    (hs : s.timedSend app successfullySent = some s') : s'.Running env app := by
  have hphase := h.phase
  unfold Registration.timedSend at hs
  split at hs
  · next hpc =>
    dsimp only at hs
    split at hs
    · split at hs
      · next hvalid =>
        cases hs
        rw [Phase, hpc] at hphase
        obtain ⟨hrepresentable, hclock, hnew⟩ := hphase
        have hfrom : app.isFrom (app.reg s.transmissionTimestamp).getMessage = true := by
          rw [Application.isFrom, Application.received_reg hvalid, Application.sender_reg hvalid,
            decide_eq_true rfl]
        have hlength : s.answers.length ≤ s.registered.length := by
          simpa using h.pipeline.length_le
        refine ⟨h.owned, h.pipeline.request hnew, ?_, ?_, ?_, ?_, h.known, ?_⟩
        · intro t ht
          rcases List.mem_append.mp ht with ht | ht
          · exact h.upTo t ht
          · rw [List.mem_singleton.mp ht]
            exact ⟨le_refl _, hclock⟩
        · intro t ht
          rcases List.mem_append.mp ht with ht | ht
          · exact h.valid t ht
          · rw [List.mem_singleton.mp ht]
            exact ⟨hrepresentable, hvalid⟩
        · rw [List.filter_append, h.pending, List.filter_singleton, hfrom,
            List.drop_append_of_le_length hlength, List.map_append]
          rfl
        · rw [List.take_append_of_le_length hlength]
          exact h.handled
        · exact List.getLast?_concat
      · cases hs
    · cases hs
      exact h.goto trivial
  · cases hs

theorem finish (h : s.Running env app) {channel : List IpcMessage}
    (hchannel : s.channel = a.regAck s.transmissionTimestamp :: channel)
    (ht : Representable s.transmissionTimestamp)
    (hlast : s.registered.getLast? = some s.transmissionTimestamp) :
    Over env app { s with
      channel := channel
      shmTopicSize := a.mgmtSize
      segmentManagerAddressOffset := some a.segmentManagerOffset
      segmentId := a.mgmtSegmentId
      pc := .loop .finished } := by
  have hpipeline := h.pipeline
  rw [hchannel, List.cons_append] at hpipeline
  have hcarries : Carries s.transmissionTimestamp (a.regAck s.transmissionTimestamp) := ⟨ht, a, rfl⟩
  obtain ⟨hrest, hlength, hlastAnswer⟩ :=
    hpipeline.newest hlast fun t' ht' => ht'.unique hcarries
  obtain ⟨rfl, honTheWay⟩ := List.append_eq_nil_iff.mp hrest
  rw [List.length_map] at hlength
  have hanswer : s.answers.getLast? = some ((app.reg s.transmissionTimestamp).getMessage,
      [a.regAck s.transmissionTimestamp]) := by
    have hhandled := congrArg List.getLast? h.handled
    rw [hlength, List.take_length, List.getLast?_map, List.getLast?_map, hlast] at hhandled
    rw [List.getLast?_map] at hlastAnswer
    obtain ⟨⟨buffer, messages⟩, hget, rfl⟩ := Option.map_eq_some_iff.mp hlastAnswer
    rw [hget] at hhandled ⊢
    simp only [Option.map_some, Option.some.injEq] at hhandled
    rw [hhandled]
  have hpending : ∀ buffer ∈ s.requests, app.isFrom buffer = false := by
    have hnone := h.pending
    rw [hlength, List.drop_length, List.map_nil, List.filter_eq_nil_iff] at hnone
    simpa using hnone
  refine ⟨h.owned, ⟨_, a, hlast, hlength, hanswer, rfl, rfl, rfl⟩, ?_, ?_, ?_, Or.inl rfl⟩
  · intro buffer hbuffer hfrom
    rw [hpending buffer hbuffer] at hfrom
    cases hfrom
  · rw [honTheWay]
    nofun
  · intro _
    exact ⟨h.known _ _ hanswer, rfl, honTheWay, hpending⟩

theorem timedReceive (h : s.Running env app) {inTime : Bool}
    (hs : s.timedReceive inTime = some s') : s'.Running env app ∨ s'.Over env app := by
  have hphase := h.phase
  have hretry : ∀ (s : Registration) (k : Nat),
      s.registered.getLast? = some s.transmissionTimestamp →
      { s with pc := .retry k }.Phase := by
    intro s k hlast
    unfold Pc.retry
    split
    · exact hlast
    · exact trivial
  unfold Registration.timedReceive at hs
  split at hs
  · next retryCounter hpc =>
    rw [Phase, hpc] at hphase
    split at hs
    · cases hchannel : s.channel with
      | nil =>
        rw [hchannel] at hs
        cases hs
      | cons m channel =>
        rw [hchannel] at hs
        have hpipeline := h.pipeline
        rw [hchannel, List.cons_append] at hpipeline
        obtain ⟨hrest, t, -, ht, a, rfl⟩ := hpipeline.take
        dsimp only at hs
        rw [receiveRegAck_regAck _ a ht] at hs
        dsimp only at hs
        split at hs
        · next heq =>
          cases hs
          subst heq
          exact Or.inr (h.finish hchannel ht hphase)
        · cases hs
          exact Or.inl ⟨h.owned, hrest, h.upTo, h.valid, h.pending, h.handled, h.known,
            hretry _ _ hphase⟩
    · cases hs
      exact Or.inl (h.goto (hretry s _ hphase))
  · cases hs

theorem others (h : s.Running env app) {buffer : List Char} (hfrom : app.isFrom buffer = false) :
    { s with requests := s.requests ++ [buffer] }.Running env app := by
  refine ⟨h.owned, h.pipeline, h.upTo, h.valid, ?_, h.handled, h.known, h.phase⟩
  rw [List.filter_append, List.filter_singleton, hfrom, h.pending]
  exact List.append_nil _

theorem processRuntimeMessage (h : s.Running env app)
    (hs : s.processRuntimeMessage (a.surroundings env now) app = some s') :
    s'.Running env app := by
  obtain ⟨buffer, requests, roudi, messages, hrequests, hroudi, hmessages, rfl⟩ :=
    processRuntimeMessage_eq_some hs
  have howned : roudi.Owned env := hroudi ▸ owned_process h.owned
  have hpending := h.pending
  rw [hrequests] at hpending
  cases hfrom : app.isFrom buffer with
  | false =>
    obtain ⟨hwritten, hregistered⟩ := process_others h.owned hfrom hroudi
    obtain rfl : messages = [] := hmessages.symm.trans hwritten
    rw [List.filter_cons_of_neg (by simp [hfrom])] at hpending
    refine ⟨howned, ?_, h.upTo, h.valid, hpending, h.handled, ?_, h.phase⟩
    · simp only [List.append_nil]
      exact h.pipeline
    · intro buffer m hlast
      exact hregistered.mpr (h.known buffer m hlast)
  | true =>
    rw [List.filter_cons_of_pos hfrom] at hpending
    obtain ⟨t, pending, hdrop, rfl, hrest⟩ := List.map_eq_cons_iff.mp hpending.symm
    have ht : t ∈ s.registered := List.mem_of_mem_drop (hdrop ▸ List.mem_cons_self)
    obtain ⟨hrepresentable, hvalid⟩ := h.valid t ht
    have hcommand : command (received (app.reg t).getMessage) = .reg := by
      rw [Application.received_reg hvalid, Application.command_reg hvalid]
    have hanswer := process_reg hvalid hrepresentable hroudi
    rw [hmessages] at hanswer
    have hdrop' : s.registered.drop (s.answers.map Prod.snd).length = t :: pending := by
      rw [List.length_map]
      exact hdrop
    obtain ⟨hpipeline, hdropped⟩ := h.pipeline.answer (a := messages) hdrop' (by
      rcases hanswer with hnone | ⟨hack, -⟩
      · exact Or.inl hnone
      · exact Or.inr ⟨_, hack, hrepresentable, a, rfl⟩)
    rw [List.length_append, List.length_map] at hdropped
    simp only [hcommand, decide_true, Bool.and_self, if_true]
    refine ⟨howned, ?_, h.upTo, h.valid, ?_, ?_, ?_, h.phase⟩
    · rw [List.map_append, ← List.append_assoc]
      exact hpipeline
    · rw [List.length_append, List.length_singleton]
      rw [List.length_singleton] at hdropped
      rw [hdropped, hrest]
    · have hget : s.registered[s.answers.length]? = some t := by
        rw [← List.head?_drop, hdrop, List.head?_cons]
      rw [List.map_append, h.handled, List.length_append, List.length_singleton,
        List.take_add_one, hget, List.map_append]
      rfl
    · intro buffer m hlast
      rw [List.getLast?_concat, Option.some.injEq, Prod.mk.injEq] at hlast
      rcases hanswer with hnone | ⟨-, hregistered⟩
      · rw [hnone] at hlast
        cases hlast.2
      · exact hregistered

theorem manage (h : s.Running env app) {op : ManagerOp}
    (hs : s.manage { env with now := now } app op = some s') : s'.Running env app := by
  obtain ⟨roudi, rfl, howned, hregistered⟩ := manage_eq_some h.owned hs
  exact ⟨howned, h.pipeline, h.upTo, h.valid, h.pending, h.handled,
    fun buffer m hlast => hregistered (h.known buffer m hlast), h.phase⟩

theorem arrive (h : s.Running env app) (hs : s.arrive = some s') : s'.Running env app := by
  unfold Registration.arrive at hs
  split at hs
  · cases hs
  · next m onTheWay hway =>
    cases hs
    refine ⟨h.owned, ?_, h.upTo, h.valid, h.pending, h.handled, h.known, h.phase⟩
    have hpipeline := h.pipeline
    rw [hway, List.append_cons] at hpipeline
    exact hpipeline

end Running

namespace Over

variable {s s' : Registration}

theorem others (h : s.Over env app) {buffer : List Char} (hfrom : app.isFrom buffer = false) :
    { s with requests := s.requests ++ [buffer] }.Over env app := by
  refine ⟨h.owned, h.stored, ?_, h.quiet, ?_, h.pc⟩
  · intro b hb
    rcases List.mem_append.mp hb with hb | hb
    · exact h.requests b hb
    · rw [List.mem_singleton.mp hb, hfrom]
      nofun
  · intro hpc
    obtain ⟨hregistered, hchannel, honTheWay, hrequests⟩ := h.settled hpc
    refine ⟨hregistered, hchannel, honTheWay, ?_⟩
    intro b hb
    rcases List.mem_append.mp hb with hb | hb
    · exact hrequests b hb
    · rw [List.mem_singleton.mp hb]
      exact hfrom

theorem sendRequestToRouDi (h : s.Over env app) {msg : IpcMessage}
    (hs : s.sendRequestToRouDi msg = some s') : s'.Over env app := by
  unfold Registration.sendRequestToRouDi at hs
  split at hs
  · split at hs
    · next hmsg =>
      cases hs
      refine ⟨h.owned, h.stored, ?_, h.quiet, nofun, Or.inr (Or.inl rfl)⟩
      intro b hb hfrom
      rcases List.mem_append.mp hb with hb | hb
      · exact h.requests b hb hfrom
      · rw [List.mem_singleton.mp hb]
        exact hmsg.2
    · cases hs
  · cases hs

theorem receive (h : s.Over env app) (hs : s.receive = some s') : s'.Over env app := by
  unfold Registration.receive at hs
  split at hs
  · next m channel hpc hchannel =>
    cases hs
    have hquiet := h.quiet
    rw [hchannel] at hquiet
    refine ⟨h.owned, h.stored, h.requests, ?_, nofun, Or.inr (Or.inr ⟨_, rfl, ?_⟩)⟩
    · intro m' hm'
      exact hquiet m' (List.mem_cons_of_mem m hm')
    · exact hquiet m List.mem_cons_self
  · cases hs

theorem processRuntimeMessage (h : s.Over env app)
    (hs : s.processRuntimeMessage (a.surroundings env now) app = some s') : s'.Over env app := by
  obtain ⟨buffer, requests, roudi, messages, hrequests, hroudi, hmessages, rfl⟩ :=
    processRuntimeMessage_eq_some hs
  have hbuffer : buffer ∈ s.requests := hrequests ▸ List.mem_cons_self
  have hsub : ∀ b ∈ requests, b ∈ s.requests := by
    intro b hb
    rw [hrequests]
    exact List.mem_cons_of_mem _ hb
  have hnoReg : (app.isFrom buffer && decide (command (received buffer) = .reg)) = false := by
    cases hfrom : app.isFrom buffer with
    | false => rfl
    | true => simpa using h.requests buffer hbuffer hfrom
  have hquiet : ∀ m ∈ messages, command (received m.getMessage) ≠ .regAck := by
    cases hfrom : app.isFrom buffer with
    | false =>
      rw [← hmessages, (process_others h.owned hfrom hroudi).1]
      nofun
    | true =>
      rw [← hmessages]
      exact process_request (h.requests buffer hbuffer hfrom) hroudi
  simp only [hnoReg, Bool.false_eq_true, if_false]
  refine ⟨hroudi ▸ owned_process h.owned, h.stored, ?_, ?_, ?_, h.pc⟩
  · intro b hb
    exact h.requests b (hsub b hb)
  · intro m hm
    rw [← List.append_assoc] at hm
    rcases List.mem_append.mp hm with hm | hm
    · exact h.quiet m hm
    · exact hquiet m hm
  · intro hpc
    obtain ⟨hregistered, hchannel, honTheWay, hothers⟩ := h.settled hpc
    obtain ⟨hwritten, hstays⟩ := process_others h.owned (hothers buffer hbuffer) hroudi
    refine ⟨hstays.mpr hregistered, hchannel, ?_, fun b hb => hothers b (hsub b hb)⟩
    simp only [honTheWay, ← hmessages, hwritten, List.append_nil]

theorem manage (h : s.Over env app) {op : ManagerOp}
    (hs : s.manage { env with now := now } app op = some s') : s'.Over env app := by
  obtain ⟨roudi, rfl, howned, hregistered⟩ := manage_eq_some h.owned hs
  refine ⟨howned, h.stored, h.requests, h.quiet, ?_, h.pc⟩
  intro hpc
  have hsettled := h.settled hpc
  exact ⟨hregistered hsettled.registered, hsettled.channel, hsettled.onTheWay, hsettled.requests⟩

theorem arrive (h : s.Over env app) (hs : s.arrive = some s') : s'.Over env app := by
  unfold Registration.arrive at hs
  split at hs
  · cases hs
  · next m onTheWay hway =>
    cases hs
    refine ⟨h.owned, h.stored, h.requests, ?_, ?_, h.pc⟩
    · have hquiet := h.quiet
      rw [hway, List.append_cons] at hquiet
      exact hquiet
    · intro hpc
      have hnone := (h.settled hpc).onTheWay
      rw [hway] at hnone
      cases hnone

theorem not_running (h : s.Over env app) :
    (∀ hasExpired channelUsable, s.iterate hasExpired channelUsable = none) ∧
    (∀ isInitialized, s.waitForRoudi isInitialized = none) ∧
    (∀ now, s.readClock now = none) ∧
    (∀ successfullySent, s.timedSend app successfullySent = none) ∧
    ∀ inTime, s.timedReceive inTime = none := by
  rcases h.pc with hpc | hpc | ⟨answer, hpc, -⟩ <;>
    simp only [Registration.iterate, Registration.waitForRoudi, Registration.readClock,
      Registration.timedSend, Registration.timedReceive, hpc, implies_true, and_self]

end Over

theorem Running.no_request {s : Registration} (h : s.Running env app) :
    (∀ msg, s.sendRequestToRouDi msg = none) ∧ s.receive = none := by
  have hphase := h.phase
  constructor
  · intro msg
    unfold sendRequestToRouDi
    split
    · next hpc =>
      rw [Phase, hpc] at hphase
      exact hphase.elim
    · rfl
  · unfold receive
    split
    · next hpc _ =>
      rw [Phase, hpc] at hphase
      exact hphase.elim
    · rfl

theorem inv_step {s s' : Registration} {act : Act} (h : s.Running env app ∨ s.Over env app)
    (hs : s.step env app act = some s') : s'.Running env app ∨ s'.Over env app := by
  rcases h with h | h
  · cases act with
    | iterate hasExpired channelUsable => exact Or.inl (h.iterate hs)
    | waitForRoudi isInitialized => exact Or.inl (h.waitForRoudi hs)
    | readClock now => exact Or.inl (h.readClock hs)
    | timedSend successfullySent => exact Or.inl (h.timedSend hs)
    | timedReceive inTime => exact h.timedReceive hs
    | sendRequestToRouDi msg => cases (h.no_request.1 msg).symm.trans hs
    | receive => cases h.no_request.2.symm.trans hs
    | others buffer =>
      simp only [step] at hs
      split at hs <;> cases hs
      exact Or.inl (h.others (Bool.eq_false_of_not_eq_true ‹_›))
    | processRuntimeMessage now announcement => exact Or.inl (h.processRuntimeMessage hs)
    | manage now op => exact Or.inl (h.manage hs)
    | arrive => exact Or.inl (h.arrive hs)
  · right
    obtain ⟨hiterate, hwait, hclock, hsend, hreceive⟩ := h.not_running
    cases act with
    | iterate hasExpired channelUsable => cases (hiterate _ _).symm.trans hs
    | waitForRoudi isInitialized => cases (hwait _).symm.trans hs
    | readClock now => cases (hclock _).symm.trans hs
    | timedSend successfullySent => cases (hsend _).symm.trans hs
    | timedReceive inTime => cases (hreceive _).symm.trans hs
    | sendRequestToRouDi msg => exact h.sendRequestToRouDi hs
    | receive => exact h.receive hs
    | others buffer =>
      simp only [step] at hs
      split at hs <;> cases hs
      exact h.others (Bool.eq_false_of_not_eq_true ‹_›)
    | processRuntimeMessage now announcement => exact h.processRuntimeMessage hs
    | manage now op => exact h.manage hs
    | arrive => exact h.arrive hs

theorem running_start {requests : List (List Char)} (howned : roudi.Owned env)
    (hothers : ∀ buffer ∈ requests, app.isFrom buffer = false) (clock : Int) :
    (start roudi requests clock).Running env app where
  owned := howned
  pipeline := .empty
  upTo := nofun
  valid := nofun
  pending := by
    rw [start, List.filter_eq_nil_iff.mpr fun b hb => by simp [hothers b hb]]
    rfl
  handled := rfl
  known := nofun
  phase := trivial

theorem inv_run {requests : List (List Char)} {clock : Int} (howned : roudi.Owned env)
    (hothers : ∀ buffer ∈ requests, app.isFrom buffer = false) {ls : List Act} {s : Registration}
    (hrun : Lib.runSteps (step env app) (start roudi requests clock) ls = some s) :
    s.Running env app ∨ s.Over env app :=
  Lib.runSteps_invariant (C := fun _ _ => True) (I := fun s => s.Running env app ∨ s.Over env app)
    (fun _ _ _ h _ hs => inv_step h hs) ls _ s (Or.inl (running_start howned hothers clock))
    (Lib.meets_true ls _) hrun

/-- The constructor ends with the values of RouDi's answer to the last registration and with
empty channels, and the first request is not answered with a REG_ACK. -/
theorem registration_handshake (env : Surroundings) (ops : List (Int × ManagerOp))
    (app : Application) (requests : List (List Char)) (clock : Int)
    (hothers : ∀ buffer ∈ requests, app.isFrom buffer = false) (ls : List Act) (s : Registration)
    (hrun : Lib.runSteps (step env app) (start (ProcessManager.run env ops) requests clock) ls =
      some s) :
    (s.pc = .loop .finished →
      (∃ (t : Int) (a : Announcement), s.registered.getLast? = some t ∧
        s.answers.length = s.registered.length ∧
        s.answers.getLast? = some ((app.reg t).getMessage, [a.regAck t]) ∧
        s.shmTopicSize = a.mgmtSize ∧
        s.segmentManagerAddressOffset = some a.segmentManagerOffset ∧
        s.segmentId = a.mgmtSegmentId) ∧
      (s.roudi.processList.map (·.name)).count app.runtimeName = 1 ∧
      s.channel = [] ∧ s.onTheWay = [] ∧ ∀ buffer ∈ s.requests, app.isFrom buffer = false) ∧
    ∀ answer, s.pc = .answered answer → command answer ≠ .regAck := by
  have hinv : s.Running env app ∨ s.Over env app :=
    inv_run (ProcessManager.owned_run env ops) hothers hrun
  refine ⟨fun hpc => ?_, fun answer hpc => ?_⟩
  · rcases hinv with h | h
    · have hphase := h.phase
      rw [Phase, hpc] at hphase
      exact hphase.elim
    · obtain ⟨⟨p, hp, hname⟩, hchannel, honTheWay, hrequests⟩ := h.settled hpc
      refine ⟨h.stored, ?_, hchannel, honTheWay, hrequests⟩
      exact List.count_eq_one_of_mem h.owned.names (List.mem_map.mpr ⟨p, hp, hname⟩)
  · rcases hinv with h | h
    · have hphase := h.phase
      rw [Phase, hpc] at hphase
      exact hphase.elim
    · rcases h.pc with hpc' | hpc' | ⟨answer', hpc', hanswer⟩
      · cases hpc'.symm.trans hpc
      · cases hpc'.symm.trans hpc
      · obtain rfl := Pc.answered.inj (hpc'.symm.trans hpc)
        exact hanswer

def exampleApplication : Application where
  runtimeName := "app"
  pid := 7
  user := 1000
  currentVersion := ⟨2, 0, 0, 0, "date", "commit"⟩
  fixed := by decide

def firstAnnouncement : Announcement := ⟨4096, 64, 1, by decide, by decide, by decide⟩

def secondAnnouncement : Announcement := ⟨8192, 128, 2, by decide, by decide, by decide⟩

def lateAnswer : List Act :=
  let register (now : Int) : List Act :=
    [.iterate false true, .waitForRoudi true, .iterate false true, .readClock now, .timedSend true,
      .iterate false true]
  register 5000 ++ ([.timedReceive false, .timedReceive false, .timedReceive false] : List Act) ++
    register 7000 ++ ([.processRuntimeMessage 0 firstAnnouncement,
      .processRuntimeMessage 1 secondAnnouncement, .arrive, .timedReceive true, .arrive,
      .timedReceive true] : List Act)

theorem registered_after_late_answer : ∃ s,
    Lib.runSteps (step ProcessManager.smallSurroundings exampleApplication)
      (start (ProcessManager.run ProcessManager.smallSurroundings []) [] 0) lateAnswer = some s ∧
    s.pc = .loop .finished ∧ s.registered = [5, 7] ∧ s.shmTopicSize = 8192 ∧
    (s.roudi.processList.map (·.name)).count "app" = 1 ∧ s.channel = [] := by
  have h : (Lib.runSteps (step ProcessManager.smallSurroundings exampleApplication)
      (start (ProcessManager.run ProcessManager.smallSurroundings []) [] 0) lateAnswer).map
      (fun s => (s.pc, s.registered, s.shmTopicSize)) = some (.loop .finished, [5, 7], 8192) := by
    decide +kernel
  obtain ⟨s, hrun, hs⟩ := Option.map_eq_some_iff.mp h
  obtain ⟨hpc, hs⟩ := Prod.mk.inj hs
  obtain ⟨hregistered, hsize⟩ := Prod.mk.inj hs
  obtain ⟨-, hcount, hchannel, -, -⟩ := (registration_handshake ProcessManager.smallSurroundings []
    exampleApplication [] 0 nofun lateAnswer s hrun).1 hpc
  exact ⟨s, hrun, hpc, hregistered, hsize, hcount, hchannel⟩

end Registration

end Iceoryx.Runtime
