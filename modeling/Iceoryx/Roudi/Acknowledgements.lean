import Iceoryx.Hoofs.PointerRepository
import Iceoryx.Roudi.Ownership

namespace Iceoryx.Roudi

open Capro Popo Hoofs Iceoryx.Runtime PortManager
open Hoofs.Convert hiding toString

namespace PoolList

def member : PoolList → Nat → Member
  | .publishers, slot => .publisher slot
  | .subscribers, slot => .subscriber slot
  | .clients, slot => .client slot
  | .servers, slot => .server slot
  | .interfaces, slot => .interface (some slot)
  | .nodes, slot => .node slot
  | .conditionVariables, slot => .conditionVariable slot

def ackType : PoolList → IpcMessageType
  | .publishers => .createPublisherAck
  | .subscribers => .createSubscriberAck
  | .clients => .createClientAck
  | .servers => .createServerAck
  | .interfaces => .createInterfaceAck
  | .nodes => .createNodeAck
  | .conditionVariables => .createConditionVariableAck

theorem ackType_injective {l l' : PoolList} (h : l.ackType = l'.ackType) : l = l' := by
  cases l <;> cases l' <;> first | rfl | cases h

end PoolList

/-- The list and the slot of a member.  A null pointer has none. -/
def Member.element : Member → Option (PoolList × Nat)
  | .publisher slot => some (.publishers, slot)
  | .subscriber slot => some (.subscribers, slot)
  | .client slot => some (.clients, slot)
  | .server slot => some (.servers, slot)
  | .interface slot => slot.map (.interfaces, ·)
  | .node slot => some (.nodes, slot)
  | .conditionVariable slot => some (.conditionVariables, slot)

theorem Member.element_member (l : PoolList) (k : Nat) : (l.member k).element = some (l, k) := by
  cases l <;> rfl

theorem fromStringUint64_toString {n : Nat} (h : n < addressRange - 1) :
    fromStringUint64 (cStr (Convert.toString n)) = some n := by
  have hmax : n ≤ 2 ^ 64 - 1 ∧ n ≠ ullongMax := by
    unfold addressRange at h
    simp only [ullongMax]
    omega
  rw [cStr_eq_self (not_mem_toString (by decide)), fromStringUint64,
    fromStringUnsigned_toString (by decide), if_pos hmax]

/-- The management segment with the port pool in it, as RouDi and an application have
mapped and registered it. -/
structure ManagementSegment (cfg : Config) where
  id : Nat
  roudi : Segment
  runtime : Segment
  roudiRepository : PointerRepository
  runtimeRepository : PointerRepository
  position : PoolList → Nat → Nat
  registered : roudiRepository.getBasePtr id = roudi.base
  opened : runtimeRepository.getBasePtr id = runtime.base
  size_eq : runtime.size = roudi.size
  inside : ∀ l k, k < cfg.capacityOf l → position l k < roudi.size
  apart : ∀ l k l' k', k < cfg.capacityOf l → k' < cfg.capacityOf l' →
    position l k = position l' k' → l = l' ∧ k = k'

namespace ManagementSegment

variable {cfg : Config} (seg : ManagementSegment cfg)

def ptr (member : Member) : Nat :=
  match member.element with
  | none => 0
  | some (l, k) => seg.roudi.base + seg.position l k

def getOffset (member : Member) : Nat :=
  BaseRelativePointer.getOffset seg.roudiRepository seg.id (seg.ptr member)

def address (l : PoolList) (k : Nat) : Nat := seg.runtime.base + seg.position l k

def ptrOf (receiveBuffer : IpcMessage) : Nat :=
  let segmentId := (fromStringUint64 (cStr (receiveBuffer.getElementAtIndex 2))).getD 0
  let offset := (fromStringUint64 (cStr (receiveBuffer.getElementAtIndex 1))).getD 0
  BaseRelativePointer.getPtr seg.runtimeRepository segmentId offset

theorem id_lt : seg.id < addressRange - 1 := by
  have hbase := seg.registered
  have hpos := seg.roudi.positive
  have hcapacity := seg.roudiRepository.representable
  unfold PointerRepository.getBasePtr at hbase
  split at hbase
  · next h =>
    obtain ⟨hmax, hmin⟩ := h
    unfold PointerRepository.maxId at hmax
    unfold PointerRepository.minId at hmin
    omega
  · omega

variable {l : PoolList} {k : Nat}

theorem position_lt (hk : k < cfg.capacityOf l) :
    seg.position l k + seg.roudi.base < addressRange ∧
      seg.position l k + seg.runtime.base < addressRange ∧ seg.position l k < addressRange - 1 := by
  have hin := seg.inside l k hk
  have hroudi := seg.roudi.inside
  have hruntime := seg.runtime.inside
  have hpos := seg.roudi.positive
  have hsize := seg.size_eq
  omega

theorem getOffset_member (hk : k < cfg.capacityOf l) :
    seg.getOffset (l.member k) = seg.position l k := by
  have hlt := seg.position_lt hk
  have hpos := seg.roudi.positive
  have hid := seg.id_lt
  have hnull : seg.id ≠ BaseRelativePointer.nullPointerId := by
    unfold BaseRelativePointer.nullPointerId
    omega
  rw [getOffset, BaseRelativePointer.getOffset, if_neg hnull, seg.registered, ptr,
    Member.element_member]
  simp only
  rw [show seg.roudi.base + seg.position l k + addressRange - seg.roudi.base =
    seg.position l k + addressRange by omega, Nat.add_mod_right, Nat.mod_eq_of_lt (by omega)]

theorem fromString_toString {n : Nat} (h : n < addressRange - 1) :
    (fromStringUint64 (cStr (Convert.toString n))).getD 0 = n := by
  rw [fromStringUint64_toString h, Option.getD_some]

theorem getPtr_position (hk : k < cfg.capacityOf l) :
    BaseRelativePointer.getPtr seg.runtimeRepository seg.id (seg.position l k) =
      seg.address l k := by
  have hlt := seg.position_lt hk
  have hnull : seg.position l k ≠ BaseRelativePointer.nullPointerOffset := by
    unfold BaseRelativePointer.nullPointerOffset
    omega
  rw [BaseRelativePointer.getPtr, if_neg hnull, seg.opened, Nat.mod_eq_of_lt hlt.2.1, address,
    Nat.add_comm]

theorem address_pos : seg.address l k ≠ 0 := by
  have := seg.runtime.positive
  unfold address
  omega

theorem address_injective {l' : PoolList} {k' : Nat} (hk : k < cfg.capacityOf l)
    (hk' : k' < cfg.capacityOf l') (h : seg.address l' k' = seg.address l k) : l' = l ∧ k' = k :=
  seg.apart l' k' l k hk' hk (Nat.add_left_cancel h)

end ManagementSegment

def Surroundings.with (env : Surroundings) (seg : ManagementSegment env.cfg) : Surroundings :=
  { env with
    mgmtSegmentId := seg.id
    getOffset := seg.getOffset }

namespace Call

def keepsProcesses : Call → Bool
  | .registerProcess .. => false
  | .unregisterProcess => false
  | _ => true

def list : Call → Option PoolList
  | .addPublisherForProcess .. => some .publishers
  | .addSubscriberForProcess .. => some .subscribers
  | .addClientForProcess .. => some .clients
  | .addServerForProcess .. => some .servers
  | .addConditionVariableForProcess => some .conditionVariables
  | .addInterfaceForProcess .. => some .interfaces
  | .addNodeForProcess .. => some .nodes
  | _ => none

/-- The port pool when the new element is about to be put into it: the requests for
publishers and servers first destroy the ports of the same service that are only
waiting for that. -/
def cleaned (cfg : Config) : Call → PortManager → PortManager
  | .addPublisherForProcess service _ _, pm => (doesViolateCommunicationPolicy cfg service pm).1
  | .addServerForProcess service _ _, pm => (findServerInUse cfg service pm.servers.content pm).1
  | _, pm => pm

variable {cfg : Config} {l : PoolList} {pm : PortManager}

theorem cleaned_shrinks (c : Call) : Shrinks pm (c.cleaned cfg pm) := by
  cases c with
  | addPublisherForProcess service options config =>
    exact Shrinks.doesViolateCommunicationPolicy service pm
  | addServerForProcess service options config => exact Shrinks.findServerInUse service _ pm
  | _ => exact Shrinks.refl pm

theorem cleaned_eq_or {c : Call} (h : c.list = some l) :
    c.cleaned cfg pm = pm ∨ HasRoom cfg l (c.cleaned cfg pm) := by
  cases c with
  | addPublisherForProcess service options config =>
    cases h
    exact doesViolateCommunicationPolicy_eq_or service pm
  | addServerForProcess service options config =>
    cases h
    exact findServerInUse_eq_or service _ pm
  | _ => exact Or.inl rfl

end Call

namespace ProcessManager

/-- An acknowledgement is about an element of the right list that was put into a free slot
for the application that asked, and that the application finds at the address it gets; if
the list is full there is an error instead and the port pool is left alone. -/
structure Truthful (env : Surroundings) (seg : ManagementSegment env.cfg) (name : String)
    (c : Call) (s : ProcessManager) : Prop where
  ack : ∀ n m l, (c.perform (env.with seg) name s).sent = s.sent ++ [(n, m)] → IsAck l.ackType m →
    n = name ∧ ∃ k, (c.cleaned env.cfg s.portManager).ownerOf l k = none ∧
      (c.perform (env.with seg) name s).portManager.ownerOf l k = some name ∧
      seg.ptrOf m = seg.address l k ∧ seg.ptrOf m ≠ 0 ∧
      ∀ l' k', k' < env.cfg.capacityOf l' → seg.address l' k' = seg.ptrOf m → l' = l ∧ k' = k
  full : ∀ l, c.list = some l → s.IsRegistered name →
    ¬ HasRoom env.cfg l (c.cleaned env.cfg s.portManager) →
    SamePool s.portManager (c.perform (env.with seg) name s).portManager ∧
      ∃ m, (c.perform (env.with seg) name s).sent = s.sent ++ [(name, m)] ∧ IsError m

section messages

variable {l : PoolList}

theorem not_isAck_ofEntries {type : IpcMessageType} {rest : List (List Char)}
    (hrest : ∀ e ∈ rest, IpcMessage.separator ∉ e) (htype : ∀ l : PoolList, l.ackType ≠ type) :
    ¬ IsAck l.ackType (.ofEntries (ipcMessageTypeToString type :: rest)) := by
  have hfree : ∀ e ∈ ipcMessageTypeToString type :: rest, IpcMessage.separator ∉ e := by
    have : IpcMessage.separator ∉ ipcMessageTypeToString type := not_mem_toString (by decide)
    simpa [this] using hrest
  rintro ⟨-, -, hack⟩
  rw [IpcMessage.getElementAtIndex_ofEntries hfree (by decide)] at hack
  simp only [List.getD_cons_zero, cStr_ipcMessageTypeToString, stringToIpcMessageType_toString]
    at hack
  exact htype l hack.symm

theorem not_isAck_of_isError {m : IpcMessage} (h : IsError m) : ¬ IsAck l.ackType m := by
  rintro ⟨-, -, hack⟩
  rw [h.2] at hack
  cases l <;> cases hack

variable {env : Surroundings}

theorem eq_of_isAck_ack {l' : PoolList} {member : Member}
    (h : IsAck l.ackType (ack env l'.ackType member)) : l = l' :=
  PoolList.ackType_injective (h.2.2.symm.trans (isAck_ack env l'.ackType member).2.2)

theorem ptrOf_ack {seg : ManagementSegment env.cfg} {k : Nat} (hk : k < env.cfg.capacityOf l)
    (type : IpcMessageType) :
    seg.ptrOf (ack (env.with seg) type (l.member k)) = seg.address l k := by
  have hfree : ∀ e ∈ [ipcMessageTypeToString type,
      Convert.toString (seg.getOffset (l.member k)), Convert.toString seg.id],
      IpcMessage.separator ∉ e := by
    have hdigits : ∀ n : Nat, IpcMessage.separator ∉ Convert.toString n :=
      fun n => not_mem_toString (by decide)
    simp [ipcMessageTypeToString, hdigits]
  have hlt := seg.position_lt hk
  rw [ManagementSegment.ptrOf, ack]
  simp only [Surroundings.with]
  rw [IpcMessage.getElementAtIndex_ofEntries hfree (by decide),
    IpcMessage.getElementAtIndex_ofEntries hfree (by decide)]
  simp only [List.getD_cons_zero, List.getD_cons_succ]
  rw [ManagementSegment.fromString_toString seg.id_lt, seg.getOffset_member hk,
    ManagementSegment.fromString_toString hlt.2.2]
  exact seg.getPtr_position hk

end messages

def Answers (env : Surroundings) (l : PoolList) (name : String) (pm : PortManager)
    (s s' : ProcessManager) : Prop :=
  (∃ k, HasRoom env.cfg l pm ∧ Inserts l k name pm s'.portManager ∧
    s'.sent = s.sent ++ [(name, ack env l.ackType (l.member k))]) ∨
  (SamePool pm s'.portManager ∨ SamePool s.portManager s'.portManager) ∧
    ∃ m, s'.sent = s.sent ++ [(name, m)] ∧ IsError m

section answers

variable {env : Surroundings} {s : ProcessManager} {name : String} {process : Process}
  {l : PoolList} {pm : PortManager}

theorem sent_send (h : s.findProcess name = some process) (m : IpcMessage)
    (portManager : PortManager) :
    ({ s with portManager := portManager }.sendViaIpcChannel process m).sent =
      s.sent ++ [(name, m)] := by
  rw [← name_of_findProcess h]
  rfl

theorem Answers.of_error (h : s.findProcess name = some process) {m : IpcMessage}
    (hm : IsError m) {portManager : PortManager}
    (hpool : SamePool pm portManager ∨ SamePool s.portManager portManager) :
    Answers env l name pm s
      ({ s with portManager := portManager }.sendViaIpcChannel process m) :=
  Or.inr ⟨hpool, m, sent_send h m portManager, hm⟩

theorem Answers.of_inserts (h : s.findProcess name = some process) {k : Nat}
    {portManager : PortManager} (hroom : HasRoom env.cfg l pm)
    (hinserts : Inserts l k name pm portManager) :
    Answers env l name pm s ({ s with portManager := portManager }.sendViaIpcChannel process
      (ack env l.ackType (l.member k))) :=
  Or.inl ⟨k, hroom, hinserts, sent_send h _ portManager⟩

theorem Answers.reply (h : s.findProcess name = some process)
    {result : PortManager × Except PortPoolError Nat}
    (hacquired : Acquired env.cfg l name pm result)
    (errorType : PortPoolError → IpcMessageErrorType) :
    Answers env l name pm s (reply env process l.ackType l.member errorType s result) := by
  obtain ⟨portManager, e | k⟩ := result
  · exact .of_error h (isError_errorReply _) (Or.inl hacquired)
  · exact .of_inserts h hacquired.1 hacquired.2

theorem Answers.perform {c : Call} (h : s.findProcess name = some process)
    (hlist : c.list = some l)
    (hinterface : ∀ interface, c = .addInterfaceForProcess interface →
      HasRoom env.cfg .interfaces s.portManager) :
    Answers env l name (c.cleaned env.cfg s.portManager) s (c.perform env name s) := by
  cases c with
  | addPublisherForProcess service options config =>
    cases hlist
    simp only [Call.perform, addPublisherForProcess, h]
    split
    · exact .of_error h (isError_errorReply _) (Or.inr ⟨rfl, rfl, rfl, rfl, rfl, rfl, rfl⟩)
    · exact Answers.reply h (acquired_publisher name service options s.portManager) _
  | addSubscriberForProcess service options config =>
    cases hlist
    simp only [Call.perform, addSubscriberForProcess, h]
    exact Answers.reply h (acquired_subscriber name service options s.portManager) _
  | addClientForProcess service options config =>
    cases hlist
    simp only [Call.perform, addClientForProcess, h]
    split
    · exact .of_error h (isError_errorReply _) (Or.inr ⟨rfl, rfl, rfl, rfl, rfl, rfl, rfl⟩)
    · exact Answers.reply h (acquired_client name service options s.portManager) _
  | addServerForProcess service options config =>
    cases hlist
    simp only [Call.perform, addServerForProcess, h]
    split
    · exact .of_error h (isError_errorReply _) (Or.inr ⟨rfl, rfl, rfl, rfl, rfl, rfl, rfl⟩)
    · exact Answers.reply h (acquired_server name service options s.portManager) _
  | addConditionVariableForProcess =>
    cases hlist
    have hacquired := @acquired_conditionVariable env.cfg name s.portManager
    simp only [Call.perform, addConditionVariableForProcess, h]
    split
    · next hresult =>
      rw [hresult] at hacquired
      exact .of_inserts h hacquired.1 hacquired.2
    · next hresult =>
      rw [hresult] at hacquired
      exact .of_error h (isError_optional _ _) (Or.inl hacquired)
  | addInterfaceForProcess interface =>
    cases hlist
    have hroom := hinterface interface rfl
    have hfree : s.portManager.interfaces.hasFreeSpace env.cfg.maxInterfaceNumber = true := by
      rw [← FixedPositionContainer.hasFreeSpace_map]
      exact hroom
    simp only [Call.perform, addInterfaceForProcess, h, acquireInterfacePortData, hfree, if_true]
    exact .of_inserts h hroom (insertInterface s.portManager _)
  | addNodeForProcess nodeName =>
    cases hlist
    have hacquired := @acquired_node env.cfg name nodeName s.portManager
    simp only [Call.perform, addNodeForProcess, h]
    split
    · next hresult =>
      rw [hresult] at hacquired
      exact .of_inserts h hacquired.1 hacquired.2
    · next hresult =>
      rw [hresult] at hacquired
      exact .of_error h (isError_optional _ _) (Or.inl hacquired)
  | _ => cases hlist

end answers

section truthful

variable {env : Surroundings} {seg : ManagementSegment env.cfg} {s : ProcessManager}
  {name : String} {c : Call} {l : PoolList}

theorem Answers.truthful
    (h : Answers (env.with seg) l name (c.cleaned env.cfg s.portManager) s
      (c.perform (env.with seg) name s))
    (hlist : c.list = some l)
    (hwithin : ∀ l, (s.portManager.owners l).data.length ≤ env.cfg.capacityOf l) :
    Truthful env seg name c s := by
  have hcleaned : ((c.cleaned env.cfg s.portManager).owners l).data.length ≤
      env.cfg.capacityOf l := by
    rw [c.cleaned_shrinks.length l]
    exact hwithin l
  refine ⟨?_, ?_⟩
  · intro n m l' hsent hack
    rcases h with ⟨k, hroom, hinserts, hsent'⟩ | ⟨-, m', hsent', herror⟩
    · obtain ⟨rfl, rfl⟩ : n = name ∧ m = ack (env.with seg) l.ackType (l.member k) := by
        simpa using List.append_cancel_left (hsent.symm.trans hsent')
      obtain rfl := eq_of_isAck_ack hack
      have hk : k < env.cfg.capacityOf l' := by
        rw [hinserts.slot]
        exact FixedPositionContainer.slot_lt _ n hcleaned hroom
      have hptr : seg.ptrOf (ack (env.with seg) l'.ackType (l'.member k)) = seg.address l' k :=
        ptrOf_ack hk _
      refine ⟨rfl, k, hinserts.free, ?_, hptr, ?_, ?_⟩
      · rw [hinserts.ownerOf_eq, if_pos ⟨rfl, rfl⟩]
      · rw [hptr]
        exact seg.address_pos
      · intro l'' k'' hk'' heq
        rw [hptr] at heq
        exact seg.address_injective hk hk'' heq
    · obtain ⟨rfl, rfl⟩ : n = name ∧ m = m' := by
        simpa using List.append_cancel_left (hsent.symm.trans hsent')
      exact absurd hack (not_isAck_of_isError herror)
  · intro l' hlist' hregistered hfull
    obtain rfl : l' = l := Option.some.inj (hlist'.symm.trans hlist)
    rcases h with ⟨k, hroom, -, -⟩ | ⟨hpool, hanswer⟩
    · exact absurd hroom hfull
    · refine ⟨?_, hanswer⟩
      have hsame : c.cleaned env.cfg s.portManager = s.portManager :=
        (Call.cleaned_eq_or hlist).resolve_right hfull
      rw [hsame, or_self_iff] at hpool
      exact hpool

theorem truthful_of_no_ack
    (h : (c.perform (env.with seg) name s).sent = s.sent ∨
      ∃ n type rest, (∀ e ∈ rest, IpcMessage.separator ∉ e) ∧
        (∀ l : PoolList, l.ackType ≠ type) ∧
        (c.perform (env.with seg) name s).sent =
          s.sent ++ [(n, .ofEntries (ipcMessageTypeToString type :: rest))])
    (hlist : ∀ l, c.list = some l → ¬ s.IsRegistered name) : Truthful env seg name c s := by
  refine ⟨?_, fun l hl hregistered => absurd hregistered (hlist l hl)⟩
  intro n m l hsent hack
  rcases h with hnone | ⟨n', type, rest, hrest, htype, hsent'⟩
  · rw [hnone] at hsent
    simpa using congrArg List.length hsent
  · obtain ⟨rfl, rfl⟩ : n = n' ∧ m = .ofEntries (ipcMessageTypeToString type :: rest) := by
      simpa using List.append_cancel_left (hsent.symm.trans hsent')
    exact absurd hack (not_isAck_ofEntries hrest htype)

theorem sent_addInterface (h : s.IsRegistered name) (interface : Interfaces) :
    ∃ m, (addInterfaceForProcess env name interface s).sent = s.sent ++ [(name, m)] ∧
      IsAck .createInterfaceAck m := by
  obtain ⟨process, hfind⟩ := find_of_isRegistered h
  rw [addInterfaceForProcess, hfind]
  exact ⟨_, sent_send hfind _ _, isAck_ack env _ _⟩

theorem not_truthful_of_full {interface : Interfaces} (hregistered : s.IsRegistered name)
    (hfull : ¬ HasRoom env.cfg .interfaces s.portManager) :
    ¬ Truthful env seg name (.addInterfaceForProcess interface) s := by
  intro h
  obtain ⟨-, m, hsent, herror⟩ := h.full .interfaces rfl hregistered hfull
  obtain ⟨m', hsent', hack⟩ := @sent_addInterface (env.with seg) s name hregistered interface
  obtain rfl : m = m' := by
    simpa using List.append_cancel_left (hsent.symm.trans hsent')
  exact not_isAck_of_isError herror (show IsAck PoolList.interfaces.ackType m from hack)

end truthful

section others

variable {env : Surroundings} {s : ProcessManager} {name : String}

theorem sent_searchForProcess (name : String) (feedback : TerminationFeedback)
    (s : ProcessManager) :
    (searchForProcessAndRemoveIt env name feedback s).sent = s.sent ∨
      feedback = .sendAckToProcess ∧
      (searchForProcessAndRemoveIt env name feedback s).sent =
        s.sent ++ [(name, IpcMessage.ofEntries [ipcMessageTypeToString .terminationAck])] := by
  cases hfind : s.findProcess name with
  | none => simp [searchForProcessAndRemoveIt, hfind]
  | some process =>
    have hname := name_of_findProcess hfind
    cases feedback <;> simp [searchForProcessAndRemoveIt, hfind, sendViaIpcChannel, hname]

theorem sent_addProcess (pid user : Nat) (transmissionTimestamp : Int) (versionInfo : List Char)
    (s : ProcessManager) :
    (addProcess env name pid user transmissionTimestamp versionInfo s).sent = s.sent ∨
      ∃ rest, (∀ e ∈ rest, IpcMessage.separator ∉ e) ∧
        (addProcess env name pid user transmissionTimestamp versionInfo s).sent =
          s.sent ++ [(name, IpcMessage.ofEntries (ipcMessageTypeToString .regAck :: rest))] := by
  unfold ProcessManager.addProcess
  split
  · exact Or.inl rfl
  · split
    · exact Or.inl rfl
    · refine Or.inr ⟨[Convert.toString env.mgmtSize, Convert.toString env.segmentManagerOffset,
        intToString transmissionTimestamp, Convert.toString env.mgmtSegmentId], ?_, rfl⟩
      have hdigits : ∀ n : Nat, IpcMessage.separator ∉ Convert.toString n :=
        fun n => not_mem_toString (by decide)
      have hint : IpcMessage.separator ∉ intToString transmissionTimestamp :=
        not_mem_intToString (by decide) (by decide)
      simp [hdigits, hint]

theorem sent_registerProcess (pid user : Nat) (transmissionTimestamp : Int)
    (versionInfo : List Char) (s : ProcessManager) :
    (registerProcess env name pid user transmissionTimestamp versionInfo s).sent = s.sent ∨
      ∃ rest, (∀ e ∈ rest, IpcMessage.separator ∉ e) ∧
        (registerProcess env name pid user transmissionTimestamp versionInfo s).sent =
          s.sent ++ [(name, IpcMessage.ofEntries (ipcMessageTypeToString .regAck :: rest))] := by
  unfold registerProcess
  split
  · have hremoved := (@sent_searchForProcess env name .doNotSendAckToProcess s).resolve_right
      (by simp)
    have hadd := @sent_addProcess env name pid user transmissionTimestamp versionInfo
      (searchForProcessAndRemoveIt env name .doNotSendAckToProcess s)
    rw [hremoved] at hadd
    exact hadd
  · exact sent_addProcess pid user transmissionTimestamp versionInfo s

theorem truthful_of_no_request {seg : ManagementSegment env.cfg} {c : Call}
    (hlist : c.list = none) : Truthful env seg name c s := by
  refine truthful_of_no_ack ?_ fun l hl => by rw [hlist] at hl; cases hl
  cases c with
  | registerProcess pid user transmissionTimestamp versionInfo =>
    rcases sent_registerProcess pid user transmissionTimestamp versionInfo s with
      h | ⟨rest, hrest, h⟩
    · exact Or.inl h
    · exact Or.inr ⟨name, .regAck, rest, hrest, fun l => by cases l <;> decide, h⟩
  | updateLivelinessOfProcess => exact Or.inl rfl
  | handleProcessShutdownPreparationRequest =>
    simp only [Call.perform, handleProcessShutdownPreparationRequest]
    split
    · exact Or.inl rfl
    · next process hfind =>
      exact Or.inr ⟨_, .prepareAppTerminationAck, [], by simp, fun l => by cases l <;> decide, rfl⟩
  | unregisterProcess =>
    rcases @sent_searchForProcess (env.with seg) name .sendAckToProcess s with h | ⟨-, h⟩
    · exact Or.inl h
    · exact Or.inr ⟨name, .terminationAck, [], by simp, fun l => by cases l <;> decide, h⟩
  | sendMessageNotSupportedToRuntime =>
    simp only [Call.perform, sendMessageNotSupportedToRuntime]
    split
    · exact Or.inl rfl
    · exact Or.inr ⟨_, .messageNotSupported, [], by simp, fun l => by cases l <;> decide, rfl⟩
  | _ => cases hlist

theorem perform_of_not_registered {c : Call} {l : PoolList} (hlist : c.list = some l)
    (h : ¬ s.IsRegistered name) : c.perform env name s = s := by
  have hfind : s.findProcess name = none := findProcess_eq_none h
  cases c with
  | registerProcess | updateLivelinessOfProcess | handleProcessShutdownPreparationRequest |
    unregisterProcess | sendMessageNotSupportedToRuntime => cases hlist
  | _ =>
    simp [Call.perform, addPublisherForProcess, addSubscriberForProcess, addClientForProcess,
      addServerForProcess, addConditionVariableForProcess, addInterfaceForProcess,
      addNodeForProcess, hfind]

end others

section replies

variable {env : Surroundings} {s s' : ProcessManager} {name : String} {process : Process}

structure Replied (name : String) (s s' : ProcessManager) : Prop where
  processes : s'.processList.map (·.name) = s.processList.map (·.name)
  sent : s'.sent = s.sent ∨ ∃ type rest, type ≠ IpcMessageType.regAck ∧
    (∀ e ∈ rest, ∀ c, Special c → c ∉ e) ∧
      s'.sent = s.sent ++ [(name, IpcMessage.ofEntries (ipcMessageTypeToString type :: rest))]

namespace Replied

theorem refl : Replied name s s := ⟨rfl, Or.inl rfl⟩

theorem send (h : s.findProcess name = some process) {type : IpcMessageType}
    {rest : List (List Char)} (htype : type ≠ .regAck) (hrest : ∀ e ∈ rest, ∀ c, Special c → c ∉ e)
    (portManager : PortManager) :
    Replied name s ({ s with portManager := portManager }.sendViaIpcChannel process
      (.ofEntries (ipcMessageTypeToString type :: rest))) :=
  ⟨rfl, Or.inr ⟨type, rest, htype, hrest, sent_send h _ portManager⟩⟩

theorem send_ack (h : s.findProcess name = some process) {type : IpcMessageType}
    (htype : type ≠ .regAck) (member : Member) (portManager : PortManager) :
    Replied name s ({ s with portManager := portManager }.sendViaIpcChannel process
      (ack env type member)) := by
  refine send h htype ?_ portManager
  simp +contextual [Special.not_mem_toString]

theorem send_error (h : s.findProcess name = some process) (e : IpcMessageErrorType)
    (portManager : PortManager) :
    Replied name s ({ s with portManager := portManager }.sendViaIpcChannel process
      (errorReply e)) := by
  refine send h (by decide) ?_ portManager
  simp +contextual [ipcMessageErrorTypeToString, Special.not_mem_toString]

theorem reply (h : s.findProcess name = some process) {type : IpcMessageType}
    (htype : type ≠ .regAck) (member : Nat → Member)
    (errorType : PortPoolError → IpcMessageErrorType)
    (result : PortManager × Except PortPoolError Nat) :
    Replied name s (reply env process type member errorType s result) := by
  obtain ⟨portManager, e | k⟩ := result
  · exact send_error h _ portManager
  · exact send_ack h htype _ portManager

theorem send_optional (h : s.findProcess name = some process) (b : Prop) [Decidable b]
    (e : IpcMessageErrorType) (portManager : PortManager) :
    Replied name s ({ s with portManager := portManager }.sendViaIpcChannel process
      (if b then (IpcMessage.ofEntries [ipcMessageTypeToString .error]).addEntry
        (ipcMessageErrorTypeToString e) else .ofEntries [ipcMessageTypeToString .error])) := by
  split
  · exact send_error h e portManager
  · exact send h (by decide) (by simp) portManager

end Replied

theorem Replied.perform {c : Call} (hc : c.keepsProcesses = true) :
    Replied name s (c.perform env name s) := by
  cases hfind : s.findProcess name with
  | none =>
    cases c with
    | registerProcess pid user transmissionTimestamp versionInfo => cases hc
    | unregisterProcess => cases hc
    | updateLivelinessOfProcess => exact ⟨names_updateLiveliness env name s, Or.inl rfl⟩
    | _ =>
      simp only [Call.perform, addPublisherForProcess, addSubscriberForProcess,
        addClientForProcess, addServerForProcess, addConditionVariableForProcess,
        addInterfaceForProcess, addNodeForProcess, handleProcessShutdownPreparationRequest,
        sendMessageNotSupportedToRuntime, hfind]
      exact .refl
  | some process =>
    cases c with
    | registerProcess pid user transmissionTimestamp versionInfo => cases hc
    | unregisterProcess => cases hc
    | updateLivelinessOfProcess => exact ⟨names_updateLiveliness env name s, Or.inl rfl⟩
    | addPublisherForProcess service options config =>
      simp only [Call.perform, addPublisherForProcess, hfind]
      split
      · exact .send_error hfind _ _
      · exact .reply hfind (by decide) _ _ _
    | addSubscriberForProcess service options config =>
      simp only [Call.perform, addSubscriberForProcess, hfind]
      exact .reply hfind (by decide) _ _ _
    | addClientForProcess service options config =>
      simp only [Call.perform, addClientForProcess, hfind]
      split
      · exact .send_error hfind _ _
      · exact .reply hfind (by decide) _ _ _
    | addServerForProcess service options config =>
      simp only [Call.perform, addServerForProcess, hfind]
      split
      · exact .send_error hfind _ _
      · exact .reply hfind (by decide) _ _ _
    | addConditionVariableForProcess =>
      simp only [Call.perform, addConditionVariableForProcess, hfind]
      split
      · exact .send_ack hfind (by decide) _ _
      · exact .send_optional hfind _ _ _
    | addInterfaceForProcess interface =>
      simp only [Call.perform, addInterfaceForProcess, hfind]
      exact .send_ack hfind (by decide) _ _
    | addNodeForProcess nodeName =>
      simp only [Call.perform, addNodeForProcess, hfind]
      split
      · exact .send_ack hfind (by decide) _ _
      · exact .send_optional hfind _ _ _
    | handleProcessShutdownPreparationRequest =>
      simp only [Call.perform, handleProcessShutdownPreparationRequest, hfind]
      exact .send hfind (by decide) (by simp) _
    | sendMessageNotSupportedToRuntime =>
      simp only [Call.perform, sendMessageNotSupportedToRuntime, hfind]
      exact .send hfind (by decide) (by simp) s.portManager

theorem sent_perform_of_not_register {c : Call}
    (hc : ∀ pid user transmissionTimestamp versionInfo,
      c ≠ .registerProcess pid user transmissionTimestamp versionInfo) :
    (c.perform env name s).sent = s.sent ∨
      ∃ type rest, type ≠ IpcMessageType.regAck ∧
        (∀ e ∈ rest, ∀ c, Special c → c ∉ e) ∧ (c.perform env name s).sent =
          s.sent ++ [(name, IpcMessage.ofEntries (ipcMessageTypeToString type :: rest))] := by
  cases hkeeps : c.keepsProcesses with
  | true => exact (Replied.perform hkeeps).sent
  | false =>
    cases c with
    | registerProcess pid user transmissionTimestamp versionInfo => exact absurd rfl (hc _ _ _ _)
    | unregisterProcess =>
      rcases @sent_searchForProcess env name .sendAckToProcess s with h | ⟨-, h⟩
      · exact Or.inl h
      · exact Or.inr ⟨.terminationAck, [], by decide, by simp, h⟩
    | _ => cases hkeeps

theorem command_received {type : IpcMessageType} {rest : List (List Char)}
    (hrest : ∀ e ∈ rest, ∀ c, Special c → c ∉ e) :
    command (received (IpcMessage.ofEntries (ipcMessageTypeToString type :: rest)).getMessage) =
      type := by
  have hplain : ∀ c, Special c → ∀ e ∈ ipcMessageTypeToString type :: rest, c ∉ e := by
    intro c hc
    exact List.forall_mem_cons.mpr ⟨hc.not_mem_toString _, fun e he => hrest e he c hc⟩
  rw [received_ofEntries (hplain _ (Or.inr rfl)) (hplain _ (Or.inl rfl)), command,
    IpcMessage.getElementAtIndex_ofEntries (hplain _ (Or.inr rfl)) (by decide),
    List.getD_cons_zero, cStr_ipcMessageTypeToString, stringToIpcMessageType_toString]

theorem sent_perform (c : Call) :
    (c.perform env name s).sent = s.sent ∨
      ∃ m, (c.perform env name s).sent = s.sent ++ [(name, m)] := by
  by_cases hc : ∀ pid user transmissionTimestamp versionInfo,
      c ≠ .registerProcess pid user transmissionTimestamp versionInfo
  · rcases @sent_perform_of_not_register env s name c hc with h | ⟨type, rest, -, -, h⟩
    · exact Or.inl h
    · exact Or.inr ⟨_, h⟩
  · push Not at hc
    obtain ⟨pid, user, transmissionTimestamp, versionInfo, rfl⟩ := hc
    rcases @sent_registerProcess env name pid user transmissionTimestamp versionInfo s with
      h | ⟨rest, -, h⟩
    · exact Or.inl h
    · exact Or.inr ⟨_, h⟩

theorem Owned.isRegistered_perform (h : Owned env s) (c : Call) {n : String} (hne : n ≠ name) :
    (c.perform env name s).IsRegistered n ↔ s.IsRegistered n := by
  have hremove : ∀ feedback,
      (searchForProcessAndRemoveIt env name feedback s).IsRegistered n ↔ s.IsRegistered n := by
    intro feedback
    by_cases hregistered : s.IsRegistered name
    · rw [(h.searchForProcess_removed feedback hregistered).processes n]
      exact and_iff_left hne
    · rw [searchForProcessAndRemoveIt, findProcess_eq_none hregistered]
  cases hkeeps : c.keepsProcesses with
  | true => exact isRegistered_of_names (Replied.perform hkeeps).processes n
  | false =>
    cases c with
    | registerProcess pid user transmissionTimestamp versionInfo =>
      by_cases hregistered : s.IsRegistered name
      · rw [Call.perform, registerProcess_of_registered hregistered,
          (addProcess_others pid user transmissionTimestamp versionInfo).1 n hne]
        exact hremove .doNotSendAckToProcess
      · rw [Call.perform, ProcessManager.registerProcess, findProcess_eq_none hregistered]
        exact (addProcess_others pid user transmissionTimestamp versionInfo).1 n hne
    | unregisterProcess => exact hremove .sendAckToProcess
    | _ => cases hkeeps

end replies

/-- In every state that a run reaches, every answer is true, unless a registered process
asks for an interface while the list of interfaces is full. -/
theorem acknowledgements_truthful_iff (env : Surroundings) (seg : ManagementSegment env.cfg)
    (ops : List (Int × ManagerOp)) (name : String) (c : Call) :
    Truthful env seg name c (run (env.with seg) ops) ↔
      ∀ interface, c = .addInterfaceForProcess interface →
        (run (env.with seg) ops).IsRegistered name →
        HasRoom env.cfg .interfaces (run (env.with seg) ops).portManager := by
  have howned := owned_run (env.with seg) ops
  generalize run (env.with seg) ops = s at howned
  constructor
  · rintro h interface rfl hregistered
    by_contra hfull
    exact not_truthful_of_full hregistered hfull h
  · intro hroom
    cases hlist : c.list with
    | none => exact truthful_of_no_request hlist
    | some l =>
      by_cases hregistered : s.IsRegistered name
      · obtain ⟨process, hfind⟩ := find_of_isRegistered hregistered
        have hanswers : Answers (env.with seg) l name (c.cleaned env.cfg s.portManager) s
            (c.perform (env.with seg) name s) :=
          Answers.perform hfind hlist fun interface hc => hroom interface hc hregistered
        exact hanswers.truthful hlist howned.within
      · apply truthful_of_no_ack
        · rw [perform_of_not_registered hlist hregistered]
          exact Or.inl rfl
        · exact fun _ _ => hregistered

theorem capacityOf_small_le (l : PoolList) : smallSurroundings.cfg.capacityOf l ≤ 2 := by
  cases l <;> decide

theorem smallSegment_size_pos : 0 < 4096 := by decide

theorem smallSegment_inside : 4096 + 4096 ≤ addressRange := by decide

def smallSegment : ManagementSegment smallSurroundings.cfg where
  id := 1
  roudi := ⟨4096, 4096, smallSegment_size_pos, smallSegment_size_pos, smallSegment_inside⟩
  runtime := ⟨65536, 4096, by decide, smallSegment_size_pos, by decide⟩
  roudiRepository := (PointerRepository.init 2 (by decide)).enter 1 4096 4096
  runtimeRepository := (PointerRepository.init 2 (by decide)).enter 1 65536 4096
  position l k := 128 + 8 * (2 * l.ctorIdx + k)
  registered := by decide
  opened := by decide
  size_eq := rfl
  inside l k hk := by
    have hle := capacityOf_small_le l
    have hlist : l.ctorIdx < 7 := by cases l <;> decide
    change 128 + 8 * (2 * l.ctorIdx + k) < 4096
    omega
  apart l k l' k' hk hk' h := by
    have hle := capacityOf_small_le l
    have hle' := capacityOf_small_le l'
    obtain ⟨hlist, rfl⟩ : l.ctorIdx = l'.ctorIdx ∧ k = k' := by omega
    refine ⟨?_, rfl⟩
    cases l <;> cases l' <;> first | rfl | cases hlist

theorem full_interface_list_acknowledged :
    ¬ Truthful smallSurroundings smallSegment "app" (.addInterfaceForProcess .internal)
      (run (smallSurroundings.with smallSegment)
        [(0, .call "app" (.registerProcess 7 1000 0 [])),
          (0, .call "app" (.addInterfaceForProcess .internal))]) := by
  apply not_truthful_of_full
  · exact ⟨{ name := "app", pid := 7, user := 1000 }, List.mem_singleton_self _, rfl⟩
  · unfold HasRoom
    decide +kernel

end ProcessManager

end Iceoryx.Roudi
