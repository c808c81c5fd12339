import Iceoryx.Roudi.Owners
import Iceoryx.Roudi.RuntimeMessages

namespace Iceoryx.Roudi

open Capro Popo Iceoryx.Runtime PortManager

def Op.isWrite : Op → Bool
  | .writePublisher .. => true
  | .writeSubscriber .. => true
  | .writeClient .. => true
  | .writeServer .. => true
  | .writeInterface .. => true
  | .writeNode .. => true
  | .writeConditionVariable .. => true
  | _ => false

inductive ManagerOp
  | call (name : String) (c : Call)
  | monitorProcesses
  | discoveryUpdate
  | addIntrospectionPublisherPort (service : ServiceDescription) (options : PublisherOptions)
  | write (op : Op) (h : op.isWrite = true)

namespace ProcessManager

def addIntrospectionPublisherPort (env : Surroundings) (service : ServiceDescription)
    (options : PublisherOptions) (s : ProcessManager) : ProcessManager :=
  { s with
    portManager :=
      (acquirePublisherPortData env.cfg service options ipcChannelRoudiName s.portManager).1 }

def apply (env : Surroundings) (s : ProcessManager) : ManagerOp → ProcessManager
  | .call name c => c.perform env name s
  | .monitorProcesses => monitorProcesses env s
  | .discoveryUpdate => discoveryUpdate env s
  | .addIntrospectionPublisherPort service options =>
    addIntrospectionPublisherPort env service options s
  | .write op _ => { s with portManager := s.portManager.apply env.cfg op }

def run (env : Surroundings) (ops : List (Int × ManagerOp)) : ProcessManager :=
  ops.foldl (fun s op => apply { env with now := op.1 } s op.2) {}

def IsRegistered (name : String) (s : ProcessManager) : Prop :=
  ∃ process ∈ s.processList, process.name = name

structure Owned (env : Surroundings) (s : ProcessManager) : Prop where
  names : (s.processList.map (·.name)).Nodup
  bounded : s.processList.length ≤ env.maxProcessNumber
  within : ∀ l, (s.portManager.owners l).data.length ≤ env.cfg.capacityOf l
  owners : ∀ l k name, s.portManager.ownerOf l k = some name →
    name = ipcChannelRoudiName ∨ s.IsRegistered name

variable {env : Surroundings} {s s' : ProcessManager} {name : String}

theorem isRegistered_of_names (h : s'.processList.map (·.name) = s.processList.map (·.name))
    (n : String) : s'.IsRegistered n ↔ s.IsRegistered n := by
  have hmem : ∀ s : ProcessManager, s.IsRegistered n ↔ n ∈ s.processList.map (·.name) := by
    intro s
    rw [List.mem_map]
    rfl
  rw [hmem, hmem, h]

theorem names_updateLiveliness (env : Surroundings) (name : String) (s : ProcessManager) :
    (updateLivelinessOfProcess env name s).processList.map (·.name) =
      s.processList.map (·.name) := by
  unfold updateLivelinessOfProcess
  apply List.ext_getElem?
  intro i
  rw [List.getElem?_map, List.getElem?_map, List.getElem?_modify]
  split
  · rw [Option.map_eq_map, Option.map_map]
    rfl
  · simp only [Option.map_eq_map, Option.map_id']

namespace Owned

theorem empty : Owned env {} where
  names := List.nodup_nil
  bounded := Nat.zero_le _
  within l := by cases l <;> exact Nat.zero_le _
  owners l k name h := by cases l <;> simp [ownerOf, publisherOwner, subscriberOwner, clientOwner,
    serverOwner, interfaceOwner, nodeOwner, conditionVariableOwner] at h

theorem of_ports (h : Owned env s)
    (hlist : s'.processList.map (·.name) = s.processList.map (·.name))
    (hwithin : ∀ l, (s'.portManager.owners l).data.length ≤ env.cfg.capacityOf l)
    (hports : ∀ l k n, s'.portManager.ownerOf l k = some n →
      s.portManager.ownerOf l k = some n ∨ n = ipcChannelRoudiName ∨ s.IsRegistered n) :
    Owned env s' := by
  refine ⟨by rw [hlist]; exact h.names, ?_, hwithin, ?_⟩
  · have := congrArg List.length hlist
    rw [List.length_map, List.length_map] at this
    rw [this]
    exact h.bounded
  · intro l k n hown
    rw [isRegistered_of_names hlist]
    rcases hports l k n hown with hold | hnew
    · exact h.owners l k n hold
    · exact hnew

theorem of_shrinks (h : Owned env s) (hlist : s'.processList = s.processList)
    (hports : Shrinks s.portManager s'.portManager) : Owned env s' := by
  refine h.of_ports (by rw [hlist]) ?_ ?_
  · intro l
    rw [hports.length l]
    exact h.within l
  intro l k n hown
  rcases hports.owner l k with heq | hnone
  · exact Or.inl (heq ▸ hown)
  · rw [hnone] at hown
    cases hown

theorem of_acquired (h : Owned env s) {l : PoolList} {pm : PortManager}
    {result : PortManager × Except PortPoolError Nat} (hlist : s'.processList = s.processList)
    (hpm : s'.portManager = result.1) (hshrinks : Shrinks s.portManager pm)
    (hacquired : Acquired env.cfg l name pm result)
    (hname : name = ipcChannelRoudiName ∨ s.IsRegistered name) : Owned env s' := by
  have hold : ∀ l k n, pm.ownerOf l k = some n → s.portManager.ownerOf l k = some n := by
    intro l k n hown
    rcases hshrinks.owner l k with heq | hnone
    · exact heq ▸ hown
    · rw [hnone] at hown
      cases hown
  have hwithin : ∀ l, (pm.owners l).data.length ≤ env.cfg.capacityOf l := by
    intro l
    rw [hshrinks.length l]
    exact h.within l
  refine h.of_ports (by rw [hlist]) ?_ ?_
  · intro l'
    rw [hpm]
    exact hacquired.within hwithin l'
  intro l' k n hown
  rw [hpm] at hown
  rcases hacquired.owner hown with hown | rfl
  · exact Or.inl (hold l' k n hown)
  · exact Or.inr hname

end Owned

theorem isRegistered_of_find {process : Process} (h : s.findProcess name = some process) :
    s.IsRegistered name :=
  ⟨process, List.mem_of_find?_eq_some h, name_of_findProcess h⟩

theorem find_of_isRegistered (h : s.IsRegistered name) :
    ∃ process, s.findProcess name = some process := by
  obtain ⟨p, hp, hname⟩ := h
  rw [← Option.isSome_iff_exists, findProcess, List.find?_isSome]
  exact ⟨p, hp, by simpa using hname⟩

theorem findProcess_eq_none (h : ¬ s.IsRegistered name) : s.findProcess name = none := by
  cases hfind : s.findProcess name with
  | none => rfl
  | some p => exact absurd (isRegistered_of_find hfind) h

namespace Owned

theorem reply (h : Owned env s) {process : Process} {type : IpcMessageType} {member : Nat → Member}
    {errorType : PortPoolError → IpcMessageErrorType} {l : PoolList} {pm : PortManager}
    {result : PortManager × Except PortPoolError Nat} (hshrinks : Shrinks s.portManager pm)
    (hacquired : Acquired env.cfg l name pm result) (hname : s.IsRegistered name) :
    Owned env (reply env process type member errorType s result) := by
  unfold ProcessManager.reply
  simp only
  split
  · exact h.of_acquired rfl rfl hshrinks hacquired (Or.inr hname)
  · exact h.of_acquired rfl rfl hshrinks hacquired (Or.inr hname)

theorem addSubscriber (h : Owned env s) (service : ServiceDescription)
    (options : SubscriberOptions) :
    Owned env (addSubscriberForProcess env name service options s) := by
  unfold addSubscriberForProcess
  split
  · exact h
  · next process hfind =>
    exact h.reply (Shrinks.refl _) (acquired_subscriber name service options _)
      (isRegistered_of_find hfind)

theorem addPublisher (h : Owned env s) (service : ServiceDescription)
    (options : PublisherOptions) :
    Owned env (addPublisherForProcess env name service options s) := by
  unfold addPublisherForProcess
  split
  · exact h
  · next process hfind =>
    split
    · exact h.of_shrinks rfl (Shrinks.refl _)
    · exact h.reply (Shrinks.doesViolateCommunicationPolicy service _)
        (acquired_publisher name service options _) (isRegistered_of_find hfind)

theorem addClient (h : Owned env s) (service : ServiceDescription) (options : ClientOptions) :
    Owned env (addClientForProcess env name service options s) := by
  unfold addClientForProcess
  split
  · exact h
  · next process hfind =>
    split
    · exact h.of_shrinks rfl (Shrinks.refl _)
    · exact h.reply (Shrinks.refl _) (acquired_client name service options _)
        (isRegistered_of_find hfind)

theorem addServer (h : Owned env s) (service : ServiceDescription) (options : ServerOptions) :
    Owned env (addServerForProcess env name service options s) := by
  unfold addServerForProcess
  split
  · exact h
  · next process hfind =>
    split
    · exact h.of_shrinks rfl (Shrinks.refl _)
    · exact h.reply (Shrinks.findServerInUse service _ _)
        (acquired_server name service options _) (isRegistered_of_find hfind)

theorem addInterface (h : Owned env s) (interface : Interfaces) :
    Owned env (addInterfaceForProcess env name interface s) := by
  unfold addInterfaceForProcess
  split
  · exact h
  · next process hfind =>
    exact h.of_acquired rfl rfl (Shrinks.refl _) (acquired_interface name interface s.portManager)
      (Or.inr (isRegistered_of_find hfind))

theorem addNode (h : Owned env s) (nodeName : String) :
    Owned env (addNodeForProcess env name nodeName s) := by
  unfold addNodeForProcess
  split
  · exact h
  · next process hfind =>
    have hacquired := @acquired_node env.cfg name nodeName s.portManager
    have hname := isRegistered_of_find hfind
    split
    · next hresult =>
      rw [hresult] at hacquired
      exact h.of_acquired rfl rfl (Shrinks.refl _) hacquired (Or.inr hname)
    · next hresult =>
      rw [hresult] at hacquired
      exact h.of_acquired rfl rfl (Shrinks.refl _) hacquired (Or.inr hname)

theorem addConditionVariable (h : Owned env s) :
    Owned env (addConditionVariableForProcess env name s) := by
  unfold addConditionVariableForProcess
  split
  · exact h
  · next process hfind =>
    have hacquired := @acquired_conditionVariable env.cfg name s.portManager
    have hname := isRegistered_of_find hfind
    split
    · next hresult =>
      rw [hresult] at hacquired
      exact h.of_acquired rfl rfl (Shrinks.refl _) hacquired (Or.inr hname)
    · next hresult =>
      rw [hresult] at hacquired
      exact h.of_acquired rfl rfl (Shrinks.refl _) hacquired (Or.inr hname)

theorem updateLiveliness (h : Owned env s) :
    Owned env (updateLivelinessOfProcess env name s) := by
  exact h.of_ports (names_updateLiveliness env name s) h.within fun l k n => Or.inl

theorem shutdownPreparation (h : Owned env s) :
    Owned env (handleProcessShutdownPreparationRequest env name s) := by
  unfold handleProcessShutdownPreparationRequest
  split
  · exact h
  · exact h.of_shrinks rfl (Shrinks.of_same (SameOwners.unblockProcessShutdown name _))

theorem messageNotSupported (h : Owned env s) :
    Owned env (sendMessageNotSupportedToRuntime name s) := by
  obtain ⟨hlist, hports⟩ := sendMessageNotSupported_unchanged name s
  exact h.of_shrinks hlist (hports ▸ Shrinks.refl _)

end Owned

/-- From `s` to `s'` the processes that `gone` names were removed with all that they own,
and nothing else was. -/
structure Removed (gone : String → Prop) (s s' : ProcessManager) : Prop where
  processes : ∀ n, s'.IsRegistered n ↔ s.IsRegistered n ∧ ¬ gone n
  owners : ∀ l k n, s'.portManager.ownerOf l k = some n ↔
    s.portManager.ownerOf l k = some n ∧ ¬ gone n

theorem Owned.of_removed {gone : String → Prop} (h : Owned env s) (hremoved : Removed gone s s')
    (hlist : s'.processList.Sublist s.processList)
    (hlength : ∀ l, (s'.portManager.owners l).data.length = (s.portManager.owners l).data.length) :
    Owned env s' where
  names := h.names.sublist (hlist.map _)
  bounded := hlist.length_le.trans h.bounded
  within l := by
    rw [hlength]
    exact h.within l
  owners l k n hown := by
    obtain ⟨hown, hgone⟩ := (hremoved.owners l k n).mp hown
    obtain hroudi | hregistered := h.owners l k n hown
    · exact Or.inl hroudi
    · exact Or.inr ((hremoved.processes n).mpr ⟨hregistered, hgone⟩)

theorem owner_deletePortsOfProcess {pm : PortManager} (l : PoolList) (k : Nat) (n : String) :
    (pm.deletePortsOfProcess env.cfg name).ownerOf l k = some n ↔
      pm.ownerOf l k = some n ∧ n ≠ name := by
  rw [ownerOf_deletePortsOfProcess]
  split
  · next heq =>
    rw [heq]
    constructor
    · intro hnone
      cases hnone
    · rintro ⟨hn, hne⟩
      exact absurd (Option.some.inj hn).symm hne
  · next hne =>
    constructor
    · intro hown
      refine ⟨hown, ?_⟩
      rintro rfl
      exact hne hown
    · exact And.left

theorem searchForProcess_eq (env : Surroundings) (feedback : TerminationFeedback) {p : Process}
    (h : s.findProcess name = some p) :
    (searchForProcessAndRemoveIt env name feedback s).processList = s.processList.erase p ∧
      (searchForProcessAndRemoveIt env name feedback s).portManager =
        s.portManager.deletePortsOfProcess env.cfg name := by
  cases feedback <;> simp [searchForProcessAndRemoveIt, h, sendViaIpcChannel]

section names

variable (h : Owned env s) {p q : Process}
include h

theorem Owned.process_unique (hp : p ∈ s.processList) (hq : q ∈ s.processList)
    (hname : p.name = q.name) : p = q :=
  List.inj_on_of_nodup_map h.names hp hq hname

theorem Owned.mem_erase_iff : q ∈ s.processList.erase p ↔ q ≠ p ∧ q ∈ s.processList :=
  (List.Nodup.of_map _ h.names).mem_erase_iff

theorem Owned.searchForProcess_removed (feedback : TerminationFeedback)
    (hregistered : s.IsRegistered name) :
    Removed (· = name) s (searchForProcessAndRemoveIt env name feedback s) := by
  obtain ⟨p, hfind⟩ := find_of_isRegistered hregistered
  have hmem := List.mem_of_find?_eq_some hfind
  have hname := name_of_findProcess hfind
  have hafter := searchForProcess_eq env feedback hfind
  constructor
  · intro n
    rw [IsRegistered, hafter.1]
    constructor
    · rintro ⟨q, hq, rfl⟩
      obtain ⟨hne, hq⟩ := h.mem_erase_iff.mp hq
      refine ⟨⟨q, hq, rfl⟩, ?_⟩
      intro heq
      exact hne (h.process_unique hq hmem (heq.trans hname.symm))
    · rintro ⟨⟨q, hq, rfl⟩, hne⟩
      refine ⟨q, h.mem_erase_iff.mpr ⟨?_, hq⟩, rfl⟩
      rintro rfl
      exact hne hname
  · intro l k n
    rw [hafter.2]
    exact owner_deletePortsOfProcess l k n

theorem Owned.searchForProcess (feedback : TerminationFeedback) :
    Owned env (searchForProcessAndRemoveIt env name feedback s) := by
  by_cases hregistered : s.IsRegistered name
  · obtain ⟨p, hfind⟩ := find_of_isRegistered hregistered
    obtain ⟨hlist, hports⟩ := searchForProcess_eq env feedback hfind
    refine h.of_removed (h.searchForProcess_removed feedback hregistered) ?_ ?_
    · rw [hlist]
      exact List.erase_sublist
    · rw [hports]
      exact (Shrinks.deletePortsOfProcess name s.portManager).length
  · rw [searchForProcessAndRemoveIt, findProcess_eq_none hregistered]
    exact h

theorem Owned.addProcess (pid user : Nat) (transmissionTimestamp : Int) (versionInfo : List Char)
    (hnew : ¬ s.IsRegistered name) :
    Owned env (addProcess env name pid user transmissionTimestamp versionInfo s) := by
  unfold ProcessManager.addProcess
  split
  · exact h
  · split
    · exact h
    · next hroom =>
      refine ⟨?_, ?_, h.within, ?_⟩
      · simp only [sendViaIpcChannel, List.map_append, List.map_cons, List.map_nil]
        refine h.names.append (List.nodup_singleton _) ?_
        intro n hn hn'
        obtain ⟨q, hq, rfl⟩ := List.mem_map.mp hn
        exact hnew ⟨q, hq, List.mem_singleton.mp hn'⟩
      · simp only [sendViaIpcChannel, List.length_append, List.length_singleton]
        omega
      · intro l k n hown
        obtain hroudi | ⟨q, hq, hname⟩ := h.owners l k n hown
        · exact Or.inl hroudi
        · exact Or.inr ⟨q, List.mem_append_left _ hq, hname⟩

end names

theorem addProcess_others (pid user : Nat) (transmissionTimestamp : Int) (versionInfo : List Char) :
    (∀ n, n ≠ name →
      ((addProcess env name pid user transmissionTimestamp versionInfo s).IsRegistered n ↔
        s.IsRegistered n)) ∧
    (addProcess env name pid user transmissionTimestamp versionInfo s).portManager =
      s.portManager := by
  unfold ProcessManager.addProcess
  split
  · exact ⟨fun _ _ => Iff.rfl, rfl⟩
  · split
    · exact ⟨fun _ _ => Iff.rfl, rfl⟩
    · refine ⟨?_, rfl⟩
      intro n hne
      constructor
      · rintro ⟨q, hq, hname⟩
        obtain hq | hq := List.mem_append.mp hq
        · exact ⟨q, hq, hname⟩
        · rw [List.mem_singleton.mp hq] at hname
          exact absurd hname.symm hne
      · rintro ⟨q, hq, hname⟩
        exact ⟨q, List.mem_append_left _ hq, hname⟩

theorem registerProcess_of_registered (hregistered : s.IsRegistered name) (pid user : Nat)
    (transmissionTimestamp : Int) (versionInfo : List Char) :
    registerProcess env name pid user transmissionTimestamp versionInfo s =
      addProcess env name pid user transmissionTimestamp versionInfo
        (searchForProcessAndRemoveIt env name .doNotSendAckToProcess s) := by
  obtain ⟨p, hfind⟩ := find_of_isRegistered hregistered
  rw [registerProcess, hfind]

theorem Owned.registerProcess (h : Owned env s) (pid user : Nat) (transmissionTimestamp : Int)
    (versionInfo : List Char) :
    Owned env (registerProcess env name pid user transmissionTimestamp versionInfo s) := by
  by_cases hregistered : s.IsRegistered name
  · rw [registerProcess_of_registered hregistered]
    have hremoved := h.searchForProcess_removed .doNotSendAckToProcess hregistered
    refine (h.searchForProcess _).addProcess pid user transmissionTimestamp versionInfo ?_
    intro hstill
    exact ((hremoved.processes name).mp hstill).2 rfl
  · rw [ProcessManager.registerProcess, findProcess_eq_none hregistered]
    exact h.addProcess pid user transmissionTimestamp versionInfo hregistered

def Silent (env : Surroundings) (ps : List Process) (n : String) : Prop :=
  ∃ p ∈ ps, notResponding env p = true ∧ p.name = n

theorem monitorLoop_eq (ps : List Process) (pm : PortManager) :
    (monitorLoop env ps pm).1 = ps.filter (!notResponding env ·) ∧
      ∀ l k n, (monitorLoop env ps pm).2.ownerOf l k = some n ↔
        pm.ownerOf l k = some n ∧ ¬ Silent env ps n := by
  induction ps generalizing pm with
  | nil => simp [monitorLoop, Silent]
  | cons p ps ih =>
    have hsilent : ∀ n, Silent env (p :: ps) n ↔
        notResponding env p = true ∧ p.name = n ∨ Silent env ps n := by
      intro n
      simp only [Silent, List.exists_mem_cons_iff]
    unfold monitorLoop
    split
    · next hp =>
      obtain ⟨hlist, howners⟩ := ih (pm.deletePortsOfProcess env.cfg p.name)
      refine ⟨by simpa [hp] using hlist, ?_⟩
      intro l k n
      rw [howners, owner_deletePortsOfProcess, hsilent]
      simp only [hp, true_and, not_or, and_assoc, ne_comm, ne_eq]
    · next hp =>
      obtain ⟨hlist, howners⟩ := ih pm
      refine ⟨by simpa [hp] using hlist, ?_⟩
      intro l k n
      rw [howners, hsilent]
      simp only [hp, false_and, false_or, Bool.false_eq_true]

theorem monitorLoop_shrinks (ps : List Process) (pm : PortManager) :
    Shrinks pm (monitorLoop env ps pm).2 := by
  induction ps generalizing pm with
  | nil => exact Shrinks.refl pm
  | cons p ps ih =>
    unfold monitorLoop
    split
    · exact (Shrinks.deletePortsOfProcess p.name pm).trans (ih _)
    · exact ih pm

theorem Owned.monitorProcesses_removed (h : Owned env s) (env' : Surroundings) :
    Removed (Silent env' s.processList) s (monitorProcesses env' s) := by
  obtain ⟨hlist, howners⟩ := @monitorLoop_eq env' s.processList s.portManager
  refine ⟨?_, howners⟩
  intro n
  rw [IsRegistered, monitorProcesses]
  simp only [hlist, List.mem_filter]
  constructor
  · rintro ⟨p, ⟨hp, hresponding⟩, rfl⟩
    refine ⟨⟨p, hp, rfl⟩, ?_⟩
    rintro ⟨q, hq, hsilent, hname⟩
    rw [h.process_unique hq hp hname] at hsilent
    simp [hsilent] at hresponding
  · rintro ⟨⟨p, hp, rfl⟩, hsilent⟩
    refine ⟨p, ⟨hp, ?_⟩, rfl⟩
    by_contra hcontra
    exact hsilent ⟨p, hp, by simpa using hcontra, rfl⟩

theorem Owned.monitorProcesses (h : Owned env s) (env' : Surroundings) :
    Owned env (monitorProcesses env' s) := by
  refine h.of_removed (h.monitorProcesses_removed env') ?_ ?_
  · rw [ProcessManager.monitorProcesses]
    simp only [(@monitorLoop_eq env' s.processList s.portManager).1]
    exact List.filter_sublist
  · exact (monitorLoop_shrinks s.processList s.portManager).length

theorem sameOwners_write {pm : PortManager} {cfg : Config} {op : Op} (h : op.isWrite = true) :
    SameOwners pm (pm.apply cfg op) := by
  cases op with
  | writePublisher i offeringRequested toBeDestroyed =>
    exact SameOwners.modifyPublisher i _ fun _ => rfl
  | writeSubscriber j subscribeRequested toBeDestroyed =>
    exact SameOwners.modifySubscriber j _ fun _ => rfl
  | writeClient i connectRequested toBeDestroyed =>
    exact SameOwners.modifyClient i _ fun _ => rfl
  | writeServer j offeringRequested toBeDestroyed =>
    exact SameOwners.modifyServer j _ fun _ => rfl
  | writeInterface i caproMessageFiFo toBeDestroyed =>
    exact SameOwners.modifyInterface i _ fun _ => rfl
  | writeNode i toBeDestroyed => exact SameOwners.modifyNode i _ fun _ => rfl
  | writeConditionVariable i toBeDestroyed =>
    exact SameOwners.modifyConditionVariable i _ fun _ => rfl
  | _ => cases h

theorem Owned.perform (h : Owned env s) (c : Call) : Owned env (c.perform env name s) := by
  cases c with
  | registerProcess pid user transmissionTimestamp versionInfo =>
    exact h.registerProcess pid user transmissionTimestamp versionInfo
  | addPublisherForProcess service options config => exact h.addPublisher service options
  | addSubscriberForProcess service options config => exact h.addSubscriber service options
  | addClientForProcess service options config => exact h.addClient service options
  | addServerForProcess service options config => exact h.addServer service options
  | addConditionVariableForProcess => exact h.addConditionVariable
  | addInterfaceForProcess interface => exact h.addInterface interface
  | addNodeForProcess nodeName => exact h.addNode nodeName
  | updateLivelinessOfProcess => exact h.updateLiveliness
  | handleProcessShutdownPreparationRequest => exact h.shutdownPreparation
  | unregisterProcess => exact h.searchForProcess .sendAckToProcess
  | sendMessageNotSupportedToRuntime => exact h.messageNotSupported

theorem Owned.discoveryUpdate (h : Owned env s) : Owned env (discoveryUpdate env s) := by
  apply h.of_shrinks
  · simp only [ProcessManager.discoveryUpdate]
  · simp only [ProcessManager.discoveryUpdate]
    exact Shrinks.doDiscovery s.portManager

theorem Owned.addIntrospectionPublisherPort (h : Owned env s) (service : ServiceDescription)
    (options : PublisherOptions) :
    Owned env (addIntrospectionPublisherPort env service options s) := by
  unfold ProcessManager.addIntrospectionPublisherPort
  exact h.of_acquired rfl rfl (Shrinks.doesViolateCommunicationPolicy service _)
    (acquired_publisher ipcChannelRoudiName service options _) (Or.inl rfl)

theorem Owned.apply (h : Owned env s) (op : ManagerOp) : Owned env (apply env s op) := by
  cases op with
  | call name c => exact h.perform c
  | monitorProcesses => exact h.monitorProcesses env
  | discoveryUpdate => exact h.discoveryUpdate
  | addIntrospectionPublisherPort service options =>
    exact h.addIntrospectionPublisherPort service options
  | write op hop =>
    have hports : SameOwners s.portManager (s.portManager.apply env.cfg op) := sameOwners_write hop
    unfold ProcessManager.apply
    exact h.of_shrinks rfl (Shrinks.of_same hports)

theorem Owned.at_any_time {now : Int} (h : Owned env s) : Owned { env with now := now } s :=
  ⟨h.names, h.bounded, h.within, h.owners⟩

theorem owned_run (env : Surroundings) (ops : List (Int × ManagerOp)) :
    Owned env (run env ops) := by
  refine Lib.foldl_invariant (I := Owned env) ops {} ?_ Owned.empty
  intro s op _ h
  have hstep : Owned { env with now := op.1 } (apply { env with now := op.1 } s op.2) :=
    h.at_any_time.apply op.2
  exact ⟨hstep.names, hstep.bounded, hstep.within, hstep.owners⟩

/-- Names are unique and bounded; who owns something is registered; and whoever goes, by
termination, by a second registration or by silence, takes all that it owns along and
nothing else. -/
theorem port_ownership (env : Surroundings) (ops : List (Int × ManagerOp)) :
    ((run env ops).processList.map (·.name)).Nodup ∧
    (run env ops).processList.length ≤ env.maxProcessNumber ∧
    (∀ l k name, (run env ops).portManager.ownerOf l k = some name →
      name ≠ ipcChannelRoudiName → (run env ops).IsRegistered name) ∧
    (∀ name, (run env ops).IsRegistered name →
      Removed (· = name) (run env ops) (unregisterProcess env name (run env ops))) ∧
    (∀ name pid user transmissionTimestamp versionInfo, (run env ops).IsRegistered name →
      (∀ l k n, (registerProcess env name pid user transmissionTimestamp versionInfo
          (run env ops)).portManager.ownerOf l k = some n ↔
        (run env ops).portManager.ownerOf l k = some n ∧ n ≠ name) ∧
      ∀ n, n ≠ name → ((registerProcess env name pid user transmissionTimestamp versionInfo
        (run env ops)).IsRegistered n ↔ (run env ops).IsRegistered n)) ∧
    (∀ now, Removed (Silent { env with now := now } (run env ops).processList) (run env ops)
      (monitorProcesses { env with now := now } (run env ops))) := by
  have h := owned_run env ops
  refine ⟨h.names, h.bounded, ?_, ?_, ?_, ?_⟩
  · intro l k name hown hne
    exact (h.owners l k name hown).resolve_left hne
  · intro name hregistered
    exact h.searchForProcess_removed .sendAckToProcess hregistered
  · intro name pid user transmissionTimestamp versionInfo hregistered
    have hremoved := h.searchForProcess_removed .doNotSendAckToProcess hregistered
    rw [registerProcess_of_registered hregistered]
    refine ⟨?_, ?_⟩
    · intro l k n
      rw [(addProcess_others _ _ _ _).2]
      exact hremoved.owners l k n
    · intro n hne
      rw [(addProcess_others _ _ _ _).1 n hne, hremoved.processes n]
      exact and_iff_left hne
  · intro now
    exact h.monitorProcesses_removed _

end ProcessManager

end Iceoryx.Roudi
