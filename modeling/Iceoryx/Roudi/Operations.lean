import Iceoryx.Lib.Fold
import Iceoryx.Roudi.PortManager

namespace Iceoryx.Roudi

open Capro Popo

inductive Op
  | acquirePublisherPortData (service : ServiceDescription) (options : PublisherOptions)
      (runtimeName : String)
  | acquireSubscriberPortData (service : ServiceDescription) (options : SubscriberOptions)
      (runtimeName : String)
  | acquireClientPortData (service : ServiceDescription) (options : ClientOptions)
      (runtimeName : String)
  | acquireServerPortData (service : ServiceDescription) (options : ServerOptions)
      (runtimeName : String)
  | acquireInterfacePortData (interface : Interfaces) (runtimeName : String)
  | acquireNodeData (runtimeName nodeName : String)
  | acquireConditionVariableData (runtimeName : String)
  | doDiscovery
  | destroyPublisherPort (i : Nat)
  | destroySubscriberPort (j : Nat)
  | destroyClientPort (i : Nat)
  | destroyServerPort (j : Nat)
  | deletePortsOfProcess (runtimeName : String)
  | unblockProcessShutdown (runtimeName : String)
  | unblockRouDiShutdown
  | writePublisher (i : Nat) (offeringRequested toBeDestroyed : Bool)
  | writeSubscriber (j : Nat) (subscribeRequested toBeDestroyed : Bool)
  | writeClient (i : Nat) (connectRequested toBeDestroyed : Bool)
  | writeServer (j : Nat) (offeringRequested toBeDestroyed : Bool)
  | writeInterface (i : Nat) (caproMessageFiFo : List CaproMessage) (toBeDestroyed : Bool)
  | writeNode (i : Nat) (toBeDestroyed : Bool)
  | writeConditionVariable (i : Nat) (toBeDestroyed : Bool)
  deriving DecidableEq, Repr

namespace PortManager

variable (cfg : Config)

def writePublisher (i : Nat) (offeringRequested toBeDestroyed : Bool) (pm : PortManager) :
    PortManager :=
  { pm with publishers := pm.publishers.modify i fun p =>
      { p with offeringRequested := offeringRequested, toBeDestroyed := toBeDestroyed } }

def writeSubscriber (j : Nat) (subscribeRequested toBeDestroyed : Bool) (pm : PortManager) :
    PortManager :=
  { pm with subscribers := pm.subscribers.modify j fun s =>
      { s with subscribeRequested := subscribeRequested, toBeDestroyed := toBeDestroyed } }

def writeClient (i : Nat) (connectRequested toBeDestroyed : Bool) (pm : PortManager) :
    PortManager :=
  { pm with clients := pm.clients.modify i fun c =>
      { c with connectRequested := connectRequested, toBeDestroyed := toBeDestroyed } }

def writeServer (j : Nat) (offeringRequested toBeDestroyed : Bool) (pm : PortManager) :
    PortManager :=
  { pm with servers := pm.servers.modify j fun s =>
      { s with offeringRequested := offeringRequested, toBeDestroyed := toBeDestroyed } }

def apply (pm : PortManager) : Op → PortManager
  | .acquirePublisherPortData service options runtimeName =>
    (acquirePublisherPortData cfg service options runtimeName pm).1
  | .acquireSubscriberPortData service options runtimeName =>
    (acquireSubscriberPortData cfg service options runtimeName pm).1
  | .acquireClientPortData service options runtimeName =>
    (acquireClientPortData cfg service options runtimeName pm).1
  | .acquireServerPortData service options runtimeName =>
    (acquireServerPortData cfg service options runtimeName pm).1
  | .acquireInterfacePortData interface runtimeName =>
    (acquireInterfacePortData cfg interface runtimeName pm).1
  | .acquireNodeData runtimeName nodeName => (acquireNodeData cfg runtimeName nodeName pm).1
  | .acquireConditionVariableData runtimeName =>
    (acquireConditionVariableData cfg runtimeName pm).1
  | .doDiscovery => doDiscovery cfg pm
  | .destroyPublisherPort i => destroyPublisherPort cfg i pm
  | .destroySubscriberPort j => destroySubscriberPort cfg j pm
  | .destroyClientPort i => destroyClientPort cfg i pm
  | .destroyServerPort j => destroyServerPort cfg j pm
  | .deletePortsOfProcess runtimeName => deletePortsOfProcess cfg runtimeName pm
  | .unblockProcessShutdown runtimeName => unblockProcessShutdown cfg runtimeName pm
  | .unblockRouDiShutdown => unblockRouDiShutdown cfg pm
  | .writePublisher i offeringRequested toBeDestroyed =>
    writePublisher i offeringRequested toBeDestroyed pm
  | .writeSubscriber j subscribeRequested toBeDestroyed =>
    writeSubscriber j subscribeRequested toBeDestroyed pm
  | .writeClient i connectRequested toBeDestroyed =>
    writeClient i connectRequested toBeDestroyed pm
  | .writeServer j offeringRequested toBeDestroyed =>
    writeServer j offeringRequested toBeDestroyed pm
  | .writeInterface i caproMessageFiFo toBeDestroyed =>
    { pm with interfaces := pm.interfaces.modify i fun p =>
        { p with caproMessageFiFo := caproMessageFiFo, toBeDestroyed := toBeDestroyed } }
  | .writeNode i toBeDestroyed =>
    { pm with nodes := pm.nodes.modify i fun n => { n with toBeDestroyed := toBeDestroyed } }
  | .writeConditionVariable i toBeDestroyed =>
    { pm with conditionVariables := pm.conditionVariables.modify i fun v =>
        { v with toBeDestroyed := toBeDestroyed } }

def run (ops : List Op) : PortManager := ops.foldl (apply cfg) {}

theorem run_append (ops : List Op) (op : Op) :
    run cfg (ops ++ [op]) = apply cfg (run cfg ops) op := by
  simp [run]

variable {cfg}

theorem run_invariant {I : PortManager → Prop} (ops : List Op) (hempty : I {})
    (hstep : ∀ pre op, pre ++ [op] <+: ops → I (run cfg pre) → I (apply cfg (run cfg pre) op)) :
    I (run cfg ops) := by
  induction ops using List.reverseRecOn with
  | nil => exact hempty
  | append_singleton ops op ih =>
    rw [run_append]
    apply hstep ops op (List.prefix_refl _)
    apply ih
    intro pre op' hpre
    exact hstep pre op' (hpre.trans (List.prefix_append ops [op]))

/-- Neither a violated contract nor an error of the CaPro protocol. -/
def Benign : Failure → Prop
  | .error .popoCaproProtocolError _ => False
  | .error _ _ => True
  | .contract => False

def ProtocolError (f : Failure) : Prop := ∃ level, f = .caproProtocolError level

def Adds (pm pm' : PortManager) (loud : Prop) : Prop :=
  ∀ f ∈ pm'.failures, f ∈ pm.failures ∨ Benign f ∨ ProtocolError f ∧ loud

namespace Adds

variable {pm pm' pm'' : PortManager} {loud : Prop}

theorem refl (pm : PortManager) : Adds pm pm loud := fun _ h => Or.inl h

theorem of_eq (h : pm'.failures = pm.failures) : Adds pm pm' loud := by
  intro f hf
  rw [h] at hf
  exact Or.inl hf

theorem trans (h : Adds pm pm' loud) (h' : Adds pm' pm'' loud) : Adds pm pm'' loud := by
  intro f hf
  obtain hf | hf := h' f hf
  · exact h f hf
  · exact Or.inr hf

theorem report {fs : List Failure} (h : ∀ f ∈ fs, Benign f ∨ ProtocolError f ∧ loud)
    (pm : PortManager) : Adds pm (pm.report fs) loud := by
  intro f hf
  obtain hf | hf := List.mem_append.mp hf
  · exact Or.inl hf
  · exact Or.inr (h f hf)

theorem overflow (pm : PortManager) : Adds pm (pm.report [overflowOfQueueContainer]) loud :=
  report (by simp [overflowOfQueueContainer, Benign]) pm

theorem mono {loud' : Prop} (h : Adds pm pm' loud) (himp : loud → loud') :
    Adds pm pm' loud' := by
  intro f hf
  obtain hf | hf | ⟨hf, hl⟩ := h f hf
  · exact Or.inl hf
  · exact Or.inr (Or.inl hf)
  · exact Or.inr (Or.inr ⟨hf, himp hl⟩)

theorem contract (h : Adds pm pm' loud) (hpm : .contract ∉ pm.failures) :
    .contract ∉ pm'.failures := by
  intro hf
  obtain hf | hf | ⟨⟨level, hf⟩, -⟩ := h _ hf
  · exact hpm hf
  · exact hf
  · cases hf

end Adds

/-- A broadcast that finds no port in a state in which it does not expect the message. -/
def Quiet (policy : CommunicationPolicy) : Broadcast → Prop
  | .toClients message states => message = .stopOffer → ∀ state ∈ states, state = .connected
  | .toSubscribers message states => policy = .oneToMany →
    (message = .stopOffer → .waitForOffer ∉ states) ∧ (message = .offer → .subscribed ∉ states)

def Loud (cfg : Config) (pm : PortManager) : Prop :=
  ∃ b ∈ pm.broadcasts, ¬ Quiet cfg.communicationPolicy b

structure SamePorts (pm pm' : PortManager) : Prop where
  publishers : pm'.publishers = pm.publishers
  subscribers : pm'.subscribers = pm.subscribers
  clients : pm'.clients = pm.clients
  servers : pm'.servers = pm.servers
  broadcasts : pm'.broadcasts = pm.broadcasts
  adds : ∀ loud, Adds pm pm' loud

theorem SamePorts.addToServiceRegistry (cfg : Config) (k : ReferenceCounter)
    (d : ServiceDescription) (pm : PortManager) :
    SamePorts pm (addToServiceRegistry cfg k d pm) := by
  unfold PortManager.addToServiceRegistry
  split
  · exact ⟨rfl, rfl, rfl, rfl, rfl, fun _ => Adds.of_eq rfl⟩
  · exact ⟨rfl, rfl, rfl, rfl, rfl, fun _ => Adds.report (by simp [Benign]) pm⟩

structure SameCore (pm pm' : PortManager) : Prop where
  publishers : pm'.publishers = pm.publishers
  subscribers : pm'.subscribers = pm.subscribers
  clients : pm'.clients = pm.clients
  servers : pm'.servers = pm.servers
  serviceRegistry : pm'.serviceRegistry = pm.serviceRegistry
  publications : pm'.publications = pm.publications
  broadcasts : pm'.broadcasts = pm.broadcasts
  failures : ∀ f ∈ pm'.failures, f ∈ pm.failures ∨ Benign f

namespace SameCore

variable {pm pm' pm'' : PortManager}

theorem adds {loud : Prop} (h : SameCore pm pm') : Adds pm pm' loud := by
  intro f hf
  obtain hf | hf := h.failures f hf
  · exact Or.inl hf
  · exact Or.inr (Or.inl hf)

theorem refl (pm : PortManager) : SameCore pm pm :=
  ⟨rfl, rfl, rfl, rfl, rfl, rfl, rfl, fun _ h => Or.inl h⟩

theorem trans (h : SameCore pm pm') (h' : SameCore pm' pm'') : SameCore pm pm'' where
  publishers := h'.publishers.trans h.publishers
  subscribers := h'.subscribers.trans h.subscribers
  clients := h'.clients.trans h.clients
  servers := h'.servers.trans h.servers
  serviceRegistry := h'.serviceRegistry.trans h.serviceRegistry
  publications := h'.publications.trans h.publications
  broadcasts := h'.broadcasts.trans h.broadcasts
  failures := by
    intro f hf
    obtain hf | hf := h'.failures f hf
    · exact h.failures f hf
    · exact Or.inr hf

theorem foldl {A : Type} {f : PortManager → A → PortManager} (as : List A)
    (h : ∀ pm a, SameCore pm (f pm a)) (pm : PortManager) : SameCore pm (as.foldl f pm) :=
  Lib.foldl_invariant (I := SameCore pm) as pm (fun _ a _ hs => hs.trans (h _ a)) (refl pm)

theorem report {fs : List Failure} (h : ∀ f ∈ fs, Benign f) (pm : PortManager) :
    SameCore pm (pm.report fs) := by
  refine ⟨rfl, rfl, rfl, rfl, rfl, rfl, rfl, ?_⟩
  intro f hf
  obtain hf | hf := List.mem_append.mp hf
  · exact Or.inl hf
  · exact Or.inr (h f hf)

theorem sendToInterfacePort (m : CaproMessage) (pm : PortManager) (i : Nat) :
    SameCore pm (sendToInterfacePort cfg m pm i) := by
  unfold PortManager.sendToInterfacePort
  split
  · exact refl pm
  · next p _ =>
    split
    · have hb : ∀ f ∈ (p.dispatchCaProMessage cfg.maxInterfaceCaproFifoSize m).failures,
          Benign f := by
        intro f hf
        unfold InterfacePortData.dispatchCaProMessage at hf
        simp only at hf
        split at hf
        · simp at hf
        · split at hf
          · simp at hf
          · simp only [List.mem_singleton] at hf
            subst hf
            exact trivial
      refine trans ?_ (report hb _)
      exact ⟨rfl, rfl, rfl, rfl, rfl, rfl, rfl, fun _ h => Or.inl h⟩
    · exact refl pm

theorem sendToAllMatchingInterfacePorts (cfg : Config) (m : CaproMessage) (pm : PortManager) :
    SameCore pm (sendToAllMatchingInterfacePorts cfg m pm) :=
  foldl _ (sendToInterfacePort m) pm

theorem handleInterfaces (pm : PortManager) : SameCore pm (handleInterfaces cfg pm) := by
  have hfirst : SameCore pm (pm.interfaces.content.foldl handleInterfacePort (pm, [])).1 := by
    refine Lib.foldl_invariant (I := fun acc : PortManager × List Nat => SameCore pm acc.1) _ _
      ?_ ?_
    · intro acc i _ h
      unfold handleInterfacePort
      split
      next pm' fwd =>
      split
      · exact h
      · simp only
        split <;> exact h.trans ⟨rfl, rfl, rfl, rfl, rfl, rfl, rfl, fun _ h => Or.inl h⟩
    · exact refl pm
  have hforward : ∀ fwd t pm d, SameCore pm (forwardInitialOffer cfg fwd t pm d) := by
    intro fwd t pm d
    exact foldl _ (sendToInterfacePort _) pm
  unfold PortManager.handleInterfaces
  simp only
  exact (hfirst.trans (foldl _ (hforward _ _) _)).trans (foldl _ (hforward _ _) _)

theorem resetServiceRegistryPublisher (runtimeName : String) (pm : PortManager) :
    SameCore pm (resetServiceRegistryPublisher runtimeName pm) := by
  unfold PortManager.resetServiceRegistryPublisher
  split
  · exact ⟨rfl, rfl, rfl, rfl, rfl, rfl, rfl, fun _ h => Or.inl h⟩
  · exact refl pm

theorem pushInternalService (service : ServiceDescription) (pm : PortManager) :
    SameCore pm (pushInternalService cfg service pm) := by
  unfold PortManager.pushInternalService
  split
  · exact ⟨rfl, rfl, rfl, rfl, rfl, rfl, rfl, fun _ h => Or.inl h⟩
  · exact refl pm

theorem handleNodes (pm : PortManager) : SameCore pm (handleNodes pm) := by
  apply foldl
  intro pm i
  unfold handleNode
  split
  · exact ⟨rfl, rfl, rfl, rfl, rfl, rfl, rfl, fun _ h => Or.inl h⟩
  · exact refl pm

theorem handleConditionVariables (pm : PortManager) :
    SameCore pm (handleConditionVariables pm) := by
  apply foldl
  intro pm i
  unfold handleConditionVariable
  split
  · exact ⟨rfl, rfl, rfl, rfl, rfl, rfl, rfl, fun _ h => Or.inl h⟩
  · exact refl pm

end SameCore

theorem publishers_get_sendToSubscriberPort (m : CaproMessage) {i k : Nat} (hk : i ≠ k)
    (pm : PortManager) (j : Nat) :
    (sendToSubscriberPort cfg m i pm j).publishers.get k = pm.publishers.get k := by
  unfold sendToSubscriberPort
  split
  · split
    · simp only
      split
      · simp [report, setSubscriber]
      · split <;> simp [report, setSubscriber, setPublisher, hk]
    · rfl
  · rfl

theorem publishers_get_forward (m : CaproMessage) {i k : Nat} (hk : i ≠ k) (pm : PortManager) :
    (forwardPublisherMessage cfg m i pm).publishers.get k = pm.publishers.get k := by
  unfold forwardPublisherMessage
  rw [(SameCore.sendToAllMatchingInterfacePorts cfg m _).publishers]
  unfold sendToAllMatchingSubscriberPorts
  split
  · rfl
  · exact Lib.foldl_frame (fun pm : PortManager => pm.publishers.get k)
      (publishers_get_sendToSubscriberPort m hk) _ _

theorem publishers_get_destroyPublisherPort (i k : Nat) (pm : PortManager) :
    (destroyPublisherPort cfg i pm).publishers.get k =
      if i = k then none else pm.publishers.get k := by
  unfold destroyPublisherPort
  split
  · next h =>
    split
    · next hk => rw [← hk, h]
    · rfl
  · by_cases hk : i = k
    · simp [hk]
    · simp only
      split
      · simp [report, setPublisher, hk]
      · simp [publishers_get_forward _ hk, removePublisherFromServiceRegistry, report,
          setPublisher, hk]

theorem servers_get_sendToClientPort (m : CaproMessage) {j k : Nat} (hk : j ≠ k)
    (pm : PortManager) (i : Nat) :
    (sendToClientPort cfg m j pm i).servers.get k = pm.servers.get k := by
  unfold sendToClientPort
  split
  · split
    · simp only
      split
      · simp [report, setClient]
      · split <;> simp [report, setClient, setServer, hk]
    · rfl
  · rfl

theorem servers_get_forward (m : CaproMessage) {j k : Nat} (hk : j ≠ k) (pm : PortManager) :
    (forwardServerMessage cfg m j pm).servers.get k = pm.servers.get k := by
  unfold forwardServerMessage
  rw [(SameCore.sendToAllMatchingInterfacePorts cfg m _).servers]
  unfold sendToAllMatchingClientPorts
  split
  · rfl
  · exact Lib.foldl_frame (fun pm : PortManager => pm.servers.get k)
      (servers_get_sendToClientPort m hk) _ _

theorem servers_get_destroyServerPort (j k : Nat) (pm : PortManager) :
    (destroyServerPort cfg j pm).servers.get k =
      if j = k then none else pm.servers.get k := by
  unfold destroyServerPort
  split
  · next h =>
    split
    · next hk => rw [← hk, h]
    · rfl
  · by_cases hk : j = k
    · simp [hk]
    · simp only
      split
      · simp [report, setServer, hk]
      · simp [servers_get_forward _ hk, removeServerFromServiceRegistry, report, setServer, hk]

/-! ## Transactions

Every operation but the creation of a port is a sequence of the transactions below, so an
invariant of the transactions is an invariant of the operations. -/

structure Keeps (cfg : Config) (I : PortManager → Prop) : Prop where
  core : ∀ {pm pm'}, SameCore pm pm' → I pm → I pm'
  discoverPublisher : ∀ i {pm}, I pm → I (doDiscoveryForPublisherPort cfg i pm)
  destroyPublisher : ∀ i {pm}, I pm → I (destroyPublisherPort cfg i pm)
  discoverSubscriber : ∀ j {pm}, I pm → I (doDiscoveryForSubscriberPort cfg j pm)
  destroySubscriber : ∀ j {pm}, I pm → I (destroySubscriberPort cfg j pm)
  discoverServer : ∀ j {pm}, I pm → I (doDiscoveryForServerPort cfg j pm)
  destroyServer : ∀ j {pm}, I pm → I (destroyServerPort cfg j pm)
  discoverClient : ∀ i {pm}, I pm → I (doDiscoveryForClientPort cfg i pm)
  destroyClient : ∀ i {pm}, I pm → I (destroyClientPort cfg i pm)
  flagPublisher : ∀ i {pm f}, (∀ p : PublisherPortData, ∃ a b, f p =
    { p with offeringRequested := a, toBeDestroyed := b }) → I pm →
    I { pm with publishers := pm.publishers.modify i f }
  flagServer : ∀ j {pm f}, (∀ s : ServerPortData, ∃ a b, f s =
    { s with offeringRequested := a, toBeDestroyed := b }) → I pm →
    I { pm with servers := pm.servers.modify j f }
  flagSubscriber : ∀ j a b {pm}, I pm → I (writeSubscriber j a b pm)
  flagClient : ∀ i a b {pm}, I pm → I (writeClient i a b pm)

inductive PublisherAcquired (cfg : Config) (I : PortManager → Prop) (service : ServiceDescription)
    (options : PublisherOptions) (runtimeName : String) :
    PortManager × Except PortPoolError Nat → Prop
  | failed {pm : PortManager} {e : PortPoolError} (hI : I pm) :
    PublisherAcquired cfg I service options runtimeName (pm, .error e)
  | inserted {pm : PortManager} (hI : I pm)
      (hspace : pm.publishers.hasFreeSpace cfg.maxPublishers = true)
      (hfree : cfg.communicationPolicy = .oneToMany →
        ∀ k p, pm.publishers.get k = some p → ¬ service.Same p.serviceDescription) :
    PublisherAcquired cfg I service options runtimeName
      ({ pm with publishers := (pm.publishers.insert (PublisherPortData.create
          cfg.maxPublisherHistory service runtimeName options)).1 },
        .ok (pm.publishers.insert (PublisherPortData.create cfg.maxPublisherHistory service
          runtimeName options)).2)

namespace Keeps

variable {I : PortManager → Prop} {pm : PortManager}

theorem loop {f : PortManager → Nat → PortManager} (h : ∀ pm i, I pm → I (f pm i))
    (is : List Nat) (hI : I pm) : I (is.foldl f pm) :=
  Lib.foldl_invariant is pm (fun s i _ hs => h s i hs) hI

theorem loopOfOwner {owner : PortManager → Nat → Option String} {runtimeName : String}
    {f : PortManager → Nat → PortManager} (h : ∀ pm i, I pm → I (f pm i))
    (is : List Nat) (hI : I pm) : I (is.foldl (ifOwner owner runtimeName f) pm) := by
  apply loop _ is hI
  intro pm i hI
  unfold ifOwner
  split
  · exact h pm i hI
  · exact hI

variable (K : Keeps cfg I)
include K

theorem stopOfferOfPublisher (pm : PortManager) (i : Nat) (hI : I pm) :
    I (stopOfferOfPublisher cfg pm i) := by
  apply K.discoverPublisher
  apply K.flagPublisher i _ hI
  intro p
  exact ⟨false, p.toBeDestroyed, rfl⟩

theorem stopOfferOfServer (pm : PortManager) (j : Nat) (hI : I pm) :
    I (stopOfferOfServer cfg pm j) := by
  apply K.discoverServer
  apply K.flagServer j _ hI
  intro s
  exact ⟨false, s.toBeDestroyed, rfl⟩

theorem doDiscovery (hI : I pm) : I (doDiscovery cfg pm) := by
  unfold PortManager.doDiscovery
  apply K.core (SameCore.handleConditionVariables _)
  apply K.core (SameCore.handleNodes _)
  apply K.core (SameCore.handleInterfaces _)
  have publisher : ∀ pm i, I pm → I (handlePublisherPort cfg pm i) := by
    intro pm i hI
    unfold handlePublisherPort
    simp only
    split
    · exact K.destroyPublisher i (K.discoverPublisher i hI)
    · exact K.discoverPublisher i hI
  have subscriber : ∀ pm j, I pm → I (handleSubscriberPort cfg pm j) := by
    intro pm j hI
    unfold handleSubscriberPort
    simp only
    split
    · exact K.destroySubscriber j (K.discoverSubscriber j hI)
    · exact K.discoverSubscriber j hI
  have server : ∀ pm j, I pm → I (handleServerPort cfg pm j) := by
    intro pm j hI
    unfold handleServerPort
    simp only
    split
    · exact K.destroyServer j (K.discoverServer j hI)
    · exact K.discoverServer j hI
  have client : ∀ pm i, I pm → I (handleClientPort cfg pm i) := by
    intro pm i hI
    unfold handleClientPort
    simp only
    split
    · exact K.destroyClient i (K.discoverClient i hI)
    · exact K.discoverClient i hI
  exact loop client _ (loop server _ (loop subscriber _ (loop publisher _ hI)))

theorem deletePortsOfProcess (runtimeName : String) (hI : I pm) :
    I (deletePortsOfProcess cfg runtimeName pm) := by
  have interface : ∀ pm i, I pm → I (removeInterfacePort i pm) := fun pm i =>
    K.core ⟨rfl, rfl, rfl, rfl, rfl, rfl, rfl, fun _ h => Or.inl h⟩
  have node : ∀ pm i, I pm → I (removeNodeData i pm) := fun pm i =>
    K.core ⟨rfl, rfl, rfl, rfl, rfl, rfl, rfl, fun _ h => Or.inl h⟩
  have conditionVariable : ∀ pm i, I pm → I (removeConditionVariableData i pm) := fun pm i =>
    K.core ⟨rfl, rfl, rfl, rfl, rfl, rfl, rfl, fun _ h => Or.inl h⟩
  exact loopOfOwner conditionVariable _ (loopOfOwner node _ (loopOfOwner interface _
    (loopOfOwner (fun _ i h => K.destroyClient i h) _
      (loopOfOwner (fun _ j h => K.destroyServer j h) _
        (loopOfOwner (fun _ j h => K.destroySubscriber j h) _
          (loopOfOwner (fun _ i h => K.destroyPublisher i h) _
            (K.core (SameCore.resetServiceRegistryPublisher runtimeName pm) hI)))))))

theorem unblockProcessShutdown (runtimeName : String) (hI : I pm) :
    I (unblockProcessShutdown cfg runtimeName pm) :=
  loopOfOwner K.stopOfferOfServer _ (loopOfOwner K.stopOfferOfPublisher _ hI)

theorem unblockRouDiShutdown (hI : I pm) : I (unblockRouDiShutdown cfg pm) :=
  loop K.stopOfferOfServer _ (loop K.stopOfferOfPublisher _ hI)

theorem findServerInUse (service : ServiceDescription) (js : List Nat) (hI : I pm) :
    I (findServerInUse cfg service js pm).1 := by
  induction js generalizing pm with
  | nil => exact hI
  | cons j js ih =>
    unfold PortManager.findServerInUse
    split
    · exact ih hI
    · split
      · split
        · exact ih (K.destroyServer j hI)
        · exact hI
      · exact ih hI

theorem findPublisherInUse (service : ServiceDescription) (is : List Nat) (hI : I pm) :
    I (findPublisherInUse cfg service is pm).1 := by
  induction is generalizing pm with
  | nil => exact hI
  | cons i is ih =>
    unfold PortManager.findPublisherInUse
    split
    · exact ih hI
    · split
      · split
        · exact ih (K.destroyPublisher i hI)
        · exact hI
      · exact ih hI

omit K in
theorem findServerInUse_free {service : ServiceDescription} {js : List Nat} {pm' : PortManager}
    (h : PortManager.findServerInUse cfg service js pm = (pm', false))
    (hjs : ∀ k s, pm.servers.get k = some s → service.Same s.serviceDescription → k ∈ js) :
    ∀ k s, pm'.servers.get k = some s → ¬ service.Same s.serviceDescription := by
  induction js generalizing pm with
  | nil =>
    cases h
    intro k s hk hsame
    exact absurd (hjs k s hk hsame) List.not_mem_nil
  | cons j js ih =>
    unfold PortManager.findServerInUse at h
    split at h
    · next hj =>
      apply ih h
      intro k s hk hsame
      obtain rfl | hmem := List.mem_cons.mp (hjs k s hk hsame)
      · simp [hj] at hk
      · exact hmem
    · next t hj =>
      split at h
      · split at h
        · apply ih h
          intro k s hk hsame
          rw [servers_get_destroyServerPort] at hk
          by_cases hjk : j = k
          · simp [hjk] at hk
          · simp only [hjk, if_false] at hk
            exact List.mem_of_ne_of_mem (fun h => hjk h.symm) (hjs k s hk hsame)
        · cases h
      · next hdiff =>
        apply ih h
        intro k s hk hsame
        obtain rfl | hmem := List.mem_cons.mp (hjs k s hk hsame)
        · rw [hj] at hk
          cases hk
          exact absurd hsame hdiff
        · exact hmem

omit K in
theorem findPublisherInUse_free {service : ServiceDescription} {is : List Nat} {pm' : PortManager}
    (h : PortManager.findPublisherInUse cfg service is pm = (pm', none))
    (his : ∀ k p, pm.publishers.get k = some p → service.Same p.serviceDescription → k ∈ is) :
    ∀ k p, pm'.publishers.get k = some p → ¬ service.Same p.serviceDescription := by
  induction is generalizing pm with
  | nil =>
    cases h
    intro k p hk hsame
    exact absurd (his k p hk hsame) List.not_mem_nil
  | cons i is ih =>
    unfold PortManager.findPublisherInUse at h
    split at h
    · next hi =>
      apply ih h
      intro k p hk hsame
      obtain rfl | hmem := List.mem_cons.mp (his k p hk hsame)
      · simp [hi] at hk
      · exact hmem
    · next t hi =>
      split at h
      · split at h
        · apply ih h
          intro k p hk hsame
          rw [publishers_get_destroyPublisherPort] at hk
          by_cases hik : i = k
          · simp [hik] at hk
          · simp only [hik, if_false] at hk
            exact List.mem_of_ne_of_mem (fun h => hik h.symm) (his k p hk hsame)
        · cases h
      · next hdiff =>
        apply ih h
        intro k p hk hsame
        obtain rfl | hmem := List.mem_cons.mp (his k p hk hsame)
        · rw [hi] at hk
          cases hk
          exact absurd hsame hdiff
        · exact hmem

theorem acquireServer {service : ServiceDescription} {options : ServerOptions}
    {runtimeName : String} (hI : I pm)
    (hinsert : ∀ {pm : PortManager}, I pm → pm.servers.hasFreeSpace cfg.maxServers = true →
      (∀ k s, pm.servers.get k = some s → ¬ service.Same s.serviceDescription) →
      I { pm with servers :=
        (pm.servers.insert (ServerPortData.create service runtimeName options)).1 }) :
    I (acquireServerPortData cfg service options runtimeName pm).1 := by
  have hfind := K.findServerInUse service pm.servers.content hI
  unfold acquireServerPortData
  split
  next pm' inUse heq =>
  rw [heq] at hfind
  cases inUse with
  | true =>
    exact K.core (SameCore.report (by simp [Benign]) _) hfind
  | false =>
    have hfree := findServerInUse_free heq fun k s hk _ => by simp [hk]
    simp only [Bool.false_eq_true, if_false]
    split
    · next hspace =>
      exact K.discoverServer _ (hinsert hfind hspace hfree)
    · exact K.core (SameCore.report (by simp [Benign]) _) hfind

theorem acquireClient {service : ServiceDescription} {options : ClientOptions}
    {runtimeName : String} (hI : I pm)
    (hinsert : I { pm with clients :=
      (pm.clients.insert (ClientPortData.create service runtimeName options)).1 }) :
    I (acquireClientPortData cfg service options runtimeName pm).1 := by
  unfold acquireClientPortData
  split
  · exact K.discoverClient _ hinsert
  · exact K.core (SameCore.report (by simp [Benign]) _) hI

theorem acquireWithoutDiscovery (service : ServiceDescription) (options : PublisherOptions)
    (runtimeName : String) (hI : I pm) :
    PublisherAcquired cfg I service options runtimeName
      (acquirePublisherPortDataWithoutDiscovery cfg service options runtimeName pm) := by
  obtain ⟨pm₁, used, hpolicy⟩ : ∃ pm₁ used,
      doesViolateCommunicationPolicy cfg service pm = (pm₁, used) := ⟨_, _, rfl⟩
  have hviolate : I pm₁ ∧ (used = none → cfg.communicationPolicy = .oneToMany →
      ∀ k p, pm₁.publishers.get k = some p → ¬ service.Same p.serviceDescription) := by
    unfold doesViolateCommunicationPolicy at hpolicy
    split at hpolicy
    · refine ⟨?_, ?_⟩
      · have := K.findPublisherInUse service pm.publishers.content hI
        rwa [hpolicy] at this
      · rintro rfl -
        exact findPublisherInUse_free hpolicy fun k p hk _ => by simp [hk]
    · next hmany =>
      cases hpolicy
      exact ⟨hI, fun _ hone => by rw [hmany] at hone; cases hone⟩
  obtain ⟨hI₁, hfree⟩ := hviolate
  have hadd : ∀ pm₂, I pm₂ → pm₂.publishers = pm₁.publishers → used = none →
      PublisherAcquired cfg I service options runtimeName
        (addPublisherPort cfg service runtimeName options pm₂) := by
    intro pm₂ hI₂ hpubs hused
    unfold addPublisherPort
    split
    · next hspace =>
      exact .inserted hI₂ hspace fun hone => hpubs ▸ hfree hused hone
    · exact .failed (K.core (SameCore.report (by simp [Benign]) _) hI₂)
  unfold acquirePublisherPortDataWithoutDiscovery
  simp only [hpolicy]
  cases used with
  | some name => exact .failed (K.core (SameCore.report (by simp [Benign]) _) hI₁)
  | none =>
    simp only [Option.isSome_none, Bool.false_eq_true, if_false]
    split
    · refine hadd (pushInternalService cfg service pm₁)
        (K.core (SameCore.pushInternalService service pm₁) hI₁) ?_ rfl
      exact (SameCore.pushInternalService service pm₁).publishers
    · split
      · exact .failed (K.core (SameCore.report (by simp [Benign]) _) hI₁)
      · exact hadd pm₁ hI₁ rfl rfl

theorem acquirePublisher {service : ServiceDescription} {options : PublisherOptions}
    {runtimeName : String} (hI : I pm)
    (hinsert : ∀ {pm' : PortManager}, I pm' →
      pm'.publishers.hasFreeSpace cfg.maxPublishers = true →
      (cfg.communicationPolicy = .oneToMany →
        ∀ k p, pm'.publishers.get k = some p → ¬ service.Same p.serviceDescription) →
      (acquirePublisherPortData cfg service options runtimeName pm).1 =
        doDiscoveryForPublisherPort cfg (pm'.publishers.insert
          (PublisherPortData.create cfg.maxPublisherHistory service runtimeName options)).2
          { pm' with publishers := (pm'.publishers.insert
            (PublisherPortData.create cfg.maxPublisherHistory service runtimeName options)).1 } →
      I { pm' with publishers := (pm'.publishers.insert
        (PublisherPortData.create cfg.maxPublisherHistory service runtimeName options)).1 }) :
    I (acquirePublisherPortData cfg service options runtimeName pm).1 := by
  have hacquired := K.acquireWithoutDiscovery service options runtimeName hI
  cases heq : acquirePublisherPortDataWithoutDiscovery cfg service options runtimeName pm with
  | mk pm' result =>
    rw [heq] at hacquired
    cases hacquired with
    | failed hI' =>
      rw [acquirePublisherPortData, heq]
      exact hI'
    | inserted hI' hspace hfree =>
      have hacq := congrArg Prod.fst (show acquirePublisherPortData cfg service options runtimeName
        pm = (doDiscoveryForPublisherPort cfg _ _, _) by rw [acquirePublisherPortData, heq])
      rw [hacq]
      apply K.discoverPublisher
      exact hinsert hI' hspace hfree hacq

theorem create {pm' : PortManager} (hI : I {})
    (hinsert : ∀ {pm : PortManager} (service : ServiceDescription) (options : PublisherOptions),
      I pm → pm.publishers.hasFreeSpace cfg.maxPublishers = true →
      I { pm with publishers := (pm.publishers.insert (PublisherPortData.create
        cfg.maxPublisherHistory service ipcChannelRoudiName options)).1 })
    (hcreate : PortManager.create cfg = some pm') : I pm' := by
  have hinternal : ∀ {pm pm' : PortManager} {service options i}, I pm →
      acquireInternalPublisherPortDataWithoutDiscovery cfg service options pm = some (pm', i) →
      I pm' := by
    intro pm pm' service options i hI hacquire
    have hacquired := K.acquireWithoutDiscovery service options ipcChannelRoudiName hI
    unfold acquireInternalPublisherPortDataWithoutDiscovery at hacquire
    split at hacquire
    · next pm₁ j heq =>
      cases hacquire
      rw [heq] at hacquired
      generalize hresult : (pm', (.ok i : Except PortPoolError Nat)) = result at hacquired
      cases hacquired with
      | failed hI₁ => cases hresult
      | inserted hI₁ hspace hfree =>
        cases hresult
        exact hinsert service options hI₁ hspace
    · cases hacquire
  have hservices : ∀ (services : List ServiceDescription) (options : PublisherOptions)
      {pm pm' : PortManager}, I pm → services.foldlM
        (fun pm service => acquireInternalPublisherPortData cfg service options pm) pm =
          some pm' → I pm' := by
    intro services options
    induction services with
    | nil =>
      intro pm pm' hI hfold
      cases hfold
      exact hI
    | cons service services ih =>
      intro pm pm' hI hfold
      rw [List.foldlM_cons] at hfold
      obtain ⟨pm₁, hfirst, hrest⟩ := Option.bind_eq_some_iff.mp hfold
      obtain ⟨⟨pm₂, i⟩, hacquire, rfl⟩ := Option.map_eq_some_iff.mp hfirst
      exact ih (K.discoverPublisher i (hinternal hI hacquire)) hrest
  obtain ⟨⟨pm, i⟩, hacquire, hrest⟩ := Option.bind_eq_some_iff.mp hcreate
  refine hservices _ _ (K.discoverPublisher i (K.core ?_ (hinternal hI hacquire))) hrest
  exact ⟨rfl, rfl, rfl, rfl, rfl, rfl, rfl, fun _ h => Or.inl h⟩

theorem apply (hI : I pm) (op : Op)
    (publisher : ∀ service options name, op = .acquirePublisherPortData service options name →
      I (acquirePublisherPortData cfg service options name pm).1)
    (subscriber : ∀ service options name, op = .acquireSubscriberPortData service options name →
      I (acquireSubscriberPortData cfg service options name pm).1)
    (client : ∀ service options name, op = .acquireClientPortData service options name →
      I (acquireClientPortData cfg service options name pm).1)
    (server : ∀ service options name, op = .acquireServerPortData service options name →
      I (acquireServerPortData cfg service options name pm).1) :
    I (apply cfg pm op) := by
  have hcore : ∀ {pm' : PortManager}, SameCore pm pm' → I pm' := fun h => K.core h hI
  unfold PortManager.apply
  cases op with
  | acquirePublisherPortData service options name => exact publisher _ _ _ rfl
  | acquireSubscriberPortData service options name => exact subscriber _ _ _ rfl
  | acquireClientPortData service options name => exact client _ _ _ rfl
  | acquireServerPortData service options name => exact server _ _ _ rfl
  | acquireInterfacePortData interface name =>
    simp only [acquireInterfacePortData]
    split
    · exact hcore ⟨rfl, rfl, rfl, rfl, rfl, rfl, rfl, fun _ h => Or.inl h⟩
    · exact hcore (SameCore.report (by simp [Benign]) _)
  | acquireNodeData name node =>
    simp only [acquireNodeData]
    split
    · exact hcore ⟨rfl, rfl, rfl, rfl, rfl, rfl, rfl, fun _ h => Or.inl h⟩
    · exact hcore (SameCore.report (by simp [Benign]) _)
  | acquireConditionVariableData name =>
    simp only [acquireConditionVariableData]
    split
    · exact hcore ⟨rfl, rfl, rfl, rfl, rfl, rfl, rfl, fun _ h => Or.inl h⟩
    · exact hcore (SameCore.report (by simp [Benign]) _)
  | doDiscovery => exact K.doDiscovery hI
  | destroyPublisherPort i => exact K.destroyPublisher i hI
  | destroySubscriberPort j => exact K.destroySubscriber j hI
  | destroyClientPort i => exact K.destroyClient i hI
  | destroyServerPort j => exact K.destroyServer j hI
  | deletePortsOfProcess name => exact K.deletePortsOfProcess name hI
  | unblockProcessShutdown name => exact K.unblockProcessShutdown name hI
  | unblockRouDiShutdown => exact K.unblockRouDiShutdown hI
  | writePublisher i a b => exact K.flagPublisher i (fun _ => ⟨a, b, rfl⟩) hI
  | writeSubscriber j a b => exact K.flagSubscriber j a b hI
  | writeClient i a b => exact K.flagClient i a b hI
  | writeServer j a b => exact K.flagServer j (fun _ => ⟨a, b, rfl⟩) hI
  | writeInterface i ms b => exact hcore ⟨rfl, rfl, rfl, rfl, rfl, rfl, rfl, fun _ h => Or.inl h⟩
  | writeNode i b => exact hcore ⟨rfl, rfl, rfl, rfl, rfl, rfl, rfl, fun _ h => Or.inl h⟩
  | writeConditionVariable i b =>
    exact hcore ⟨rfl, rfl, rfl, rfl, rfl, rfl, rfl, fun _ h => Or.inl h⟩

end Keeps

def smallConfig (policy : CommunicationPolicy) : Config where
  maxPublishers := 2
  maxSubscribers := 2
  maxClients := 2
  maxServers := 2
  maxInterfaceNumber := 1
  maxNodeNumber := 1
  maxNumberOfConditionVariables := 1
  maxSubscribersPerPublisher := 1
  maxClientsPerServer := 1
  maxPublisherHistory := 1
  maxInterfaceCaproFifoSize := 1
  numberOfInternalPublishers := 1
  communicationPolicy := policy

def radar : ServiceDescription :=
  { serviceString := "Radar", instanceString := "FrontLeft", eventString := "Object" }

end PortManager

end Iceoryx.Roudi
