import Iceoryx.Lib.Fold
import Iceoryx.Popo.PortLaws
import Iceoryx.Roudi.PortManager

namespace Iceoryx.Roudi

open Capro Popo

inductive PoolList
  | publishers | subscribers | clients | servers | interfaces | nodes | conditionVariables
  deriving DecidableEq, Repr

def Config.capacityOf (cfg : Config) : PoolList → Nat
  | .publishers => cfg.maxPublishers
  | .subscribers => cfg.maxSubscribers
  | .clients => cfg.maxClients
  | .servers => cfg.maxServers
  | .interfaces => cfg.maxInterfaceNumber
  | .nodes => cfg.maxNodeNumber
  | .conditionVariables => cfg.maxNumberOfConditionVariables

namespace PortManager

def ownerOf (pm : PortManager) : PoolList → Nat → Option String
  | .publishers => publisherOwner pm
  | .subscribers => subscriberOwner pm
  | .clients => clientOwner pm
  | .servers => serverOwner pm
  | .interfaces => interfaceOwner pm
  | .nodes => nodeOwner pm
  | .conditionVariables => conditionVariableOwner pm

def owners (pm : PortManager) : PoolList → FixedPositionContainer String
  | .publishers => pm.publishers.map (·.runtimeName)
  | .subscribers => pm.subscribers.map (·.runtimeName)
  | .clients => pm.clients.map (·.runtimeName)
  | .servers => pm.servers.map (·.runtimeName)
  | .interfaces => pm.interfaces.map (·.runtimeName)
  | .nodes => pm.nodes.map (·.runtimeName)
  | .conditionVariables => pm.conditionVariables.map (·.runtimeName)

theorem owners_get (pm : PortManager) (l : PoolList) (k : Nat) :
    (pm.owners l).get k = pm.ownerOf l k := by
  cases l <;> exact FixedPositionContainer.get_map _ _ k

section

variable (pm : PortManager)

theorem owners_setPublishers (c : FixedPositionContainer PublisherPortData) :
    { pm with publishers := c }.owners =
      Function.update pm.owners .publishers (c.map (·.runtimeName)) := by
  funext l
  cases l <;> rfl

theorem owners_setSubscribers (c : FixedPositionContainer SubscriberPortData) :
    { pm with subscribers := c }.owners =
      Function.update pm.owners .subscribers (c.map (·.runtimeName)) := by
  funext l
  cases l <;> rfl

theorem owners_setClients (c : FixedPositionContainer ClientPortData) :
    { pm with clients := c }.owners =
      Function.update pm.owners .clients (c.map (·.runtimeName)) := by
  funext l
  cases l <;> rfl

theorem owners_setServers (c : FixedPositionContainer ServerPortData) :
    { pm with servers := c }.owners =
      Function.update pm.owners .servers (c.map (·.runtimeName)) := by
  funext l
  cases l <;> rfl

theorem owners_setInterfaces (c : FixedPositionContainer InterfacePortData) :
    { pm with interfaces := c }.owners =
      Function.update pm.owners .interfaces (c.map (·.runtimeName)) := by
  funext l
  cases l <;> rfl

theorem owners_setNodes (c : FixedPositionContainer NodeData) :
    { pm with nodes := c }.owners = Function.update pm.owners .nodes (c.map (·.runtimeName)) := by
  funext l
  cases l <;> rfl

theorem owners_setConditionVariables (c : FixedPositionContainer ConditionVariableData) :
    { pm with conditionVariables := c }.owners =
      Function.update pm.owners .conditionVariables (c.map (·.runtimeName)) := by
  funext l
  cases l <;> rfl

end

structure SamePool (pm pm' : PortManager) : Prop where
  publishers : pm'.publishers = pm.publishers
  subscribers : pm'.subscribers = pm.subscribers
  clients : pm'.clients = pm.clients
  servers : pm'.servers = pm.servers
  interfaces : pm'.interfaces = pm.interfaces
  nodes : pm'.nodes = pm.nodes
  conditionVariables : pm'.conditionVariables = pm.conditionVariables

def SameOwners (pm pm' : PortManager) : Prop := pm'.owners = pm.owners

variable {cfg : Config} {pm pm' pm'' : PortManager} {i j : Nat}

namespace SameOwners

theorem ownerOf_eq (h : SameOwners pm pm') : pm'.ownerOf = pm.ownerOf := by
  funext l k
  rw [← owners_get, ← owners_get, h]

theorem refl (pm : PortManager) : SameOwners pm pm := rfl

theorem trans (h : SameOwners pm pm') (h' : SameOwners pm' pm'') : SameOwners pm pm'' :=
  Eq.trans h' h

theorem foldl {A : Type} {f : PortManager → A → PortManager} (as : List A)
    (h : ∀ pm a, SameOwners pm (f pm a)) (pm : PortManager) : SameOwners pm (as.foldl f pm) :=
  Lib.foldl_invariant as pm (fun pm' a _ hs => hs.trans (h pm' a)) (refl pm)

theorem of_update {l : PoolList} {c : FixedPositionContainer String}
    (hpm : pm'.owners = Function.update pm.owners l c) (hc : c = pm.owners l) :
    SameOwners pm pm' := by
  rw [SameOwners, hpm, hc, Function.update_eq_self]

theorem map_owner_modify {α : Type} {c : FixedPositionContainer α} {owner : α → String}
    {a : α} (h : (c.get i).map owner = some (owner a)) :
    (c.modify i fun _ => a).map owner = c.map owner := by
  obtain ⟨b, hb, hname⟩ := Option.map_eq_some_iff.mp h
  exact c.map_modify_of_eq (fun _ => a) hb hname.symm

theorem owner_of_get {α : Type} {c c' : FixedPositionContainer α} {owner : α → String} {a a' : α}
    (hc : c'.map owner = c.map owner) (ha : c.get i = some a) (ho : owner a' = owner a) :
    (c'.get i).map owner = some (owner a') := by
  rw [← FixedPositionContainer.get_map, hc, FixedPositionContainer.get_map, ha, ho]
  rfl

theorem setPublisher (h : SameOwners pm pm') {p p' : PublisherPortData}
    (hp : pm.publishers.get i = some p) (hbase : p'.toBasePortData = p.toBasePortData)
    (fs : List Failure) : SameOwners pm ((pm'.setPublisher i p').report fs) :=
  h.trans (of_update (owners_setPublishers pm' _) (map_owner_modify (owner_of_get
    (congrFun h .publishers) hp (congrArg BasePortData.runtimeName hbase))))

theorem setSubscriber (h : SameOwners pm pm') {s s' : SubscriberPortData}
    (hs : pm.subscribers.get j = some s) (hbase : s'.toBasePortData = s.toBasePortData)
    (fs : List Failure) : SameOwners pm ((pm'.setSubscriber j s').report fs) :=
  h.trans (of_update (owners_setSubscribers pm' _) (map_owner_modify (owner_of_get
    (congrFun h .subscribers) hs (congrArg BasePortData.runtimeName hbase))))

theorem setClient (h : SameOwners pm pm') {c c' : ClientPortData}
    (hc : pm.clients.get i = some c) (hbase : c'.toBasePortData = c.toBasePortData)
    (fs : List Failure) : SameOwners pm ((pm'.setClient i c').report fs) :=
  h.trans (of_update (owners_setClients pm' _) (map_owner_modify (owner_of_get
    (congrFun h .clients) hc (congrArg BasePortData.runtimeName hbase))))

theorem setServer (h : SameOwners pm pm') {s s' : ServerPortData}
    (hs : pm.servers.get j = some s) (hbase : s'.toBasePortData = s.toBasePortData)
    (fs : List Failure) : SameOwners pm ((pm'.setServer j s').report fs) :=
  h.trans (of_update (owners_setServers pm' _) (map_owner_modify (owner_of_get
    (congrFun h .servers) hs (congrArg BasePortData.runtimeName hbase))))

theorem of_pools (h : SameOwners pm pm') (hpool : SamePool pm' pm'') : SameOwners pm pm'' := by
  refine h.trans ?_
  obtain ⟨hp, hs, hc, hv, hi, hn, hcv⟩ := hpool
  funext l
  cases l <;> simp only [owners, hp, hs, hc, hv, hi, hn, hcv]

theorem report (h : SameOwners pm pm') (fs : List Failure) : SameOwners pm (pm'.report fs) :=
  h.of_pools ⟨rfl, rfl, rfl, rfl, rfl, rfl, rfl⟩

theorem record (h : SameOwners pm pm') (b : Broadcast) : SameOwners pm (pm'.record b) :=
  h.of_pools ⟨rfl, rfl, rfl, rfl, rfl, rfl, rfl⟩

theorem addToServiceRegistry (h : SameOwners pm pm') (k : ReferenceCounter)
    (d : ServiceDescription) : SameOwners pm (addToServiceRegistry cfg k d pm') := by
  unfold PortManager.addToServiceRegistry
  split
  · exact h.of_pools ⟨rfl, rfl, rfl, rfl, rfl, rfl, rfl⟩
  · exact h.of_pools ⟨rfl, rfl, rfl, rfl, rfl, rfl, rfl⟩

theorem resetServiceRegistryPublisher (name : String) (pm : PortManager) :
    SameOwners pm (resetServiceRegistryPublisher name pm) := by
  unfold PortManager.resetServiceRegistryPublisher
  split
  · exact (refl pm).of_pools ⟨rfl, rfl, rfl, rfl, rfl, rfl, rfl⟩
  · exact refl pm

theorem map_owner_modify_of {α : Type} (c : FixedPositionContainer α) {owner : α → String}
    {f : α → α} (h : ∀ a, owner (f a) = owner a) (i : Nat) :
    (c.modify i f).map owner = c.map owner := by
  cases hget : c.get i with
  | none => rw [c.modify_none f hget]
  | some a => exact c.map_modify_of_eq f hget (h a)

theorem modifyPublisher (i : Nat) (f : PublisherPortData → PublisherPortData)
    (h : ∀ p, (f p).runtimeName = p.runtimeName) :
    SameOwners pm { pm with publishers := pm.publishers.modify i f } :=
  of_update (owners_setPublishers pm _) (map_owner_modify_of pm.publishers h i)

theorem modifySubscriber (j : Nat) (f : SubscriberPortData → SubscriberPortData)
    (h : ∀ s, (f s).runtimeName = s.runtimeName) :
    SameOwners pm { pm with subscribers := pm.subscribers.modify j f } :=
  of_update (owners_setSubscribers pm _) (map_owner_modify_of pm.subscribers h j)

theorem modifyClient (i : Nat) (f : ClientPortData → ClientPortData)
    (h : ∀ c, (f c).runtimeName = c.runtimeName) :
    SameOwners pm { pm with clients := pm.clients.modify i f } :=
  of_update (owners_setClients pm _) (map_owner_modify_of pm.clients h i)

theorem modifyServer (j : Nat) (f : ServerPortData → ServerPortData)
    (h : ∀ s, (f s).runtimeName = s.runtimeName) :
    SameOwners pm { pm with servers := pm.servers.modify j f } :=
  of_update (owners_setServers pm _) (map_owner_modify_of pm.servers h j)

theorem modifyInterface (i : Nat) (f : InterfacePortData → InterfacePortData)
    (h : ∀ p, (f p).runtimeName = p.runtimeName) :
    SameOwners pm { pm with interfaces := pm.interfaces.modify i f } :=
  of_update (owners_setInterfaces pm _) (map_owner_modify_of pm.interfaces h i)

theorem modifyNode (i : Nat) (f : NodeData → NodeData)
    (h : ∀ n, (f n).runtimeName = n.runtimeName) :
    SameOwners pm { pm with nodes := pm.nodes.modify i f } :=
  of_update (owners_setNodes pm _) (map_owner_modify_of pm.nodes h i)

theorem modifyConditionVariable (i : Nat) (f : ConditionVariableData → ConditionVariableData)
    (h : ∀ v, (f v).runtimeName = v.runtimeName) :
    SameOwners pm { pm with conditionVariables := pm.conditionVariables.modify i f } :=
  of_update (owners_setConditionVariables pm _) (map_owner_modify_of pm.conditionVariables h i)

theorem sendToInterfacePort (m : CaproMessage) (pm : PortManager) (i : Nat) :
    SameOwners pm (sendToInterfacePort cfg m pm i) := by
  unfold PortManager.sendToInterfacePort
  split
  · exact refl pm
  · next p hp =>
    split
    · exact of_update (owners_setInterfaces pm _) (map_owner_modify (owner_of_get rfl hp
        (congrArg BasePortData.runtimeName
          (InterfacePortData.dispatch_base cfg.maxInterfaceCaproFifoSize p m))))
    · exact refl pm

theorem sendToAllMatchingInterfacePorts (m : CaproMessage) (pm : PortManager) :
    SameOwners pm (sendToAllMatchingInterfacePorts cfg m pm) :=
  foldl _ (sendToInterfacePort m) pm

theorem sendToPublisherPort (m : CaproMessage) (j : Nat) (acc : PortManager × Bool) (i : Nat) :
    SameOwners acc.1 (sendToPublisherPort cfg m j acc i).1 := by
  obtain ⟨pm, b⟩ := acc
  unfold PortManager.sendToPublisherPort
  simp only
  split
  · next p s hp hs =>
    split
    · have hpub := (refl pm).setPublisher hp
        (PublisherPortData.dispatch_base cfg.maxSubscribersPerPublisher p m)
      split
      · exact hpub _
      · exact (hpub _).setSubscriber hs (SubscriberPortData.dispatch_base _ _ s _) _
    · exact refl pm
  · exact refl pm

theorem sendToAllMatchingPublisherPorts (m : CaproMessage) (j : Nat) (pm : PortManager) :
    SameOwners pm (sendToAllMatchingPublisherPorts cfg m j pm).1 :=
  Lib.foldl_invariant (I := fun acc : PortManager × Bool => SameOwners pm acc.1) _ (pm, false)
    (fun acc i _ h => h.trans (sendToPublisherPort m j acc i)) (refl pm)

theorem sendToSubscriberPort (m : CaproMessage) (i : Nat) (pm : PortManager) (j : Nat) :
    SameOwners pm (sendToSubscriberPort cfg m i pm j) := by
  unfold PortManager.sendToSubscriberPort
  split
  · next p s hp hs =>
    split
    · have hsub := fun fs => (refl pm).setSubscriber hs
        (SubscriberPortData.dispatch_base cfg.communicationPolicy j s m) fs
      simp only
      split
      · exact hsub _
      · have hpub := fun fs response fs' => (hsub fs).setPublisher hp
          (PublisherPortData.dispatch_base cfg.maxSubscribersPerPublisher p response) fs'
        split
        · exact hpub _ _ _
        · exact (hpub _ _ _).setSubscriber hs
            ((SubscriberPortData.dispatch_base _ _ _ _).trans
              (SubscriberPortData.dispatch_base _ _ s _)) _
    · exact refl pm
  · exact refl pm

theorem sendToServerPort (m : CaproMessage) (i : Nat) (acc : PortManager × Bool) (j : Nat) :
    SameOwners acc.1 (sendToServerPort cfg m i acc j).1 := by
  obtain ⟨pm, b⟩ := acc
  unfold PortManager.sendToServerPort
  simp only
  split
  · next s c hs hc =>
    split
    · have hserver := (refl pm).setServer hs
        (ServerPortData.dispatch_base cfg.maxClientsPerServer j s m)
      split
      · exact hserver _
      · exact (hserver _).setClient hc (ClientPortData.dispatch_base _ c _) _
    · exact refl pm
  · exact refl pm

theorem sendToAllMatchingServerPorts (m : CaproMessage) (i : Nat) (pm : PortManager) :
    SameOwners pm (sendToAllMatchingServerPorts cfg m i pm).1 :=
  Lib.foldl_invariant (I := fun acc : PortManager × Bool => SameOwners pm acc.1) _ (pm, false)
    (fun acc j _ h => h.trans (sendToServerPort m i acc j)) (refl pm)

theorem sendToClientPort (m : CaproMessage) (j : Nat) (pm : PortManager) (i : Nat) :
    SameOwners pm (sendToClientPort cfg m j pm i) := by
  unfold PortManager.sendToClientPort
  split
  · next s c hs hc =>
    split
    · have hclient := fun fs => (refl pm).setClient hc (ClientPortData.dispatch_base i c m) fs
      simp only
      split
      · exact hclient _
      · have hserver := fun fs response fs' => (hclient fs).setServer hs
          (ServerPortData.dispatch_base cfg.maxClientsPerServer j s response) fs'
        split
        · exact hserver _ _ _
        · exact (hserver _ _ _).setClient hc ((ClientPortData.dispatch_base _ _ _).trans
            (ClientPortData.dispatch_base _ c _)) _
    · exact refl pm
  · exact refl pm

theorem forwardPublisherMessage (h : SameOwners pm pm') (m : CaproMessage) (i : Nat) :
    SameOwners pm (forwardPublisherMessage cfg m i pm') := by
  refine h.trans (SameOwners.trans ?_ (sendToAllMatchingInterfacePorts m _))
  unfold sendToAllMatchingSubscriberPorts
  split
  · exact refl pm'
  · exact ((refl pm').record _).trans (foldl _ (sendToSubscriberPort m i) _)

theorem forwardServerMessage (h : SameOwners pm pm') (m : CaproMessage) (j : Nat) :
    SameOwners pm (forwardServerMessage cfg m j pm') := by
  refine h.trans (SameOwners.trans ?_ (sendToAllMatchingInterfacePorts m _))
  unfold sendToAllMatchingClientPorts
  split
  · exact refl pm'
  · exact ((refl pm').record _).trans (foldl _ (sendToClientPort m j) _)

theorem removePublisherFromServiceRegistry (h : SameOwners pm pm') (d : ServiceDescription) :
    SameOwners pm (removePublisherFromServiceRegistry d pm') :=
  h.of_pools ⟨rfl, rfl, rfl, rfl, rfl, rfl, rfl⟩

theorem removeServerFromServiceRegistry (h : SameOwners pm pm') (d : ServiceDescription) :
    SameOwners pm (removeServerFromServiceRegistry d pm') :=
  h.of_pools ⟨rfl, rfl, rfl, rfl, rfl, rfl, rfl⟩

theorem doDiscoveryForPublisherPort (i : Nat) (pm : PortManager) :
    SameOwners pm (doDiscoveryForPublisherPort cfg i pm) := by
  unfold PortManager.doDiscoveryForPublisherPort
  split
  · exact refl pm
  · next p hp =>
    have hpub := fun fs => (refl pm).setPublisher hp p.tryGet_base fs
    simp only
    split
    · exact hpub _
    · split
      · exact ((hpub _).addToServiceRegistry _ _).forwardPublisherMessage _ _
      · exact ((hpub _).removePublisherFromServiceRegistry _).forwardPublisherMessage _ _
      · exact (hpub _).report _

theorem doDiscoveryForServerPort (j : Nat) (pm : PortManager) :
    SameOwners pm (doDiscoveryForServerPort cfg j pm) := by
  unfold PortManager.doDiscoveryForServerPort
  split
  · exact refl pm
  · next s hs =>
    have hserver := fun fs => (refl pm).setServer hs (s.tryGet_base cfg.maxClientsPerServer j) fs
    simp only
    split
    · exact hserver _
    · split
      · exact ((hserver _).addToServiceRegistry _ _).forwardServerMessage _ _
      · exact ((hserver _).removeServerFromServiceRegistry _).forwardServerMessage _ _
      · exact (hserver _).report _

theorem nackSubscriber (j : Nat) (pm : PortManager) : SameOwners pm (nackSubscriber cfg j pm) := by
  unfold PortManager.nackSubscriber
  split
  · exact refl pm
  · next s hs =>
    exact (refl pm).setSubscriber hs (SubscriberPortData.dispatch_base _ _ s _) _

theorem doDiscoveryForSubscriberPort (j : Nat) (pm : PortManager) :
    SameOwners pm (doDiscoveryForSubscriberPort cfg j pm) := by
  unfold PortManager.doDiscoveryForSubscriberPort
  split
  · exact refl pm
  · next s hs =>
    have hsub := fun fs =>
      (refl pm).setSubscriber hs (s.tryGet_base cfg.communicationPolicy j) fs
    simp only
    split
    · exact hsub _
    · split
      · split
        · exact (hsub _).trans (sendToAllMatchingPublisherPorts _ _ _)
        · exact ((hsub _).trans (sendToAllMatchingPublisherPorts _ _ _)).trans
            (nackSubscriber _ _)
      · exact (hsub _).report _

theorem nackClient (i : Nat) (pm : PortManager) : SameOwners pm (nackClient i pm) := by
  unfold PortManager.nackClient
  split
  · exact refl pm
  · next c hc => exact (refl pm).setClient hc (ClientPortData.dispatch_base _ c _) _

theorem doDiscoveryForClientPort (i : Nat) (pm : PortManager) :
    SameOwners pm (doDiscoveryForClientPort cfg i pm) := by
  unfold PortManager.doDiscoveryForClientPort
  split
  · exact refl pm
  · next c hc =>
    have hclient := fun fs => (refl pm).setClient hc (c.tryGet_base i) fs
    simp only
    split
    · exact hclient _
    · split
      · split
        · exact (hclient _).trans (sendToAllMatchingServerPorts _ _ _)
        · exact ((hclient _).trans (sendToAllMatchingServerPorts _ _ _)).trans (nackClient _ _)
      · exact (hclient _).report _

theorem unblockProcessShutdown (name : String) (pm : PortManager) :
    SameOwners pm (unblockProcessShutdown cfg name pm) := by
  have howned : ∀ {owner : PortManager → Nat → Option String}
      {f : PortManager → Nat → PortManager} (_ : ∀ pm i, SameOwners pm (f pm i))
      (pm : PortManager) (i : Nat), SameOwners pm (ifOwner owner name f pm i) := by
    intro owner f h pm i
    unfold ifOwner
    split
    · exact h pm i
    · exact refl pm
  refine (foldl _ (howned fun pm i => ?_) pm).trans (foldl _ (howned fun pm j => ?_) _)
  · exact (modifyPublisher i PublisherPortData.stopOffer fun _ => rfl).trans
      (doDiscoveryForPublisherPort i _)
  · exact (modifyServer j ServerPortData.stopOffer fun _ => rfl).trans
      (doDiscoveryForServerPort j _)

end SameOwners

def Removes (l : PoolList) (i : Nat) (pm pm' : PortManager) : Prop :=
  pm'.owners = Function.update pm.owners l ((pm.owners l).erase i)

theorem Removes.ownerOf_eq {l : PoolList} (h : Removes l i pm pm') (l' : PoolList) (k : Nat) :
    pm'.ownerOf l' k = if l' = l ∧ k = i then none else pm.ownerOf l' k := by
  rw [← owners_get, ← owners_get, h]
  by_cases hl : l' = l
  · subst hl
    rw [Function.update_self, FixedPositionContainer.get_erase]
    simp only [true_and, eq_comm]
  · rw [Function.update_of_ne hl, if_neg (fun h => hl h.1)]

theorem Removes.of_none (l : PoolList) (h : pm.ownerOf l i = none) : Removes l i pm pm := by
  rw [← owners_get] at h
  rw [Removes, (pm.owners l).erase_none h, Function.update_eq_self]

section

variable (h : SameOwners pm pm')
include h

theorem SameOwners.removes {l : PoolList} {c : FixedPositionContainer String}
    (hpm : pm''.owners = Function.update pm'.owners l c) (hc : c = (pm'.owners l).erase i) :
    Removes l i pm pm'' := by
  rw [Removes, hpm, hc, h]

theorem SameOwners.erasePublisher (i : Nat) :
    Removes .publishers i pm { pm' with publishers := pm'.publishers.erase i } :=
  h.removes (owners_setPublishers pm' _) (FixedPositionContainer.map_erase _ _ i)

theorem SameOwners.eraseSubscriber (j : Nat) :
    Removes .subscribers j pm { pm' with subscribers := pm'.subscribers.erase j } :=
  h.removes (owners_setSubscribers pm' _) (FixedPositionContainer.map_erase _ _ j)

theorem SameOwners.eraseClient (i : Nat) :
    Removes .clients i pm { pm' with clients := pm'.clients.erase i } :=
  h.removes (owners_setClients pm' _) (FixedPositionContainer.map_erase _ _ i)

theorem SameOwners.eraseServer (j : Nat) :
    Removes .servers j pm { pm' with servers := pm'.servers.erase j } :=
  h.removes (owners_setServers pm' _) (FixedPositionContainer.map_erase _ _ j)

end

theorem removeInterfacePort_removes (i : Nat) (pm : PortManager) :
    Removes .interfaces i pm (removeInterfacePort i pm) :=
  (SameOwners.refl pm).removes (owners_setInterfaces pm _) (FixedPositionContainer.map_erase _ _ i)

theorem removeNodeData_removes (i : Nat) (pm : PortManager) :
    Removes .nodes i pm (removeNodeData i pm) :=
  (SameOwners.refl pm).removes (owners_setNodes pm _) (FixedPositionContainer.map_erase _ _ i)

theorem removeConditionVariableData_removes (i : Nat) (pm : PortManager) :
    Removes .conditionVariables i pm (removeConditionVariableData i pm) :=
  (SameOwners.refl pm).removes (owners_setConditionVariables pm _)
    (FixedPositionContainer.map_erase _ _ i)

theorem destroyPublisherPort_removes (i : Nat) (pm : PortManager) :
    Removes .publishers i pm (destroyPublisherPort cfg i pm) := by
  unfold destroyPublisherPort
  split
  · next h =>
    apply Removes.of_none
    simp [ownerOf, publisherOwner, h]
  · next p hp =>
    have hpub := fun fs => (SameOwners.refl pm).setPublisher hp
      (p.stopOffer.tryGet_base : _ = p.toBasePortData) fs
    apply SameOwners.erasePublisher
    split
    · exact hpub _
    · exact (((hpub _).report _).removePublisherFromServiceRegistry _).forwardPublisherMessage _ _

theorem destroySubscriberPort_removes (j : Nat) (pm : PortManager) :
    Removes .subscribers j pm (destroySubscriberPort cfg j pm) := by
  unfold destroySubscriberPort
  split
  · next h =>
    apply Removes.of_none
    simp [ownerOf, subscriberOwner, h]
  · next s hs =>
    have hsub := fun fs => (SameOwners.refl pm).setSubscriber hs
      (s.unsubscribe.tryGet_base cfg.communicationPolicy j : _ = s.toBasePortData) fs
    apply SameOwners.eraseSubscriber
    split
    · exact hsub _
    · exact ((hsub _).report _).trans (SameOwners.sendToAllMatchingPublisherPorts _ _ _)

theorem destroyClientPort_removes (i : Nat) (pm : PortManager) :
    Removes .clients i pm (destroyClientPort cfg i pm) := by
  unfold destroyClientPort
  split
  · next h =>
    apply Removes.of_none
    simp [ownerOf, clientOwner, h]
  · next c hc =>
    have hclient := fun fs => (SameOwners.refl pm).setClient hc
      (c.disconnect.tryGet_base i : _ = c.toBasePortData) fs
    apply SameOwners.eraseClient
    split
    · exact hclient _
    · exact ((hclient _).report _).trans (SameOwners.sendToAllMatchingServerPorts _ _ _)

theorem destroyServerPort_removes (j : Nat) (pm : PortManager) :
    Removes .servers j pm (destroyServerPort cfg j pm) := by
  unfold destroyServerPort
  split
  · next h =>
    apply Removes.of_none
    simp [ownerOf, serverOwner, h]
  · next s hs =>
    have hserver := fun fs => (SameOwners.refl pm).setServer hs
      (s.stopOffer.tryGet_base cfg.maxClientsPerServer j : _ = s.toBasePortData) fs
    apply SameOwners.eraseServer
    split
    · exact hserver _
    · exact (((hserver _).report _).removeServerFromServiceRegistry _).forwardServerMessage _ _

/-- From `pm` to `pm'` everything that `name` owns in the lists `ls` was removed, and
nothing else. -/
def Cleans (name : String) (ls : List PoolList) (pm pm' : PortManager) : Prop :=
  ∀ l k, pm'.ownerOf l k =
    if l ∈ ls ∧ pm.ownerOf l k = some name then none else pm.ownerOf l k

theorem Cleans.trans {name : String} {ls ls' : List PoolList} (h : Cleans name ls pm pm')
    (h' : Cleans name ls' pm' pm'') : Cleans name (ls ++ ls') pm pm'' := by
  intro l k
  rw [h' l k, h l k]
  by_cases hown : pm.ownerOf l k = some name
  · by_cases hl : l ∈ ls
    · simp [hown, hl]
    · simp [hown, hl]
  · simp [hown]

theorem ownerOf_removeLoop {l : PoolList} {f : PortManager → Nat → PortManager}
    (hf : ∀ i pm, Removes l i pm (f pm i)) (name : String) (is : List Nat) (pm : PortManager)
    (l' : PoolList) (k : Nat) :
    (is.foldl (ifOwner (fun pm => pm.ownerOf l) name f) pm).ownerOf l' k =
      if l' = l ∧ k ∈ is ∧ pm.ownerOf l k = some name then none else pm.ownerOf l' k := by
  induction is generalizing pm with
  | nil => simp
  | cons i is ih =>
    rw [List.foldl_cons, ih]
    unfold ifOwner
    by_cases hi : pm.ownerOf l i = some name
    · simp only [if_pos hi, (hf i pm).ownerOf_eq]
      by_cases hl : l' = l
      · subst hl
        by_cases hk : k = i
        · subst hk
          simp [hi]
        · simp [hk]
      · simp [hl]
    · simp only [if_neg hi]
      by_cases hl : l' = l
      · subst hl
        by_cases hk : k = i
        · subst hk
          simp [hi]
        · simp [hk]
      · simp [hl]

theorem Cleans.of_loop {l : PoolList} {f : PortManager → Nat → PortManager}
    (hf : ∀ i pm, Removes l i pm (f pm i)) (name : String) (pm : PortManager) {is : List Nat}
    (his : ∀ k, pm.ownerOf l k ≠ none → k ∈ is) :
    Cleans name [l] pm (is.foldl (ifOwner (fun pm => pm.ownerOf l) name f) pm) := by
  intro l' k
  rw [ownerOf_removeLoop hf]
  simp only [List.mem_singleton]
  by_cases hl : l' = l
  · subst hl
    by_cases hown : pm.ownerOf l' k = some name
    · simp [hown, his k (by simp [hown])]
    · simp [hown]
  · simp [hl]

theorem mem_content_of_owner {α : Type} {c : FixedPositionContainer α} {owner : α → String}
    {k : Nat} (h : (c.get k).map owner ≠ none) : k ∈ c.content := by
  rw [FixedPositionContainer.mem_content]
  cases hget : c.get k with
  | none => simp [hget] at h
  | some a => exact ⟨a, rfl⟩

theorem ownerOf_deletePortsOfProcess (name : String) (pm : PortManager) (l : PoolList) (k : Nat) :
    (deletePortsOfProcess cfg name pm).ownerOf l k =
      if pm.ownerOf l k = some name then none else pm.ownerOf l k := by
  have publishers := fun pm => Cleans.of_loop (@destroyPublisherPort_removes cfg) name pm
    fun _ h => mem_content_of_owner h
  have subscribers := fun pm => Cleans.of_loop (@destroySubscriberPort_removes cfg) name pm
    fun _ h => mem_content_of_owner h
  have servers := fun pm => Cleans.of_loop (@destroyServerPort_removes cfg) name pm
    fun _ h => mem_content_of_owner h
  have clients := fun pm => Cleans.of_loop (@destroyClientPort_removes cfg) name pm
    fun _ h => mem_content_of_owner h
  have interfaces := fun pm => Cleans.of_loop removeInterfacePort_removes name pm
    fun _ h => mem_content_of_owner h
  have nodes := fun pm => Cleans.of_loop removeNodeData_removes name pm
    fun _ h => mem_content_of_owner h
  have conditionVariables := fun pm => Cleans.of_loop removeConditionVariableData_removes name pm
    fun _ h => mem_content_of_owner h
  have hreset := SameOwners.resetServiceRegistryPublisher name pm
  have h := ((((((publishers (resetServiceRegistryPublisher name pm)).trans
    (subscribers _)).trans (servers _)).trans (clients _)).trans (interfaces _)).trans
    (nodes _)).trans (conditionVariables _) l k
  have hl : l ∈ [PoolList.publishers] ++ [PoolList.subscribers] ++ [PoolList.servers] ++
      [PoolList.clients] ++ [PoolList.interfaces] ++ [PoolList.nodes] ++
        [PoolList.conditionVariables] := by
    cases l <;> decide
  rw [if_congr (and_iff_right hl) rfl rfl, hreset.ownerOf_eq] at h
  exact h

structure Shrinks (pm pm' : PortManager) : Prop where
  length : ∀ l, (pm'.owners l).data.length = (pm.owners l).data.length
  owner : ∀ l k, pm'.ownerOf l k = pm.ownerOf l k ∨ pm'.ownerOf l k = none

namespace Shrinks

theorem of_same (h : SameOwners pm pm') : Shrinks pm pm' where
  length l := by rw [h]
  owner l k := Or.inl (congrFun (congrFun h.ownerOf_eq l) k)

theorem of_removes {l : PoolList} (h : Removes l i pm pm') : Shrinks pm pm' where
  length l' := by
    rw [h]
    by_cases hl : l' = l
    · subst hl
      rw [Function.update_self, FixedPositionContainer.length_erase]
    · rw [Function.update_of_ne hl]
  owner l' k := by
    rw [h.ownerOf_eq l' k]
    split
    · exact Or.inr rfl
    · exact Or.inl rfl

theorem refl (pm : PortManager) : Shrinks pm pm := of_same (.refl pm)

theorem trans (h : Shrinks pm pm') (h' : Shrinks pm' pm'') : Shrinks pm pm'' where
  length l := (h'.length l).trans (h.length l)
  owner l k := by
    rcases h'.owner l k with heq | hnone
    · rw [heq]
      exact h.owner l k
    · exact Or.inr hnone

theorem foldl {A : Type} {f : PortManager → A → PortManager} (as : List A)
    (h : ∀ pm a, Shrinks pm (f pm a)) (pm : PortManager) : Shrinks pm (as.foldl f pm) :=
  Lib.foldl_invariant as pm (fun pm' a _ hs => hs.trans (h pm' a)) (refl pm)

theorem handle {destroyed : Prop} [Decidable destroyed] {l : PoolList}
    (h : SameOwners pm pm') (h' : Removes l i pm' pm'') :
    Shrinks pm (if destroyed then pm'' else pm') := by
  split
  · exact (of_same h).trans (of_removes h')
  · exact of_same h

theorem handleInterfacePort (acc : PortManager × List Nat) (i : Nat) :
    Shrinks acc.1 (handleInterfacePort acc i).1 := by
  obtain ⟨pm, forwarding⟩ := acc
  unfold PortManager.handleInterfacePort
  simp only
  split
  · exact refl pm
  · exact handle (SameOwners.modifyInterface i _ fun _ => rfl) (removeInterfacePort_removes i _)

theorem handleInterfaces (pm : PortManager) : Shrinks pm (handleInterfaces cfg pm) := by
  have hoffers : ∀ forwarding serviceType (ds : List ServiceDescription) (pm : PortManager),
      SameOwners pm (ds.foldl (forwardInitialOffer cfg forwarding serviceType) pm) :=
    fun forwarding serviceType ds pm =>
      SameOwners.foldl ds (fun pm _ => SameOwners.foldl _ (SameOwners.sendToInterfacePort _) pm) pm
  unfold PortManager.handleInterfaces
  refine trans ?_ (of_same ((hoffers _ _ _ _).trans (hoffers _ _ _ _)))
  exact Lib.foldl_invariant (I := fun acc : PortManager × List Nat => Shrinks pm acc.1) _ (pm, [])
    (fun acc i _ h => h.trans (handleInterfacePort acc i)) (refl pm)

theorem handlePublisherPort (pm : PortManager) (i : Nat) :
    Shrinks pm (handlePublisherPort cfg pm i) :=
  handle (SameOwners.doDiscoveryForPublisherPort i pm) (destroyPublisherPort_removes i _)

theorem handleSubscriberPort (pm : PortManager) (j : Nat) :
    Shrinks pm (handleSubscriberPort cfg pm j) :=
  handle (SameOwners.doDiscoveryForSubscriberPort j pm) (destroySubscriberPort_removes j _)

theorem handleServerPort (pm : PortManager) (j : Nat) : Shrinks pm (handleServerPort cfg pm j) :=
  handle (SameOwners.doDiscoveryForServerPort j pm) (destroyServerPort_removes j _)

theorem handleClientPort (pm : PortManager) (i : Nat) : Shrinks pm (handleClientPort cfg pm i) :=
  handle (SameOwners.doDiscoveryForClientPort i pm) (destroyClientPort_removes i _)

theorem handleNode (pm : PortManager) (i : Nat) : Shrinks pm (handleNode pm i) :=
  handle (SameOwners.refl pm) (removeNodeData_removes i pm)

theorem handleConditionVariable (pm : PortManager) (i : Nat) :
    Shrinks pm (handleConditionVariable pm i) :=
  handle (SameOwners.refl pm) (removeConditionVariableData_removes i pm)

theorem doDiscovery (pm : PortManager) : Shrinks pm (doDiscovery cfg pm) :=
  ((((((foldl _ handlePublisherPort pm).trans (foldl _ handleSubscriberPort _)).trans
    (foldl _ handleServerPort _)).trans (foldl _ handleClientPort _)).trans
    (handleInterfaces _)).trans (foldl _ handleNode _)).trans (foldl _ handleConditionVariable _)

theorem deletePortsOfProcess (name : String) (pm : PortManager) :
    Shrinks pm (deletePortsOfProcess cfg name pm) := by
  have hloop : ∀ {l : PoolList} {owner : PortManager → Nat → Option String}
      {f : PortManager → Nat → PortManager} (is : List Nat) (_ : ∀ i pm, Removes l i pm (f pm i))
      (pm : PortManager), Shrinks pm (is.foldl (ifOwner owner name f) pm) := by
    intro l owner f is hf
    apply foldl is
    intro pm i
    unfold ifOwner
    split
    · exact of_removes (hf i pm)
    · exact refl pm
  have hreset := of_same (SameOwners.resetServiceRegistryPublisher name pm)
  exact ((((((hreset.trans (hloop _ destroyPublisherPort_removes _)).trans
    (hloop _ destroySubscriberPort_removes _)).trans (hloop _ destroyServerPort_removes _)).trans
    (hloop _ destroyClientPort_removes _)).trans (hloop _ removeInterfacePort_removes _)).trans
    (hloop _ removeNodeData_removes _)).trans (hloop _ removeConditionVariableData_removes _)

theorem findPublisherInUse (service : ServiceDescription) (is : List Nat) (pm : PortManager) :
    Shrinks pm (findPublisherInUse cfg service is pm).1 := by
  induction is generalizing pm with
  | nil => exact refl pm
  | cons i is ih =>
    unfold PortManager.findPublisherInUse
    split
    · exact ih pm
    · split
      · split
        · exact (of_removes (destroyPublisherPort_removes i pm)).trans (ih _)
        · exact refl pm
      · exact ih pm

theorem findServerInUse (service : ServiceDescription) (js : List Nat) (pm : PortManager) :
    Shrinks pm (findServerInUse cfg service js pm).1 := by
  induction js generalizing pm with
  | nil => exact refl pm
  | cons j js ih =>
    unfold PortManager.findServerInUse
    split
    · exact ih pm
    · split
      · split
        · exact (of_removes (destroyServerPort_removes j pm)).trans (ih _)
        · exact refl pm
      · exact ih pm

theorem doesViolateCommunicationPolicy (service : ServiceDescription) (pm : PortManager) :
    Shrinks pm (doesViolateCommunicationPolicy cfg service pm).1 := by
  unfold PortManager.doesViolateCommunicationPolicy
  split
  · exact findPublisherInUse service _ pm
  · exact refl pm

end Shrinks

structure Inserts (l : PoolList) (i : Nat) (name : String) (pm pm' : PortManager) : Prop where
  slot : i = ((pm.owners l).insert name).2
  owners_eq : pm'.owners = Function.update pm.owners l ((pm.owners l).insert name).1

namespace Inserts

variable {l : PoolList} {name : String}

theorem free (h : Inserts l i name pm pm') : pm.ownerOf l i = none := by
  rw [← owners_get, h.slot]
  exact FixedPositionContainer.get_insert_slot _ name

theorem ownerOf_eq (h : Inserts l i name pm pm') (l' : PoolList) (k : Nat) :
    pm'.ownerOf l' k = if l' = l ∧ k = i then some name else pm.ownerOf l' k := by
  rw [← owners_get, ← owners_get, h.owners_eq]
  by_cases hl : l' = l
  · subst hl
    rw [Function.update_self, FixedPositionContainer.get_insert, ← h.slot]
    simp only [true_and, eq_comm]
  · rw [Function.update_of_ne hl, if_neg (fun h => hl h.1)]

theorem same (h : Inserts l i name pm pm') (h' : SameOwners pm' pm'') :
    Inserts l i name pm pm'' :=
  ⟨h.slot, Eq.trans h' h.owners_eq⟩

end Inserts

theorem inserts_of_map {α : Type} {c : FixedPositionContainer α} {owner : α → String} {a : α}
    {l : PoolList} (hc : pm.owners l = c.map owner)
    (hpm : pm'.owners = Function.update pm.owners l ((c.insert a).1.map owner)) :
    Inserts l (c.insert a).2 (owner a) pm pm' := by
  refine ⟨?_, ?_⟩
  · rw [hc, c.slot_map]
  · rw [hpm, hc, c.map_insert]

section

variable (pm : PortManager)

theorem insertPublisher (p : PublisherPortData) :
    Inserts .publishers (pm.publishers.insert p).2 p.runtimeName pm
      { pm with publishers := (pm.publishers.insert p).1 } :=
  inserts_of_map rfl (owners_setPublishers pm _)

theorem insertSubscriber (s : SubscriberPortData) :
    Inserts .subscribers (pm.subscribers.insert s).2 s.runtimeName pm
      { pm with subscribers := (pm.subscribers.insert s).1 } :=
  inserts_of_map rfl (owners_setSubscribers pm _)

theorem insertClient (c : ClientPortData) :
    Inserts .clients (pm.clients.insert c).2 c.runtimeName pm
      { pm with clients := (pm.clients.insert c).1 } :=
  inserts_of_map rfl (owners_setClients pm _)

theorem insertServer (s : ServerPortData) :
    Inserts .servers (pm.servers.insert s).2 s.runtimeName pm
      { pm with servers := (pm.servers.insert s).1 } :=
  inserts_of_map rfl (owners_setServers pm _)

theorem insertInterface (p : InterfacePortData) :
    Inserts .interfaces (pm.interfaces.insert p).2 p.runtimeName pm
      { pm with interfaces := (pm.interfaces.insert p).1 } :=
  inserts_of_map rfl (owners_setInterfaces pm _)

theorem insertNode (n : NodeData) :
    Inserts .nodes (pm.nodes.insert n).2 n.runtimeName pm
      { pm with nodes := (pm.nodes.insert n).1 } :=
  inserts_of_map rfl (owners_setNodes pm _)

theorem insertConditionVariable (v : ConditionVariableData) :
    Inserts .conditionVariables (pm.conditionVariables.insert v).2 v.runtimeName pm
      { pm with conditionVariables := (pm.conditionVariables.insert v).1 } :=
  inserts_of_map rfl (owners_setConditionVariables pm _)

end

theorem Inserts.of_pools {l : PoolList} {name : String} (h : SamePool pm pm')
    (h' : Inserts l i name pm' pm'') : Inserts l i name pm pm'' := by
  have heq : pm'.owners = pm.owners := (SameOwners.refl pm).of_pools h
  exact ⟨heq ▸ h'.slot, heq ▸ h'.owners_eq⟩

def HasRoom (cfg : Config) (l : PoolList) (pm : PortManager) : Prop :=
  (pm.owners l).hasFreeSpace (cfg.capacityOf l) = true

def Acquired (cfg : Config) (l : PoolList) (name : String) (pm : PortManager)
    (result : PortManager × Except PortPoolError Nat) : Prop :=
  match result.2 with
  | .ok i => HasRoom cfg l pm ∧ Inserts l i name pm result.1
  | .error _ => SamePool pm result.1

theorem Removes.hasRoom {l : PoolList} (h : Removes l i pm pm') (h' : Shrinks pm' pm'')
    (hi : pm.ownerOf l i ≠ none) : HasRoom cfg l pm'' := by
  have hnone : pm''.ownerOf l i = none := by
    have hremoved : pm'.ownerOf l i = none := by
      rw [h.ownerOf_eq, if_pos ⟨rfl, rfl⟩]
    rcases h'.owner l i with heq | hnone
    · rw [heq, hremoved]
    · exact hnone
  rw [← owners_get] at hi hnone
  have hlt := (pm.owners l).lt_length_of_get hi
  rw [← ((Shrinks.of_removes h).trans h').length l] at hlt
  exact (pm''.owners l).hasFreeSpace_of_get _ hlt hnone

section cleaning

variable (service : ServiceDescription)

theorem findPublisherInUse_eq_or (is : List Nat) (pm : PortManager) :
    (findPublisherInUse cfg service is pm).1 = pm ∨
      HasRoom cfg .publishers (findPublisherInUse cfg service is pm).1 := by
  induction is generalizing pm with
  | nil => exact Or.inl rfl
  | cons i is ih =>
    unfold findPublisherInUse
    split
    · exact ih pm
    · next p hp =>
      split
      · split
        · exact Or.inr ((destroyPublisherPort_removes i pm).hasRoom
            (Shrinks.findPublisherInUse service is _) (by simp [ownerOf, publisherOwner, hp]))
        · exact Or.inl rfl
      · exact ih pm

theorem findServerInUse_eq_or (js : List Nat) (pm : PortManager) :
    (findServerInUse cfg service js pm).1 = pm ∨
      HasRoom cfg .servers (findServerInUse cfg service js pm).1 := by
  induction js generalizing pm with
  | nil => exact Or.inl rfl
  | cons j js ih =>
    unfold findServerInUse
    split
    · exact ih pm
    · next s hs =>
      split
      · split
        · exact Or.inr ((destroyServerPort_removes j pm).hasRoom
            (Shrinks.findServerInUse service js _) (by simp [ownerOf, serverOwner, hs]))
        · exact Or.inl rfl
      · exact ih pm

theorem doesViolateCommunicationPolicy_eq_or (pm : PortManager) :
    (doesViolateCommunicationPolicy cfg service pm).1 = pm ∨
      HasRoom cfg .publishers (doesViolateCommunicationPolicy cfg service pm).1 := by
  unfold doesViolateCommunicationPolicy
  split
  · exact findPublisherInUse_eq_or service _ pm
  · exact Or.inl rfl

end cleaning

namespace Acquired

variable {l : PoolList} {name : String} {result : PortManager × Except PortPoolError Nat}

theorem within (h : Acquired cfg l name pm result)
    (hpm : ∀ l, (pm.owners l).data.length ≤ cfg.capacityOf l) (l' : PoolList) :
    (result.1.owners l').data.length ≤ cfg.capacityOf l' := by
  unfold Acquired at h
  split at h
  · rw [h.2.owners_eq]
    by_cases hl : l' = l
    · subst hl
      rw [Function.update_self]
      exact FixedPositionContainer.length_insert _ name (hpm l') h.1
    · rw [Function.update_of_ne hl]
      exact hpm l'
  · rw [(SameOwners.refl pm).of_pools h]
    exact hpm l'

theorem owner (h : Acquired cfg l name pm result) {l' : PoolList} {k : Nat} {n : String}
    (hown : result.1.ownerOf l' k = some n) : pm.ownerOf l' k = some n ∨ n = name := by
  unfold Acquired at h
  split at h
  · rw [h.2.ownerOf_eq l' k] at hown
    split at hown
    · exact Or.inr (Option.some.inj hown).symm
    · exact Or.inl hown
  · rw [((SameOwners.refl pm).of_pools h).ownerOf_eq] at hown
    exact Or.inl hown

end Acquired

theorem SamePool.trans (h : SamePool pm pm') (h' : SamePool pm' pm'') : SamePool pm pm'' where
  publishers := h'.publishers.trans h.publishers
  subscribers := h'.subscribers.trans h.subscribers
  clients := h'.clients.trans h.clients
  servers := h'.servers.trans h.servers
  interfaces := h'.interfaces.trans h.interfaces
  nodes := h'.nodes.trans h.nodes
  conditionVariables := h'.conditionVariables.trans h.conditionVariables

theorem SamePool.report (pm : PortManager) (fs : List Failure) : SamePool pm (pm.report fs) :=
  ⟨rfl, rfl, rfl, rfl, rfl, rfl, rfl⟩

theorem hasRoom_of_map {α : Type} {c : FixedPositionContainer α} {owner : α → String}
    {l : PoolList} (hc : pm.owners l = c.map owner)
    (h : c.hasFreeSpace (cfg.capacityOf l) = true) : HasRoom cfg l pm := by
  rw [HasRoom, hc, c.hasFreeSpace_map]
  exact h

section acquire

variable (name : String) (service : ServiceDescription)

theorem acquired_addPublisherPort (options : PublisherOptions) (h : SamePool pm pm') :
    Acquired cfg .publishers name pm (addPublisherPort cfg service name options pm') := by
  unfold addPublisherPort
  split
  · next hroom =>
    rw [h.publishers] at hroom
    exact ⟨hasRoom_of_map rfl hroom, Inserts.of_pools h (insertPublisher pm' _)⟩
  · exact h.trans (SamePool.report pm' _)

theorem acquired_publisher (options : PublisherOptions) (pm : PortManager) :
    Acquired cfg .publishers name (doesViolateCommunicationPolicy cfg service pm).1
      (acquirePublisherPortData cfg service options name pm) := by
  have hwithout : Acquired cfg .publishers name (doesViolateCommunicationPolicy cfg service pm).1
      (acquirePublisherPortDataWithoutDiscovery cfg service options name pm) := by
    unfold acquirePublisherPortDataWithoutDiscovery
    simp only
    split
    · exact SamePool.report _ _
    · split
      · apply acquired_addPublisherPort
        unfold pushInternalService
        split
        · exact ⟨rfl, rfl, rfl, rfl, rfl, rfl, rfl⟩
        · exact ⟨rfl, rfl, rfl, rfl, rfl, rfl, rfl⟩
      · split
        · exact SamePool.report _ _
        · exact acquired_addPublisherPort name service options
            ⟨rfl, rfl, rfl, rfl, rfl, rfl, rfl⟩
  unfold acquirePublisherPortData
  rcases hresult : acquirePublisherPortDataWithoutDiscovery cfg service options name pm with
    ⟨pm', e | i⟩
  · rw [hresult] at hwithout
    exact hwithout
  · rw [hresult] at hwithout
    exact ⟨hwithout.1, hwithout.2.same (SameOwners.doDiscoveryForPublisherPort i pm')⟩

theorem acquired_subscriber (options : SubscriberOptions) (pm : PortManager) :
    Acquired cfg .subscribers name pm (acquireSubscriberPortData cfg service options name pm) := by
  unfold acquireSubscriberPortData
  split
  · next hroom =>
    exact ⟨hasRoom_of_map rfl hroom,
      (insertSubscriber pm _).same (SameOwners.doDiscoveryForSubscriberPort _ _)⟩
  · exact SamePool.report pm _

theorem acquired_client (options : ClientOptions) (pm : PortManager) :
    Acquired cfg .clients name pm (acquireClientPortData cfg service options name pm) := by
  unfold acquireClientPortData
  split
  · next hroom =>
    exact ⟨hasRoom_of_map rfl hroom,
      (insertClient pm _).same (SameOwners.doDiscoveryForClientPort _ _)⟩
  · exact SamePool.report pm _

theorem acquired_server (options : ServerOptions) (pm : PortManager) :
    Acquired cfg .servers name (findServerInUse cfg service pm.servers.content pm).1
      (acquireServerPortData cfg service options name pm) := by
  unfold acquireServerPortData
  simp only
  split
  · exact SamePool.report _ _
  · split
    · next hroom =>
      exact ⟨hasRoom_of_map rfl hroom,
        (insertServer _ _).same (SameOwners.doDiscoveryForServerPort _ _)⟩
    · exact SamePool.report _ _

theorem acquired_node (nodeName : String) (pm : PortManager) :
    Acquired cfg .nodes name pm (acquireNodeData cfg name nodeName pm) := by
  unfold acquireNodeData
  split
  · next hroom => exact ⟨hasRoom_of_map rfl hroom, insertNode pm _⟩
  · exact SamePool.report pm _

theorem acquired_conditionVariable (pm : PortManager) :
    Acquired cfg .conditionVariables name pm (acquireConditionVariableData cfg name pm) := by
  unfold acquireConditionVariableData
  split
  · next hroom => exact ⟨hasRoom_of_map rfl hroom, insertConditionVariable pm _⟩
  · exact SamePool.report pm _

/-- The null pointer stands for a full list. -/
theorem acquired_interface (interface : Interfaces) (pm : PortManager) :
    Acquired cfg .interfaces name pm
      ((acquireInterfacePortData cfg interface name pm).1,
        ((acquireInterfacePortData cfg interface name pm).2).elim
          (.error .interfacePortListFull) .ok) := by
  unfold acquireInterfacePortData
  split
  · next hroom => exact ⟨hasRoom_of_map rfl hroom, insertInterface pm _⟩
  · exact SamePool.report pm _

end acquire

end PortManager

end Iceoryx.Roudi
