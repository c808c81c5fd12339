import Iceoryx.Roudi.RegistryMirror

namespace Iceoryx.Roudi

open Capro Popo

namespace PortManager

variable {cfg : Config} {pm pm' pm'' : PortManager}

def lastRegistry (before : ServiceRegistry) (publications : List RegistryPublication) :
    ServiceRegistry :=
  publications.getLast?.elim before RegistryPublication.registry

theorem lastRegistry_append (before : ServiceRegistry) (ps qs : List RegistryPublication) :
    lastRegistry before (ps ++ qs) = lastRegistry (lastRegistry before ps) qs := by
  unfold lastRegistry
  rw [List.getLast?_append]
  cases qs.getLast? with
  | none => rfl
  | some q => rfl

/-- What is published on the way from `pm` to `pm'` ends with the registry of `pm'`, and if nothing
is published, the registry is still that of `pm`. -/
def Publishes (pm pm' : PortManager) : Prop :=
  ∃ news, pm'.publications = pm.publications ++ news ∧
    lastRegistry pm.serviceRegistry news = pm'.serviceRegistry

namespace Publishes

theorem of_eq (hregistry : pm'.serviceRegistry = pm.serviceRegistry)
    (hpublications : pm'.publications = pm.publications) : Publishes pm pm' :=
  ⟨[], by rw [hpublications, List.append_nil], hregistry.symm⟩

theorem refl (pm : PortManager) : Publishes pm pm := of_eq rfl rfl

theorem of_same (h : SameOffers pm pm') : Publishes pm pm' :=
  of_eq h.serviceRegistry h.publications

theorem of_core (h : SameCore pm pm') : Publishes pm pm' :=
  of_eq h.serviceRegistry h.publications

theorem trans (h : Publishes pm pm') (h' : Publishes pm' pm'') : Publishes pm pm'' := by
  obtain ⟨news, hnews, hlast⟩ := h
  obtain ⟨news', hnews', hlast'⟩ := h'
  refine ⟨news ++ news', ?_, ?_⟩
  · rw [hnews', hnews, List.append_assoc]
  · rw [lastRegistry_append, hlast, hlast']

theorem publishServiceRegistry (hpublications : pm'.publications = pm.publications) :
    Publishes pm pm'.publishServiceRegistry := by
  refine ⟨[_], congrArg (· ++ _) hpublications, rfl⟩

theorem addToServiceRegistry (k : ReferenceCounter) (d : ServiceDescription) (pm : PortManager) :
    Publishes pm (addToServiceRegistry cfg k d pm) := by
  apply publishServiceRegistry
  split
  · rfl
  · rfl

theorem discoverPublisher (i : Nat) (pm : PortManager) :
    Publishes pm (doDiscoveryForPublisherPort cfg i pm) := by
  unfold doDiscoveryForPublisherPort
  split
  · exact refl pm
  · simp only
    split
    · exact of_eq rfl rfl
    · next m _ =>
      have hforward := fun pm => of_same (SameOffers.forwardPublisherMessage cfg m i pm)
      split
      · refine trans ?_ (hforward _)
        exact (of_eq rfl rfl).trans (addToServiceRegistry .publisherCount m.serviceDescription _)
      · refine trans ?_ (hforward _)
        exact publishServiceRegistry rfl
      · exact of_eq rfl rfl

theorem destroyPublisher (i : Nat) (pm : PortManager) :
    Publishes pm (destroyPublisherPort cfg i pm) := by
  unfold destroyPublisherPort
  split
  · exact refl pm
  · simp only
    split
    · exact of_eq rfl rfl
    · next m _ =>
      have hforward := fun pm => of_same (SameOffers.forwardPublisherMessage cfg m i pm)
      refine trans (trans ?_ (hforward _)) (of_eq rfl rfl)
      exact publishServiceRegistry rfl

theorem discoverServer (j : Nat) (pm : PortManager) :
    Publishes pm (doDiscoveryForServerPort cfg j pm) := by
  unfold doDiscoveryForServerPort
  split
  · exact refl pm
  · simp only
    split
    · exact of_eq rfl rfl
    · next m _ =>
      have hforward := fun pm => of_same (SameOffers.forwardServerMessage cfg m j pm)
      split
      · refine trans ?_ (hforward _)
        exact (of_eq rfl rfl).trans (addToServiceRegistry .serverCount m.serviceDescription _)
      · refine trans ?_ (hforward _)
        exact publishServiceRegistry rfl
      · exact of_eq rfl rfl

theorem destroyServer (j : Nat) (pm : PortManager) :
    Publishes pm (destroyServerPort cfg j pm) := by
  unfold destroyServerPort
  split
  · exact refl pm
  · simp only
    split
    · exact of_eq rfl rfl
    · next m _ =>
      have hforward := fun pm => of_same (SameOffers.forwardServerMessage cfg m j pm)
      refine trans (trans ?_ (hforward _)) (of_eq rfl rfl)
      exact publishServiceRegistry rfl

theorem keeps (cfg : Config) (start : PortManager) : Keeps cfg (Publishes start) where
  core hcore h := h.trans (of_core hcore)
  discoverPublisher i _ h := h.trans (discoverPublisher i _)
  destroyPublisher i _ h := h.trans (destroyPublisher i _)
  discoverSubscriber j _ h := h.trans (of_same (SameOffers.discoverSubscriber j _))
  destroySubscriber j _ h := h.trans (of_same (SameOffers.destroySubscriber j _))
  discoverServer j _ h := h.trans (discoverServer j _)
  destroyServer j _ h := h.trans (destroyServer j _)
  discoverClient i _ h := h.trans (of_same (SameOffers.discoverClient i _))
  destroyClient i _ h := h.trans (of_same (SameOffers.destroyClient i _))
  flagPublisher _ _ _ _ h := h.trans (of_eq rfl rfl)
  flagServer _ _ _ _ h := h.trans (of_eq rfl rfl)
  flagSubscriber _ _ _ _ h := h.trans (of_eq rfl rfl)
  flagClient _ _ _ _ h := h.trans (of_eq rfl rfl)

theorem apply (cfg : Config) (op : Op) (pm : PortManager) : Publishes pm (apply cfg pm op) := by
  apply (keeps cfg pm).apply (refl pm) op
  · rintro service options name -
    exact (keeps cfg pm).acquirePublisher (refl pm) fun h _ _ _ => h.trans (of_eq rfl rfl)
  · rintro service options name -
    unfold acquireSubscriberPortData
    split
    · exact (keeps cfg pm).discoverSubscriber _ (of_eq rfl rfl)
    · exact of_eq rfl rfl
  · rintro service options name -
    exact (keeps cfg pm).acquireClient (refl pm) (of_eq rfl rfl)
  · rintro service options name -
    exact (keeps cfg pm).acquireServer (refl pm) fun h _ _ => h.trans (of_eq rfl rfl)

theorem create (hcreate : create cfg = some pm) : Publishes {} pm :=
  (keeps cfg {}).create (refl {}) (fun _ _ h _ => h.trans (of_eq rfl rfl)) hcreate

end Publishes

theorem RegistryInv.create (hcreate : create cfg = some pm) : RegistryInv cfg pm :=
  (RegistryInv.keeps cfg).create RegistryInv.empty
    (fun service options h hspace => h.insertPublisher hspace service options ipcChannelRoudiName)
    hcreate

end PortManager

end Iceoryx.Roudi
