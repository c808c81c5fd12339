import Iceoryx.Popo.PortLaws
import Iceoryx.Roudi.Operations

namespace Iceoryx.Roudi

open Capro Popo

abbrev Offer := Bool × ServiceDescription

def offeredAt (x : ServiceRegistry.Key) (o : Offer) : Bool := o.1 && decide (o.2.key = x)

abbrev Offers := ReferenceCounter → FixedPositionContainer Offer

structure Mirror (limit : ReferenceCounter → Nat) (r : ServiceRegistry) (O : Offers) : Prop where
  mirrors : r.Mirrors fun k x => (O k).count (offeredAt x)
  total : r.total = (O .publisherCount).count (·.1) + (O .serverCount).count (·.1)
  fits : ∀ k, (O k).data.length ≤ limit k

namespace Mirror

variable {limit : ReferenceCounter → Nat} {r : ServiceRegistry} {O O' : Offers}
  {k : ReferenceCounter} {i : Nat} {d : ServiceDescription}

theorem fits_update {c : FixedPositionContainer Offer} (h : Mirror limit r O)
    (hc : c.data.length ≤ limit k) (l : ReferenceCounter) :
    (Function.update O k c l).data.length ≤ limit l := by
  by_cases hl : l = k
  · subst hl
    simpa using hc
  · simpa [hl] using h.fits l

theorem sum_update {c : FixedPositionContainer Offer} {m n : Nat}
    (h : c.count (·.1) + m = (O k).count (·.1) + n) :
    (Function.update O k c .publisherCount).count (·.1) +
        (Function.update O k c .serverCount).count (·.1) + m =
      (O .publisherCount).count (·.1) + (O .serverCount).count (·.1) + n := by
  cases k <;> simp at * <;> omega

theorem room (h : Mirror limit r O) (hget : (O k).get i = some (false, d)) :
    r.total < limit .publisherCount + limit .serverCount := by
  have hlt : (O k).count (·.1) < limit k := by
    have hset := (O k).count_modify (·.1) (fun _ => (true, d)) hget
    have hle := ((O k).modify i fun _ => (true, d)).count_le_length (·.1)
    have hfits := h.fits k
    simp only [FixedPositionContainer.length_modify, Bool.toNat_false, Bool.toNat_true] at *
    omega
  have hpub := (O .publisherCount).count_le_length (·.1)
  have hser := (O .serverCount).count_le_length (·.1)
  have hfpub := h.fits .publisherCount
  have hfser := h.fits .serverCount
  rw [h.total]
  cases k <;> omega

theorem offer (h : Mirror limit r O) (hget : (O k).get i = some (false, d)) :
    ∃ r', r.add (limit .publisherCount + limit .serverCount) d k = some r' ∧
      Mirror limit r' (Function.update O k ((O k).modify i fun _ => (true, d))) := by
  have hcount := fun x => (O k).count_modify (offeredAt x) (fun _ => (true, d)) hget
  obtain ⟨r', hadd, hmirrors, htotal⟩ := h.mirrors.add (k := k) (d := d) (h.room hget)
    (fun _ _ => rfl)
  refine ⟨r', hadd, ?_, ?_, ?_⟩
  · convert hmirrors using 3 with l x
    by_cases hl : l = k
    · subst hl
      have hx := hcount x
      by_cases hdx : d.key = x
      · simp [offeredAt, hdx] at hx
        simp [hdx, hx]
      · have hxd : x ≠ d.key := Ne.symm hdx
        simp [offeredAt, hdx] at hx
        simp [hxd, hx]
    · simp [hl]
  · have hsum := sum_update (O := O) (k := k) (m := 0) (n := 1)
      (by simpa using (O k).count_modify (·.1) (fun _ => (true, d)) hget)
    rw [htotal, h.total]
    exact hsum.symm
  · exact h.fits_update (by simpa using h.fits k)

theorem stop (h : Mirror limit r O) (hget : (O k).get i = some (true, d)) :
    Mirror limit (r.remove d k) (Function.update O k ((O k).modify i fun _ => (false, d))) := by
  have hcount := fun x => (O k).count_modify (offeredAt x) (fun _ => (false, d)) hget
  have hpos : 0 < (O k).count (offeredAt d.key) :=
    ((O k).count_pos_iff _).mpr ⟨i, _, hget, by simp [offeredAt]⟩
  obtain ⟨hmirrors, htotal⟩ := h.mirrors.remove (k := k) (d := d) hpos (fun _ _ => rfl)
  refine ⟨?_, ?_, ?_⟩
  · convert hmirrors using 3 with l x
    by_cases hl : l = k
    · subst hl
      have hx := hcount x
      by_cases hdx : d.key = x
      · simp [offeredAt, hdx] at hx
        simp [hdx, ← hx]
      · have hxd : x ≠ d.key := Ne.symm hdx
        simp [offeredAt, hdx] at hx
        simp [hxd, hx]
    · simp [hl]
  · have hsum := sum_update (O := O) (k := k) (m := 1) (n := 0)
      (by simpa using (O k).count_modify (·.1) (fun _ => (false, d)) hget)
    have := h.total
    omega
  · exact h.fits_update (by simpa using h.fits k)

theorem update {c : FixedPositionContainer Offer} (h : Mirror limit r O)
    (hcount : ∀ P : Offer → Bool, (∀ o, o.1 = false → P o = false) → c.count P = (O k).count P)
    (hfits : c.data.length ≤ limit k) : Mirror limit r (Function.update O k c) where
  mirrors := by
    convert h.mirrors using 3 with l x
    by_cases hl : l = k
    · subst hl
      simpa using hcount (offeredAt x) fun o ho => by simp [offeredAt, ho]
    · simp [hl]
  total := by
    have hsum := sum_update (O := O) (k := k) (c := c) (m := 0) (n := 0)
      (by simpa using hcount (·.1) fun o ho => ho)
    have := h.total
    omega
  fits := h.fits_update hfits

theorem erase (h : Mirror limit r O) (hget : (O k).get i = some (false, d)) :
    Mirror limit r (Function.update O k ((O k).erase i)) := by
  apply h.update
  · intro P hP
    have := (O k).count_erase P hget
    simpa [hP] using this
  · simpa using h.fits k

theorem insert (h : Mirror limit r O) (d : ServiceDescription)
    (hfree : (O k).hasFreeSpace (limit k) = true) :
    Mirror limit r (Function.update O k ((O k).insert (false, d)).1) := by
  apply h.update
  · intro P hP
    simp [FixedPositionContainer.count_insert, hP]
  · exact (O k).length_insert _ (h.fits k) hfree

end Mirror

namespace PortManager

variable {cfg : Config} {pm pm' pm'' : PortManager} {i j : Nat} {p p' : PublisherPortData}
  {s s' : ServerPortData} {m : CaproMessage}

def publisherOffer (p : PublisherPortData) : Offer := (p.offered, p.serviceDescription)

def serverOffer (s : ServerPortData) : Offer := (s.offered, s.serviceDescription)

def offersOf (pm : PortManager) : Offers
  | .publisherCount => pm.publishers.map publisherOffer
  | .serverCount => pm.servers.map serverOffer

theorem offersOf_eq (hp : pm'.publishers.map publisherOffer = pm.publishers.map publisherOffer)
    (hs : pm'.servers.map serverOffer = pm.servers.map serverOffer) :
    offersOf pm' = offersOf pm := by
  funext k
  cases k
  · exact hp
  · exact hs

theorem offersOf_setPublisher (i : Nat) (p' : PublisherPortData) (pm : PortManager) :
    offersOf (pm.setPublisher i p') = Function.update (offersOf pm) .publisherCount
      ((offersOf pm .publisherCount).modify i fun _ => publisherOffer p') := by
  funext k
  cases k
  · exact pm.publishers.map_modify publisherOffer i p'
  · rfl

theorem offersOf_setServer (j : Nat) (s' : ServerPortData) (pm : PortManager) :
    offersOf (pm.setServer j s') = Function.update (offersOf pm) .serverCount
      ((offersOf pm .serverCount).modify j fun _ => serverOffer s') := by
  funext k
  cases k
  · rfl
  · exact pm.servers.map_modify serverOffer j s'

theorem offersOf_erasePublisher (i : Nat) (pm : PortManager) :
    offersOf { pm with publishers := pm.publishers.erase i } =
      Function.update (offersOf pm) .publisherCount ((offersOf pm .publisherCount).erase i) := by
  funext k
  cases k
  · exact pm.publishers.map_erase publisherOffer i
  · rfl

theorem offersOf_eraseServer (j : Nat) (pm : PortManager) :
    offersOf { pm with servers := pm.servers.erase j } =
      Function.update (offersOf pm) .serverCount ((offersOf pm .serverCount).erase j) := by
  funext k
  cases k
  · rfl
  · exact pm.servers.map_erase serverOffer j

theorem offersOf_insertPublisher (p : PublisherPortData) (pm : PortManager) :
    offersOf { pm with publishers := (pm.publishers.insert p).1 } =
      Function.update (offersOf pm) .publisherCount
        ((offersOf pm .publisherCount).insert (publisherOffer p)).1 := by
  funext k
  cases k
  · exact pm.publishers.map_insert publisherOffer p
  · rfl

theorem offersOf_insertServer (s : ServerPortData) (pm : PortManager) :
    offersOf { pm with servers := (pm.servers.insert s).1 } =
      Function.update (offersOf pm) .serverCount
        ((offersOf pm .serverCount).insert (serverOffer s)).1 := by
  funext k
  cases k
  · rfl
  · exact pm.servers.map_insert serverOffer s

theorem get_offersOf_publisher (hp : pm.publishers.get i = some p) :
    (offersOf pm .publisherCount).get i = some (publisherOffer p) := by
  simp [offersOf, hp]

theorem get_offersOf_server (hs : pm.servers.get j = some s) :
    (offersOf pm .serverCount).get j = some (serverOffer s) := by
  simp [offersOf, hs]

structure SameOffers (pm pm' : PortManager) : Prop where
  offers : offersOf pm' = offersOf pm
  serviceRegistry : pm'.serviceRegistry = pm.serviceRegistry
  publications : pm'.publications = pm.publications

namespace SameOffers

theorem refl (pm : PortManager) : SameOffers pm pm := ⟨rfl, rfl, rfl⟩

theorem trans (h : SameOffers pm pm') (h' : SameOffers pm' pm'') : SameOffers pm pm'' :=
  ⟨h'.offers.trans h.offers, h'.serviceRegistry.trans h.serviceRegistry,
    h'.publications.trans h.publications⟩

theorem of_core (h : SameCore pm pm') : SameOffers pm pm' := by
  refine ⟨offersOf_eq ?_ ?_, h.serviceRegistry, h.publications⟩
  · rw [h.publishers]
  · rw [h.servers]

theorem of_eq (hp : pm'.publishers = pm.publishers) (hs : pm'.servers = pm.servers)
    (hr : pm'.serviceRegistry = pm.serviceRegistry)
    (hpublications : pm'.publications = pm.publications) : SameOffers pm pm' := by
  refine ⟨offersOf_eq ?_ ?_, hr, hpublications⟩
  · rw [hp]
  · rw [hs]

theorem setPublisher (hp : pm.publishers.get i = some p)
    (h : publisherOffer p' = publisherOffer p) : SameOffers pm (pm.setPublisher i p') :=
  ⟨offersOf_eq (pm.publishers.map_modify_of_eq _ hp h) rfl, rfl, rfl⟩

theorem setServer (hs : pm.servers.get j = some s) (h : serverOffer s' = serverOffer s) :
    SameOffers pm (pm.setServer j s') :=
  ⟨offersOf_eq rfl (pm.servers.map_modify_of_eq _ hs h), rfl, rfl⟩

theorem publisherAnswers (hp : pm.publishers.get i = some p) (n : Nat) (m : CaproMessage) :
    SameOffers pm (pm.setPublisher i (p.dispatchCaProMessageAndGetPossibleResponse n m).port) := by
  apply setPublisher hp
  obtain ⟨qs, hport⟩ := p.dispatch_port n m
  simp [publisherOffer, hport]

theorem serverAnswers (hs : pm.servers.get j = some s) (n : Nat)
    (hm : m.type = .connect ∨ m.type = .disconnect) :
    SameOffers pm (pm.setServer j (s.dispatchCaProMessageAndGetPossibleResponse n j m).port) := by
  apply setServer hs
  obtain ⟨qs, hport⟩ := s.dispatch_port n j hm
  simp [serverOffer, hport]

theorem sendToPublisherPort (m : CaproMessage) (j : Nat) (acc : PortManager × Bool) (i : Nat) :
    SameOffers acc.1 (sendToPublisherPort cfg m j acc i).1 := by
  obtain ⟨pm, b⟩ := acc
  unfold PortManager.sendToPublisherPort
  simp only
  split
  · next p s hp _ =>
    split
    · have hset := publisherAnswers hp cfg.maxSubscribersPerPublisher m
      split
      · exact hset.trans (of_eq rfl rfl rfl rfl)
      · exact hset.trans (of_eq rfl rfl rfl rfl)
    · exact refl pm
  · exact refl pm

theorem sendToAllMatchingPublisherPorts (cfg : Config) (m : CaproMessage) (j : Nat)
    (pm : PortManager) : SameOffers pm (sendToAllMatchingPublisherPorts cfg m j pm).1 := by
  unfold PortManager.sendToAllMatchingPublisherPorts
  exact Lib.foldl_invariant (I := fun acc : PortManager × Bool => SameOffers pm acc.1) _ _
    (fun acc i _ h => h.trans (sendToPublisherPort m j acc i)) (refl pm)

theorem sendToSubscriberPort (m : CaproMessage) (i : Nat) (pm : PortManager) (j : Nat) :
    SameOffers pm (sendToSubscriberPort cfg m i pm j) := by
  unfold PortManager.sendToSubscriberPort
  split
  · next p s hp _ =>
    split
    · simp only
      split
      · exact of_eq rfl rfl rfl rfl
      · next response _ =>
        have hset := publisherAnswers hp cfg.maxSubscribersPerPublisher response
        split
        · exact hset.trans (of_eq rfl rfl rfl rfl)
        · exact hset.trans (of_eq rfl rfl rfl rfl)
    · exact refl pm
  · exact refl pm

theorem forwardPublisherMessage (cfg : Config) (m : CaproMessage) (i : Nat) (pm : PortManager) :
    SameOffers pm (forwardPublisherMessage cfg m i pm) := by
  refine trans ?_ (of_core (SameCore.sendToAllMatchingInterfacePorts cfg m _))
  unfold sendToAllMatchingSubscriberPorts
  split
  · exact refl pm
  · exact Lib.foldl_invariant (I := SameOffers pm) _ _
      (fun pm' j _ h => h.trans (sendToSubscriberPort m i pm' j)) (of_eq rfl rfl rfl rfl)

theorem sendToServerPort (hm : m.type = .connect ∨ m.type = .disconnect) (i : Nat)
    (acc : PortManager × Bool) (j : Nat) :
    SameOffers acc.1 (sendToServerPort cfg m i acc j).1 := by
  obtain ⟨pm, b⟩ := acc
  unfold PortManager.sendToServerPort
  simp only
  split
  · next s c hs _ =>
    split
    · have hset := serverAnswers hs cfg.maxClientsPerServer hm
      split
      · exact hset.trans (of_eq rfl rfl rfl rfl)
      · exact hset.trans (of_eq rfl rfl rfl rfl)
    · exact refl pm
  · exact refl pm

theorem sendToAllMatchingServerPorts (cfg : Config) (hm : m.type = .connect ∨ m.type = .disconnect)
    (i : Nat) (pm : PortManager) : SameOffers pm (sendToAllMatchingServerPorts cfg m i pm).1 := by
  unfold PortManager.sendToAllMatchingServerPorts
  exact Lib.foldl_invariant (I := fun acc : PortManager × Bool => SameOffers pm acc.1) _ _
    (fun acc j _ h => h.trans (sendToServerPort hm i acc j)) (refl pm)

theorem sendToClientPort (m : CaproMessage) (j : Nat) (pm : PortManager) (i : Nat) :
    SameOffers pm (sendToClientPort cfg m j pm i) := by
  unfold PortManager.sendToClientPort
  split
  · next s c hs _ =>
    split
    · simp only
      split
      · exact of_eq rfl rfl rfl rfl
      · next response hresponse =>
        have hset := serverAnswers hs cfg.maxClientsPerServer
          (ClientPortData.dispatch_response hresponse)
        split
        · exact hset.trans (of_eq rfl rfl rfl rfl)
        · exact hset.trans (of_eq rfl rfl rfl rfl)
    · exact refl pm
  · exact refl pm

theorem forwardServerMessage (cfg : Config) (m : CaproMessage) (j : Nat) (pm : PortManager) :
    SameOffers pm (forwardServerMessage cfg m j pm) := by
  refine trans ?_ (of_core (SameCore.sendToAllMatchingInterfacePorts cfg m _))
  unfold sendToAllMatchingClientPorts
  split
  · exact refl pm
  · exact Lib.foldl_invariant (I := SameOffers pm) _ _
      (fun pm' i _ h => h.trans (sendToClientPort m j pm' i)) (of_eq rfl rfl rfl rfl)

theorem discoverSubscriber (j : Nat) (pm : PortManager) :
    SameOffers pm (doDiscoveryForSubscriberPort cfg j pm) := by
  unfold doDiscoveryForSubscriberPort
  split
  · exact refl pm
  · simp only
    split
    · exact of_eq rfl rfl rfl rfl
    · next m _ =>
      split
      · have hsend := fun pm => sendToAllMatchingPublisherPorts cfg m j pm
        split
        · exact ⟨(hsend _).offers, (hsend _).serviceRegistry, (hsend _).publications⟩
        · unfold nackSubscriber
          split
          · exact ⟨(hsend _).offers, (hsend _).serviceRegistry, (hsend _).publications⟩
          · exact ⟨(hsend _).offers, (hsend _).serviceRegistry, (hsend _).publications⟩
      · exact of_eq rfl rfl rfl rfl

theorem destroySubscriber (j : Nat) (pm : PortManager) :
    SameOffers pm (destroySubscriberPort cfg j pm) := by
  unfold destroySubscriberPort
  split
  · exact refl pm
  · simp only
    split
    · exact of_eq rfl rfl rfl rfl
    · next m _ =>
      have hsend := fun pm => sendToAllMatchingPublisherPorts cfg m j pm
      exact ⟨(hsend _).offers, (hsend _).serviceRegistry, (hsend _).publications⟩

theorem discoverClient (i : Nat) (pm : PortManager) :
    SameOffers pm (doDiscoveryForClientPort cfg i pm) := by
  unfold doDiscoveryForClientPort
  split
  · exact refl pm
  · simp only
    split
    · exact of_eq rfl rfl rfl rfl
    · next m hm =>
      split
      · have hsend := fun pm => sendToAllMatchingServerPorts cfg
          (ClientPortData.tryGet_response hm) i pm
        split
        · exact ⟨(hsend _).offers, (hsend _).serviceRegistry, (hsend _).publications⟩
        · unfold nackClient
          split
          · exact ⟨(hsend _).offers, (hsend _).serviceRegistry, (hsend _).publications⟩
          · exact ⟨(hsend _).offers, (hsend _).serviceRegistry, (hsend _).publications⟩
      · exact of_eq rfl rfl rfl rfl

theorem destroyClient (i : Nat) (pm : PortManager) :
    SameOffers pm (destroyClientPort cfg i pm) := by
  unfold destroyClientPort
  split
  · exact refl pm
  · simp only
    split
    · exact of_eq rfl rfl rfl rfl
    · next m hm =>
      have hsend := fun pm => sendToAllMatchingServerPorts cfg
        (ClientPortData.tryGet_response hm) i pm
      exact ⟨(hsend _).offers, (hsend _).serviceRegistry, (hsend _).publications⟩

end SameOffers

def portLimit (cfg : Config) : ReferenceCounter → Nat
  | .publisherCount => cfg.maxPublishers
  | .serverCount => cfg.maxServers

def RegistryInv (cfg : Config) (pm : PortManager) : Prop :=
  Mirror (portLimit cfg) pm.serviceRegistry (offersOf pm)

namespace RegistryInv

theorem of_same (h : RegistryInv cfg pm) (hsame : SameOffers pm pm') : RegistryInv cfg pm' := by
  unfold RegistryInv
  rw [hsame.offers, hsame.serviceRegistry]
  exact h

theorem addToServiceRegistry {O : Offers} {k : ReferenceCounter} {d : ServiceDescription}
    (h : Mirror (portLimit cfg) pm.serviceRegistry O) (hget : (O k).get i = some (false, d))
    (hoffers : offersOf pm = Function.update O k ((O k).modify i fun _ => (true, d))) :
    RegistryInv cfg (addToServiceRegistry cfg k d pm) := by
  obtain ⟨r', hadd, hmirror⟩ := h.offer hget
  unfold PortManager.addToServiceRegistry
  have hadd' : pm.serviceRegistry.add cfg.serviceRegistryCapacity d k = some r' := hadd
  rw [hadd']
  rw [← hoffers] at hmirror
  exact hmirror

theorem discoverPublisher (h : RegistryInv cfg pm) (i : Nat) :
    RegistryInv cfg (doDiscoveryForPublisherPort cfg i pm) := by
  unfold doDiscoveryForPublisherPort
  split
  · exact h
  · next p hp =>
    have hget := get_offersOf_publisher hp
    obtain htry | ⟨hoff, m, htry, hm, hd⟩ | ⟨hoff, m, htry, hm, hd⟩ := p.tryGet_cases
    · rw [htry]
      exact h.of_same ((SameOffers.setPublisher hp rfl).trans (SameOffers.of_eq rfl rfl rfl rfl))
    · rw [htry]
      simp only [hm, hd]
      simp only [publisherOffer, hoff] at hget
      refine of_same ?_ (SameOffers.forwardPublisherMessage cfg m i _)
      exact addToServiceRegistry h hget (offersOf_setPublisher i { p with offered := true } pm)
    · rw [htry]
      simp only [hm, hd]
      simp only [publisherOffer, hoff] at hget
      refine of_same ?_ (SameOffers.forwardPublisherMessage cfg m i _)
      have hstop := Mirror.stop h hget
      have hset := offersOf_setPublisher i { p with offered := false, queues := [] } pm
      simp only [publisherOffer] at hset
      rw [← hset] at hstop
      exact hstop

theorem discoverServer (h : RegistryInv cfg pm) (j : Nat) :
    RegistryInv cfg (doDiscoveryForServerPort cfg j pm) := by
  unfold doDiscoveryForServerPort
  split
  · exact h
  · next s hs =>
    have hget := get_offersOf_server hs
    obtain htry | ⟨hoff, m, htry, hm, hd⟩ | ⟨hoff, m, htry, hm, hd⟩ :=
      s.tryGet_cases cfg.maxClientsPerServer j
    · rw [htry]
      exact h.of_same ((SameOffers.setServer hs rfl).trans (SameOffers.of_eq rfl rfl rfl rfl))
    · rw [htry]
      simp only [hm, hd]
      simp only [serverOffer, hoff] at hget
      refine of_same ?_ (SameOffers.forwardServerMessage cfg m j _)
      exact addToServiceRegistry h hget (offersOf_setServer j { s with offered := true } pm)
    · rw [htry]
      simp only [hm, hd]
      simp only [serverOffer, hoff] at hget
      refine of_same ?_ (SameOffers.forwardServerMessage cfg m j _)
      have hstop := Mirror.stop h hget
      have hset := offersOf_setServer j { s with offered := false, queues := [] } pm
      simp only [serverOffer] at hset
      rw [← hset] at hstop
      exact hstop

theorem erasePublisher {d : ServiceDescription} (h : RegistryInv cfg pm)
    (hget : (offersOf pm .publisherCount).get i = some (false, d)) :
    RegistryInv cfg { pm with publishers := pm.publishers.erase i } := by
  have herase := Mirror.erase h hget
  rw [← offersOf_erasePublisher] at herase
  exact herase

theorem eraseServer {d : ServiceDescription} (h : RegistryInv cfg pm)
    (hget : (offersOf pm .serverCount).get j = some (false, d)) :
    RegistryInv cfg { pm with servers := pm.servers.erase j } := by
  have herase := Mirror.erase h hget
  rw [← offersOf_eraseServer] at herase
  exact herase

theorem destroyPublisher (h : RegistryInv cfg pm) (i : Nat) :
    RegistryInv cfg (destroyPublisherPort cfg i pm) := by
  unfold destroyPublisherPort
  split
  · exact h
  · next p hp =>
    have hget := get_offersOf_publisher hp
    obtain ⟨hoff, htry⟩ | ⟨hoff, m, htry, hm, hd⟩ := p.tryGet_stopOffer
    · rw [htry]
      have hset : SameOffers pm (pm.setPublisher i p.stopOffer) := SameOffers.setPublisher hp rfl
      have hsame : SameOffers pm ((pm.setPublisher i p.stopOffer).report []) :=
        hset.trans (SameOffers.of_eq rfl rfl rfl rfl)
      refine erasePublisher (d := p.serviceDescription) (h.of_same hsame) ?_
      rw [hsame.offers, hget]
      simp [publisherOffer, hoff]
    · rw [htry]
      simp only [hd]
      simp only [publisherOffer, hoff] at hget
      have hstop := Mirror.stop h hget
      have hset := offersOf_setPublisher i { p.stopOffer with offered := false, queues := [] } pm
      have hoffers : (Function.update (offersOf pm) .publisherCount
          ((offersOf pm .publisherCount).modify i fun _ =>
            (false, p.serviceDescription)) .publisherCount).get i =
          some (false, p.serviceDescription) := by
        simp [hget]
      have hfwd := fun pm => SameOffers.forwardPublisherMessage cfg m i pm
      refine erasePublisher (d := p.serviceDescription) (of_same ?_ (hfwd _)) ?_
      · change Mirror _ _ (offersOf (pm.setPublisher i _))
        rw [hset]
        exact hstop
      · rw [(hfwd _).offers]
        change (offersOf (pm.setPublisher i _) .publisherCount).get i = _
        rw [hset]
        exact hoffers

theorem destroyServer (h : RegistryInv cfg pm) (j : Nat) :
    RegistryInv cfg (destroyServerPort cfg j pm) := by
  unfold destroyServerPort
  split
  · exact h
  · next s hs =>
    have hget := get_offersOf_server hs
    obtain ⟨hoff, htry⟩ | ⟨hoff, m, htry, hm, -, hd⟩ :=
      s.tryGet_stopOffer cfg.maxClientsPerServer j
    · rw [htry]
      have hset : SameOffers pm (pm.setServer j s.stopOffer) := SameOffers.setServer hs rfl
      have hsame : SameOffers pm ((pm.setServer j s.stopOffer).report []) :=
        hset.trans (SameOffers.of_eq rfl rfl rfl rfl)
      refine eraseServer (d := s.serviceDescription) (h.of_same hsame) ?_
      rw [hsame.offers, hget]
      simp [serverOffer, hoff]
    · rw [htry]
      simp only [hd]
      simp only [serverOffer, hoff] at hget
      have hstop := Mirror.stop h hget
      have hset := offersOf_setServer j { s.stopOffer with offered := false, queues := [] } pm
      have hoffers : (Function.update (offersOf pm) .serverCount
          ((offersOf pm .serverCount).modify j fun _ =>
            (false, s.serviceDescription)) .serverCount).get j =
          some (false, s.serviceDescription) := by
        simp [hget]
      have hfwd := fun pm => SameOffers.forwardServerMessage cfg m j pm
      refine eraseServer (d := s.serviceDescription) (of_same ?_ (hfwd _)) ?_
      · change Mirror _ _ (offersOf (pm.setServer j _))
        rw [hset]
        exact hstop
      · rw [(hfwd _).offers]
        change (offersOf (pm.setServer j _) .serverCount).get j = _
        rw [hset]
        exact hoffers

theorem flagPublisher {f : PublisherPortData → PublisherPortData} (i : Nat)
    (hf : ∀ p, ∃ a b, f p = { p with offeringRequested := a, toBeDestroyed := b })
    (h : RegistryInv cfg pm) :
    RegistryInv cfg { pm with publishers := pm.publishers.modify i f } := by
  cases hp : pm.publishers.get i with
  | none =>
    rw [pm.publishers.modify_none f hp]
    exact h
  | some p =>
    obtain ⟨a, b, hfp⟩ := hf p
    refine h.of_same ⟨offersOf_eq (pm.publishers.map_modify_of_eq f hp ?_) rfl, rfl, rfl⟩
    simp [publisherOffer, hfp]

theorem flagServer {f : ServerPortData → ServerPortData} (j : Nat)
    (hf : ∀ s, ∃ a b, f s = { s with offeringRequested := a, toBeDestroyed := b })
    (h : RegistryInv cfg pm) : RegistryInv cfg { pm with servers := pm.servers.modify j f } := by
  cases hs : pm.servers.get j with
  | none =>
    rw [pm.servers.modify_none f hs]
    exact h
  | some s =>
    obtain ⟨a, b, hfs⟩ := hf s
    refine h.of_same ⟨offersOf_eq rfl (pm.servers.map_modify_of_eq f hs ?_), rfl, rfl⟩
    simp [serverOffer, hfs]

theorem keeps (cfg : Config) : Keeps cfg (RegistryInv cfg) where
  core hcore h := h.of_same (SameOffers.of_core hcore)
  discoverPublisher i _ h := h.discoverPublisher i
  destroyPublisher i _ h := h.destroyPublisher i
  discoverSubscriber j _ h := h.of_same (SameOffers.discoverSubscriber j _)
  destroySubscriber j _ h := h.of_same (SameOffers.destroySubscriber j _)
  discoverServer j _ h := h.discoverServer j
  destroyServer j _ h := h.destroyServer j
  discoverClient i _ h := h.of_same (SameOffers.discoverClient i _)
  destroyClient i _ h := h.of_same (SameOffers.destroyClient i _)
  flagPublisher i _ _ hf h := h.flagPublisher i hf
  flagServer j _ _ hf h := h.flagServer j hf
  flagSubscriber _ _ _ _ h := h.of_same (SameOffers.of_eq rfl rfl rfl rfl)
  flagClient _ _ _ _ h := h.of_same (SameOffers.of_eq rfl rfl rfl rfl)

theorem empty : RegistryInv cfg {} where
  mirrors := by
    convert ServiceRegistry.mirrors_empty using 3 with k x
    cases k <;> rfl
  total := rfl
  fits := by
    intro k
    cases k <;> simp [offersOf]

theorem insertPublisher (h : RegistryInv cfg pm)
    (hspace : pm.publishers.hasFreeSpace cfg.maxPublishers = true) (service : ServiceDescription)
    (options : PublisherOptions) (name : String) :
    RegistryInv cfg { pm with publishers := (pm.publishers.insert
      (PublisherPortData.create cfg.maxPublisherHistory service name options)).1 } := by
  have hfree : (offersOf pm .publisherCount).hasFreeSpace (portLimit cfg .publisherCount) =
      true := by
    rw [offersOf, FixedPositionContainer.hasFreeSpace_map]
    exact hspace
  have hinsert := Mirror.insert h service hfree
  have hoffers := offersOf_insertPublisher
    (PublisherPortData.create cfg.maxPublisherHistory service name options) pm
  rw [show
    publisherOffer (PublisherPortData.create cfg.maxPublisherHistory service name options) =
    (false, service) from rfl] at hoffers
  rw [← hoffers] at hinsert
  exact hinsert

theorem apply (h : RegistryInv cfg pm) (op : Op) : RegistryInv cfg (apply cfg pm op) := by
  apply (keeps cfg).apply h op
  · rintro service options name -
    apply (keeps cfg).acquirePublisher h
    intro pm hI hspace _ _
    exact hI.insertPublisher hspace service options name
  · rintro service options name -
    unfold acquireSubscriberPortData
    split
    · exact (keeps cfg).discoverSubscriber _ (h.of_same (SameOffers.of_eq rfl rfl rfl rfl))
    · exact (keeps cfg).core (SameCore.report (by simp [Benign]) _) h
  · rintro service options name -
    exact (keeps cfg).acquireClient h (h.of_same (SameOffers.of_eq rfl rfl rfl rfl))
  · rintro service options name -
    apply (keeps cfg).acquireServer h
    intro pm hI hspace _
    have hfree : (offersOf pm .serverCount).hasFreeSpace (portLimit cfg .serverCount) = true := by
      rw [offersOf, FixedPositionContainer.hasFreeSpace_map]
      exact hspace
    have hinsert := Mirror.insert hI service hfree
    have hoffers := offersOf_insertServer (ServerPortData.create service name options) pm
    rw [show serverOffer (ServerPortData.create service name options) = (false, service)
      from rfl] at hoffers
    rw [← hoffers] at hinsert
    exact hinsert

theorem run (cfg : Config) (ops : List Op) : RegistryInv cfg (run cfg ops) :=
  run_invariant ops empty fun _ op _ h => h.apply op

end RegistryInv

/-- After every operation of every run and for every description: the registry has an entry
if and only if a live port offers it, at most one entry, and its counters are the numbers of
the live publishers and servers that offer it. -/
theorem registry_mirrors_offered_ports (cfg : Config) (ops : List Op) (d : ServiceDescription) :
    ((run cfg ops).serviceRegistry.entriesFor d ≠ [] ↔
      (∃ i p, (run cfg ops).publishers.get i = some p ∧ p.offered = true ∧
        p.serviceDescription.Same d) ∨
      (∃ j s, (run cfg ops).servers.get j = some s ∧ s.offered = true ∧
        s.serviceDescription.Same d)) ∧
    ((run cfg ops).serviceRegistry.entriesFor d).length ≤ 1 ∧
    ∀ e ∈ (run cfg ops).serviceRegistry.entriesFor d,
      e.publisherCount = (run cfg ops).publishers.count
        (fun p => p.offered && decide (p.serviceDescription.Same d)) ∧
      e.serverCount = (run cfg ops).servers.count
        (fun s => s.offered && decide (s.serviceDescription.Same d)) := by
  have h : Mirror (portLimit cfg) _ _ := RegistryInv.run cfg ops
  have hpubs : (offersOf (run cfg ops) .publisherCount).count (offeredAt d.key) =
      (run cfg ops).publishers.count
        (fun p => p.offered && decide (p.serviceDescription.Same d)) :=
    (run cfg ops).publishers.count_map publisherOffer (offeredAt d.key)
  have hsers : (offersOf (run cfg ops) .serverCount).count (offeredAt d.key) =
      (run cfg ops).servers.count
        (fun s => s.offered && decide (s.serviceDescription.Same d)) :=
    (run cfg ops).servers.count_map serverOffer (offeredAt d.key)
  have hcounts : ∀ e ∈ (run cfg ops).serviceRegistry.entriesFor d, ∀ k,
      e.count k = (offersOf (run cfg ops) k).count (offeredAt d.key) := by
    intro e he k
    obtain ⟨i, hi, hkey⟩ := ServiceRegistry.mem_entriesFor.mp he
    rw [h.mirrors.counts i e hi k, hkey]
  refine ⟨?_, h.mirrors.entriesFor_length, ?_⟩
  · constructor
    · intro hne
      obtain ⟨e, he⟩ := List.exists_mem_of_ne_nil _ hne
      obtain ⟨i, hi, -⟩ := ServiceRegistry.mem_entriesFor.mp he
      have hused := h.mirrors.used i e hi
      have hp : e.publisherCount = _ := (hcounts e he .publisherCount).trans hpubs
      have hs : e.serverCount = _ := (hcounts e he .serverCount).trans hsers
      obtain hpos | hpos : 0 < e.publisherCount ∨ 0 < e.serverCount := by
        simp only [ServiceDescriptionEntry.total] at hused
        omega
      · rw [hp, FixedPositionContainer.count_pos_iff] at hpos
        exact Or.inl (by simpa using hpos)
      · rw [hs, FixedPositionContainer.count_pos_iff] at hpos
        exact Or.inr (by simpa using hpos)
    · intro hex
      have hpos : ∃ k, 0 < (offersOf (run cfg ops) k).count (offeredAt d.key) := by
        obtain ⟨i, p, hp, hoff, hsame⟩ | ⟨j, s, hs, hoff, hsame⟩ := hex
        · refine ⟨.publisherCount, ?_⟩
          rw [hpubs, FixedPositionContainer.count_pos_iff]
          exact ⟨i, p, hp, by simp [hoff, hsame]⟩
        · refine ⟨.serverCount, ?_⟩
          rw [hsers, FixedPositionContainer.count_pos_iff]
          exact ⟨j, s, hs, by simp [hoff, hsame]⟩
      obtain ⟨k, hk⟩ := hpos
      obtain ⟨i, e, hi, hkey⟩ := h.mirrors.complete k d.key hk
      exact List.ne_nil_of_mem (ServiceRegistry.mem_entriesFor.mpr ⟨i, hi, hkey⟩)
  · intro e he
    exact ⟨(hcounts e he .publisherCount).trans hpubs, (hcounts e he .serverCount).trans hsers⟩

end PortManager

end Iceoryx.Roudi
