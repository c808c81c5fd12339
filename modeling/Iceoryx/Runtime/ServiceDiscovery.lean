import Iceoryx.Lib.Fifo
import Iceoryx.Lib.Run
import Iceoryx.Roudi.RegistryPublications

namespace Iceoryx.Runtime

open Capro Roudi Roudi.PortManager Lib

inductive MessagingPattern
  | pubSub
  | reqRes
  deriving DecidableEq, Repr

def MessagingPattern.counter : MessagingPattern → ReferenceCounter
  | .pubSub => .publisherCount
  | .reqRes => .serverCount

/-- The subscriber has a queue for one registry, in which a new one replaces the old one. -/
structure ServiceDiscovery where
  serviceRegistry : ServiceRegistry := {}
  queue : Fifo ServiceRegistry := { capacity := 1, elements := [] }

namespace ServiceDiscovery

def update (d : ServiceDiscovery) : ServiceDiscovery :=
  match d.queue.pop with
  | (some registry, queue) =>
    { serviceRegistry := registry
      queue := queue }
  | (none, _) => d

def findService {S : Type} (service inst event : Option String)
    (callableForEach : Option (S → ServiceDescription → S)) (pattern : MessagingPattern)
    (d : ServiceDiscovery) (s : S) : S × ServiceDiscovery :=
  match callableForEach with
  | none => (s, d)
  | some callableForEach =>
    let d := d.update
    (d.serviceRegistry.find service inst event
      (some fun s entry =>
        if 0 < entry.count pattern.counter then callableForEach s entry.serviceDescription
        else s) s, d)

def collect (found : List ServiceDescription) (d : ServiceDescription) :
    List ServiceDescription := found ++ [d]

theorem foldl_collect (ds found : List ServiceDescription) :
    ds.foldl collect found = found ++ ds := by
  induction ds generalizing found with
  | nil => simp
  | cons d ds ih => simp [ih, collect]

def receive (registry : ServiceRegistry) (d : ServiceDiscovery) : ServiceDiscovery :=
  { d with queue := (d.queue.push registry).2 }

end ServiceDiscovery

/-- The publisher of the registry with its history of one, the queues that it delivers to, and the
applications that search. -/
structure RegistryTopic where
  history : List ServiceRegistry := []
  queues : List Nat := []
  apps : Nat → Option ServiceDiscovery := fun _ => none

inductive DiscoveryEvent
  | publish (publication : RegistryPublication) (allocated : Bool)
  | create (app : Nat)
  | subscribe (app : Nat)
  | findService (app : Nat)
  | destroy (app : Nat)

def DiscoveryEvent.attempt : DiscoveryEvent → Option (RegistryPublication × Bool)
  | .publish publication allocated => some (publication, allocated)
  | _ => none

/-- The port for the registry offers whenever it is published, and there is a chunk for what is
published last. -/
structure Published (during : List DiscoveryEvent) : Prop where
  offered : ∀ attempt ∈ during.filterMap DiscoveryEvent.attempt,
    attempt.1.offeringRequested = some true
  allocated : ∀ attempt ∈ (during.filterMap DiscoveryEvent.attempt).getLast?, attempt.2 = true

namespace RegistryTopic

def sendChunk (registry : ServiceRegistry) (offerRequested : Bool) (t : RegistryTopic) :
    RegistryTopic :=
  { t with
    history := [registry]
    apps := fun app =>
      if offerRequested ∧ app ∈ t.queues then (t.apps app).map (ServiceDiscovery.receive registry)
      else t.apps app }

def step (maxSubscribers : Nat) (t : RegistryTopic) : DiscoveryEvent → Option RegistryTopic
  | .publish publication allocated =>
    match publication.offeringRequested with
    | none => some t
    | some offerRequested =>
      if allocated then some (t.sendChunk publication.registry offerRequested) else some t
  | .create app =>
    match t.apps app with
    | none => some { t with apps := Function.update t.apps app (some {}) }
    | some _ => none
  | .subscribe app =>
    match t.apps app with
    | none => none
    | some d =>
      if app ∈ t.queues then some t
      else if t.queues.length < maxSubscribers then
        some { t with
          queues := t.queues ++ [app]
          apps := Function.update t.apps app
            (some (t.history.foldl (fun d registry => d.receive registry) d)) }
      else some t
  | .findService app =>
    (t.apps app).map fun d => { t with apps := Function.update t.apps app (some d.update) }
  | .destroy app =>
    (t.apps app).map fun _ =>
      { t with
        queues := t.queues.filter (· ≠ app)
        apps := Function.update t.apps app none }

def after (latest : Option ServiceRegistry) : DiscoveryEvent → Option ServiceRegistry
  | .publish publication true => some publication.registry
  | _ => latest

/-- The newest registry is in the queue, or was taken out of it already. -/
def UpToDate (latest : Option ServiceRegistry) (d : ServiceDiscovery) : Prop :=
  d.queue.capacity = 1 ∧
    (d.queue.elements = latest.toList ∨
      d.queue.elements = [] ∧ latest = some d.serviceRegistry) ∧
    (latest = none → d.serviceRegistry = {})

structure Inv (latest : Option ServiceRegistry) (t : RegistryTopic) : Prop where
  history : t.history = latest.toList
  queues : ∀ app ∈ t.queues, ∃ d, t.apps app = some d ∧ UpToDate latest d
  fresh : ∀ app d, app ∉ t.queues → t.apps app = some d → d = {}

variable {latest : Option ServiceRegistry} {d : ServiceDiscovery} {t t' : RegistryTopic}
  {registry : ServiceRegistry} {maxSubscribers : Nat}

theorem UpToDate.receive (h : UpToDate latest d) (registry : ServiceRegistry) :
    UpToDate (some registry) (d.receive registry) := by
  obtain ⟨hcapacity, helements, -⟩ := h
  refine ⟨by simp [ServiceDiscovery.receive, hcapacity], Or.inl ?_, by simp⟩
  have hcases : d.queue.elements = [] ∨ ∃ r, d.queue.elements = [r] := by
    rcases helements with heq | ⟨heq, -⟩
    · cases latest with
      | none => exact Or.inl heq
      | some r => exact Or.inr ⟨r, heq⟩
    · exact Or.inl heq
  rcases hcases with heq | ⟨r, heq⟩
  · simp [ServiceDiscovery.receive, Fifo.push, hcapacity, heq]
  · simp [ServiceDiscovery.receive, Fifo.push, hcapacity, heq]

theorem UpToDate.update (h : UpToDate latest d) :
    UpToDate latest d.update ∧ d.update.serviceRegistry = latest.getD {} := by
  obtain ⟨hcapacity, helements, hnone⟩ := h
  unfold ServiceDiscovery.update Fifo.pop
  cases latest with
  | none =>
    have hempty : d.queue.elements = [] := by
      rcases helements with heq | ⟨heq, -⟩ <;> exact heq
    simp only [hempty, List.head?_nil]
    exact ⟨⟨hcapacity, Or.inl hempty, hnone⟩, hnone rfl⟩
  | some r =>
    rcases helements with heq | ⟨heq, hlatest⟩
    · simp only [heq, Option.toList_some, List.head?_cons, List.tail_cons]
      exact ⟨⟨hcapacity, Or.inr ⟨rfl, rfl⟩, by simp⟩, rfl⟩
    · simp only [heq, List.head?_nil]
      rw [Option.some.injEq] at hlatest
      exact ⟨⟨hcapacity, Or.inr ⟨heq, by rw [hlatest]⟩, hnone⟩, hlatest.symm⟩

theorem upToDate_subscribed (latest : Option ServiceRegistry) :
    UpToDate latest (latest.toList.foldl (fun d registry => d.receive registry) {}) := by
  have hstart : UpToDate none {} := ⟨rfl, Or.inl rfl, fun _ => rfl⟩
  cases latest with
  | none => exact hstart
  | some registry => exact hstart.receive registry

theorem Inv.sendChunk (h : Inv latest t) (registry : ServiceRegistry) :
    Inv (some registry) (t.sendChunk registry true) where
  history := rfl
  queues := by
    intro app happ
    obtain ⟨d, hd, hup⟩ := h.queues app happ
    have hsent : (t.sendChunk registry true).apps app =
        (t.apps app).map (ServiceDiscovery.receive registry) := if_pos ⟨rfl, happ⟩
    exact ⟨d.receive registry, by rw [hsent, hd, Option.map_some], hup.receive registry⟩
  fresh := by
    intro app d happ hd
    have hkept : (t.sendChunk registry true).apps app = t.apps app := if_neg fun h => happ h.2
    rw [hkept] at hd
    exact h.fresh app d happ hd

-- only the entry and the queue of one application change
theorem Inv.setApp (h : Inv latest t) (app : Nat) {entry : Option ServiceDiscovery}
    {queues : List Nat} (hothers : ∀ app', app' ≠ app → (app' ∈ queues ↔ app' ∈ t.queues))
    (hqueue : app ∈ queues → ∃ d, entry = some d ∧ UpToDate latest d)
    (hfresh : app ∉ queues → ∀ d, entry = some d → d = {}) :
    Inv latest { t with queues := queues, apps := Function.update t.apps app entry } := by
  refine ⟨h.history, ?_, ?_⟩
  · intro app' happ'
    rcases eq_or_ne app' app with rfl | hne
    · simp only [Function.update_self]
      exact hqueue happ'
    · simp only [Function.update_of_ne hne]
      exact h.queues app' ((hothers app' hne).mp happ')
  · intro app' d happ' hd
    rcases eq_or_ne app' app with rfl | hne
    · simp only [Function.update_self] at hd
      exact hfresh happ' d hd
    · simp only [Function.update_of_ne hne] at hd
      exact h.fresh app' d (fun hmem => happ' ((hothers app' hne).mpr hmem)) hd

theorem Inv.create {app : Nat} (h : Inv latest t)
    (hstep : t.step maxSubscribers (.create app) = some t') : Inv latest t' := by
  simp only [RegistryTopic.step] at hstep
  split at hstep
  · next hnone =>
    cases hstep
    refine h.setApp app (fun _ _ => Iff.rfl) ?_ fun _ d hd => (Option.some.inj hd).symm
    intro hmem
    obtain ⟨d, hd, -⟩ := h.queues app hmem
    rw [hnone] at hd
    cases hd
  · cases hstep

-- the queue of a new subscriber is empty, so the history of one gives it the newest registry
theorem Inv.connect {app : Nat} (h : Inv latest t) (hd : t.apps app = some d)
    (hnew : app ∉ t.queues) :
    Inv latest { t with
      queues := t.queues ++ [app]
      apps := Function.update t.apps app
        (some (t.history.foldl (fun d registry => d.receive registry) d)) } := by
  refine h.setApp app ?_ ?_ ?_
  · intro app' hne
    rw [List.mem_append, List.mem_singleton, or_iff_left hne]
  · intro _
    refine ⟨_, rfl, ?_⟩
    rw [h.fresh app d hnew hd, h.history]
    exact upToDate_subscribed latest
  · exact fun hnot => absurd (List.mem_append_right _ (List.mem_singleton_self app)) hnot

theorem Inv.findService {app : Nat} (h : Inv latest t) (hd : t.apps app = some d) :
    Inv latest { t with apps := Function.update t.apps app (some d.update) } := by
  refine h.setApp app (fun _ _ => Iff.rfl) ?_ ?_
  · intro hmem
    obtain ⟨d', hd', hup⟩ := h.queues app hmem
    rw [hd] at hd'
    cases hd'
    exact ⟨d.update, rfl, hup.update.1⟩
  · intro hnot d' hd'
    rw [h.fresh app d hnot hd] at hd'
    exact (Option.some.inj hd').symm

theorem Inv.destroy {app : Nat} (h : Inv latest t)
    (hstep : t.step maxSubscribers (.destroy app) = some t') : Inv latest t' := by
  obtain ⟨d, -, rfl⟩ := Option.map_eq_some_iff.mp hstep
  refine h.setApp app ?_ ?_ ?_
  · intro app' hne
    rw [List.mem_filter, decide_eq_true_eq, and_iff_left hne]
  · intro hmem
    rw [List.mem_filter, decide_eq_true_eq] at hmem
    exact absurd rfl hmem.2
  · intro _ d hd
    cases hd

theorem Inv.step {event : DiscoveryEvent} (h : Inv latest t)
    (hoffered : ∀ attempt ∈ event.attempt, attempt.1.offeringRequested = some true)
    (hstep : t.step maxSubscribers event = some t') : Inv (after latest event) t' := by
  cases event with
  | publish publication allocated =>
    have hoffering : publication.offeringRequested = some true := hoffered _ rfl
    simp only [RegistryTopic.step, hoffering] at hstep
    cases allocated with
    | true =>
      cases hstep
      exact h.sendChunk publication.registry
    | false =>
      cases hstep
      exact h
  | create app => exact h.create hstep
  | subscribe app =>
    simp only [RegistryTopic.step] at hstep
    split at hstep
    · cases hstep
    · next d hd =>
      split at hstep
      · cases hstep
        exact h
      · next hnew =>
        split at hstep
        · cases hstep
          exact h.connect hd hnew
        · cases hstep
          exact h
  | findService app =>
    obtain ⟨d, hd, rfl⟩ := Option.map_eq_some_iff.mp hstep
    exact h.findService hd
  | destroy app => exact h.destroy hstep

theorem Inv.start : Inv none {} where
  history := rfl
  queues := by simp
  fresh := by
    intro app d _ hd
    cases hd

theorem Inv.run {events : List DiscoveryEvent} (h : Inv latest t)
    (hoffered : ∀ attempt ∈ events.filterMap DiscoveryEvent.attempt,
      attempt.1.offeringRequested = some true)
    (hrun : runSteps (RegistryTopic.step maxSubscribers) t events = some t') :
    Inv (events.foldl after latest) t' := by
  induction events generalizing t latest with
  | nil =>
    cases hrun
    exact h
  | cons event events ih =>
    obtain ⟨m, hm, hrest⟩ := runSteps_cons hrun
    refine ih (h.step ?_ hm) ?_ hrest
    · intro attempt hattempt
      exact hoffered attempt (List.mem_filterMap.mpr ⟨event, List.mem_cons_self, hattempt⟩)
    · intro attempt hattempt
      obtain ⟨e, he, heq⟩ := List.mem_filterMap.mp hattempt
      exact hoffered attempt (List.mem_filterMap.mpr ⟨e, List.mem_cons_of_mem _ he, heq⟩)

theorem after_of_none {event : DiscoveryEvent} (h : event.attempt = none) :
    after latest event = latest := by
  cases event with
  | publish publication allocated => cases h
  | create app => rfl
  | subscribe app => rfl
  | findService app => rfl
  | destroy app => rfl

theorem after_of_allocated {event : DiscoveryEvent} {attempt : RegistryPublication × Bool}
    (h : event.attempt = some attempt) (hallocated : attempt.2 = true) :
    after latest event = some attempt.1.registry := by
  cases event with
  | publish publication allocated =>
    cases h
    rw [show allocated = true from hallocated]
    rfl
  | create app => cases h
  | subscribe app => cases h
  | findService app => cases h
  | destroy app => cases h

/-- If there is a chunk for the last publication, it does not matter which of the others had one. -/
theorem foldl_after {during : List DiscoveryEvent}
    (hallocated : ∀ attempt ∈ (during.filterMap DiscoveryEvent.attempt).getLast?,
      attempt.2 = true) :
    during.foldl after latest =
      (during.filterMap DiscoveryEvent.attempt).getLast?.elim latest
        fun attempt => some attempt.1.registry := by
  induction during using List.reverseRecOn with
  | nil => rfl
  | append_singleton during event ih =>
    rw [List.foldl_append, List.foldl_cons, List.foldl_nil]
    rw [List.filterMap_append] at hallocated ⊢
    cases hattempt : event.attempt with
    | none =>
      have hnone : [event].filterMap DiscoveryEvent.attempt = [] :=
        List.filterMap_cons_none hattempt
      rw [hnone, List.append_nil] at hallocated ⊢
      rw [after_of_none hattempt]
      exact ih hallocated
    | some attempt =>
      have hsome : [event].filterMap DiscoveryEvent.attempt = [attempt] :=
        List.filterMap_cons_some hattempt
      rw [hsome, List.getLast?_concat] at hallocated ⊢
      exact after_of_allocated hattempt (hallocated attempt rfl)

end RegistryTopic

def Matches (service inst event : Option String) (x : ServiceRegistry.Key) : Prop :=
  (∀ s ∈ service, x.1 = s) ∧ (∀ s ∈ inst, x.2.1 = s) ∧ ∀ s ∈ event, x.2.2 = s

namespace ServiceDiscovery

open ServiceRegistry

variable {r : ServiceRegistry} {n : ReferenceCounter → Key → Nat}
  {service inst event : Option String} {pattern : MessagingPattern}

theorem isMatch_iff (entry : ServiceDescriptionEntry) :
    isMatch service inst event entry = true ↔
      Matches service inst event entry.serviceDescription.key := by
  cases service <;> cases inst <;> cases event <;>
    simp [isMatch, Matches, ServiceDescription.key, and_assoc]

def found (service inst event : Option String) (pattern : MessagingPattern)
    (r : ServiceRegistry) : List ServiceDescription :=
  ((r.serviceDescriptions.filterMap id).filter fun e =>
    isMatch service inst event e && decide (0 < e.count pattern.counter)).map
      ServiceDescriptionEntry.serviceDescription

theorem find_eq {S : Type} (callable : S → ServiceDescription → S) (s : S) :
    r.find service inst event
      (some fun s entry =>
        if 0 < entry.count pattern.counter then callable s entry.serviceDescription else s) s =
      (found service inst event pattern r).foldl callable s := by
  simp only [find, found]
  induction r.serviceDescriptions generalizing s with
  | nil => rfl
  | cons slot slots ih =>
    rw [List.foldl_cons, ih]
    cases slot with
    | none => rfl
    | some entry =>
      by_cases hmatch : isMatch service inst event entry = true
      · by_cases hcount : 0 < entry.count pattern.counter
        · simp [hmatch, hcount]
        · simp [hmatch, hcount]
      · simp [hmatch]

theorem nodup_found (h : Mirrors r n) :
    ((found service inst event pattern r).map ServiceDescription.key).Nodup := by
  have hentries : ((r.serviceDescriptions.filterMap id).map fun e =>
      e.serviceDescription.key).Nodup := by
    rw [List.Nodup, List.pairwise_map, List.pairwise_filterMap, List.pairwise_iff_getElem]
    intro i j hi hj hlt e he f hf heq
    have hgete : r.get i = some e :=
      get_of_getElem? (by rw [List.getElem?_eq_getElem hi, ← he]; rfl)
    have hgetf : r.get j = some f :=
      get_of_getElem? (by rw [List.getElem?_eq_getElem hj, ← hf]; rfl)
    exact absurd (h.unique i j e f hgete hgetf heq) (Nat.ne_of_lt hlt)
  rw [found, List.map_map]
  exact hentries.sublist (List.filter_sublist.map _)

theorem mem_found (h : Mirrors r n) (x : Key) :
    x ∈ (found service inst event pattern r).map ServiceDescription.key ↔
      Matches service inst event x ∧ 0 < n pattern.counter x := by
  have hmem : ∀ e, e ∈ r.serviceDescriptions.filterMap id ↔ ∃ i, r.get i = some e := by
    intro e
    rw [List.mem_filterMap]
    constructor
    · rintro ⟨o, ho, rfl⟩
      obtain ⟨i, hi⟩ := List.mem_iff_getElem?.mp ho
      exact ⟨i, get_of_getElem? hi⟩
    · rintro ⟨i, hi⟩
      exact ⟨some e, List.mem_of_getElem? (getElem?_of_get hi), rfl⟩
  simp only [found, List.map_map, List.mem_map, List.mem_filter, hmem, Bool.and_eq_true,
    isMatch_iff, decide_eq_true_eq, Function.comp_apply]
  constructor
  · rintro ⟨e, ⟨⟨i, hi⟩, hmatch, hcount⟩, rfl⟩
    rw [h.counts i e hi] at hcount
    exact ⟨hmatch, hcount⟩
  · rintro ⟨hmatch, hpos⟩
    obtain ⟨i, e, hi, rfl⟩ := h.complete _ x hpos
    refine ⟨e, ⟨⟨i, hi⟩, hmatch, ?_⟩, rfl⟩
    rw [h.counts i e hi]
    exact hpos

end ServiceDiscovery

def Offers (pm : PortManager) (x : ServiceRegistry.Key) : MessagingPattern → Prop
  | .pubSub =>
    ∃ i p, pm.publishers.get i = some p ∧ p.offered = true ∧ p.serviceDescription.key = x
  | .reqRes => ∃ j s, pm.servers.get j = some s ∧ s.offered = true ∧ s.serviceDescription.key = x

theorem count_pos_iff (pm : PortManager) (x : ServiceRegistry.Key) (pattern : MessagingPattern) :
    0 < (offersOf pm pattern.counter).count (offeredAt x) ↔ Offers pm x pattern := by
  have hoffered : ∀ o : Offer, offeredAt x o = true ↔ o.1 = true ∧ o.2.key = x := by
    intro o
    rw [offeredAt, Bool.and_eq_true, decide_eq_true_iff]
  cases pattern with
  | pubSub =>
    change 0 < (pm.publishers.map publisherOffer).count (offeredAt x) ↔ _
    rw [pm.publishers.count_map publisherOffer (offeredAt x),
      FixedPositionContainer.count_pos_iff]
    simp only [hoffered, publisherOffer, Offers]
  | reqRes =>
    change 0 < (pm.servers.map serverOffer).count (offeredAt x) ↔ _
    rw [pm.servers.count_map serverOffer (offeredAt x), FixedPositionContainer.count_pos_iff]
    simp only [hoffered, serverOffer, Offers]

structure DiscoverySystem where
  portManager : PortManager := {}
  topic : RegistryTopic := {}

inductive SystemEvent
  /-- RouDi publishes the registry each time that it is changed, and the applications go on while
  it is at work. -/
  | roudi (op : Op) (during : List DiscoveryEvent)
  | application (event : DiscoveryEvent)

def SystemEvent.Published : SystemEvent → Prop
  | .roudi _ during => Runtime.Published during
  | .application _ => True

def publicationsBetween (before after : PortManager) : List RegistryPublication :=
  after.publications.drop before.publications.length

namespace DiscoverySystem

/-- The port manager goes on to another state; what it publishes on its way takes place among the
events of the applications, in its order. -/
def advance (cfg : Config) (s : DiscoverySystem) (portManager : PortManager)
    (during : List DiscoveryEvent) : Option DiscoverySystem :=
  if (during.filterMap DiscoveryEvent.attempt).map Prod.fst =
      publicationsBetween s.portManager portManager then
    (runSteps (RegistryTopic.step cfg.maxSubscribersPerPublisher) s.topic during).map fun topic =>
      { portManager := portManager, topic := topic }
  else none

def start (cfg : Config) (during : List DiscoveryEvent) : Option DiscoverySystem :=
  (PortManager.create cfg).bind fun portManager => advance cfg {} portManager during

def step (cfg : Config) (s : DiscoverySystem) : SystemEvent → Option DiscoverySystem
  | .roudi op during => s.advance cfg (PortManager.apply cfg s.portManager op) during
  | .application event =>
    match event with
    | .publish _ _ => none
    | event => (s.topic.step cfg.maxSubscribersPerPublisher event).map fun topic =>
        { s with topic := topic }

structure Inv (cfg : Config) (s : DiscoverySystem) : Prop where
  registry : RegistryInv cfg s.portManager
  topic : ∃ latest, RegistryTopic.Inv latest s.topic ∧
    latest.getD {} = s.portManager.serviceRegistry

variable {cfg : Config} {s s' : DiscoverySystem}

theorem publicationsBetween_of_publishes {pm pm' : PortManager} (h : Publishes pm pm') :
    lastRegistry pm.serviceRegistry (publicationsBetween pm pm') = pm'.serviceRegistry := by
  obtain ⟨news, hnews, hlast⟩ := h
  rw [publicationsBetween, hnews, List.drop_left, hlast]

theorem Inv.advance {portManager : PortManager} {during : List DiscoveryEvent} (h : Inv cfg s)
    (hregistry : RegistryInv cfg portManager) (hpublishes : Publishes s.portManager portManager)
    (hpublished : Published during) (hadvance : s.advance cfg portManager during = some s') :
    Inv cfg s' := by
  obtain ⟨latest, htopic, hlatest⟩ := h.topic
  unfold DiscoverySystem.advance at hadvance
  split at hadvance
  · next hattempts =>
    obtain ⟨topic, hrun, rfl⟩ := Option.map_eq_some_iff.mp hadvance
    refine ⟨hregistry, _, htopic.run hpublished.offered hrun, ?_⟩
    rw [RegistryTopic.foldl_after hpublished.allocated]
    have hlast := publicationsBetween_of_publishes hpublishes
    rw [← hattempts, lastRegistry, List.getLast?_map, ← hlatest] at hlast
    rw [← hlast]
    cases (during.filterMap DiscoveryEvent.attempt).getLast? with
    | none => rfl
    | some attempt => rfl
  · cases hadvance

theorem Inv.step {event : SystemEvent} (h : Inv cfg s) (hpublished : event.Published)
    (hstep : s.step cfg event = some s') : Inv cfg s' := by
  cases event with
  | roudi op during =>
    exact h.advance (h.registry.apply op) (Publishes.apply cfg op s.portManager) hpublished hstep
  | application event =>
    obtain ⟨latest, htopic, hlatest⟩ := h.topic
    have happ : (s.topic.step cfg.maxSubscribersPerPublisher event).map
        (fun topic => { s with topic := topic }) = some s' ∧
          event.attempt = none := by
      cases event with
      | publish publication allocated => cases hstep
      | create app => exact ⟨hstep, rfl⟩
      | subscribe app => exact ⟨hstep, rfl⟩
      | findService app => exact ⟨hstep, rfl⟩
      | destroy app => exact ⟨hstep, rfl⟩
    obtain ⟨hmap, hattempt⟩ := happ
    obtain ⟨topic, htopic', rfl⟩ := Option.map_eq_some_iff.mp hmap
    have hkept := htopic.step (by simp [hattempt]) htopic'
    rw [RegistryTopic.after_of_none hattempt] at hkept
    exact ⟨h.registry, latest, hkept, hlatest⟩

theorem Inv.run {events : List SystemEvent} (hpublished : ∀ event ∈ events, event.Published)
    (h : Inv cfg s) (hrun : runSteps (DiscoverySystem.step cfg) s events = some s') :
    Inv cfg s' := by
  induction events generalizing s with
  | nil =>
    cases hrun
    exact h
  | cons event events ih =>
    obtain ⟨m, hm, hrest⟩ := runSteps_cons hrun
    exact ih (fun e he => hpublished e (List.mem_cons_of_mem _ he))
      (h.step (hpublished event List.mem_cons_self) hm) hrest

theorem Inv.start {during : List DiscoveryEvent} (hpublished : Published during)
    (hstart : DiscoverySystem.start cfg during = some s) : Inv cfg s := by
  obtain ⟨portManager, hcreate, hadvance⟩ := Option.bind_eq_some_iff.mp hstart
  have hempty : Inv cfg {} := ⟨RegistryInv.empty, none, RegistryTopic.Inv.start, rfl⟩
  exact hempty.advance (RegistryInv.create hcreate) (Publishes.create hcreate) hpublished hadvance

end DiscoverySystem

/-- In every run in which RouDi's port for the registry offers and there is a chunk for what an
operation publishes last, a search by any connected application calls its callable for each
matching service that a live port offers, once, and for no other. -/
theorem findService_reports_offered (cfg : Config) (constructor : List DiscoveryEvent)
    (events : List SystemEvent) {s₀ s : DiscoverySystem} (app : Nat)
    (hstart : DiscoverySystem.start cfg constructor = some s₀) (hfirst : Published constructor)
    (hpublished : ∀ event ∈ events, event.Published)
    (hrun : runSteps (DiscoverySystem.step cfg) s₀ events = some s)
    (happ : app ∈ s.topic.queues) :
    ∃ d, s.topic.apps app = some d ∧
      ∀ (service inst event : Option String) (pattern : MessagingPattern),
        ∃ found : List ServiceDescription,
          (∀ {S : Type} (callable : S → ServiceDescription → S) (x : S),
            (d.findService service inst event (some callable) pattern x).1 =
              found.foldl callable x) ∧
          (found.map ServiceDescription.key).Nodup ∧
          ∀ x, x ∈ found.map ServiceDescription.key ↔
            Matches service inst event x ∧ Offers s.portManager x pattern := by
  have hinv := (DiscoverySystem.Inv.start hfirst hstart).run hpublished hrun
  have hmirrors := hinv.registry.mirrors
  obtain ⟨latest, htopic, hlatest⟩ := hinv.topic
  obtain ⟨d, hd, hup⟩ := htopic.queues app happ
  have hregistry : d.update.serviceRegistry = s.portManager.serviceRegistry :=
    hup.update.2.trans hlatest
  refine ⟨d, hd, ?_⟩
  intro service inst event pattern
  refine ⟨ServiceDiscovery.found service inst event pattern s.portManager.serviceRegistry, ?_,
    ServiceDiscovery.nodup_found hmirrors, ?_⟩
  · intro S callable x
    simp only [ServiceDiscovery.findService, hregistry]
    exact ServiceDiscovery.find_eq callable x
  · intro x
    rw [ServiceDiscovery.mem_found hmirrors, count_pos_iff]

def discoveryConfig : Config :=
  { smallConfig .manyToMany with maxPublishers := 5, numberOfInternalPublishers := 4 }

def firstPublications : List DiscoveryEvent :=
  ((PortManager.create discoveryConfig).elim [] PortManager.publications).zipWith
    DiscoveryEvent.publish [false, false, true, true]

def radarOffered : List SystemEvent :=
  let constructed := (PortManager.create discoveryConfig).getD {}
  let subscribe : Op := .acquireSubscriberPortData serviceDiscoveryService {} "display"
  let offer : Op := .acquirePublisherPortData radar {} "sender"
  let subscribed := PortManager.apply discoveryConfig constructed subscribe
  let offered := PortManager.apply discoveryConfig subscribed offer
  [.application (.create 0),
    .roudi subscribe [.subscribe 0],
    .roudi offer (.findService 0 ::
      (publicationsBetween subscribed offered).map fun publication => .publish publication true)]

theorem findService_reports_offered_radar :
    ∃ s₀ s d, DiscoverySystem.start discoveryConfig firstPublications = some s₀ ∧
      runSteps (DiscoverySystem.step discoveryConfig) s₀ radarOffered = some s ∧
      s.topic.apps 0 = some d ∧
      radar.key ∈ (d.findService none none none (some ServiceDiscovery.collect) .pubSub []).1.map
        ServiceDescription.key := by
  have hrun : ((DiscoverySystem.start discoveryConfig firstPublications).any fun s₀ =>
      (runSteps (DiscoverySystem.step discoveryConfig) s₀ radarOffered).any fun s =>
        decide (0 ∈ s.topic.queues) && (s.portManager.publishers.get 4).any fun p =>
          p.offered && decide (p.serviceDescription.key = radar.key)) = true := by
    decide +kernel
  have hfirst : Published firstPublications := ⟨by decide +kernel, by decide +kernel⟩
  have hpublished : ∀ event ∈ radarOffered, event.Published := by
    intro event hevent
    simp only [radarOffered, List.mem_cons, List.not_mem_nil, or_false] at hevent
    rcases hevent with rfl | rfl | rfl
    · trivial
    · exact ⟨by decide +kernel, by decide +kernel⟩
    · exact ⟨by decide +kernel, by decide +kernel⟩
  obtain ⟨s₀, hstart, hs₀⟩ := (Option.any_eq_true _ _).mp hrun
  obtain ⟨s, hs, hoffered⟩ := (Option.any_eq_true _ _).mp hs₀
  rw [Bool.and_eq_true, decide_eq_true_iff] at hoffered
  obtain ⟨d, hd, hfind⟩ := findService_reports_offered discoveryConfig firstPublications
    radarOffered 0 hstart hfirst hpublished hs hoffered.1
  obtain ⟨p, hp, hradar⟩ := (Option.any_eq_true _ _).mp hoffered.2
  rw [Bool.and_eq_true, decide_eq_true_iff] at hradar
  obtain ⟨found, hfold, -, hmem⟩ := hfind none none none .pubSub
  refine ⟨s₀, s, d, hstart, hs, hd, ?_⟩
  rw [hfold, ServiceDiscovery.foldl_collect, List.nil_append, hmem]
  exact ⟨by simp [Matches], 4, p, hp, hradar.1, hradar.2⟩

end Iceoryx.Runtime
