import Iceoryx.Roudi.Operations

namespace Iceoryx.Roudi

open Capro Popo Lib

structure Dispatch where
  port : Nat
  message : CaproMessage
  deriving DecidableEq, Repr

namespace PortManager

section Dispatching

variable (cfg : Config)

/-- `sendToInterfacePort` through a collected pointer.  The place of a port that the first loop
has destroyed is still read and written; `found` is what the pool held before the loop. -/
def offerTo (found : FixedPositionContainer InterfacePortData) (m : CaproMessage)
    (acc : PortManager × List Dispatch) (i : Nat) : PortManager × List Dispatch :=
  match (acc.1.interfaces.get i).or (found.get i) with
  | none => acc
  | some p =>
    if m.serviceDescription.interfaceSource ≠ p.serviceDescription.interfaceSource then
      (sendToInterfacePort cfg m acc.1 i, acc.2 ++ [{ port := i, message := m }])
    else acc

def offerOf (serviceType : CaproServiceType) (d : ServiceDescription) : CaproMessage where
  type := .offer
  serviceDescription := d
  serviceType := serviceType

def offeredPublishers (pm : PortManager) : List ServiceDescription :=
  ((pm.publishers.content.filterMap pm.publishers.get).filter (·.offered)).map
    (·.serviceDescription)

def offeredServers (pm : PortManager) : List ServiceDescription :=
  ((pm.servers.content.filterMap pm.servers.get).filter (·.offered)).map (·.serviceDescription)

def offers (pm : PortManager) : List CaproMessage :=
  pm.offeredPublishers.map (offerOf .publisher) ++ pm.offeredServers.map (offerOf .server)

def handleInterfacesDispatching (pm : PortManager) : PortManager × List Dispatch :=
  let (pm', forwarding) := pm.interfaces.content.foldl handleInterfacePort (pm, [])
  pm'.offers.foldl (fun acc m => forwarding.foldl (offerTo cfg pm.interfaces m) acc) (pm', [])

end Dispatching

def messagesTo (dispatches : List Dispatch) (i : Nat) : List CaproMessage :=
  (dispatches.filter (·.port = i)).map (·.message)

def initialOffers (pm : PortManager) (p : InterfacePortData) : List CaproMessage :=
  pm.offers.filter fun m =>
    m.serviceDescription.interfaceSource ≠ p.serviceDescription.interfaceSource

structure ForwardsInitialOffers (pm pm' : PortManager) (dispatches : List Dispatch) : Prop where
  offered : ∀ i p, pm.interfaces.get i = some p → p.toBeDestroyed = false →
    p.doInitialOfferForward = true → messagesTo dispatches i = pm.initialOffers p
  others : ∀ i p, pm.interfaces.get i = some p → p.toBeDestroyed = false →
    p.doInitialOfferForward = false →
      messagesTo dispatches i = [] ∧ pm'.interfaces.get i = some p
  cleared : ∀ i p, pm'.interfaces.get i = some p → p.doInitialOfferForward = false
  removed : ∀ i, pm'.interfaces.get i = none ↔
    ∀ p, pm.interfaces.get i = some p → p.toBeDestroyed = true
  live : ∀ d ∈ dispatches, (pm'.interfaces.get d.port).isSome

/-- No port that is to be destroyed is still to get an initial offer. -/
def SettledInterfaces (pm : PortManager) : Prop :=
  ∀ i p, pm.interfaces.get i = some p → p.doInitialOfferForward = true →
    p.toBeDestroyed = true → pm.initialOffers p = []

section Refinement

variable (cfg : Config)

theorem offerTo_fst (found : FixedPositionContainer InterfacePortData) (m : CaproMessage)
    (acc : PortManager × List Dispatch) (i : Nat) :
    (offerTo cfg found m acc i).1 = sendToInterfacePort cfg m acc.1 i := by
  unfold offerTo sendToInterfacePort
  cases acc.1.interfaces.get i with
  | none =>
    cases found.get i with
    | none => rfl
    | some p =>
      simp only [Option.none_or]
      split <;> rfl
  | some p =>
    simp only [Option.some_or]
    split <;> rfl

theorem handleInterfacesDispatching_fst (pm : PortManager) :
    (handleInterfacesDispatching cfg pm).1 = handleInterfaces cfg pm := by
  have hmessage : ∀ (forwarding : List Nat) (m : CaproMessage) (acc : PortManager × List Dispatch),
      (forwarding.foldl (offerTo cfg pm.interfaces m) acc).1 =
        forwarding.foldl (sendToInterfacePort cfg m) acc.1 := fun forwarding m _ =>
    (List.foldl_hom Prod.fst fun acc i => (offerTo_fst cfg pm.interfaces m acc i).symm).symm
  have hmessages : ∀ (forwarding : List Nat) (ms : List CaproMessage)
      (acc : PortManager × List Dispatch),
      (ms.foldl (fun acc m => forwarding.foldl (offerTo cfg pm.interfaces m) acc) acc).1 =
        ms.foldl (fun pm' m => forwarding.foldl (sendToInterfacePort cfg m) pm') acc.1 :=
    fun forwarding ms _ =>
      (List.foldl_hom Prod.fst fun acc m => (hmessage forwarding m acc).symm).symm
  rw [handleInterfacesDispatching, handleInterfaces]
  refine (hmessages _ _ _).trans ?_
  simp only [offers, offeredPublishers, offeredServers, offerOf, forwardInitialOffer,
    List.foldl_append, List.foldl_map]

end Refinement

section FirstLoop

def settle (p : InterfacePortData) : Option InterfacePortData :=
  if p.toBeDestroyed then none else some { p with doInitialOfferForward := false }

def isNew (pm : PortManager) (i : Nat) : Bool :=
  (pm.interfaces.get i).any (·.doInitialOfferForward)

theorem handleInterfacePort_get (pm : PortManager) (forwarding : List Nat) (i k : Nat) :
    (handleInterfacePort (pm, forwarding) i).1.interfaces.get k =
      if i = k then (pm.interfaces.get i).bind settle else pm.interfaces.get k := by
  cases hp : pm.interfaces.get i with
  | none =>
    simp only [handleInterfacePort, hp, Option.bind_none]
    by_cases hik : i = k
    · rw [if_pos hik, ← hik]
      exact hp
    · rw [if_neg hik]
  | some p =>
    cases hdestroyed : p.toBeDestroyed <;>
      simp only [handleInterfacePort, hp, settle, removeInterfacePort, hdestroyed, if_true,
        if_false, Bool.false_eq_true, FixedPositionContainer.get_erase,
        FixedPositionContainer.get_modify, Option.bind_some]
    · by_cases hik : i = k
      · rw [if_pos hik, if_pos hik, ← hik, hp]
        rfl
      · rw [if_neg hik, if_neg hik]
    · by_cases hik : i = k
      · rw [if_pos hik, if_pos hik]
      · rw [if_neg hik, if_neg hik, if_neg hik]

theorem handleInterfacePort_forwarding (pm : PortManager) (forwarding : List Nat) (i : Nat) :
    (handleInterfacePort (pm, forwarding) i).2 =
      forwarding ++ if pm.isNew i then [i] else [] := by
  cases hp : pm.interfaces.get i with
  | none => simp [handleInterfacePort, isNew, hp]
  | some p => cases hnew : p.doInitialOfferForward <;> simp [handleInterfacePort, isNew, hp, hnew]

theorem handleInterfacePort_offers (pm : PortManager) (forwarding : List Nat) (i : Nat) :
    (handleInterfacePort (pm, forwarding) i).1.offers = pm.offers := by
  cases hp : pm.interfaces.get i with
  | none => simp only [handleInterfacePort, hp]
  | some p =>
    cases hdestroyed : p.toBeDestroyed <;> simp only [handleInterfacePort, hp, hdestroyed] <;> rfl

theorem firstLoop_spec (is : List Nat) (hnodup : is.Nodup) (pm : PortManager)
    (forwarding : List Nat) :
    (is.foldl handleInterfacePort (pm, forwarding)).2 = forwarding ++ is.filter pm.isNew ∧
    (∀ k, (is.foldl handleInterfacePort (pm, forwarding)).1.interfaces.get k =
      if k ∈ is then (pm.interfaces.get k).bind settle else pm.interfaces.get k) ∧
    (is.foldl handleInterfacePort (pm, forwarding)).1.offers = pm.offers := by
  induction is generalizing pm forwarding with
  | nil => exact ⟨(List.append_nil forwarding).symm, fun _ => rfl, rfl⟩
  | cons i is ih =>
    obtain ⟨hi, hnodup⟩ := List.nodup_cons.mp hnodup
    obtain ⟨hnew, hget, hoffers⟩ := ih hnodup (handleInterfacePort (pm, forwarding) i).1
      (handleInterfacePort (pm, forwarding) i).2
    have hother : ∀ k, k ≠ i →
        (handleInterfacePort (pm, forwarding) i).1.interfaces.get k = pm.interfaces.get k := by
      intro k hk
      rw [handleInterfacePort_get, if_neg (Ne.symm hk)]
    refine ⟨?_, fun k => ?_, ?_⟩
    · rw [List.foldl_cons]
      refine hnew.trans ?_
      have hfilter : is.filter (handleInterfacePort (pm, forwarding) i).1.isNew =
          is.filter pm.isNew := by
        refine List.filter_congr fun k hk => ?_
        rw [isNew, isNew, hother k fun h => hi (h ▸ hk)]
      rw [hfilter, handleInterfacePort_forwarding, List.filter_cons]
      cases pm.isNew i <;> simp
    · rw [List.foldl_cons]
      refine (hget k).trans ?_
      by_cases hk : k = i
      · subst hk
        rw [if_neg hi, handleInterfacePort_get, if_pos rfl, if_pos List.mem_cons_self]
      · simp only [hother k hk, List.mem_cons, hk, false_or]
    · rw [List.foldl_cons]
      exact hoffers.trans (handleInterfacePort_offers pm forwarding i)

end FirstLoop

section Forwarding

variable (cfg : Config)

def withoutFiFo (p : InterfacePortData) : InterfacePortData := { p with caproMessageFiFo := [] }

def SameInterfaces (pm pm' : PortManager) : Prop :=
  ∀ i, (pm'.interfaces.get i).map withoutFiFo = (pm.interfaces.get i).map withoutFiFo

theorem dispatchCaProMessage_withoutFiFo (fifoSize : Nat) (p : InterfacePortData)
    (m : CaproMessage) : withoutFiFo (p.dispatchCaProMessage fifoSize m).port = withoutFiFo p := by
  simp only [InterfacePortData.dispatchCaProMessage]
  split
  · rfl
  · split <;> rfl

theorem sendToInterfacePort_get (m : CaproMessage) (pm : PortManager) (i k : Nat) :
    ((sendToInterfacePort cfg m pm i).interfaces.get k).map withoutFiFo =
        (pm.interfaces.get k).map withoutFiFo ∧
      (k ≠ i → (sendToInterfacePort cfg m pm i).interfaces.get k = pm.interfaces.get k) := by
  cases hp : pm.interfaces.get i with
  | none => simp only [sendToInterfacePort, hp, and_self, implies_true]
  | some p =>
    simp only [sendToInterfacePort, hp]
    split
    · simp only [report, FixedPositionContainer.get_modify]
      refine ⟨?_, fun hki => if_neg (Ne.symm hki)⟩
      by_cases hik : i = k
      · rw [if_pos hik, ← hik, hp]
        exact congrArg some (dispatchCaProMessage_withoutFiFo _ p m)
      · rw [if_neg hik]
    · exact ⟨rfl, fun _ => rfl⟩

def differs (pm : PortManager) (m : CaproMessage) (i : Nat) : Bool :=
  (pm.interfaces.get i).any fun p =>
    m.serviceDescription.interfaceSource ≠ p.serviceDescription.interfaceSource

def Behind (pm pm' : PortManager) : Prop :=
  ∀ i p', pm'.interfaces.get i = some p' →
    ∃ p, pm.interfaces.get i = some p ∧ p'.serviceDescription = p.serviceDescription

theorem offerTo_snd {pm pm' : PortManager} (h : Behind pm pm') (m : CaproMessage)
    (dispatches : List Dispatch) (i : Nat) :
    (offerTo cfg pm.interfaces m (pm', dispatches) i).2 =
      dispatches ++ if pm.differs m i then [{ port := i, message := m }] else [] := by
  cases hp' : pm'.interfaces.get i with
  | none =>
    cases hp : pm.interfaces.get i with
    | none => simp [offerTo, differs, hp', hp]
    | some p =>
      simp only [offerTo, differs, hp', hp, Option.none_or, Option.any_some, decide_eq_true_eq]
      split <;> simp
  | some p' =>
    obtain ⟨p, hp, hsame⟩ := h i p' hp'
    simp only [offerTo, differs, hp', hp, hsame, Option.some_or, Option.any_some,
      decide_eq_true_eq]
    split <;> simp

theorem Behind.sendToInterfacePort {pm pm' : PortManager} (h : Behind pm pm')
    (m : CaproMessage) (i : Nat) : Behind pm (sendToInterfacePort cfg m pm' i) := by
  intro k p hp
  have hsame := (sendToInterfacePort_get cfg m pm' i k).1
  rw [hp, Option.map_some] at hsame
  obtain ⟨p', hp', heq⟩ := Option.map_eq_some_iff.mp hsame.symm
  obtain ⟨q, hq, hdescription⟩ := h k p' hp'
  have hfield := congrArg (fun p : InterfacePortData => p.serviceDescription) heq
  exact ⟨q, hq, hfield.symm.trans hdescription⟩

structure Forwards (pm : PortManager) (forwarding : List Nat) (ms : List CaproMessage)
    (acc acc' : PortManager × List Dispatch) : Prop where
  behind : Behind pm acc'.1
  same : SameInterfaces acc.1 acc'.1
  others : ∀ i ∉ forwarding, acc'.1.interfaces.get i = acc.1.interfaces.get i
  dispatches : acc'.2 = acc.2 ++ ms.flatMap fun m =>
    (forwarding.filter (pm.differs m)).map fun i => { port := i, message := m }

theorem offerTo_foldl {pm : PortManager} (m : CaproMessage) (forwarding : List Nat)
    (acc : PortManager × List Dispatch) (h : Behind pm acc.1) :
    Forwards pm forwarding [m] acc (forwarding.foldl (offerTo cfg pm.interfaces m) acc) := by
  induction forwarding generalizing acc with
  | nil => exact ⟨h, fun _ => rfl, fun _ _ => rfl, (List.append_nil acc.2).symm⟩
  | cons i is ih =>
    have hfst := offerTo_fst cfg pm.interfaces m acc i
    have hbehind : Behind pm (offerTo cfg pm.interfaces m acc i).1 := by
      rw [hfst]
      exact h.sendToInterfacePort cfg m i
    obtain ⟨hb, hsame, hothers, hdispatches⟩ := ih (offerTo cfg pm.interfaces m acc i) hbehind
    refine ⟨hb, fun k => ?_, fun k hk => ?_, ?_⟩
    · rw [List.foldl_cons, hsame k, hfst]
      exact (sendToInterfacePort_get cfg m acc.1 i k).1
    · obtain ⟨hki, hk⟩ := not_or.mp (mt List.mem_cons.mpr hk)
      rw [List.foldl_cons, hothers k hk, hfst]
      exact (sendToInterfacePort_get cfg m acc.1 i k).2 hki
    · rw [List.foldl_cons, hdispatches, offerTo_snd cfg h]
      simp only [List.flatMap_singleton, List.filter_cons]
      cases pm.differs m i <;> simp

theorem offers_foldl {pm : PortManager} (forwarding : List Nat) (ms : List CaproMessage)
    (acc : PortManager × List Dispatch) (h : Behind pm acc.1) :
    Forwards pm forwarding ms acc
      (ms.foldl (fun acc m => forwarding.foldl (offerTo cfg pm.interfaces m) acc) acc) := by
  induction ms generalizing acc with
  | nil => exact ⟨h, fun _ => rfl, fun _ _ => rfl, (List.append_nil acc.2).symm⟩
  | cons m ms ih =>
    have hone := offerTo_foldl cfg m forwarding acc h
    obtain ⟨hb, hsame, hothers, hdispatches⟩ := ih _ hone.behind
    refine ⟨hb, fun k => (hsame k).trans (hone.same k),
      fun k hk => (hothers k hk).trans (hone.others k hk), ?_⟩
    rw [List.foldl_cons, hdispatches, hone.dispatches]
    simp

theorem messagesTo_append (ds ds' : List Dispatch) (i : Nat) :
    messagesTo (ds ++ ds') i = messagesTo ds i ++ messagesTo ds' i := by
  rw [messagesTo, List.filter_append, List.map_append]
  rfl

theorem messagesTo_one {is : List Nat} (hnodup : is.Nodup) (m : CaproMessage) (i : Nat) :
    messagesTo (is.map fun k => { port := k, message := m }) i =
      if i ∈ is then [m] else [] := by
  induction is with
  | nil => rfl
  | cons k is ih =>
    obtain ⟨hk, hnodup⟩ := List.nodup_cons.mp hnodup
    have hcons := messagesTo_append [{ port := k, message := m }]
      (is.map fun k => { port := k, message := m }) i
    refine hcons.trans ?_
    rw [ih hnodup]
    by_cases hki : k = i
    · subst hki
      simp [messagesTo, hk]
    · simp [messagesTo, hki, Ne.symm hki]

theorem messagesTo_flatMap (pm : PortManager) {forwarding : List Nat}
    (hnodup : forwarding.Nodup) (ms : List CaproMessage) (i : Nat) :
    messagesTo (ms.flatMap fun m =>
        (forwarding.filter (pm.differs m)).map fun i => { port := i, message := m }) i =
      if i ∈ forwarding then ms.filter (pm.differs · i) else [] := by
  induction ms with
  | nil => simp [messagesTo]
  | cons m ms ih =>
    rw [List.flatMap_cons, messagesTo_append, ih, messagesTo_one (hnodup.filter _),
      List.filter_cons]
    by_cases hi : i ∈ forwarding
    · cases hdiffers : pm.differs m i <;> simp [hi, hdiffers]
    · simp [hi]

end Forwarding

section Result

variable (cfg : Config) (pm : PortManager)

def forwarding : List Nat := pm.interfaces.content.filter pm.isNew

theorem mem_forwarding (i : Nat) :
    i ∈ pm.forwarding ↔
      ∃ p, pm.interfaces.get i = some p ∧ p.doInitialOfferForward = true := by
  rw [forwarding, List.mem_filter, FixedPositionContainer.mem_content, isNew, Option.any_eq_true]
  exact and_iff_right_of_imp fun ⟨p, hp, _⟩ => ⟨p, hp⟩

theorem settle_isSome (p : InterfacePortData) : (settle p).isSome ↔ p.toBeDestroyed = false := by
  unfold settle
  cases p.toBeDestroyed <;> simp

theorem settle_eq_self {p : InterfacePortData} (hdestroyed : p.toBeDestroyed = false)
    (hold : p.doInitialOfferForward = false) : settle p = some p := by
  obtain ⟨base, fifo, flag⟩ := p
  cases hold
  rw [settle, hdestroyed]
  rfl

theorem handleInterfacesDispatching_spec :
    (∀ i, ((handleInterfacesDispatching cfg pm).1.interfaces.get i).map withoutFiFo =
      ((pm.interfaces.get i).bind settle).map withoutFiFo) ∧
    (∀ i ∉ pm.forwarding, (handleInterfacesDispatching cfg pm).1.interfaces.get i =
      (pm.interfaces.get i).bind settle) ∧
    ∀ i, messagesTo (handleInterfacesDispatching cfg pm).2 i =
      if i ∈ pm.forwarding then pm.offers.filter (pm.differs · i) else [] := by
  obtain ⟨hforwarding, hget, hoffers⟩ :=
    firstLoop_spec pm.interfaces.content pm.interfaces.content_nodup pm []
  have hsettled : ∀ i,
      (pm.interfaces.content.foldl handleInterfacePort (pm, [])).1.interfaces.get i =
        (pm.interfaces.get i).bind settle := by
    intro i
    rw [hget]
    by_cases hi : i ∈ pm.interfaces.content
    · rw [if_pos hi]
    · rw [if_neg hi]
      cases hp : pm.interfaces.get i with
      | none => rfl
      | some p => exact absurd ((pm.interfaces.mem_content i).mpr ⟨p, hp⟩) hi
  have hbehind : Behind pm (pm.interfaces.content.foldl handleInterfacePort (pm, [])).1 := by
    intro i p' hp'
    rw [hsettled] at hp'
    obtain ⟨p, hp, hsettle⟩ := Option.bind_eq_some_iff.mp hp'
    refine ⟨p, hp, ?_⟩
    unfold settle at hsettle
    split at hsettle
    · cases hsettle
    · cases hsettle
      rfl
  rw [List.nil_append] at hforwarding
  obtain ⟨-, hsame, hothers, hdispatches⟩ := offers_foldl cfg pm.forwarding pm.offers
    ((pm.interfaces.content.foldl handleInterfacePort (pm, [])).1, []) hbehind
  have heq : handleInterfacesDispatching cfg pm = pm.offers.foldl
      (fun acc m => pm.forwarding.foldl (offerTo cfg pm.interfaces m) acc)
        ((pm.interfaces.content.foldl handleInterfacePort (pm, [])).1, []) := by
    simp only [handleInterfacesDispatching]
    rw [hforwarding, hoffers]
    rfl
  rw [heq]
  refine ⟨fun i => ?_, fun i hi => ?_, fun i => ?_⟩
  · rw [hsame i, hsettled]
  · rw [hothers i hi, hsettled]
  · have hnodup : pm.forwarding.Nodup := pm.interfaces.content_nodup.filter _
    rw [hdispatches, List.nil_append, messagesTo_flatMap pm hnodup]

theorem differs_eq {p : InterfacePortData} {i : Nat} (hp : pm.interfaces.get i = some p) :
    pm.offers.filter (pm.differs · i) = pm.initialOffers p := by
  refine List.filter_congr fun m _ => ?_
  rw [differs, hp, Option.any_some]

theorem mem_messagesTo {dispatches : List Dispatch} {d : Dispatch} (hd : d ∈ dispatches) :
    d.message ∈ messagesTo dispatches d.port :=
  List.mem_map_of_mem (List.mem_filter.mpr ⟨hd, decide_eq_true rfl⟩)

/-- One call of `handleInterfaces` does what it is to do exactly when no port that it destroys
is still to get an initial offer. -/
theorem handleInterfaces_forwards_iff :
    ForwardsInitialOffers pm (handleInterfaces cfg pm) (handleInterfacesDispatching cfg pm).2 ↔
      SettledInterfaces pm := by
  obtain ⟨hsame, hothers, hmessages⟩ := handleInterfacesDispatching_spec cfg pm
  rw [handleInterfacesDispatching_fst] at hsame hothers
  have hremoved : ∀ i, (handleInterfaces cfg pm).interfaces.get i = none ↔
      ∀ p, pm.interfaces.get i = some p → p.toBeDestroyed = true := by
    intro i
    rw [← Option.map_eq_none_iff (f := withoutFiFo), hsame, Option.map_eq_none_iff,
      Option.bind_eq_none_iff]
    refine forall₂_congr fun p _ => ?_
    rw [← Option.not_isSome_iff_eq_none, settle_isSome, Bool.not_eq_false]
  constructor
  · intro h i p hp hnew hdestroyed
    rw [List.eq_nil_iff_forall_not_mem]
    intro m hm
    have hto : m ∈ messagesTo (handleInterfacesDispatching cfg pm).2 i := by
      rw [hmessages, if_pos ((mem_forwarding pm i).mpr ⟨p, hp, hnew⟩), differs_eq pm hp]
      exact hm
    obtain ⟨d, hd, -⟩ := List.mem_map.mp hto
    obtain ⟨hd, hport⟩ := List.mem_filter.mp hd
    have hlive := h.live d hd
    rw [of_decide_eq_true hport, (hremoved i).mpr fun q hq => ?_] at hlive
    · exact absurd hlive Bool.false_ne_true
    · cases hp.symm.trans hq
      exact hdestroyed
  · intro hsettled
    refine ⟨fun i p hp _ hnew => ?_, fun i p hp hdestroyed hold => ?_, fun i p' hp' => ?_,
      hremoved, fun d hd => ?_⟩
    · rw [hmessages, if_pos ((mem_forwarding pm i).mpr ⟨p, hp, hnew⟩), differs_eq pm hp]
    · have hnot : i ∉ pm.forwarding := by
        rw [mem_forwarding]
        rintro ⟨q, hq, hnew⟩
        cases hp.symm.trans hq
        exact absurd (hold.symm.trans hnew) Bool.false_ne_true
      refine ⟨by rw [hmessages, if_neg hnot], ?_⟩
      rw [hothers i hnot, hp, Option.bind_some, settle_eq_self hdestroyed hold]
    · have heq := hsame i
      rw [hp', Option.map_some] at heq
      obtain ⟨q, hq, hfifo⟩ := Option.map_eq_some_iff.mp heq.symm
      obtain ⟨p, -, hsettle⟩ := Option.bind_eq_some_iff.mp hq
      have hflag : q.doInitialOfferForward = false := by
        unfold settle at hsettle
        split at hsettle
        · cases hsettle
        · cases hsettle
          rfl
      have hfield := congrArg (fun p : InterfacePortData => p.doInitialOfferForward) hfifo
      exact hfield.symm.trans hflag
    · have hmem := mem_messagesTo hd
      rw [hmessages] at hmem
      by_cases hnew : d.port ∈ pm.forwarding
      · obtain ⟨p, hp, hflag⟩ := (mem_forwarding pm d.port).mp hnew
        rw [if_pos hnew, differs_eq pm hp] at hmem
        rw [← Option.not_isNone, Bool.not_eq_true', Option.isNone_eq_false_iff,
          Option.isSome_iff_ne_none, ne_eq, hremoved]
        intro hall
        rw [hsettled d.port p hp hflag (hall p hp)] at hmem
        cases hmem
      · rw [if_neg hnew] at hmem
        cases hmem

end Result

def departingGateway : PortManager where
  publishers :=
    { data := [some { PublisherPortData.create 0 radar "talker" {} with offered := true }] }
  interfaces :=
    { data := [some { InterfacePortData.create "gateway" .dds with toBeDestroyed := true }] }

theorem handleInterfaces_dispatches_to_removed :
    ¬ ForwardsInitialOffers departingGateway
      (handleInterfaces (smallConfig .manyToMany) departingGateway)
      (handleInterfacesDispatching (smallConfig .manyToMany) departingGateway).2 := by
  intro h
  have hlive := h.live { port := 0, message := offerOf .publisher radar } (by decide)
  exact absurd hlive (by decide)

end PortManager

end Iceoryx.Roudi
