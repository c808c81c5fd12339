import Mathlib.Data.Finset.Basic
import Mathlib.Data.Finset.Card
import Mathlib.Data.List.Nodup
import Iceoryx.Capro.Message
import Iceoryx.Hoofs.ObjectPool
import Iceoryx.Lib.Keyed
import Iceoryx.Lib.Run

universe u

namespace Iceoryx.Gw

open Capro Hoofs Lib

inductive ChannelError
  | objectPoolFull
  deriving DecidableEq, Repr

inductive GatewayError
  | unsupportedServiceType
  | unsuccessfulChannelCreation
  | nonexistantChannel
  deriving DecidableEq, Repr

structure Channel where
  service : ServiceDescription
  iceoryxTerminal : Nat
  externalTerminal : Nat
  deriving DecidableEq, Repr

variable {maxChannelNumber : Nat} {Options : Type u}

structure Terminals (maxChannelNumber : Nat) (Options : Type u) where
  iceoryxTerminals : ObjectPool (ServiceDescription × Options) maxChannelNumber
  externalTerminals : ObjectPool (String × String × String) maxChannelNumber

def Channel.create (service : ServiceDescription) (options : Options)
    (t : Terminals maxChannelNumber Options) :
    Except ChannelError Channel × Terminals maxChannelNumber Options :=
  match t.iceoryxTerminals.create (service, options) with
  | (none, _) => (.error .objectPoolFull, t)
  | (some i, iceoryxTerminals) =>
    match t.externalTerminals.create service.key with
    | (none, _) => (.error .objectPoolFull, { t with iceoryxTerminals := iceoryxTerminals })
    | (some j, externalTerminals) =>
      (.ok
        { service := service
          iceoryxTerminal := i
          externalTerminal := j },
        { iceoryxTerminals := iceoryxTerminals
          externalTerminals := externalTerminals })

structure GatewayGeneric (maxChannelNumber : Nat) (Options : Type u) where
  interface : Interfaces
  channels : List Channel := []
  terminals : Terminals maxChannelNumber Options

namespace GatewayGeneric

def isWildcard (service : ServiceDescription) : Bool :=
  service.serviceString = "*" || service.instanceString = "*" || service.eventString = "*"

def findChannel (g : GatewayGeneric maxChannelNumber Options) (service : ServiceDescription) :
    Option Channel :=
  g.channels.find? fun channel => channel.service.key = service.key

def describe (g : GatewayGeneric maxChannelNumber Options) (service : ServiceDescription) :
    ServiceDescription where
  serviceString := service.serviceString
  instanceString := service.instanceString
  eventString := service.eventString
  classHash := [0, 0, 0, 0]
  interfaceSource := g.interface

def pushBack (capacity : Nat) (channels : List Channel) (channel : Channel) : Bool × List Channel :=
  if channels.length < capacity then (true, channels ++ [channel]) else (false, channels)

/-- What `push_back` returns is discarded. -/
def addChannel (g : GatewayGeneric maxChannelNumber Options) (service : ServiceDescription)
    (options : Options) :
    Except GatewayError Channel × GatewayGeneric maxChannelNumber Options :=
  if isWildcard service then (.error .unsupportedServiceType, g)
  else
    match g.findChannel service with
    | some existingChannel => (.ok existingChannel, g)
    | none =>
      match Channel.create (g.describe service) options g.terminals with
      | (.error _, terminals) =>
        (.error .unsuccessfulChannelCreation, { g with terminals := terminals })
      | (.ok channel, terminals) =>
        (.ok channel, { g with
          channels := (pushBack maxChannelNumber g.channels channel).2
          terminals := terminals })

def discardChannel (g : GatewayGeneric maxChannelNumber Options) (service : ServiceDescription) :
    Except GatewayError Unit × GatewayGeneric maxChannelNumber Options :=
  match g.channels.findIdx? fun channel => channel.service.key = service.key with
  | some i => (.ok (), { g with channels := g.channels.eraseIdx i })
  | none => (.error .nonexistantChannel, g)

def getNumberOfChannels (g : GatewayGeneric maxChannelNumber Options) : Nat := g.channels.length

@[simp] theorem describe_key (g : GatewayGeneric maxChannelNumber Options)
    (service : ServiceDescription) : (g.describe service).key = service.key := rfl

theorem isWildcard_congr {service service' : ServiceDescription}
    (h : service.key = service'.key) : isWildcard service = isWildcard service' := by
  injection h with hservice hrest
  injection hrest with hinstance hevent
  rw [isWildcard, isWildcard, hservice, hinstance, hevent]

structure Regular (g : GatewayGeneric maxChannelNumber Options) : Prop where
  services : (g.channels.map fun c => c.service.key).Nodup
  noWildcard : ∀ c ∈ g.channels, isWildcard c.service = false
  iceoryxTerminals : g.terminals.iceoryxTerminals.Holds (g.channels.map Channel.iceoryxTerminal)
  externalTerminals : g.terminals.externalTerminals.Holds (g.channels.map Channel.externalTerminal)

variable {g g' : GatewayGeneric maxChannelNumber Options} {service : ServiceDescription}
  {options : Options} {terminals : Terminals maxChannelNumber Options}

theorem findChannel_eq_none_iff :
    g.findChannel service = none ↔ service.key ∉ g.channels.map fun c => c.service.key :=
  find?_key_eq_none_iff fun c : Channel => c.service.key

theorem Regular.findChannel_eq_some_iff (h : g.Regular) {c : Channel} :
    g.findChannel service = some c ↔ c ∈ g.channels ∧ c.service.key = service.key :=
  find?_key_eq_some_iff h.services

theorem Regular.create (h : g.Regular) {described : ServiceDescription}
    {r : Except ChannelError Channel}
    (hcreate : Channel.create described options g.terminals = (r, terminals)) :
    Regular { g with terminals := terminals } ∧
      ∀ c, r = .ok c → c.service = described ∧ g.channels.length < maxChannelNumber ∧
        terminals.iceoryxTerminals.Holds
          (g.channels.map Channel.iceoryxTerminal ++ [c.iceoryxTerminal]) ∧
        terminals.externalTerminals.Holds
          (g.channels.map Channel.externalTerminal ++ [c.externalTerminal]) := by
  unfold Channel.create at hcreate
  split at hcreate
  · cases hcreate
    exact ⟨h, nofun⟩
  · next i iceoryxTerminals hi =>
    obtain ⟨hkeep, hnew⟩ := h.iceoryxTerminals.create hi
    split at hcreate
    · cases hcreate
      exact ⟨⟨h.services, h.noWildcard, hkeep, h.externalTerminals⟩, nofun⟩
    · next j externalTerminals hj =>
      obtain ⟨hkeep', hnew'⟩ := h.externalTerminals.create hj
      cases hcreate
      refine ⟨⟨h.services, h.noWildcard, hkeep, hkeep'⟩, ?_⟩
      rintro _ ⟨⟩
      refine ⟨rfl, ?_, hnew i rfl, hnew' j rfl⟩
      have hle := (hnew i rfl).length_le_capacity
      rwa [List.length_append, List.length_map] at hle

theorem addChannel_cases (h : g.Regular) (service : ServiceDescription) (options : Options) :
    (isWildcard service = true ∧
      g.addChannel service options = (.error .unsupportedServiceType, g)) ∨
    (isWildcard service = false ∧ ∃ c, g.findChannel service = some c ∧
      g.addChannel service options = (.ok c, g)) ∨
    (isWildcard service = false ∧ g.findChannel service = none ∧ ∃ e terminals,
      Channel.create (g.describe service) options g.terminals = (.error e, terminals) ∧
      g.addChannel service options =
        (.error .unsuccessfulChannelCreation, { g with terminals := terminals })) ∨
    (isWildcard service = false ∧ g.findChannel service = none ∧ ∃ c terminals,
      Channel.create (g.describe service) options g.terminals = (.ok c, terminals) ∧
      pushBack maxChannelNumber g.channels c = (true, g.channels ++ [c]) ∧
      g.addChannel service options =
        (.ok c, { g with
          channels := g.channels ++ [c]
          terminals := terminals })) := by
  unfold addChannel
  by_cases hwildcard : isWildcard service = true
  · exact Or.inl ⟨hwildcard, if_pos hwildcard⟩
  · rw [if_neg hwildcard]
    rw [Bool.not_eq_true] at hwildcard
    cases hfind : g.findChannel service with
    | some c => exact Or.inr (Or.inl ⟨hwildcard, c, rfl, rfl⟩)
    | none =>
      cases hcreate : Channel.create (g.describe service) options g.terminals with
      | mk r terminals =>
        cases r with
        | error e => exact Or.inr (Or.inr (Or.inl ⟨hwildcard, rfl, e, terminals, rfl, rfl⟩))
        | ok c =>
          obtain ⟨_, hroom, _⟩ := (h.create hcreate).2 c rfl
          have hpush : pushBack maxChannelNumber g.channels c = (true, g.channels ++ [c]) :=
            if_pos hroom
          refine Or.inr (Or.inr (Or.inr ⟨hwildcard, rfl, c, terminals, rfl, hpush, ?_⟩))
          simp only [hpush]

theorem Regular.push (h : g.Regular) (hwildcard : isWildcard service = false)
    (hfind : g.findChannel service = none) {c : Channel}
    (hcreate : Channel.create (g.describe service) options g.terminals = (.ok c, terminals)) :
    Regular { g with
      channels := g.channels ++ [c]
      terminals := terminals } := by
  obtain ⟨hservice, _, hiceoryx, hexternal⟩ := (h.create hcreate).2 c rfl
  have hkey : c.service.key = service.key := by rw [hservice, describe_key]
  refine ⟨?_, ?_, ?_, ?_⟩
  · rw [List.map_append]
    refine List.nodup_append.mpr ⟨h.services, List.nodup_singleton _, ?_⟩
    intro k hk k' hk'
    have hnew : k' = service.key := (List.mem_singleton.mp hk').trans hkey
    rw [hnew]
    exact ne_of_mem_of_not_mem hk (findChannel_eq_none_iff.mp hfind)
  · intro d hd
    rcases List.mem_append.mp hd with hd | hd
    · exact h.noWildcard d hd
    · rw [List.mem_singleton.mp hd, isWildcard_congr hkey]
      exact hwildcard
  · rwa [List.map_append]
  · rwa [List.map_append]

theorem discardChannel_cases (g : GatewayGeneric maxChannelNumber Options)
    (service : ServiceDescription) :
    (service.key ∉ (g.channels.map fun c => c.service.key) ∧
      g.discardChannel service = (.error .nonexistantChannel, g)) ∨
    ∃ before c after, g.channels = before ++ c :: after ∧ c.service.key = service.key ∧
      g.discardChannel service = (.ok (), { g with channels := before ++ after }) := by
  unfold discardChannel
  split
  · next i hi =>
    obtain ⟨before, c, after, heq, hkey, _, herase⟩ :=
      eraseIdx_findIdx?_key (fun c : Channel => c.service.key) hi
    refine Or.inr ⟨before, c, after, heq, hkey, ?_⟩
    rw [herase]
  · next hnone =>
    refine Or.inl ⟨?_, rfl⟩
    rw [List.findIdx?_eq_none_iff] at hnone
    rw [List.mem_map]
    rintro ⟨c, hc, hkey⟩
    exact absurd (hnone c hc) (by simp [hkey])

theorem Regular.discard (h : g.Regular) {before after : List Channel} {c : Channel}
    (heq : g.channels = before ++ c :: after) :
    Regular { g with channels := before ++ after } := by
  have hsub : (before ++ after).Sublist g.channels := by
    rw [heq]
    exact (List.sublist_cons_self c after).append_left before
  exact
    { services := h.services.sublist (hsub.map _)
      noWildcard := fun d hd => h.noWildcard d (hsub.subset hd)
      iceoryxTerminals := h.iceoryxTerminals.sublist (hsub.map _)
      externalTerminals := h.externalTerminals.sublist (hsub.map _) }

end GatewayGeneric

/-- The pools are static: others create channels as well, and a terminal is freed when the last
copy of its channel is gone. -/
inductive GatewayOp (Options : Type u)
  | addChannel (service : ServiceDescription) (options : Options)
  | findChannel (service : ServiceDescription)
  | discardChannel (service : ServiceDescription)
  | createElsewhere (service : ServiceDescription) (options : Options)
  | freeIceoryxTerminal (cell : Nat)
  | freeExternalTerminal (cell : Nat)

structure GatewayRun (maxChannelNumber : Nat) (Options : Type u) where
  gateway : GatewayGeneric maxChannelNumber Options
  services : Finset (String × String × String)

namespace GatewayRun

open GatewayGeneric

def start (interface : Interfaces) (terminals : Terminals maxChannelNumber Options) :
    GatewayRun maxChannelNumber Options where
  gateway :=
    { interface := interface
      terminals := terminals }
  services := ∅

def setTerminals (s : GatewayRun maxChannelNumber Options)
    (terminals : Terminals maxChannelNumber Options) : GatewayRun maxChannelNumber Options :=
  { s with gateway := { s.gateway with terminals := terminals } }

def step (s : GatewayRun maxChannelNumber Options) :
    GatewayOp Options → Option (GatewayRun maxChannelNumber Options)
  | .addChannel service options =>
    match s.gateway.addChannel service options with
    | (.ok _, g) => some
      { gateway := g
        services := insert service.key s.services }
    | (.error _, g) => some { s with gateway := g }
  | .findChannel _ => some s
  | .discardChannel service =>
    match s.gateway.discardChannel service with
    | (.ok _, g) => some
      { gateway := g
        services := s.services.erase service.key }
    | (.error _, g) => some { s with gateway := g }
  | .createElsewhere service options =>
    some (s.setTerminals (Channel.create service options s.gateway.terminals).2)
  | .freeIceoryxTerminal cell =>
    if cell ∈ s.gateway.channels.map Channel.iceoryxTerminal then none
    else some (s.setTerminals { s.gateway.terminals with
      iceoryxTerminals := s.gateway.terminals.iceoryxTerminals.free cell })
  | .freeExternalTerminal cell =>
    if cell ∈ s.gateway.channels.map Channel.externalTerminal then none
    else some (s.setTerminals { s.gateway.terminals with
      externalTerminals := s.gateway.terminals.externalTerminals.free cell })

structure Booked (s : GatewayRun maxChannelNumber Options) : Prop where
  regular : s.gateway.Regular
  services : s.services = (s.gateway.channels.map fun c => c.service.key).toFinset

variable {s s' : GatewayRun maxChannelNumber Options}

theorem Booked.start (interface : Interfaces) (terminals : Terminals maxChannelNumber Options) :
    (start interface terminals).Booked :=
  ⟨⟨List.nodup_nil, nofun, ⟨List.nodup_nil, nofun⟩, ⟨List.nodup_nil, nofun⟩⟩, rfl⟩

theorem Booked.step (h : s.Booked) {op : GatewayOp Options} (hs : s.step op = some s') :
    s'.Booked := by
  obtain ⟨hregular, hservices⟩ := h
  cases op with
  | addChannel service options =>
    rcases addChannel_cases hregular service options with
      ⟨_, heq⟩ | ⟨_, c, hfind, heq⟩ | ⟨_, _, e, terminals, hcreate, heq⟩ |
        ⟨hwildcard, hfind, c, terminals, hcreate, _, heq⟩
    · simp only [GatewayRun.step, heq] at hs
      cases hs
      exact ⟨hregular, hservices⟩
    · simp only [GatewayRun.step, heq] at hs
      cases hs
      refine ⟨hregular, ?_⟩
      obtain ⟨hc, hkey⟩ := hregular.findChannel_eq_some_iff.mp hfind
      have hmem : service.key ∈ s.services := by
        rw [hservices, List.mem_toFinset, ← hkey]
        exact List.mem_map_of_mem hc
      rw [Finset.insert_eq_self.mpr hmem, hservices]
    · simp only [GatewayRun.step, heq] at hs
      cases hs
      exact ⟨(hregular.create hcreate).1, hservices⟩
    · simp only [GatewayRun.step, heq] at hs
      cases hs
      refine ⟨hregular.push hwildcard hfind hcreate, ?_⟩
      have hkey : c.service.key = service.key := by
        rw [((hregular.create hcreate).2 c rfl).1, describe_key]
      rw [List.map_append, List.toFinset_append, ← hservices, List.map_cons, List.map_nil, hkey]
      exact (Finset.union_comm s.services {service.key}).symm
  | findChannel service =>
    cases hs
    exact ⟨hregular, hservices⟩
  | discardChannel service =>
    rcases discardChannel_cases s.gateway service with
      ⟨_, heq⟩ | ⟨before, c, after, hchannels, hkey, heq⟩
    · simp only [GatewayRun.step, heq] at hs
      cases hs
      exact ⟨hregular, hservices⟩
    · simp only [GatewayRun.step, heq] at hs
      cases hs
      refine ⟨hregular.discard hchannels, ?_⟩
      have hnodup := hregular.services
      rw [hchannels, List.map_append, List.map_cons] at hnodup
      rw [List.nodup_middle, List.nodup_cons] at hnodup
      refine Finset.ext fun k => ?_
      simp only [hservices, hchannels, Finset.mem_erase, List.mem_toFinset, List.map_append,
        List.map_cons, List.mem_append, List.mem_cons, ← hkey]
      constructor
      · rintro ⟨hne, hk | hk | hk⟩
        · exact Or.inl hk
        · exact absurd hk hne
        · exact Or.inr hk
      · intro hk
        refine ⟨?_, hk.imp_right Or.inr⟩
        rintro rfl
        exact hnodup.1 (List.mem_append.mpr hk)
  | createElsewhere service options =>
    cases hs
    exact ⟨(hregular.create rfl).1, hservices⟩
  | freeIceoryxTerminal cell =>
    simp only [GatewayRun.step] at hs
    split at hs
    · cases hs
    · next hcell =>
      cases hs
      exact ⟨⟨hregular.services, hregular.noWildcard, hregular.iceoryxTerminals.free hcell,
        hregular.externalTerminals⟩, hservices⟩
  | freeExternalTerminal cell =>
    simp only [GatewayRun.step] at hs
    split at hs
    · cases hs
    · next hcell =>
      cases hs
      exact ⟨⟨hregular.services, hregular.noWildcard, hregular.iceoryxTerminals,
        hregular.externalTerminals.free hcell⟩, hservices⟩

structure Registry (s : GatewayRun maxChannelNumber Options) : Prop where
  fails_iff : ∀ service options, (∃ e, (s.gateway.addChannel service options).1 = .error e) ↔
    isWildcard service = true ∨ (s.gateway.findChannel service = none ∧
      ((∃ e, (Channel.create (s.gateway.describe service) options s.gateway.terminals).1 =
          .error e) ∨
        ∀ c, (pushBack maxChannelNumber s.gateway.channels c).1 = false))
  stores : ∀ service options c g, s.gateway.addChannel service options = (.ok c, g) →
    g.channels.filter (fun d => d.service.key = service.key) = [c] ∧ g.findChannel service = some c
  existing : ∀ service options c, s.gateway.findChannel service = some c →
    s.gateway.addChannel service options = (.ok c, s.gateway)
  discards_iff : ∀ service, (s.gateway.discardChannel service).1 = .ok () ↔
    ∃ c ∈ s.gateway.channels, c.service.key = service.key
  discards : ∀ service g, s.gateway.discardChannel service = (.ok (), g) →
    ∃ before c after, s.gateway.channels = before ++ c :: after ∧ c.service.key = service.key ∧
      g = { s.gateway with channels := before ++ after } ∧ g.findChannel service = none
  keeps : ∀ service e g, s.gateway.discardChannel service = (.error e, g) → g = s.gateway
  number : s.gateway.getNumberOfChannels = s.services.card

theorem Booked.fails_iff (h : s.Booked) (service : ServiceDescription) (options : Options) :
    (∃ e, (s.gateway.addChannel service options).1 = .error e) ↔
      isWildcard service = true ∨ (s.gateway.findChannel service = none ∧
        ((∃ e, (Channel.create (s.gateway.describe service) options s.gateway.terminals).1 =
            .error e) ∨
          ∀ c, (pushBack maxChannelNumber s.gateway.channels c).1 = false)) := by
  rcases addChannel_cases h.regular service options with
    ⟨hwildcard, heq⟩ | ⟨hwildcard, c, hfind, heq⟩ | ⟨hwildcard, hfind, e, terminals, hcreate, heq⟩ |
      ⟨hwildcard, hfind, c, terminals, hcreate, hpush, heq⟩
  · rw [heq]
    exact iff_of_true ⟨_, rfl⟩ (Or.inl hwildcard)
  · rw [heq, hwildcard, hfind]
    simp
  · rw [heq, hcreate]
    exact iff_of_true ⟨_, rfl⟩ (Or.inr ⟨hfind, Or.inl ⟨e, rfl⟩⟩)
  · rw [heq, hcreate, hwildcard, hfind]
    refine iff_of_false (fun ⟨_, he⟩ => nomatch he) ?_
    rintro (hfalse | ⟨_, ⟨_, he⟩ | hfull⟩)
    · cases hfalse
    · cases he
    · have := hfull c
      rw [hpush] at this
      cases this

theorem Booked.stores (h : s.Booked) {service : ServiceDescription} {options : Options}
    {c : Channel} {g : GatewayGeneric maxChannelNumber Options}
    (hadd : s.gateway.addChannel service options = (.ok c, g)) :
    g.channels.filter (fun d => d.service.key = service.key) = [c] ∧
      g.findChannel service = some c := by
  have hfound : g.Regular ∧ c ∈ g.channels ∧ c.service.key = service.key := by
    rcases addChannel_cases h.regular service options with
      ⟨_, heq⟩ | ⟨_, d, hfind, heq⟩ | ⟨_, _, e, terminals, _, heq⟩ |
        ⟨hwildcard, hfind, d, terminals, hcreate, _, heq⟩
    · rw [heq] at hadd
      cases hadd
    · rw [heq] at hadd
      cases hadd
      exact ⟨h.regular, h.regular.findChannel_eq_some_iff.mp hfind⟩
    · rw [heq] at hadd
      cases hadd
    · rw [heq] at hadd
      cases hadd
      refine ⟨h.regular.push hwildcard hfind hcreate, ?_, ?_⟩
      · exact List.mem_append.mpr (Or.inr (List.mem_singleton_self _))
      · rw [((h.regular.create hcreate).2 _ rfl).1, describe_key]
  obtain ⟨hregular, hc, hkey⟩ := hfound
  constructor
  · rw [← hkey]
    exact filter_key_eq_singleton hregular.services hc
  · exact hregular.findChannel_eq_some_iff.mpr ⟨hc, hkey⟩

theorem Booked.existing (h : s.Booked) {service : ServiceDescription} (options : Options)
    {c : Channel} (hfind : s.gateway.findChannel service = some c) :
    s.gateway.addChannel service options = (.ok c, s.gateway) := by
  obtain ⟨hc, hkey⟩ := h.regular.findChannel_eq_some_iff.mp hfind
  have hwildcard := h.regular.noWildcard c hc
  rw [isWildcard_congr hkey] at hwildcard
  simp only [addChannel, hwildcard, hfind, Bool.false_eq_true, if_false]

theorem Booked.discards (h : s.Booked) {service : ServiceDescription}
    {g : GatewayGeneric maxChannelNumber Options}
    (hdiscard : s.gateway.discardChannel service = (.ok (), g)) :
    ∃ before c after, s.gateway.channels = before ++ c :: after ∧ c.service.key = service.key ∧
      g = { s.gateway with channels := before ++ after } ∧ g.findChannel service = none := by
  rcases discardChannel_cases s.gateway service with
    ⟨_, heq⟩ | ⟨before, c, after, hchannels, hkey, heq⟩
  · rw [heq] at hdiscard
    cases hdiscard
  · rw [heq] at hdiscard
    cases hdiscard
    refine ⟨before, c, after, hchannels, hkey, rfl, ?_⟩
    have hnodup := h.regular.services
    rw [hchannels, List.map_append, List.map_cons, List.nodup_middle, List.nodup_cons, hkey,
      ← List.map_append] at hnodup
    exact findChannel_eq_none_iff.mpr hnodup.1

theorem Booked.registry (h : s.Booked) : s.Registry where
  fails_iff := h.fails_iff
  stores := fun _ _ _ _ hadd => h.stores hadd
  existing := fun _ options _ hfind => h.existing options hfind
  discards_iff := by
    intro service
    rcases discardChannel_cases s.gateway service with
      ⟨hnone, heq⟩ | ⟨before, c, after, hchannels, hkey, heq⟩
    · rw [heq]
      refine iff_of_false (fun hok => nomatch hok) ?_
      rintro ⟨c, hc, hkey⟩
      exact hnone (List.mem_map.mpr ⟨c, hc, hkey⟩)
    · rw [heq, hchannels]
      exact iff_of_true rfl ⟨c, List.mem_append.mpr (Or.inr List.mem_cons_self), hkey⟩
  discards := fun _ _ hdiscard => h.discards hdiscard
  keeps := by
    intro service e g hdiscard
    rcases discardChannel_cases s.gateway service with ⟨_, heq⟩ | ⟨before, c, after, _, _, heq⟩
    · rw [heq] at hdiscard
      cases hdiscard
      rfl
    · rw [heq] at hdiscard
      cases hdiscard
  number := by
    rw [h.services, List.toFinset_card_of_nodup h.regular.services, List.length_map]
    rfl

/-- In every run: what is reported as added is stored, since the pools run out of terminals
before the collection is full. -/
theorem registry_of_run {interface : Interfaces} {terminals : Terminals maxChannelNumber Options}
    {ops : List (GatewayOp Options)} (h : runSteps step (start interface terminals) ops = some s) :
    s.Registry := by
  have hbooked := runSteps_invariant (C := fun _ _ => True)
    (fun _ _ _ hs _ hstep => Booked.step hs hstep) ops _ s (Booked.start interface terminals)
    (meets_true ops _) h
  exact hbooked.registry

def twoTerminals : Terminals 2 Unit where
  iceoryxTerminals := ObjectPool.empty (by decide)
  externalTerminals := ObjectPool.empty (by decide)

def named (name : String) : ServiceDescription where
  serviceString := name
  instanceString := "instance"
  eventString := "event"

theorem registry_of_run_twoTerminals : ∃ s, runSteps step (start .dds twoTerminals)
    [.addChannel (named "first") (), .addChannel (named "second") (),
      .discardChannel (named "first"), .freeIceoryxTerminal 0, .freeExternalTerminal 0,
      .addChannel (named "third") ()] = some s ∧ s.Registry := by
  obtain ⟨s, hs⟩ : ∃ s, runSteps step (start .dds twoTerminals)
      [.addChannel (named "first") (), .addChannel (named "second") (),
        .discardChannel (named "first"), .freeIceoryxTerminal 0, .freeExternalTerminal 0,
        .addChannel (named "third") ()] = some s := ⟨_, rfl⟩
  exact ⟨s, hs, registry_of_run hs⟩

end GatewayRun

end Iceoryx.Gw
