import Mathlib.Data.Finset.Card
import Mathlib.Data.Multiset.Filter
import Iceoryx.Roudi.ServiceRegistry

namespace Iceoryx.Roudi

open Capro

abbrev ServiceOffers := Multiset (ReferenceCounter × ServiceRegistry.Key)

inductive RegistryCall
  | addPublisher (d : ServiceDescription)
  | addServer (d : ServiceDescription)
  | removePublisher (d : ServiceDescription)
  | removeServer (d : ServiceDescription)
  | purge (d : ServiceDescription)

namespace ServiceOffers

def counts (s : ServiceOffers) (k : ReferenceCounter) (x : ServiceRegistry.Key) : Nat :=
  s.count (k, x)

def services (s : ServiceOffers) : Finset ServiceRegistry.Key := (s.map Prod.snd).toFinset

theorem mem_services {s : ServiceOffers} {x : ServiceRegistry.Key} :
    x ∈ s.services ↔ ∃ k, (k, x) ∈ s := by
  rw [services, Multiset.mem_toFinset, Multiset.mem_map]
  constructor
  · rintro ⟨⟨k, x⟩, hmem, rfl⟩
    exact ⟨k, hmem⟩
  · rintro ⟨k, hmem⟩
    exact ⟨(k, x), hmem, rfl⟩

def add (capacity : Nat) (s : ServiceOffers) (d : ServiceDescription) (k : ReferenceCounter) :
    ServiceOffers :=
  if d.key ∉ s.services ∧ capacity ≤ s.services.card then s else (k, d.key) ::ₘ s

def step (capacity : Nat) (s : ServiceOffers) : RegistryCall → ServiceOffers
  | .addPublisher d => s.add capacity d .publisherCount
  | .addServer d => s.add capacity d .serverCount
  | .removePublisher d => s.erase (.publisherCount, d.key)
  | .removeServer d => s.erase (.serverCount, d.key)
  | .purge d => s.filter fun offer => offer.2 ≠ d.key

theorem card_step_le (capacity : Nat) (s : ServiceOffers) (c : RegistryCall) :
    (s.step capacity c).card ≤ s.card + 1 := by
  have hadd : ∀ d k, (s.add capacity d k).card ≤ s.card + 1 := by
    intro d k
    unfold add
    split
    · exact Nat.le_succ _
    · rw [Multiset.card_cons]
  have herase : ∀ offer, (s.erase offer).card ≤ s.card + 1 := fun offer =>
    Nat.le_succ_of_le (Multiset.card_le_card (Multiset.erase_le offer s))
  cases c with
  | addPublisher d => exact hadd d .publisherCount
  | addServer d => exact hadd d .serverCount
  | removePublisher d => exact herase _
  | removeServer d => exact herase _
  | purge d => exact Nat.le_succ_of_le (Multiset.card_le_card (Multiset.filter_le _ s))

theorem card_run_le (capacity : Nat) (calls : List RegistryCall) (s : ServiceOffers) :
    (calls.foldl (step capacity) s).card ≤ s.card + calls.length := by
  induction calls generalizing s with
  | nil => exact Nat.le_refl _
  | cons c calls ih =>
    have hrest := ih (s.step capacity c)
    have hstep := card_step_le capacity s c
    rw [List.foldl_cons, List.length_cons]
    omega

end ServiceOffers

namespace ServiceRegistry

def step (capacity : Nat) (r : ServiceRegistry) : RegistryCall → ServiceRegistry
  | .addPublisher d => (r.addPublisher capacity d).getD r
  | .addServer d => (r.addServer capacity d).getD r
  | .removePublisher d => r.removePublisher d
  | .removeServer d => r.removeServer d
  | .purge d => r.purge d

def Matches (service inst event : Option String) (e : ServiceDescriptionEntry) : Prop :=
  (∀ x ∈ service, e.serviceDescription.serviceString = x) ∧
    (∀ x ∈ inst, e.serviceDescription.instanceString = x) ∧
      ∀ x ∈ event, e.serviceDescription.eventString = x

def Full (capacity : Nat) (r : ServiceRegistry) : Prop :=
  r.serviceDescriptions.length = capacity ∧ ∀ o ∈ r.serviceDescriptions, o ≠ none

structure Represents (capacity : Nat) (r : ServiceRegistry) (s : ServiceOffers) : Prop where
  counters : ∀ i e, r.get i = some e → ∀ k, e.count k = s.count (k, e.serviceDescription.key)
  unique : ∀ i j e f, r.get i = some e → r.get j = some f →
    e.serviceDescription.key = f.serviceDescription.key → i = j
  entries : ∀ x, (∃ i e, r.get i = some e ∧ e.serviceDescription.key = x) ↔ ∃ k, (k, x) ∈ s
  add : ∀ d k, r.add capacity d k = none ↔ (∀ k', (k', d.key) ∉ s) ∧ r.Full capacity
  remove : ∀ d k, (k, d.key) ∉ s → r.remove d k = r
  freeIndex : ∀ i, r.freeIndex = some i → r.serviceDescriptions[i]? = some none
  find : ∀ service inst event, ∃ calls : List ServiceDescriptionEntry, calls.Nodup ∧
    (∀ e, e ∈ calls ↔ (∃ i, r.get i = some e) ∧ Matches service inst event e) ∧
    ∀ (S : Type) (callable : S → ServiceDescriptionEntry → S) (s : S),
      r.find service inst event (some callable) s = calls.foldl callable s

variable {capacity : Nat} {r r' : ServiceRegistry} {s : ServiceOffers} {d : ServiceDescription}
  {k : ReferenceCounter}

def entries (r : ServiceRegistry) : List ServiceDescriptionEntry :=
  r.serviceDescriptions.filterMap id

theorem mem_entries {e : ServiceDescriptionEntry} : e ∈ r.entries ↔ ∃ i, r.get i = some e := by
  rw [entries, List.mem_filterMap]
  constructor
  · rintro ⟨o, ho, rfl⟩
    obtain ⟨i, hi⟩ := List.mem_iff_getElem?.mp ho
    exact ⟨i, get_of_getElem? hi⟩
  · rintro ⟨i, hi⟩
    exact ⟨some e, List.mem_of_getElem? (getElem?_of_get hi), rfl⟩

theorem isMatch_iff {service inst event : Option String} {e : ServiceDescriptionEntry} :
    isMatch service inst event e = true ↔ Matches service inst event e := by
  have hid : ∀ (o : Option String) (x : String),
      (o.map fun y => decide (x = y)).getD true = true ↔ ∀ y ∈ o, x = y := by
    intro o x
    cases o with
    | none => simp
    | some y => simp
  simp only [isMatch, Matches, Bool.and_eq_true, hid, and_assoc]

theorem find_eq_foldl {S : Type} (service inst event : Option String)
    (callable : S → ServiceDescriptionEntry → S) (s : S) :
    r.find service inst event (some callable) s =
      (r.entries.filter (isMatch service inst event)).foldl callable s := by
  unfold entries
  dsimp only [find]
  generalize r.serviceDescriptions = slots
  induction slots generalizing s with
  | nil => rfl
  | cons o slots ih =>
    cases o with
    | none => exact ih s
    | some e =>
      have hentry : (some e :: slots).filterMap id = e :: slots.filterMap id := rfl
      rw [List.foldl_cons, ih, hentry, List.filter_cons]
      dsimp only
      split <;> rfl

theorem nodup_keys {n : ReferenceCounter → Key → Nat} (h : Mirrors r n) :
    (r.entries.map fun e => e.serviceDescription.key).Nodup := by
  rw [List.Nodup, List.pairwise_map, entries, List.pairwise_filterMap, List.pairwise_iff_getElem]
  intro i j hi hj hij e he f hf heq
  refine Nat.ne_of_lt hij (h.unique i j e f (get_of_getElem? ?_) (get_of_getElem? ?_) heq)
  · rw [List.getElem?_eq_getElem hi]
    exact congrArg some he
  · rw [List.getElem?_eq_getElem hj]
    exact congrArg some hf

theorem Mirrors.mem_services (h : Mirrors r s.counts) (x : Key) :
    x ∈ s.services ↔ ∃ i e, r.get i = some e ∧ e.serviceDescription.key = x := by
  rw [ServiceOffers.mem_services]
  constructor
  · rintro ⟨k, hmem⟩
    exact h.complete k x (Multiset.count_pos.mpr hmem)
  · rintro ⟨i, e, hi, rfl⟩
    have hused := h.used i e hi
    obtain ⟨k, hk⟩ : ∃ k, e.count k ≠ 0 := by
      rw [← not_forall, ← e.total_eq_zero]
      omega
    rw [h.counts i e hi] at hk
    exact ⟨k, Multiset.count_ne_zero.mp hk⟩

theorem Mirrors.card_services (h : Mirrors r s.counts) : s.services.card = r.entries.length := by
  have hservices : s.services = (r.entries.map fun e => e.serviceDescription.key).toFinset := by
    ext x
    simp only [h.mem_services, List.mem_toFinset, List.mem_map, mem_entries]
    constructor
    · rintro ⟨i, e, hi, hkey⟩
      exact ⟨e, ⟨i, hi⟩, hkey⟩
    · rintro ⟨e, ⟨i, hi⟩, hkey⟩
      exact ⟨i, e, hi, hkey⟩
  rw [hservices, List.toFinset_card_of_nodup (nodup_keys h), List.length_map]

theorem Mirrors.full_iff (h : Mirrors r s.counts)
    (hlength : r.serviceDescriptions.length ≤ capacity) :
    r.Full capacity ↔ capacity ≤ s.services.card := by
  have hcount : r.entries.length = r.serviceDescriptions.countP Option.isSome :=
    List.length_filterMap_eq_countP
  have hle := List.countP_le_length (p := Option.isSome) (l := r.serviceDescriptions)
  rw [h.card_services, hcount]
  constructor
  · rintro ⟨hall, hsome⟩
    rw [List.countP_eq_length.mpr fun o ho => Option.isSome_iff_ne_none.mpr (hsome o ho), hall]
  · intro hcapacity
    refine ⟨by omega, fun o ho => ?_⟩
    exact Option.isSome_iff_ne_none.mp (List.countP_eq_length.mp (by omega) o ho)

theorem add_length_le (hlength : r.serviceDescriptions.length ≤ capacity)
    (hadd : r.add capacity d k = some r') : r'.serviceDescriptions.length ≤ capacity := by
  unfold add at hadd
  split at hadd
  · cases hadd
    rw [List.length_modify]
    exact hlength
  · split at hadd
    · cases hadd
      rw [List.length_set]
      exact hlength
    · split at hadd
      · cases hadd
        rw [List.length_set]
        exact hlength
      · split at hadd
        · next hroom =>
          cases hadd
          rw [List.length_append]
          exact hroom
        · cases hadd

theorem length_remove :
    (r.remove d k).serviceDescriptions.length = r.serviceDescriptions.length := by
  unfold remove
  split
  · rfl
  · split
    · rfl
    · split
      · dsimp only
        split <;> exact List.length_set
      · rfl

theorem length_purge :
    (r.purge d).serviceDescriptions.length = r.serviceDescriptions.length := by
  unfold purge
  split
  · rfl
  · exact List.length_set

theorem mirrors_start : Mirrors {} (ServiceOffers.counts 0) := by
  have hzero : ServiceOffers.counts 0 = fun _ _ => 0 := by
    funext k x
    exact Multiset.count_zero _
  rw [hzero]
  exact mirrors_empty

structure Inv (capacity : Nat) (r : ServiceRegistry) (s : ServiceOffers) : Prop where
  mirrors : Mirrors r s.counts
  length : r.serviceDescriptions.length ≤ capacity

theorem Inv.add_eq_none_iff (h : Inv capacity r s) :
    r.add capacity d k = none ↔ d.key ∉ s.services ∧ capacity ≤ s.services.card := by
  have habsent : r.findIndex d = none ↔ d.key ∉ s.services := by
    rw [h.mirrors.mem_services]
    constructor
    · rintro hnone ⟨i, e, hi, hkey⟩
      exact findIndex_none hnone hi hkey
    · intro hnot
      cases hfind : r.findIndex d with
      | none => rfl
      | some i =>
        obtain ⟨e, hi, hkey⟩ := findIndex_some hfind
        exact absurd ⟨i, e, hi, hkey⟩ hnot
  rw [h.mirrors.add_eq_none, habsent, ← h.mirrors.full_iff h.length]
  refine and_congr_right fun _ => ?_
  constructor
  · rintro ⟨hsome, hle⟩
    exact ⟨Nat.le_antisymm h.length hle, hsome⟩
  · rintro ⟨hall, hsome⟩
    exact ⟨hsome, Nat.le_of_eq hall.symm⟩

theorem Inv.add (h : Inv capacity r s) (d : ServiceDescription) (k : ReferenceCounter) :
    Inv capacity ((r.add capacity d k).getD r) (s.add capacity d k) := by
  unfold ServiceOffers.add
  cases hadd : r.add capacity d k with
  | none =>
    rw [if_pos (h.add_eq_none_iff.mp hadd)]
    exact h
  | some r' =>
    rw [if_neg fun hfull => nomatch hadd.symm.trans (h.add_eq_none_iff.mpr hfull)]
    refine ⟨(h.mirrors.of_add (fun l x => ?_) hadd).1, add_length_le h.length hadd⟩
    rw [ServiceOffers.counts, Multiset.count_cons]
    simp only [Prod.mk.injEq]
    split <;> rfl

theorem Inv.remove (h : Inv capacity r s) (d : ServiceDescription) (k : ReferenceCounter) :
    Inv capacity (r.remove d k) (s.erase (k, d.key)) := by
  by_cases hmem : (k, d.key) ∈ s
  · refine ⟨(h.mirrors.remove (Multiset.count_pos.mpr hmem) fun l x => ?_).1, ?_⟩
    · rw [ServiceOffers.counts]
      split
      · next heq =>
        obtain ⟨rfl, rfl⟩ := heq
        exact Multiset.count_erase_self _ _
      · next hne =>
        exact Multiset.count_erase_of_ne (fun heq => hne (Prod.mk.inj heq)) _
    · rw [length_remove]
      exact h.length
  · rw [Multiset.erase_of_notMem hmem, h.mirrors.remove_eq_self (Multiset.count_eq_zero.mpr hmem)]
    exact h

theorem Inv.purge (h : Inv capacity r s) (d : ServiceDescription) :
    Inv capacity (r.purge d) (s.filter fun offer => offer.2 ≠ d.key) := by
  refine ⟨h.mirrors.purge d fun l x => ?_, ?_⟩
  · rw [ServiceOffers.counts, Multiset.count_filter]
    by_cases hx : x = d.key
    · rw [if_neg (not_not.mpr hx), if_pos hx]
    · rw [if_pos hx, if_neg hx]
      rfl
  · rw [length_purge]
    exact h.length

theorem Inv.step (h : Inv capacity r s) (c : RegistryCall) :
    Inv capacity (r.step capacity c) (s.step capacity c) := by
  cases c with
  | addPublisher d => exact h.add d .publisherCount
  | addServer d => exact h.add d .serverCount
  | removePublisher d => exact h.remove d .publisherCount
  | removeServer d => exact h.remove d .serverCount
  | purge d => exact h.purge d

theorem Inv.run (h : Inv capacity r s) (calls : List RegistryCall) :
    Inv capacity (calls.foldl (ServiceRegistry.step capacity) r)
      (calls.foldl (ServiceOffers.step capacity) s) := by
  induction calls generalizing r s with
  | nil => exact h
  | cons c calls ih => exact ih (h.step c)

theorem Inv.represents (h : Inv capacity r s) : Represents capacity r s where
  counters := h.mirrors.counts
  unique := h.mirrors.unique
  entries := fun x => by rw [← h.mirrors.mem_services, ServiceOffers.mem_services]
  add := fun d k => by
    rw [h.add_eq_none_iff, h.mirrors.full_iff h.length, ServiceOffers.mem_services, not_exists]
  remove := fun d k hnot => h.mirrors.remove_eq_self (Multiset.count_eq_zero.mpr hnot)
  freeIndex := h.mirrors.free
  find := fun service inst event => by
    refine ⟨r.entries.filter (isMatch service inst event), ?_, fun e => ?_, fun S callable s => ?_⟩
    · exact ((nodup_keys h.mirrors).of_map _).filter _
    · rw [List.mem_filter, mem_entries, isMatch_iff]
    · exact find_eq_foldl service inst event callable s

/-- A counter, which is a `uint64_t`, would overflow after 2 ^ 64 calls at the earliest. -/
theorem count_le_length (calls : List RegistryCall) {i : Nat} {e : ServiceDescriptionEntry}
    (hi : (calls.foldl (step capacity) {}).get i = some e) (k : ReferenceCounter) :
    e.count k ≤ calls.length := by
  have hinv : Inv capacity (calls.foldl (step capacity) {})
      (calls.foldl (ServiceOffers.step capacity) 0) :=
    Inv.run ⟨mirrors_start, Nat.zero_le capacity⟩ calls
  have hcard := ServiceOffers.card_run_le capacity calls 0
  rw [hinv.mirrors.counts i e hi k]
  refine (Multiset.count_le_card _ _).trans (hcard.trans ?_)
  rw [Multiset.card_zero, Nat.zero_add]

theorem registry_represents_offers (capacity : Nat) (calls : List RegistryCall) :
    Represents capacity (calls.foldl (step capacity) {})
      (calls.foldl (ServiceOffers.step capacity) 0) :=
  (Inv.run ⟨mirrors_start, Nat.zero_le capacity⟩ calls).represents

end ServiceRegistry

end Iceoryx.Roudi
