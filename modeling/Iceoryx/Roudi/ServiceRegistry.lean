import Iceoryx.Capro.Message
import Iceoryx.Lib.Sum

namespace Iceoryx.Roudi

open Capro

structure ServiceDescriptionEntry where
  serviceDescription : ServiceDescription
  publisherCount : Nat := 0
  serverCount : Nat := 0
  deriving DecidableEq, Repr

inductive ReferenceCounter
  | publisherCount | serverCount
  deriving DecidableEq, Repr

namespace ServiceDescriptionEntry

def count (e : ServiceDescriptionEntry) : ReferenceCounter → Nat
  | .publisherCount => e.publisherCount
  | .serverCount => e.serverCount

def setCount (e : ServiceDescriptionEntry) (n : Nat) : ReferenceCounter → ServiceDescriptionEntry
  | .publisherCount => { e with publisherCount := n }
  | .serverCount => { e with serverCount := n }

def total (e : ServiceDescriptionEntry) : Nat := e.publisherCount + e.serverCount

@[simp] theorem count_setCount (e : ServiceDescriptionEntry) (n : Nat) (k l : ReferenceCounter) :
    (e.setCount n k).count l = if l = k then n else e.count l := by
  cases k <;> cases l <;> rfl

@[simp] theorem serviceDescription_setCount (e : ServiceDescriptionEntry) (n : Nat)
    (k : ReferenceCounter) : (e.setCount n k).serviceDescription = e.serviceDescription := by
  cases k <;> rfl

theorem total_setCount (e : ServiceDescriptionEntry) (n : Nat) (k : ReferenceCounter) :
    (e.setCount n k).total + e.count k = e.total + n := by
  cases k <;> simp [setCount, total, count] <;> omega

theorem total_eq_zero (e : ServiceDescriptionEntry) :
    e.total = 0 ↔ ∀ k, e.count k = 0 := by
  constructor
  · intro h k
    cases k <;> simp [total, count] at * <;> omega
  · intro h
    have hp := h .publisherCount
    have hs := h .serverCount
    simp only [count] at hp hs
    simp [total, hp, hs]

end ServiceDescriptionEntry

/-- `freeIndex` is `none` for the source's `NO_INDEX`. -/
structure ServiceRegistry where
  serviceDescriptions : List (Option ServiceDescriptionEntry) := []
  freeIndex : Option Nat := none
  deriving DecidableEq, Repr

namespace ServiceRegistry

def findIndex (r : ServiceRegistry) (d : ServiceDescription) : Option Nat :=
  r.serviceDescriptions.findIdx? fun e => e.any fun e => e.serviceDescription.Same d

def newEntry (d : ServiceDescription) (k : ReferenceCounter) : ServiceDescriptionEntry :=
  { serviceDescription := d : ServiceDescriptionEntry }.setCount 1 k

/-- `none` is the error `SERVICE_REGISTRY_FULL`. -/
def add (capacity : Nat) (r : ServiceRegistry) (d : ServiceDescription) (k : ReferenceCounter) :
    Option ServiceRegistry :=
  match r.findIndex d with
  | some i => some { r with
      serviceDescriptions := r.serviceDescriptions.modify i
        (Option.map fun e => e.setCount (e.count k + 1) k) }
  | none =>
    match r.freeIndex with
    | some i => some {
        serviceDescriptions := r.serviceDescriptions.set i (some (newEntry d k))
        freeIndex := none }
    | none =>
      match r.serviceDescriptions.findIdx? Option.isNone with
      | some i => some { r with
          serviceDescriptions := r.serviceDescriptions.set i (some (newEntry d k)) }
      | none =>
        if r.serviceDescriptions.length < capacity then some { r with
          serviceDescriptions := r.serviceDescriptions ++ [some (newEntry d k)] }
        else none

def remove (r : ServiceRegistry) (d : ServiceDescription) (k : ReferenceCounter) :
    ServiceRegistry :=
  match r.findIndex d with
  | none => r
  | some i =>
    match r.serviceDescriptions[i]?.join with
    | none => r
    | some e =>
      if 1 ≤ e.count k then
        let e := e.setCount (e.count k - 1) k
        if e.total = 0 then
          { serviceDescriptions := r.serviceDescriptions.set i none, freeIndex := some i }
        else { r with serviceDescriptions := r.serviceDescriptions.set i (some e) }
      else r

def addPublisher (capacity : Nat) (r : ServiceRegistry) (d : ServiceDescription) :
    Option ServiceRegistry :=
  r.add capacity d .publisherCount

def addServer (capacity : Nat) (r : ServiceRegistry) (d : ServiceDescription) :
    Option ServiceRegistry :=
  r.add capacity d .serverCount

def removePublisher (r : ServiceRegistry) (d : ServiceDescription) : ServiceRegistry :=
  r.remove d .publisherCount

def removeServer (r : ServiceRegistry) (d : ServiceDescription) : ServiceRegistry :=
  r.remove d .serverCount

def purge (r : ServiceRegistry) (d : ServiceDescription) : ServiceRegistry :=
  match r.findIndex d with
  | none => r
  | some i => { serviceDescriptions := r.serviceDescriptions.set i none, freeIndex := some i }

def entriesFor (r : ServiceRegistry) (d : ServiceDescription) : List ServiceDescriptionEntry :=
  (r.serviceDescriptions.filterMap id).filter fun e => e.serviceDescription.Same d

def isMatch (service inst event : Option String) (entry : ServiceDescriptionEntry) : Bool :=
  let d := entry.serviceDescription
  let m := (service.map fun service => decide (d.serviceString = service)).getD true
  let m := m && (inst.map fun inst => decide (d.instanceString = inst)).getD true
  m && (event.map fun event => decide (d.eventString = event)).getD true

/-- The callable, which may be empty, works on a state of its own. -/
def find {S : Type} (r : ServiceRegistry) (service inst event : Option String)
    (callable : Option (S → ServiceDescriptionEntry → S)) (s : S) : S :=
  match callable with
  | none => s
  | some callable =>
    r.serviceDescriptions.foldl (fun s entry =>
      match entry with
      | none => s
      | some entry => if isMatch service inst event entry then callable s entry else s) s

def get (r : ServiceRegistry) (i : Nat) : Option ServiceDescriptionEntry :=
  r.serviceDescriptions[i]?.join

def total (r : ServiceRegistry) : Nat :=
  (r.serviceDescriptions.map fun e => e.elim 0 ServiceDescriptionEntry.total).sum

abbrev Key := String × String × String

/-- The registry holds, for each key, one entry with the given counts if one of them is
positive, and no entry otherwise. -/
structure Mirrors (r : ServiceRegistry) (n : ReferenceCounter → Key → Nat) : Prop where
  counts : ∀ i e, r.get i = some e → ∀ k, e.count k = n k e.serviceDescription.key
  used : ∀ i e, r.get i = some e → 0 < e.total
  complete : ∀ k x, 0 < n k x → ∃ i e, r.get i = some e ∧ e.serviceDescription.key = x
  unique : ∀ i j e f, r.get i = some e → r.get j = some f →
    e.serviceDescription.key = f.serviceDescription.key → i = j
  free : ∀ i, r.freeIndex = some i → r.serviceDescriptions[i]? = some none

theorem mirrors_empty : Mirrors {} (fun _ _ => 0) where
  counts := by simp [get]
  used := by simp [get]
  complete := by simp
  unique := by simp [get]
  free := by simp

theorem get_of_getElem? {r : ServiceRegistry} {i : Nat} {e : Option ServiceDescriptionEntry}
    (h : r.serviceDescriptions[i]? = some e) : r.get i = e := by
  simp [get, h]

theorem getElem?_of_get {r : ServiceRegistry} {i : Nat} {e : ServiceDescriptionEntry}
    (h : r.get i = some e) : r.serviceDescriptions[i]? = some (some e) := by
  unfold get at h
  cases he : r.serviceDescriptions[i]? with
  | none => simp [he] at h
  | some o => simpa [he] using h

theorem findIndex_some {r : ServiceRegistry} {d : ServiceDescription} {i : Nat}
    (h : r.findIndex d = some i) :
    ∃ e, r.get i = some e ∧ e.serviceDescription.key = d.key := by
  obtain ⟨hi, hsame, _⟩ := List.findIdx?_eq_some_iff_getElem.mp h
  cases he : r.serviceDescriptions[i] with
  | none => simp [he] at hsame
  | some e =>
    refine ⟨e, get_of_getElem? ?_, by simpa [he, ServiceDescription.same_iff] using hsame⟩
    rw [List.getElem?_eq_getElem hi, he]

theorem findIndex_none {r : ServiceRegistry} {d : ServiceDescription}
    (h : r.findIndex d = none) {i : Nat} {e : ServiceDescriptionEntry} (hi : r.get i = some e) :
    e.serviceDescription.key ≠ d.key := by
  have hfalse := List.findIdx?_eq_none_iff.mp h (some e) (List.mem_of_getElem? (getElem?_of_get hi))
  have hsame : ¬ e.serviceDescription.Same d := by simpa using hfalse
  exact hsame

variable {r r' : ServiceRegistry} {n n' : ReferenceCounter → Key → Nat}
  {d : ServiceDescription} {k : ReferenceCounter} {i : Nat}

theorem Mirrors.write (h : Mirrors r n) {e : ServiceDescriptionEntry}
    (hget : ∀ j, r'.get j = if i = j then some e else r.get j)
    (hother : ∀ j f, r.get j = some f → f.serviceDescription.key = e.serviceDescription.key → i = j)
    (hold : ∀ f, r.get i = some f → f.serviceDescription.key = e.serviceDescription.key)
    (hcount : ∀ l, e.count l = n' l e.serviceDescription.key) (htotal : 0 < e.total)
    (hn : ∀ l x, x ≠ e.serviceDescription.key → n' l x = n l x)
    (hfree : ∀ j, r'.freeIndex = some j → r'.serviceDescriptions[j]? = some none) :
    Mirrors r' n' := by
  have hkey : ∀ j f, i ≠ j → r.get j = some f →
      f.serviceDescription.key ≠ e.serviceDescription.key := by
    intro j f hij hf hk
    exact hij (hother j f hf hk)
  refine ⟨?_, ?_, ?_, ?_, hfree⟩
  · intro j f hf l
    rw [hget] at hf
    by_cases hij : i = j
    · simp only [hij, if_true, Option.some.injEq] at hf
      subst hf
      exact hcount l
    · simp only [hij, if_false] at hf
      rw [hn l _ (hkey j f hij hf)]
      exact h.counts j f hf l
  · intro j f hf
    rw [hget] at hf
    by_cases hij : i = j
    · simp only [hij, if_true, Option.some.injEq] at hf
      subst hf
      exact htotal
    · simp only [hij, if_false] at hf
      exact h.used j f hf
  · intro l x hx
    by_cases hxe : x = e.serviceDescription.key
    · exact ⟨i, e, by simp [hget], hxe.symm⟩
    · rw [hn l x hxe] at hx
      obtain ⟨j, f, hf, hk⟩ := h.complete l x hx
      refine ⟨j, f, ?_, hk⟩
      by_cases hij : i = j
      · subst hij
        exact absurd (hk ▸ hold f hf) hxe
      · simp [hget, hij, hf]
  · intro j₁ j₂ f₁ f₂ hf₁ hf₂ hk
    rw [hget] at hf₁ hf₂
    by_cases h₁ : i = j₁
    · simp only [h₁, if_true, Option.some.injEq] at hf₁
      subst hf₁
      by_cases h₂ : i = j₂
      · exact h₁.symm.trans h₂
      · simp only [h₂, if_false] at hf₂
        exact absurd hk.symm (hkey j₂ f₂ h₂ hf₂)
    · simp only [h₁, if_false] at hf₁
      by_cases h₂ : i = j₂
      · simp only [h₂, if_true, Option.some.injEq] at hf₂
        subst hf₂
        exact absurd hk (hkey j₁ f₁ h₁ hf₁)
      · simp only [h₂, if_false] at hf₂
        exact h.unique j₁ j₂ f₁ f₂ hf₁ hf₂ hk

theorem get_set_slot (hi : i < r.serviceDescriptions.length)
    (e : Option ServiceDescriptionEntry) (f : Option Nat) (j : Nat) :
    get { serviceDescriptions := r.serviceDescriptions.set i e, freeIndex := f } j =
      if i = j then e else r.get j := by
  simp only [get, List.getElem?_set]
  by_cases hij : i = j
  · simp [hij, hij ▸ hi]
  · simp [hij]

theorem total_set_slot {e : Option ServiceDescriptionEntry} (d : Option ServiceDescriptionEntry)
    (f : Option Nat) (hi : r.serviceDescriptions[i]? = some e) :
    total { serviceDescriptions := r.serviceDescriptions.set i d, freeIndex := f } +
      e.elim 0 ServiceDescriptionEntry.total = r.total + d.elim 0 ServiceDescriptionEntry.total :=
  Lib.sum_map_set _ e d _ i hi

theorem newEntry_key : (newEntry d k).serviceDescription.key = d.key := by
  simp [newEntry]

theorem newEntry_count (l : ReferenceCounter) :
    (newEntry d k).count l = if l = k then 1 else 0 := by
  cases k <;> cases l <;> rfl

theorem newEntry_total : (newEntry d k).total = 1 := by
  cases k <;> rfl

theorem Mirrors.writeNew (h : Mirrors r n)
    (hn : ∀ l x, n' l x = if l = k ∧ x = d.key then n l x + 1 else n l x)
    (hnone : r.findIndex d = none)
    (hget : ∀ j, r'.get j = if i = j then some (newEntry d k) else r.get j)
    (hslot : r.get i = none)
    (hfree : ∀ j, r'.freeIndex = some j → r'.serviceDescriptions[j]? = some none) :
    Mirrors r' n' := by
  have hzero : ∀ l, n l d.key = 0 := by
    intro l
    by_contra hpos
    obtain ⟨j, f, hf, hk⟩ := h.complete l d.key (Nat.pos_of_ne_zero hpos)
    exact findIndex_none hnone hf hk
  apply h.write hget
  · intro j f hf hk
    exact absurd (hk.trans newEntry_key) (findIndex_none hnone hf)
  · intro f hf
    simp [hslot] at hf
  · intro l
    rw [newEntry_count, newEntry_key, hn, hzero]
    by_cases hl : l = k <;> simp [hl]
  · simp [newEntry_total]
  · intro l x hx
    rw [newEntry_key] at hx
    simp [hn, hx]
  · exact hfree

theorem Mirrors.setCount (h : Mirrors r n) {e : ServiceDescriptionEntry} (hi : r.get i = some e)
    {m : Nat} (hpos : 0 < (e.setCount m k).total)
    (hn : ∀ l x, n' l x = if l = k ∧ x = e.serviceDescription.key then m else n l x) :
    Mirrors { r with
      serviceDescriptions := r.serviceDescriptions.set i (some (e.setCount m k)) } n' := by
  have hcell := getElem?_of_get hi
  obtain ⟨hlt, -⟩ := List.getElem?_eq_some_iff.mp hcell
  refine h.write (get_set_slot hlt _ _) ?_ ?_ ?_ hpos ?_ ?_
  · intro j f hf hk
    exact h.unique i j e f hi hf (by simpa using hk.symm)
  · intro f hf
    rw [hi] at hf
    cases hf
    simp
  · intro l
    simp only [ServiceDescriptionEntry.count_setCount,
      ServiceDescriptionEntry.serviceDescription_setCount, hn, and_true]
    split
    · rfl
    · rw [h.counts i e hi]
  · intro l x hx
    rw [hn, if_neg]
    rintro ⟨-, rfl⟩
    exact hx (by simp)
  · intro j hj
    have hslot := h.free j hj
    by_cases hij : i = j
    · subst hij
      simp [hcell] at hslot
    · simpa [hij] using hslot

theorem total_setCount_slot {e : ServiceDescriptionEntry} (hi : r.get i = some e) (m : Nat) :
    total { r with serviceDescriptions := r.serviceDescriptions.set i (some (e.setCount m k)) } +
      e.count k = r.total + m := by
  have hsum := total_set_slot (some (e.setCount m k)) r.freeIndex (getElem?_of_get hi)
  have hcount := e.total_setCount m k
  simp only [Option.elim_some] at hsum
  omega

theorem Mirrors.fill (h : Mirrors r n)
    (hn : ∀ l x, n' l x = if l = k ∧ x = d.key then n l x + 1 else n l x)
    (hfind : r.findIndex d = none) (hcell : r.serviceDescriptions[i]? = some none)
    {free : Option Nat} (hfree : free = none) :
    Mirrors { serviceDescriptions := r.serviceDescriptions.set i (some (newEntry d k))
              freeIndex := free } n' ∧
      total { serviceDescriptions := r.serviceDescriptions.set i (some (newEntry d k))
              freeIndex := free } = r.total + 1 := by
  obtain ⟨hlt, -⟩ := List.getElem?_eq_some_iff.mp hcell
  have htotal := total_set_slot (some (newEntry d k)) free hcell
  refine ⟨h.writeNew hn hfind (get_set_slot hlt _ _) (get_of_getElem? hcell) (by simp [hfree]), ?_⟩
  simpa [newEntry_total] using htotal

theorem Mirrors.append (h : Mirrors r n)
    (hn : ∀ l x, n' l x = if l = k ∧ x = d.key then n l x + 1 else n l x)
    (hfind : r.findIndex d = none) (hfree : r.freeIndex = none) :
    Mirrors { r with serviceDescriptions := r.serviceDescriptions ++ [some (newEntry d k)] } n' ∧
      total { r with serviceDescriptions := r.serviceDescriptions ++ [some (newEntry d k)] } =
        r.total + 1 := by
  constructor
  · refine h.writeNew hn hfind (i := r.serviceDescriptions.length) ?_ (by simp [get])
      (by simp [hfree])
    intro j
    simp only [get, List.getElem?_append, List.getElem?_singleton]
    by_cases hj : r.serviceDescriptions.length = j
    · simp [← hj]
    · by_cases hlt : j < r.serviceDescriptions.length
      · simp [hj, hlt]
      · have hpast : j - r.serviceDescriptions.length ≠ 0 := by omega
        simp [hj, hlt, hpast]
  · simp [total, newEntry_total]

theorem Mirrors.of_add {capacity : Nat} (h : Mirrors r n)
    (hn : ∀ l x, n' l x = if l = k ∧ x = d.key then n l x + 1 else n l x)
    (hadd : r.add capacity d k = some r') : Mirrors r' n' ∧ r'.total = r.total + 1 := by
  unfold ServiceRegistry.add at hadd
  cases hfind : r.findIndex d with
  | some i =>
    obtain ⟨e, hi, hkey⟩ := findIndex_some hfind
    have hset : r.serviceDescriptions.modify i (Option.map fun e => e.setCount (e.count k + 1) k) =
        r.serviceDescriptions.set i (some (e.setCount (e.count k + 1) k)) := by
      rw [List.modify_eq_set_getElem?, getElem?_of_get hi]
      rfl
    have hcount := e.total_setCount (e.count k + 1) k
    have htotal := total_setCount_slot (k := k) hi (e.count k + 1)
    rw [hfind] at hadd
    cases hadd
    rw [hset]
    refine ⟨h.setCount hi (by omega) fun l x => ?_, by omega⟩
    rw [hn, hkey]
    split
    · next heq => rw [h.counts i e hi, hkey, heq.1, heq.2]
    · rfl
  | none =>
    simp only [hfind] at hadd
    cases hfree : r.freeIndex with
    | some i =>
      rw [hfree] at hadd
      cases hadd
      exact h.fill hn hfind (h.free i hfree) rfl
    | none =>
      simp only [hfree] at hadd
      cases hslot : r.serviceDescriptions.findIdx? Option.isNone with
      | some i =>
        rw [hslot] at hadd
        cases hadd
        obtain ⟨hlt, hnone, _⟩ := List.findIdx?_eq_some_iff_getElem.mp hslot
        have hcell : r.serviceDescriptions[i]? = some none := by
          rw [List.getElem?_eq_getElem hlt]
          simpa using hnone
        exact h.fill hn hfind hcell rfl
      | none =>
        simp only [hslot] at hadd
        split at hadd
        · cases hadd
          have happend := h.append hn hfind hfree
          rwa [hfree] at happend
        · cases hadd

theorem Mirrors.add_eq_none {capacity : Nat} (h : Mirrors r n) :
    r.add capacity d k = none ↔ r.findIndex d = none ∧
      (∀ o ∈ r.serviceDescriptions, o ≠ none) ∧ capacity ≤ r.serviceDescriptions.length := by
  unfold ServiceRegistry.add
  cases hfind : r.findIndex d with
  | some i => simp
  | none =>
    cases hfree : r.freeIndex with
    | some i =>
      have hslot := List.mem_of_getElem? (h.free i hfree)
      exact iff_of_false nofun fun hfull => hfull.2.1 none hslot rfl
    | none =>
      cases hslot : r.serviceDescriptions.findIdx? Option.isNone with
      | some i =>
        obtain ⟨hlt, hnone, -⟩ := List.findIdx?_eq_some_iff_getElem.mp hslot
        refine iff_of_false nofun fun hfull => ?_
        exact hfull.2.1 _ (List.getElem_mem hlt) (Option.isNone_iff_eq_none.mp hnone)
      | none =>
        have hfull : ∀ o ∈ r.serviceDescriptions, o ≠ none := fun o ho heq => by
          have := List.findIdx?_eq_none_iff.mp hslot o ho
          rw [heq] at this
          cases this
        dsimp only
        split
        · next hroom => exact iff_of_false nofun fun hfull => Nat.not_le.mpr hroom hfull.2.2
        · next hroom => exact iff_of_true rfl ⟨rfl, hfull, Nat.not_lt.mp hroom⟩

theorem Mirrors.length_le_total (h : Mirrors r n) (hfull : ∀ o ∈ r.serviceDescriptions, o ≠ none) :
    r.serviceDescriptions.length ≤ r.total := by
  apply Lib.length_le_sum_map
  intro o ho
  cases o with
  | none => exact absurd rfl (hfull none ho)
  | some e =>
    obtain ⟨j, hj⟩ := List.mem_iff_getElem?.mp ho
    exact h.used j e (get_of_getElem? hj)

theorem Mirrors.add {capacity : Nat} (h : Mirrors r n) (hroom : r.total < capacity)
    (hn : ∀ l x, n' l x = if l = k ∧ x = d.key then n l x + 1 else n l x) :
    ∃ r', r.add capacity d k = some r' ∧ Mirrors r' n' ∧ r'.total = r.total + 1 := by
  cases hadd : r.add capacity d k with
  | none =>
    obtain ⟨-, hfull, hlength⟩ := h.add_eq_none.mp hadd
    have := h.length_le_total hfull
    omega
  | some r' => exact ⟨r', rfl, h.of_add hn hadd⟩

theorem Mirrors.clear (h : Mirrors r n) {e : ServiceDescriptionEntry} (hi : r.get i = some e)
    (hn : ∀ l x, n' l x = if x = e.serviceDescription.key then 0 else n l x) :
    Mirrors
      { serviceDescriptions := r.serviceDescriptions.set i none, freeIndex := some i } n' := by
  obtain ⟨hlt, -⟩ := List.getElem?_eq_some_iff.mp (getElem?_of_get hi)
  have hget := get_set_slot hlt none (some i)
  have hold : ∀ {j : Nat} {f : ServiceDescriptionEntry},
      get { serviceDescriptions := r.serviceDescriptions.set i none, freeIndex := some i } j =
        some f → i ≠ j ∧ r.get j = some f := by
    intro j f hf
    rw [hget] at hf
    by_cases hij : i = j
    · simp [hij] at hf
    · exact ⟨hij, by simpa only [hij, if_false] using hf⟩
  refine ⟨?_, ?_, ?_, ?_, ?_⟩
  · intro j f hf l
    obtain ⟨hij, hf⟩ := hold hf
    rw [hn, if_neg]
    · exact h.counts j f hf l
    · intro hk
      exact hij (h.unique i j e f hi hf hk.symm)
  · intro j f hf
    exact h.used j f (hold hf).2
  · intro l x hx
    rw [hn] at hx
    split at hx
    · cases hx
    · next hne =>
      obtain ⟨j, f, hf, hk⟩ := h.complete l x hx
      refine ⟨j, f, ?_, hk⟩
      by_cases hij : i = j
      · subst hij
        rw [hi] at hf
        cases hf
        exact absurd hk.symm hne
      · simp [hget, hij, hf]
  · intro j₁ j₂ f₁ f₂ hf₁ hf₂ hk
    exact h.unique j₁ j₂ f₁ f₂ (hold hf₁).2 (hold hf₂).2 hk
  · intro j hj
    cases hj
    simp [hlt]

theorem Mirrors.remove (h : Mirrors r n) (hpos : 0 < n k d.key)
    (hn : ∀ l x, n' l x = if l = k ∧ x = d.key then n l x - 1 else n l x) :
    Mirrors (r.remove d k) n' ∧ (r.remove d k).total + 1 = r.total := by
  obtain ⟨i₀, e₀, hi₀, hkey₀⟩ := h.complete k d.key hpos
  unfold ServiceRegistry.remove
  cases hfind : r.findIndex d with
  | none => exact absurd hkey₀ (findIndex_none hfind hi₀)
  | some i =>
    obtain ⟨e, hi, hkey⟩ := findIndex_some hfind
    have hcell := getElem?_of_get hi
    have hcount : e.count k = n k d.key := hkey ▸ h.counts i e hi k
    have htotal := e.total_setCount (e.count k - 1) k
    have hother : ∀ l x, x ≠ d.key → n' l x = n l x := by
      intro l x hx
      simp [hn, hx]
    simp only [hcell, Option.join_some, show 1 ≤ e.count k from by omega, if_true]
    split
    · next hzero =>
      have hn0 : ∀ l, n' l d.key = 0 := by
        intro l
        have := (ServiceDescriptionEntry.total_eq_zero _).mp hzero l
        simp only [ServiceDescriptionEntry.count_setCount] at this
        rw [hn, ← hkey, ← h.counts i e hi]
        by_cases hl : l = k
        · subst hl
          simpa using this
        · simpa [hl] using this
      refine ⟨h.clear hi fun l x => ?_, ?_⟩
      · by_cases hx : x = d.key
        · rw [hx, hn0, hkey, if_pos rfl]
        · rw [hother l x hx, hkey, if_neg hx]
      · have hsum := total_set_slot none (some i) hcell
        simp only [Option.elim_some, Option.elim_none] at hsum
        omega
    · next hzero =>
      have hsum := total_setCount_slot (k := k) hi (e.count k - 1)
      refine ⟨h.setCount hi (Nat.pos_of_ne_zero hzero) fun l x => ?_, by omega⟩
      rw [hn, hkey]
      split
      · next heq => rw [h.counts i e hi, hkey, heq.1, heq.2]
      · rfl

theorem Mirrors.remove_eq_self (h : Mirrors r n) (hzero : n k d.key = 0) : r.remove d k = r := by
  unfold ServiceRegistry.remove
  cases hfind : r.findIndex d with
  | none => rfl
  | some i =>
    obtain ⟨e, hi, hkey⟩ := findIndex_some hfind
    have hcount : ¬ 1 ≤ e.count k := by
      rw [h.counts i e hi, hkey, hzero]
      decide
    simp only [getElem?_of_get hi, Option.join_some, hcount, if_false]

theorem Mirrors.purge (h : Mirrors r n) (d : ServiceDescription)
    (hn : ∀ l x, n' l x = if x = d.key then 0 else n l x) : Mirrors (r.purge d) n' := by
  unfold ServiceRegistry.purge
  cases hfind : r.findIndex d with
  | none =>
    have hsame : n' = n := by
      funext l x
      rw [hn]
      split
      · next hx =>
        refine (Nat.eq_zero_of_not_pos fun hpos => ?_).symm
        obtain ⟨i, e, hi, hkey⟩ := h.complete l x hpos
        exact findIndex_none hfind hi (hkey.trans hx)
      · rfl
    rw [hsame]
    exact h
  | some i =>
    obtain ⟨e, hi, hkey⟩ := findIndex_some hfind
    exact h.clear hi fun l x => by rw [hn, hkey]

theorem mem_entriesFor {e : ServiceDescriptionEntry} :
    e ∈ r.entriesFor d ↔ ∃ i, r.get i = some e ∧ e.serviceDescription.key = d.key := by
  simp only [entriesFor, List.mem_filter, List.mem_filterMap, id, exists_eq_right,
    decide_eq_true_eq, ServiceDescription.same_iff]
  constructor
  · rintro ⟨he, hk⟩
    obtain ⟨i, hi⟩ := List.mem_iff_getElem?.mp he
    exact ⟨i, get_of_getElem? hi, hk⟩
  · rintro ⟨i, hi, hk⟩
    exact ⟨List.mem_of_getElem? (getElem?_of_get hi), hk⟩

theorem Mirrors.entriesFor_length (h : Mirrors r n) : (r.entriesFor d).length ≤ 1 := by
  have hcount : (r.entriesFor d).length =
      r.serviceDescriptions.countP fun o => o.any fun e => e.serviceDescription.Same d := by
    rw [entriesFor, ← List.countP_eq_length_filter, List.countP_filterMap]
    congr 1
    funext o
    cases o <;> simp
  rw [hcount]
  apply Lib.countP_le_one
  intro i j a b hi hj ha hb
  cases a with
  | none => simp at ha
  | some e =>
    cases b with
    | none => simp at hb
    | some f =>
      have hsame : e.serviceDescription.key = d.key := by
        simpa [ServiceDescription.same_iff] using ha
      have hsame' : f.serviceDescription.key = d.key := by
        simpa [ServiceDescription.same_iff] using hb
      exact h.unique i j e f (get_of_getElem? hi) (get_of_getElem? hj) (hsame.trans hsame'.symm)

end ServiceRegistry

end Iceoryx.Roudi
