import Mathlib.Data.List.Count
import Iceoryx.Lib.Sum

universe u

namespace Iceoryx.Roudi

structure FixedSizeContainer.Entry (T : Type u) where
  value : T
  isValid : Bool := false
  deriving DecidableEq, Repr

structure FixedSizeContainer (T : Type u) where
  values : List (FixedSizeContainer.Entry T)
  freeIndex : Nat := 0
  size : Nat := 0
  deriving DecidableEq, Repr

namespace FixedSizeContainer

variable {T : Type u}

def ofCapacity [Inhabited T] (capacity : Nat) : FixedSizeContainer T where
  values := List.replicate capacity { value := default }

def isValid (c : FixedSizeContainer T) (i : Nat) : Bool := c.values[i]?.any (·.isValid)

def scan (c : FixedSizeContainer T) : Nat → Nat → Option Nat
  | 0, _ => none
  | rounds + 1, i => if c.isValid i then c.scan rounds ((i + 1) % c.values.length) else some i

/-- `none` if the loop never ends; the inner `none` is `NOT_AN_ELEMENT`. -/
def nextFree (c : FixedSizeContainer T) : Option (Option Nat) :=
  if c.size ≥ c.values.length then some none
  else (c.scan c.values.length c.freeIndex).map some

def add (c : FixedSizeContainer T) (element : T) : Option (Option Nat × FixedSizeContainer T) :=
  c.nextFree.map fun
    | none => (none, c)
    | some i => (some i, {
        values := c.values.set i { value := element, isValid := true }
        freeIndex := i
        size := c.size + 1 })

def remove (c : FixedSizeContainer T) (i : Nat) : FixedSizeContainer T :=
  if c.isValid i then
    { c with
      values := c.values.modify i fun e => { e with isValid := false }
      size := c.size - 1 }
  else c

def get (c : FixedSizeContainer T) (i : Nat) : Option Nat := if c.isValid i then some i else none

def value [Inhabited T] (c : FixedSizeContainer T) (i : Nat) : T :=
  (c.values[i]?.map (·.value)).getD default

def modify (c : FixedSizeContainer T) (i : Nat) (f : T → T) : FixedSizeContainer T :=
  { c with values := c.values.modify i fun e => { e with value := f e.value } }

def Holds (c : FixedSizeContainer T) (i : Nat) (v : T) : Prop :=
  c.values[i]? = some { value := v, isValid := true }

def Full (c : FixedSizeContainer T) : Prop := ∀ i < c.values.length, c.isValid i = true

instance (c : FixedSizeContainer T) : Decidable c.Full :=
  inferInstanceAs (Decidable (∀ i < c.values.length, c.isValid i = true))

structure Ok (c : FixedSizeContainer T) : Prop where
  size : c.size = c.values.countP (·.isValid)
  freeIndex : c.values ≠ [] → c.freeIndex < c.values.length

variable {c c' : FixedSizeContainer T} {i j : Nat} {v w element : T} {e : Entry T}

theorem isValid_iff : c.isValid i = true ↔ ∃ v, c.Holds i v := by
  unfold isValid Holds
  cases c.values[i]? with
  | none => simp
  | some e => cases e; simp

theorem Holds.unique (h : c.Holds i v) (h' : c.Holds i w) : v = w := by
  cases Option.some.inj (h.symm.trans h')
  rfl

theorem Holds.value_eq [Inhabited T] (h : c.Holds i v) : c.value i = v := by
  rw [value, h]
  rfl

theorem scan_eq_none {rounds : Nat} (hi : i < c.values.length) (h : c.scan rounds i = none) :
    ∀ k < rounds, c.isValid ((i + k) % c.values.length) = true := by
  induction rounds generalizing i with
  | zero => exact fun k hk => absurd hk (Nat.not_lt_zero k)
  | succ rounds ih =>
    rw [scan] at h
    split at h
    · next hvalid =>
      intro k hk
      cases k with
      | zero =>
        rw [Nat.add_zero, Nat.mod_eq_of_lt hi]
        exact hvalid
      | succ k =>
        have hrest := ih (Nat.mod_lt _ (Nat.zero_lt_of_lt hi)) h k (Nat.lt_of_succ_lt_succ hk)
        rwa [Nat.mod_add_mod, Nat.add_assoc, Nat.add_comm 1 k] at hrest
    · cases h

theorem scan_eq_some {rounds : Nat} (hi : i < c.values.length) (h : c.scan rounds i = some j) :
    j < c.values.length ∧ c.isValid j = false := by
  induction rounds generalizing i with
  | zero => cases h
  | succ rounds ih =>
    rw [scan] at h
    split at h
    · exact ih (Nat.mod_lt _ (Nat.zero_lt_of_lt hi)) h
    · next hvalid =>
      cases h
      exact ⟨hi, Bool.eq_false_iff.mpr hvalid⟩

theorem Ok.scan (h : c.Ok) (hroom : c.size < c.values.length) :
    ∃ j, c.scan c.values.length c.freeIndex = some j := by
  have hfree := h.freeIndex (List.ne_nil_of_length_pos (Nat.zero_lt_of_lt hroom))
  cases hscan : c.scan c.values.length c.freeIndex with
  | some j => exact ⟨j, rfl⟩
  | none =>
    have hall : ∀ k < c.values.length, c.isValid k = true := by
      intro k hk
      have hround := scan_eq_none hfree hscan
        ((k + c.values.length - c.freeIndex) % c.values.length)
        (Nat.mod_lt _ (Nat.zero_lt_of_lt hk))
      rwa [Nat.add_mod_mod, show c.freeIndex + (k + c.values.length - c.freeIndex) =
        k + c.values.length by omega, Nat.add_mod_right, Nat.mod_eq_of_lt hk] at hround
    have hcount : c.values.countP (·.isValid) = c.values.length := by
      rw [List.countP_eq_length]
      intro e he
      obtain ⟨k, hk, rfl⟩ := List.mem_iff_getElem.mp he
      have := hall k hk
      rwa [isValid, List.getElem?_eq_getElem hk] at this
    have := h.size
    omega

theorem not_valid_iff (hi : i < c.values.length) :
    c.isValid i = false ↔ ∃ v, c.values[i]? = some { value := v, isValid := false } := by
  rw [isValid, List.getElem?_eq_getElem hi]
  cases c.values[i] with
  | mk v valid => cases valid <;> simp

theorem holds_set {values : List (Entry T)} {f n : Nat} (hi : i < c.values.length)
    (hvalues : values = c.values.set i { value := element, isValid := true }) :
    Holds { values := values, freeIndex := f, size := n } j w ↔
      if j = i then w = element else c.Holds j w := by
  subst hvalues
  unfold Holds
  dsimp only
  by_cases hji : j = i
  · subst hji
    rw [List.getElem?_set_self hi, if_pos rfl, Option.some.injEq, Entry.mk.injEq, eq_comm]
    exact and_iff_left rfl
  · rw [List.getElem?_set_ne (Ne.symm hji), if_neg hji]

theorem Ok.add (h : c.Ok) (element : T) :
    (c.Full ∧ c.add element = some (none, c)) ∨
    ∃ i c', i < c.values.length ∧ c.isValid i = false ∧ c.add element = some (some i, c') ∧
      c'.Ok ∧ c'.values.length = c.values.length ∧ c'.size = c.size + 1 ∧
        ∀ j w, c'.Holds j w ↔ if j = i then w = element else c.Holds j w := by
  unfold FixedSizeContainer.add nextFree
  by_cases hfull : c.size ≥ c.values.length
  · left
    have hall := List.countP_eq_length.mp
      (Nat.le_antisymm List.countP_le_length (h.size ▸ hfull))
    refine ⟨fun i hi => ?_, by rw [if_pos hfull]; rfl⟩
    rw [isValid, List.getElem?_eq_getElem hi]
    exact hall _ (List.getElem_mem hi)
  · right
    have hroom := Nat.not_le.mp hfull
    obtain ⟨i, hscan⟩ := h.scan hroom
    obtain ⟨hi, hinvalid⟩ := scan_eq_some
      (h.freeIndex (List.ne_nil_of_length_pos (Nat.zero_lt_of_lt hroom))) hscan
    refine ⟨i, _, hi, hinvalid, by rw [if_neg hfull, hscan]; rfl, ⟨?_, fun _ => ?_⟩, ?_, rfl,
      fun j w => holds_set hi rfl⟩
    · obtain ⟨v, hv⟩ := (not_valid_iff hi).mp hinvalid
      rw [List.getElem?_eq_getElem hi, Option.some.injEq] at hv
      dsimp only
      rw [List.countP_set hi, hv, if_neg Bool.false_ne_true, if_pos rfl, h.size]
      rfl
    · dsimp only
      rwa [List.length_set]
    · exact List.length_set

theorem modify_values (hi : c.values[i]? = some e) (f : Entry T → Entry T) :
    c.values.modify i f = c.values.set i (f e) := by
  rw [List.modify_eq_set_getElem?, hi]
  rfl

theorem Ok.remove (h : c.Ok) (i : Nat) :
    (c.remove i).Ok ∧ (c.remove i).values.length = c.values.length ∧
      ∀ j w, (c.remove i).Holds j w ↔ j ≠ i ∧ c.Holds j w := by
  unfold FixedSizeContainer.remove
  split
  · next hvalid =>
    obtain ⟨v, hv⟩ := isValid_iff.mp hvalid
    obtain ⟨hi, hget⟩ := List.getElem?_eq_some_iff.mp hv
    have hset := modify_values hv fun e => { e with isValid := false }
    refine ⟨⟨?_, fun hne => ?_⟩, List.length_modify _ _ _, fun j w => ?_⟩
    · dsimp only
      rw [hset, List.countP_set hi, hget, if_pos rfl, if_neg Bool.false_ne_true, h.size]
      rfl
    · dsimp only
      rw [List.length_modify]
      exact h.freeIndex (List.ne_nil_of_length_pos (Nat.zero_lt_of_lt hi))
    · unfold Holds
      dsimp only
      rw [hset]
      by_cases hji : j = i
      · subst hji
        rw [List.getElem?_set_self hi]
        exact iff_of_false (fun heq => nomatch heq) fun hne => hne.1 rfl
      · rw [List.getElem?_set_ne (Ne.symm hji)]
        exact (and_iff_right hji).symm
  · next hvalid =>
    refine ⟨h, rfl, fun j w => (and_iff_right_of_imp ?_).symm⟩
    rintro hw rfl
    exact hvalid (isValid_iff.mpr ⟨w, hw⟩)

theorem map_isValid_modify (f : T → T) :
    (c.modify i f).values.map (·.isValid) = c.values.map (·.isValid) := by
  unfold FixedSizeContainer.modify
  cases hi : c.values[i]? with
  | none =>
    rw [List.modify_eq_set_getElem?, hi]
    rfl
  | some e =>
    dsimp only
    rw [modify_values hi]
    exact Lib.map_set_of_eq hi rfl

theorem Ok.modify (h : c.Ok) (i : Nat) (f : T → T) :
    (c.modify i f).Ok ∧ (c.modify i f).values.length = c.values.length ∧
      ∀ j w, (c.modify i f).Holds j w ↔ ∃ v, c.Holds j v ∧ w = if j = i then f v else v := by
  have hlength : (c.modify i f).values.length = c.values.length := List.length_modify _ _ _
  refine ⟨⟨?_, fun hne => ?_⟩, hlength, fun j w => ?_⟩
  · have hcount : ∀ l : List (Entry T), l.countP (·.isValid) = (l.map (·.isValid)).countP id :=
      fun l => by rw [List.countP_map]; rfl
    rw [hcount, map_isValid_modify, ← hcount]
    exact h.size
  · rw [hlength]
    exact h.freeIndex (List.ne_nil_of_length_pos (hlength ▸ List.length_pos_iff.mpr hne))
  · unfold Holds FixedSizeContainer.modify
    dsimp only
    rw [List.getElem?_modify]
    cases c.values[j]? with
    | none => simp
    | some e =>
      obtain ⟨v, valid⟩ := e
      by_cases hij : i = j
      · subst hij
        simp only [if_true, Option.map_eq_map, Option.map_some, Option.some.injEq, Entry.mk.injEq]
        constructor
        · rintro ⟨rfl, rfl⟩
          exact ⟨v, ⟨rfl, rfl⟩, rfl⟩
        · rintro ⟨_, ⟨rfl, rfl⟩, rfl⟩
          exact ⟨rfl, rfl⟩
      · simp only [hij, Ne.symm hij, if_false, Option.map_eq_map, Option.map_some,
          Option.some.injEq, Entry.mk.injEq]
        constructor
        · rintro ⟨rfl, rfl⟩
          exact ⟨v, ⟨rfl, rfl⟩, rfl⟩
        · rintro ⟨_, ⟨rfl, rfl⟩, rfl⟩
          exact ⟨rfl, rfl⟩

theorem ofCapacity_ok [Inhabited T] (capacity : Nat) :
    (ofCapacity capacity : FixedSizeContainer T).Ok where
  size := by
    refine (List.countP_eq_zero.mpr fun e he => ?_).symm
    rw [(List.mem_replicate.mp he).2]
    exact Bool.false_ne_true
  freeIndex := List.length_pos_iff.mpr

theorem ofCapacity_holds [Inhabited T] (capacity : Nat) :
    ¬ (ofCapacity capacity : FixedSizeContainer T).Holds i v := by
  intro h
  cases (List.mem_replicate.mp (List.mem_of_getElem? h)).2

end FixedSizeContainer

end Iceoryx.Roudi
