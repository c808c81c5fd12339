import Iceoryx.Lib.Text
import Iceoryx.Hoofs.Convert

namespace Iceoryx.Hoofs.Serialization

open Lib.Text

def separator : Char := ':'

def create : List (List Char) → List Char
  | [] => []
  | e :: entries => Convert.toString e.length ++ separator :: e ++ create entries

def removeFirstEntry (remainder : List Char) : Option (List Char × List Char) := do
  let pos ← find separator remainder 0
  let length ← Convert.fromStringUint64 (cStr (substr remainder 0 pos))
  if remainder.length < (pos + length + 1) % 2 ^ 64 then none
  else
    some (substr remainder ((pos + 1) % 2 ^ 64) length,
      remainder.drop ((pos + 1 + length) % 2 ^ 64))

def next {α : Type} (fromString : List Char → Option α) : StateT (List Char) Option α :=
  fun remainder => do
    let (entry, remainder) ← removeFirstEntry remainder
    let t ← fromString (cStr entry)
    return (t, remainder)

def extract {α : Type} (args : StateT (List Char) Option α) (value : List Char) : Option α := do
  let (t, remainder) ← args value
  if remainder.isEmpty then some t else none

@[simp] theorem create_nil : create [] = [] := rfl

theorem not_mem_create {c : Char} (hc : c.isDigit = false) (hsep : c ≠ separator)
    {entries : List (List Char)} (h : ∀ e ∈ entries, c ∉ e) : c ∉ create entries := by
  induction entries with
  | nil => exact List.not_mem_nil
  | cons e entries ih =>
    have he := h e List.mem_cons_self
    have hrest := ih (fun e' he' => h e' (List.mem_cons_of_mem e he'))
    simp [create, Convert.not_mem_toString hc, hsep, he, hrest]

structure IsEntry (number entry : List Char) : Prop where
  nonempty : number ≠ []
  digits : ∀ c ∈ number, c.isDigit = true
  length : entry.length = Nat.ofDigitChars 10 number 0

theorem IsEntry.not_mem {number entry : List Char} (h : IsEntry number entry) {c : Char}
    (hc : c.isDigit = false) : c ∉ number := by
  intro hmem
  rw [h.digits c hmem] at hc
  cases hc

theorem isEntry_toString (e : List Char) : IsEntry (Convert.toString e.length) e where
  nonempty := Nat.toDigits_ne_nil
  digits := fun _ => Convert.isDigit_of_mem_toString
  length := Nat.ofDigitChars_ten_toDigits.symm

theorem removeFirstEntry_split {number rest : List Char} (h : separator ∉ number) :
    removeFirstEntry (number ++ separator :: rest) =
      (Convert.fromStringUint64 (cStr number)).bind fun length =>
        if (number ++ separator :: rest).length < (number.length + length + 1) % 2 ^ 64 then none
        else
          some (substr (number ++ separator :: rest) ((number.length + 1) % 2 ^ 64) length,
            (number ++ separator :: rest).drop ((number.length + 1 + length) % 2 ^ 64)) := by
  have hfind := find_append [] rest h
  simp only [List.nil_append, List.length_nil, Nat.zero_add] at hfind
  have hsub : substr (number ++ separator :: rest) 0 number.length = number := by
    simp [substr]
  rw [removeFirstEntry, hfind, Option.bind_eq_bind, Option.bind_some, hsub]

theorem removeFirstEntry_entry {number e : List Char} (h : IsEntry number e)
    (hrange : number.length + 1 + e.length < 2 ^ 64) (rest : List Char) :
    removeFirstEntry (number ++ separator :: (e ++ rest)) = some (e, rest) := by
  have hpos := List.length_pos_iff.mpr h.nonempty
  have hread : Convert.fromStringUint64 (cStr number) = some e.length := by
    rw [cStr_eq_self (h.not_mem (by decide)), Convert.fromStringUint64_eq_some]
    exact ⟨h.nonempty, h.digits, h.length.symm, by omega⟩
  have hend : (number.length + e.length + 1) % 2 ^ 64 = number.length + 1 + e.length := by omega
  have hstart : (number.length + 1) % 2 ^ 64 = number.length + 1 := by omega
  have hnext : (number.length + 1 + e.length) % 2 ^ 64 = number.length + 1 + e.length :=
    Nat.mod_eq_of_lt hrange
  have hentry : substr (number ++ separator :: (e ++ rest)) (number.length + 1) e.length = e := by
    have h := substr_append (number ++ [separator]) e rest
    simpa using h
  have hrest : (number ++ separator :: (e ++ rest)).drop (number.length + 1 + e.length) = rest := by
    have h := @List.drop_left _ (number ++ separator :: e) rest
    have hl : (number ++ separator :: e).length = number.length + 1 + e.length := by
      simp only [List.length_append, List.length_cons]
      omega
    rw [hl] at h
    simpa using h
  have hsize : ¬ (number ++ separator :: (e ++ rest)).length < number.length + 1 + e.length := by
    simp only [List.length_append, List.length_cons]
    omega
  rw [removeFirstEntry_split (h.not_mem (by decide)), hread, Option.bind_some, hend, hstart, hnext,
    if_neg hsize, hentry, hrest]

theorem removeFirstEntry_create {e : List Char} (he : e.length < 10 ^ 18)
    (entries : List (List Char)) :
    removeFirstEntry (create (e :: entries)) = some (e, create entries) := by
  have hlen : (Convert.toString e.length).length ≤ 18 :=
    Convert.length_toString_le (by decide) he
  rw [create, List.append_assoc, List.cons_append]
  exact removeFirstEntry_entry (isEntry_toString e) (by omega) (create entries)

theorem next_create {α : Type} (fromString : List Char → Option α) {e : List Char}
    (he : e.length < 10 ^ 18) (hnul : '\x00' ∉ e) (entries : List (List Char)) :
    next fromString (create (e :: entries)) = (fromString e).map (·, create entries) := by
  rw [next, removeFirstEntry_create he]
  simp only [Option.bind_eq_bind, Option.bind_some, cStr_eq_self hnul]
  cases fromString e <;> rfl

section fields

open Iceoryx.Hoofs.Convert hiding toString

theorem length_toString_lt {n : Nat} (h : n < 2 ^ 64) : (Convert.toString n).length < 10 ^ 18 := by
  have := length_toString_le (n := n) (k := 20) (by decide) (by omega)
  omega

theorem next_unsigned {max n : Nat} (hmax : max ≤ ullongMax) (hn : n ≤ max)
    (entries : List (List Char)) :
    next (fromStringUnsigned max) (create (Convert.toString n :: entries)) =
      if n = ullongMax then none else some (n, create entries) := by
  have hn64 : n < 2 ^ 64 := by
    simp only [ullongMax] at hmax
    omega
  rw [next_create _ (length_toString_lt hn64) (not_mem_toString (by decide)),
    fromStringUnsigned_toString hmax]
  by_cases h : n = ullongMax
  · simp [h]
  · simp [h, hn]

theorem next_uint64 {n : Nat} (hn : n < 2 ^ 64) (entries : List (List Char)) :
    next fromStringUint64 (create (Convert.toString n :: entries)) =
      if n = 2 ^ 64 - 1 then none else some (n, create entries) :=
  @next_unsigned (2 ^ 64 - 1) n (by decide) (by omega) entries

theorem next_small {max n : Nat} (hmax : max < ullongMax) (hn : n ≤ max)
    (entries : List (List Char)) :
    next (fromStringUnsigned max) (create (Convert.toString n :: entries)) =
      some (n, create entries) := by
  rw [next_unsigned hmax.le hn, if_neg (by omega)]

theorem next_bool (b : Bool) (entries : List (List Char)) :
    next fromStringBool (create (boolToString b :: entries)) = some (b, create entries) := by
  rw [next_create _ (by cases b <;> decide)
    (by unfold boolToString; exact not_mem_toString (by decide)), fromStringBool_toString]
  rfl

theorem next_fixed {s : String} (hs : s.toList.length ≤ stringCapacity)
    (hnul : '\x00' ∉ s.toList) (entries : List (List Char)) :
    next fromStringFixed (create (fixedToString s :: entries)) = some (s, create entries) := by
  have hlen : s.toList.length < 10 ^ 18 := by
    simp only [stringCapacity] at hs
    omega
  rw [fixedToString, cStr_eq_self hnul, next_create _ hlen hnul, fromStringFixed_toList hs]
  rfl

end fields

section decoder

def numberText (s : List Char) : List Char := s.takeWhile (· ≠ separator)

/-- The number in front of `s` is read to its end, and the end of its entry is within 64 bits. -/
def InRange (s : List Char) : Prop :=
  '\x00' ∉ numberText s ∧
    (numberText s).length + 1 + Nat.ofDigitChars 10 (numberText s) 0 < 2 ^ 64

def Decoded (s e r : List Char) : Prop :=
  ∃ number, IsEntry number e ∧ s = number ++ separator :: (e ++ r)

variable {s e r number rest : List Char}

theorem numberText_append (h : separator ∉ number) :
    numberText (number ++ separator :: rest) = number := by
  rw [numberText, List.takeWhile_append_of_pos, List.takeWhile_cons_of_neg (by simp),
    List.append_nil]
  intro c hc
  simpa using fun hsep : c = separator => h (hsep ▸ hc)

theorem IsEntry.numberText (h : IsEntry number e) :
    numberText (number ++ separator :: rest) = number :=
  numberText_append (h.not_mem (by decide))

theorem Decoded.length_lt (h : Decoded s e r) : r.length < s.length := by
  obtain ⟨number, _, rfl⟩ := h
  simp only [List.length_append, List.length_cons]
  omega

theorem removeFirstEntry_eq_some (h : removeFirstEntry s = some (e, r)) :
    ∃ number rest length, separator ∉ number ∧ s = number ++ separator :: rest ∧
      Convert.fromStringUint64 (cStr number) = some length ∧
      (number.length + length + 1) % 2 ^ 64 ≤ s.length ∧
      e = substr s ((number.length + 1) % 2 ^ 64) length ∧
      r = s.drop ((number.length + 1 + length) % 2 ^ 64) := by
  by_cases hmem : separator ∈ s
  · obtain ⟨number, rest, rfl, hnot⟩ := List.eq_append_cons_of_mem hmem
    rw [removeFirstEntry_split hnot] at h
    obtain ⟨length, hlength, h⟩ := Option.bind_eq_some_iff.mp h
    split at h
    · cases h
    · rename_i hsize
      cases h
      exact ⟨number, rest, length, hnot, rfl, hlength, Nat.le_of_not_lt hsize, rfl, rfl⟩
  · rw [removeFirstEntry, find_eq_none hmem] at h
    cases h

theorem decoded_iff_inRange (h : removeFirstEntry s = some (e, r)) :
    Decoded s e r ↔ InRange s := by
  obtain ⟨number, rest, length, hnot, rfl, hlength, hsize, he, hr⟩ := removeFirstEntry_eq_some h
  obtain ⟨hne, hdigits, hvalue, _⟩ := Convert.fromStringUint64_eq_some.mp hlength
  rw [InRange, numberText_append hnot]
  constructor
  · rintro ⟨number', hentry, heq⟩
    have hnumber : number = number' := by
      rw [← hentry.numberText, ← heq, numberText_append hnot]
    subst hnumber
    have hnul := hentry.not_mem (c := '\x00') (by decide)
    refine ⟨hnul, ?_⟩
    rw [cStr_eq_self hnul, ← hentry.length] at hvalue
    have htotal := congrArg List.length heq
    have hrest := congrArg List.length hr
    simp only [List.length_append, List.length_cons, List.length_drop] at htotal hrest
    rw [← hentry.length]
    omega
  · rintro ⟨hnul, hrange⟩
    rw [cStr_eq_self hnul] at hne hdigits hvalue
    have hfits : length ≤ rest.length := by
      rw [List.length_append, List.length_cons] at hsize
      omega
    have hentry : IsEntry number (rest.take length) :=
      ⟨hne, hdigits, by rw [List.length_take_of_le hfits, hvalue]⟩
    have hdecode := removeFirstEntry_entry hentry
      (by rw [List.length_take_of_le hfits, ← hvalue]; exact hrange) (rest.drop length)
    rw [List.take_append_drop, h] at hdecode
    cases hdecode
    exact ⟨number, hentry, by rw [List.take_append_drop]⟩

theorem Decoded.removeFirstEntry_eq (h : Decoded s e r) (hs : s.length < 2 ^ 64) :
    removeFirstEntry s = some (e, r) := by
  obtain ⟨number, hentry, rfl⟩ := h
  simp only [List.length_append, List.length_cons] at hs
  exact removeFirstEntry_entry hentry (by omega) r

theorem Decoded.drop_eq (h : Decoded s e r) :
    s.drop ((numberText s).length + 1 + Nat.ofDigitChars 10 (numberText s) 0) = r := by
  obtain ⟨number, hentry, rfl⟩ := h
  have hlen : number.length + 1 + e.length = (number ++ separator :: e).length := by
    simp only [List.length_append, List.length_cons]
    omega
  rw [hentry.numberText, ← hentry.length, hlen, ← List.cons_append, ← List.append_assoc,
    List.drop_left]

def Concatenation (k : Nat) (s : List Char) : Prop :=
  ∃ entries : List (List Char × List Char), entries.length = k ∧
    (∀ p ∈ entries, IsEntry p.1 p.2) ∧ s = entries.flatMap fun p => p.1 ++ separator :: p.2

def AllInRange : Nat → List Char → Prop
  | 0, _ => True
  | k + 1, s => InRange s ∧
    AllInRange k (s.drop ((numberText s).length + 1 + Nat.ofDigitChars 10 (numberText s) 0))

theorem concatenation_succ {k : Nat} :
    Concatenation (k + 1) s ↔ ∃ e r, Decoded s e r ∧ Concatenation k r := by
  constructor
  · rintro ⟨entries, hlen, hentries, rfl⟩
    cases entries with
    | nil => cases hlen
    | cons p entries =>
      refine ⟨p.2, _, ⟨p.1, hentries p List.mem_cons_self, ?_⟩, entries,
        Nat.succ.inj hlen, fun q hq => hentries q (List.mem_cons_of_mem p hq), rfl⟩
      rw [List.flatMap_cons, List.append_assoc, List.cons_append]
  · rintro ⟨e, _, ⟨number, hentry, rfl⟩, entries, rfl, hentries, rfl⟩
    refine ⟨(number, e) :: entries, rfl, ?_, ?_⟩
    · intro p hp
      rcases List.mem_cons.mp hp with rfl | hp
      · exact hentry
      · exact hentries p hp
    · rw [List.flatMap_cons, List.append_assoc, List.cons_append]

theorem mapM_next_cons {α : Type} {fromString : List Char → Option α}
    {fromStrings : List (List Char → Option α)} {values : List α}
    (h : (fromString :: fromStrings).mapM next s = some (values, r)) :
    ∃ e rest values', removeFirstEntry s = some (e, rest) ∧
      fromStrings.mapM next rest = some (values', r) := by
  rw [List.mapM_cons] at h
  obtain ⟨⟨t, rest⟩, hnext, h⟩ := Option.bind_eq_some_iff.mp h
  obtain ⟨⟨values', r'⟩, hmore, h⟩ := Option.bind_eq_some_iff.mp h
  cases h
  obtain ⟨⟨e, rest'⟩, hfirst, hnext⟩ := Option.bind_eq_some_iff.mp hnext
  obtain ⟨t', _, hnext⟩ := Option.bind_eq_some_iff.mp hnext
  cases hnext
  exact ⟨e, rest, values', hfirst, hmore⟩

theorem concatenation_iff_allInRange {α : Type} (fromStrings : List (List Char → Option α)) :
    ∀ (s : List Char) (values : List α), s.length < 2 ^ 64 →
      fromStrings.mapM next s = some (values, []) →
      (Concatenation fromStrings.length s ↔ AllInRange fromStrings.length s) := by
  induction fromStrings with
  | nil =>
    intro s values _ h
    cases h
    exact iff_of_true ⟨[], rfl, nofun, rfl⟩ trivial
  | cons fromString fromStrings ih =>
    intro s values hs h
    obtain ⟨e, r, values', hfirst, hmore⟩ := mapM_next_cons h
    rw [List.length_cons, concatenation_succ, AllInRange]
    constructor
    · rintro ⟨e', r', hdecoded, hconcat⟩
      have hdecode := hdecoded.removeFirstEntry_eq hs
      rw [hfirst] at hdecode
      cases hdecode
      have hlt := hdecoded.length_lt
      rw [hdecoded.drop_eq]
      exact ⟨(decoded_iff_inRange hfirst).mp hdecoded,
        (ih r values' (by omega) hmore).mp hconcat⟩
    · rintro ⟨hrange, hall⟩
      have hdecoded := (decoded_iff_inRange hfirst).mpr hrange
      have hlt := hdecoded.length_lt
      rw [hdecoded.drop_eq] at hall
      exact ⟨e, r, hdecoded, (ih r values' (by omega) hmore).mpr hall⟩

/-- What is accepted is well formed exactly as long as the numbers are in range. -/
theorem accepted_wellFormed_iff (s : List Char) (hs : s.length < 2 ^ 64) :
    (∀ e r, removeFirstEntry s = some (e, r) → (Decoded s e r ↔ InRange s)) ∧
    ∀ (α : Type) (fromStrings : List (List Char → Option α)) (values : List α),
      extract (fromStrings.mapM next) s = some values →
      (Concatenation fromStrings.length s ↔ AllInRange fromStrings.length s) := by
  refine ⟨fun e r h => decoded_iff_inRange h, fun α fromStrings values h => ?_⟩
  obtain ⟨⟨values', r⟩, hargs, h⟩ := Option.bind_eq_some_iff.mp h
  cases r with
  | nil => exact concatenation_iff_allInRange fromStrings s values' hs hargs
  | cons c r => cases h

def twoEntries : List Char := ['1', ':', '7', '2', ':', 'o', 'k']

theorem accepted_wellFormed_two :
    (Decoded twoEntries ['7'] ['2', ':', 'o', 'k'] ↔ InRange twoEntries) ∧
    (Concatenation 2 twoEntries ↔ AllInRange 2 twoEntries) :=
  ⟨(accepted_wellFormed_iff twoEntries (by decide)).1 _ _ (by decide),
    (accepted_wellFormed_iff twoEntries (by decide)).2 (List Char) [some, some]
      [['7'], ['o', 'k']] (by decide)⟩

theorem number_decoded_twice :
    removeFirstEntry "18446744073709551614:".toList = some ([], "4:".toList) ∧
    ¬ Decoded "18446744073709551614:".toList [] "4:".toList := by
  constructor
  · decide +kernel
  · rintro ⟨number, hentry, heq⟩
    have htext : numberText "18446744073709551614:".toList = number := by
      rw [heq]
      exact hentry.numberText
    have htotal := congrArg List.length heq
    have hnumber : (numberText "18446744073709551614:".toList).length = 20 := by decide +kernel
    have hrest : "4:".toList.length = 2 := by decide
    have hall : "18446744073709551614:".toList.length = 21 := by decide
    rw [htext] at hnumber
    rw [hall, List.length_append, List.length_cons, List.nil_append, hrest] at htotal
    omega

end decoder

end Iceoryx.Hoofs.Serialization
