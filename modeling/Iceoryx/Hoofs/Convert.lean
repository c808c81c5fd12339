import Mathlib.Data.List.TakeWhile
import Mathlib.Data.Nat.Digits.Defs

namespace Iceoryx.Hoofs

/-- `std::string::c_str`, as the functions of the C library read it. -/
def cStr (s : List Char) : List Char := s.takeWhile (· ≠ '\x00')

theorem cStr_eq_self {s : List Char} (h : '\x00' ∉ s) : cStr s = s := by
  rw [cStr, List.takeWhile_eq_self_iff]
  intro c hc
  simpa using fun hz : c = '\x00' => h (hz ▸ hc)

theorem nul_not_mem_cStr (s : List Char) : '\x00' ∉ cStr s := by
  intro h
  exact absurd (List.mem_takeWhile_imp h) (by decide)

namespace Convert

def toString (n : Nat) : List Char := Nat.toDigits 10 n

def boolToString (b : Bool) : List Char := toString (if b then 1 else 0)

inductive NumberType
  | integer | unsignedInteger | float
  deriving DecidableEq, Repr

def stringIsNumberLoop (type : NumberType) : List Char → Nat → Bool → Bool
  | [], _, _ => true
  | c :: v, i, hasDot =>
    if c.isDigit then
      stringIsNumberLoop type v (i + 1) hasDot
    else if type ≠ .unsignedInteger ∧ i = 0 ∧ (c = '+' ∨ c = '-') then
      stringIsNumberLoop type v (i + 1) hasDot
    else if type = .float ∧ !hasDot ∧ c = '.' then
      stringIsNumberLoop type v (i + 1) true
    else
      false

def stringIsNumber (v : List Char) (type : NumberType) : Bool :=
  if v.isEmpty then false else stringIsNumberLoop type v 0 false

def ullongMax : Nat := 2 ^ 64 - 1

/-- `strtoull` and `strtoul` to base ten, on a text that begins with a digit: a
number that is too large is reported as `ULLONG_MAX`. -/
def strtoull (v : List Char) : Nat :=
  min (Nat.ofDigitChars 10 (v.takeWhile Char.isDigit) 0) ullongMax

/-- `posixCall(..).failureReturnValue(failure).evaluate()`: the returned value
alone decides, whatever `errno` says. -/
def evaluate (value failure : Nat) : Option Nat := if value = failure then none else some value

def fromStringUnsigned (max : Nat) (v : List Char) : Option Nat :=
  if !stringIsNumber v .unsignedInteger then none
  else do
    let value ← evaluate (strtoull v) ullongMax
    if max < value then none else some value

def fromStringUint64 : List Char → Option Nat := fromStringUnsigned (2 ^ 64 - 1)

def fromStringUint32 : List Char → Option Nat := fromStringUnsigned (2 ^ 32 - 1)

def fromStringUint16 : List Char → Option Nat := fromStringUnsigned (2 ^ 16 - 1)

def fromStringUint8 : List Char → Option Nat := fromStringUnsigned (2 ^ 8 - 1)

def fromStringBool (v : List Char) : Option Bool :=
  if !stringIsNumber v .unsignedInteger then none
  else (evaluate (strtoull v) ullongMax).map (· ≠ 0)

def llongMax : Int := 2 ^ 63 - 1

def llongMin : Int := -2 ^ 63

def strtoll (v : List Char) : Int :=
  match v with
  | '-' :: v => max (-(Nat.ofDigitChars 10 (v.takeWhile Char.isDigit) 0 : Int)) llongMin
  | '+' :: v => min (Nat.ofDigitChars 10 (v.takeWhile Char.isDigit) 0 : Int) llongMax
  | v => min (Nat.ofDigitChars 10 (v.takeWhile Char.isDigit) 0 : Int) llongMax

def fromStringSigned (least greatest : Int) (v : List Char) : Option Int :=
  if !stringIsNumber v .integer then none
  else
    let value := strtoll v
    if value = llongMax ∨ value = llongMin then none
    else if greatest < value ∨ value < least then none
    else some value

def fromStringInt64 : List Char → Option Int := fromStringSigned (-2 ^ 63) (2 ^ 63 - 1)

def fromStringInt32 : List Char → Option Int := fromStringSigned (-2 ^ 31) (2 ^ 31 - 1)

def intToString (i : Int) : List Char :=
  if i < 0 then '-' :: toString i.natAbs else toString i.natAbs

def stringCapacity : Nat := 100

def fixedToString (s : String) : List Char := cStr s.toList

def fromStringFixed (v : List Char) : Option String := some (String.ofList (v.take stringCapacity))

theorem isDigit_of_mem_toString {n : Nat} {c : Char} (h : c ∈ toString n) : c.isDigit = true :=
  Nat.isDigit_of_mem_toDigits (by decide) (by decide) h

theorem not_mem_toString {n : Nat} {c : Char} (hc : c.isDigit = false) : c ∉ toString n := by
  intro h
  rw [isDigit_of_mem_toString h] at hc
  cases hc

theorem length_toString_le {n k : Nat} (hk : 0 < k) (h : n < 10 ^ k) : (toString n).length ≤ k :=
  Nat.toDigits_length 10 n k hk h

theorem stringIsNumberLoop_of_digits (type : NumberType) (v : List Char)
    (h : ∀ c ∈ v, c.isDigit = true) (i : Nat) (hasDot : Bool) :
    stringIsNumberLoop type v i hasDot = true := by
  induction v generalizing i with
  | nil => rfl
  | cons c v ih =>
    rw [stringIsNumberLoop, if_pos (h c List.mem_cons_self)]
    exact ih (fun c' hc' => h c' (List.mem_cons_of_mem c hc')) (i + 1)

theorem stringIsNumber_toString (n : Nat) (type : NumberType) :
    stringIsNumber (toString n) type = true := by
  have hne : (toString n).isEmpty = false := by
    rw [List.isEmpty_eq_false_iff]
    exact Nat.toDigits_ne_nil
  rw [stringIsNumber, hne]
  exact stringIsNumberLoop_of_digits type _ (fun _ => isDigit_of_mem_toString) 0 false

theorem strtoull_toString (n : Nat) : strtoull (toString n) = min n ullongMax := by
  have hall : (toString n).takeWhile Char.isDigit = toString n :=
    List.takeWhile_eq_self_iff.mpr (fun _ => isDigit_of_mem_toString)
  rw [strtoull, hall, toString, Nat.ofDigitChars_ten_toDigits]

/-- Every number up to the maximum comes back, except the largest one of all. -/
theorem fromStringUnsigned_toString {max : Nat} (hmax : max ≤ ullongMax) (n : Nat) :
    fromStringUnsigned max (toString n) = if n ≤ max ∧ n ≠ ullongMax then some n else none := by
  rw [fromStringUnsigned, stringIsNumber_toString, strtoull_toString]
  rcases lt_trichotomy n ullongMax with hlt | rfl | hgt
  · have hne : n ≠ ullongMax := hlt.ne
    have hmin : min n ullongMax = n := min_eq_left hlt.le
    by_cases hn : max < n
    · simp [evaluate, hmin, hne, hn]
    · simp [evaluate, hmin, hne, hn, Nat.le_of_not_lt hn]
  · simp [evaluate]
  · have hmin : min n ullongMax = ullongMax := min_eq_right hgt.le
    have hn : ¬ n ≤ max := by omega
    simp [evaluate, hmin, hn]

theorem isDigit_of_stringIsNumberLoop {v : List Char} {i : Nat} {hasDot : Bool}
    (h : stringIsNumberLoop .unsignedInteger v i hasDot = true) : ∀ c ∈ v, c.isDigit = true := by
  induction v generalizing i with
  | nil => exact nofun
  | cons c v ih =>
    rw [stringIsNumberLoop] at h
    by_cases hc : c.isDigit = true
    · rw [if_pos hc] at h
      intro c' hc'
      rcases List.mem_cons.mp hc' with rfl | hmem
      · exact hc
      · exact ih h c' hmem
    · rw [if_neg hc, if_neg (by simp), if_neg (by simp)] at h
      cases h

theorem stringIsNumber_iff {v : List Char} :
    stringIsNumber v .unsignedInteger = true ↔ v ≠ [] ∧ ∀ c ∈ v, c.isDigit = true := by
  cases v with
  | nil => exact ⟨nofun, fun h => absurd rfl h.1⟩
  | cons c v =>
    rw [stringIsNumber, List.isEmpty_cons, if_neg (by decide)]
    exact ⟨fun h => ⟨nofun, isDigit_of_stringIsNumberLoop h⟩,
      fun h => stringIsNumberLoop_of_digits _ _ h.2 0 false⟩

theorem fromStringUint64_eq_some {v : List Char} {n : Nat} :
    fromStringUint64 v = some n ↔ v ≠ [] ∧ (∀ c ∈ v, c.isDigit = true) ∧
      Nat.ofDigitChars 10 v 0 = n ∧ n < 2 ^ 64 - 1 := by
  rw [fromStringUint64, fromStringUnsigned, ← and_assoc, ← stringIsNumber_iff]
  cases hnumber : stringIsNumber v .unsignedInteger with
  | false => simp
  | true =>
    have hdigits : v.takeWhile Char.isDigit = v :=
      List.takeWhile_eq_self_iff.mpr (stringIsNumber_iff.mp hnumber).2
    rw [strtoull, hdigits, evaluate]
    generalize Nat.ofDigitChars 10 v 0 = value
    simp only [Bool.not_true, Bool.false_eq_true, if_false, true_and]
    by_cases hlt : value < ullongMax
    · have hsmall : value < 2 ^ 64 - 1 := hlt
      rw [min_eq_left hlt.le, if_neg hlt.ne, Option.bind_eq_bind, Option.bind_some,
        if_neg (by omega), Option.some_inj]
      omega
    · have hlarge : ¬ value < 2 ^ 64 - 1 := hlt
      rw [min_eq_right (Nat.le_of_not_lt hlt), if_pos rfl, Option.bind_eq_bind, Option.bind_none]
      refine iff_of_false nofun ?_
      omega

theorem fromStringBool_toString (b : Bool) : fromStringBool (boolToString b) = some b := by
  rw [fromStringBool, boolToString, stringIsNumber_toString, strtoull_toString]
  cases b <;> decide

theorem strtoll_toString (n : Nat) : strtoll (toString n) = min (n : Int) llongMax := by
  have hall : (toString n).takeWhile Char.isDigit = toString n :=
    List.takeWhile_eq_self_iff.mpr (fun _ => isDigit_of_mem_toString)
  have hvalue : Nat.ofDigitChars 10 (toString n) 0 = n := Nat.ofDigitChars_ten_toDigits
  unfold strtoll
  split
  · next h => exact absurd (h ▸ List.mem_cons_self) (not_mem_toString (c := '-') (by decide))
  · next h => exact absurd (h ▸ List.mem_cons_self) (not_mem_toString (c := '+') (by decide))
  · rw [hall, hvalue]

theorem fromStringInt32_toString {n : Nat} (h : n < 2 ^ 31) :
    fromStringInt32 (toString n) = some (n : Int) := by
  have hmin : min (n : Int) llongMax = n := by
    rw [llongMax]
    omega
  rw [fromStringInt32, fromStringSigned, stringIsNumber_toString, strtoll_toString, hmin]
  rw [if_neg (by decide), if_neg (by simp only [llongMax, llongMin]; omega), if_neg (by omega)]

theorem not_mem_intToString {i : Int} {c : Char} (hc : c.isDigit = false) (hm : c ≠ '-') :
    c ∉ intToString i := by
  unfold intToString
  split
  · simpa [hm] using not_mem_toString hc
  · exact not_mem_toString hc

theorem stringIsNumber_intToString (i : Int) : stringIsNumber (intToString i) .integer = true := by
  unfold intToString
  split
  · rw [stringIsNumber, List.isEmpty_cons, stringIsNumberLoop]
    exact stringIsNumberLoop_of_digits .integer _ (fun _ => isDigit_of_mem_toString) 1 false
  · exact stringIsNumber_toString _ _

theorem strtoll_intToString (i : Int) :
    strtoll (intToString i) = if i < 0 then max i llongMin else min i llongMax := by
  have hall : (toString i.natAbs).takeWhile Char.isDigit = toString i.natAbs :=
    List.takeWhile_eq_self_iff.mpr (fun _ => isDigit_of_mem_toString)
  have hvalue : Nat.ofDigitChars 10 (toString i.natAbs) 0 = i.natAbs :=
    Nat.ofDigitChars_ten_toDigits
  unfold intToString
  split
  · next hneg =>
    rw [strtoll, hall, hvalue]
    congr 1
    omega
  · next hnonneg =>
    rw [strtoll_toString]
    congr 1
    omega

theorem fromStringInt64_intToString {i : Int} (hleast : -2 ^ 63 < i) (hgreatest : i < 2 ^ 63 - 1) :
    fromStringInt64 (intToString i) = some i := by
  have hvalue : strtoll (intToString i) = i := by
    rw [strtoll_intToString]
    split
    · exact max_eq_left (by rw [llongMin]; exact hleast.le)
    · exact min_eq_left (by rw [llongMax]; exact hgreatest.le)
  rw [fromStringInt64, fromStringSigned, stringIsNumber_intToString, hvalue]
  rw [if_neg (by decide), if_neg (by simp only [llongMax, llongMin]; omega), if_neg (by omega)]

theorem fromStringFixed_toList {s : String} (h : s.toList.length ≤ stringCapacity) :
    fromStringFixed s.toList = some s := by
  rw [fromStringFixed, List.take_of_length_le h, String.ofList_toList]

end Convert

end Iceoryx.Hoofs
