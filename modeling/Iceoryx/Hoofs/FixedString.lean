import Iceoryx.Lib.Buffer
import Iceoryx.Lib.Refine
import Iceoryx.Lib.Words
import Mathlib.Data.Char

/-! `cxx::string`: at most `Capacity` characters in an array of `Capacity + 1`, with the
length stored beside them. An operation that would leave an array has no result. -/

namespace Iceoryx.Hoofs

open Lib Lib.Buffer Lib.Words

def nul : Char := '\x00'

structure FixedString (Capacity : Nat) where
  rawstring : List Char
  rawstringSize : Nat
  length_rawstring : rawstring.length = Capacity + 1
  deriving DecidableEq, Repr

inductive TextArgument
  | fixedString {N : Nat} (s : FixedString N)
  | charArray (data : List Char)
  | stdString (s : List Char)
  | char (c : Char)

/-- A `const char*`: null, the array of the string itself or other memory. -/
inductive CharPointer
  | null
  | self
  | memory (mem : List Char)

namespace TextArgument

def getCapa : TextArgument → Nat
  | @fixedString N _ => N
  | charArray data => data.length - 1
  | stdString _ => 0
  | char _ => 1

def getSize : TextArgument → Nat
  | fixedString s => s.rawstringSize
  | charArray data => strnlen nul data data.length
  | stdString s => s.length
  | char _ => 1

def getData : TextArgument → List Char
  | fixedString s => s.rawstring
  | charArray data => data
  | stdString s => s ++ [nul]
  | char c => [c]

end TextArgument

namespace FixedString

variable {Capacity : Nat}

def empty : FixedString Capacity where
  rawstring := List.replicate (Capacity + 1) nul
  rawstringSize := 0
  length_rawstring := List.length_replicate

def memcpy (s : FixedString Capacity) (pos : Nat) (cells : List Char) :
    Option (FixedString Capacity) :=
  if h : pos + cells.length ≤ Capacity + 1 then
    some { s with
      rawstring := overwrite s.rawstring pos cells
      length_rawstring := by
        rw [length_overwrite (by rw [s.length_rawstring]; exact h), s.length_rawstring] }
  else none

def terminate (s : FixedString Capacity) (size : Nat) : Option (FixedString Capacity) :=
  (s.memcpy size [nul]).map fun s => { s with rawstringSize := size }

def clear (s : FixedString Capacity) : Option (FixedString Capacity) := s.terminate 0

/-- `copy`, for which `N ≤ Capacity` is checked at compile time. -/
def copy {N : Nat} (s : FixedString Capacity) (rhs : FixedString N) :
    Option (FixedString Capacity) := do
  let strSize := rhs.rawstringSize
  let cells ← readBlock rhs.rawstring 0 strSize
  let s ← s.memcpy 0 cells
  s.terminate strSize

def move {N : Nat} (s : FixedString Capacity) (rhs : FixedString N) :
    Option (FixedString Capacity × FixedString N) := do
  let s ← s.copy rhs
  let rhs ← rhs.clear
  some (s, rhs)

/-- `operator=` for a `char[N]`, for which `N ≤ Capacity + 1` is checked at compile time. -/
def assignArray (s : FixedString Capacity) (rhs : List Char) : Option (FixedString Capacity) := do
  let s ← s.memcpy 0 rhs
  s.terminate (min Capacity (strnlen nul rhs rhs.length))

def unsafeAssign (s : FixedString Capacity) :
    CharPointer → Option (Bool × FixedString Capacity)
  | .null => some (false, s)
  | .self => some (false, s)
  | .memory str =>
    if nul ∈ str ∨ Capacity + 1 ≤ str.length then do
      let strSize := strnlen nul str (Capacity + 1)
      if Capacity < strSize then
        some (false, s)
      else
        let cells ← readBlock str 0 strSize
        let s ← s.memcpy 0 cells
        let s ← s.terminate strSize
        some (true, s)
    else none

def unsafeAssignStd (s : FixedString Capacity) (str : List Char) :
    Option (Bool × FixedString Capacity) := do
  let strSize := str.length
  if Capacity < strSize then
    some (false, s)
  else
    let cells ← readBlock (str ++ [nul]) 0 strSize
    let s ← s.memcpy 0 cells
    let s ← s.terminate strSize
    some (true, s)

def appendClamped (s : FixedString Capacity) (t : TextArgument) (clampedTSize : Nat) :
    Option (FixedString Capacity) := do
  let cells ← readBlock t.getData 0 clampedTSize
  let s ← s.memcpy s.rawstringSize cells
  s.terminate (s.rawstringSize + clampedTSize)

def unsafeAppend (s : FixedString Capacity) (t : TextArgument) :
    Option (Bool × FixedString Capacity) := do
  let tSize := t.getSize
  let clampedTSize := min (Capacity - s.rawstringSize) tSize
  if tSize > clampedTSize then
    some (false, s)
  else
    let s ← s.appendClamped t clampedTSize
    some (true, s)

def append (s : FixedString Capacity) (t : TextArgument) : Option (FixedString Capacity) :=
  s.appendClamped t (min (Capacity - s.rawstringSize) t.getSize)

def appendChar (s : FixedString Capacity) (c : Char) : Option (FixedString Capacity) :=
  if s.rawstringSize = Capacity then some s
  else do
    let s ← s.memcpy s.rawstringSize [c]
    s.terminate (s.rawstringSize + 1)

def insert (s : FixedString Capacity) (pos : Nat) (str : TextArgument) (count : Nat) :
    Option (Bool × FixedString Capacity) :=
  if count > str.getSize then
    some (false, s)
  else
    let newSize := toUint64 (s.rawstringSize + count)
    if newSize > Capacity ∨ newSize < s.rawstringSize then
      some (false, s)
    else if pos > s.rawstringSize then
      some (false, s)
    else do
      let tail ← readBlock s.rawstring pos (s.rawstringSize - pos)
      let s ← s.memcpy (toUint64 (pos + count)) tail
      let cells ← readBlock str.getData 0 count
      let s ← s.memcpy pos cells
      let s ← s.terminate newSize
      some (true, s)

def concatenate (t1 t2 : TextArgument) : Option (FixedString (t1.getCapa + t2.getCapa)) := do
  let size1 := t1.getSize
  let size2 := t2.getSize
  let cells1 ← readBlock t1.getData 0 size1
  let newString ← empty.memcpy 0 cells1
  let cells2 ← readBlock t2.getData 0 size2
  let newString ← newString.memcpy size1 cells2
  newString.terminate (size1 + size2)

def concatenateAll (t1 t2 : TextArgument) : List TextArgument → Option TextArgument
  | [] => (concatenate t1 t2).map .fixedString
  | t3 :: targs => (concatenate t1 t2).bind fun s => concatenateAll (.fixedString s) t3 targs

/-- The inner `none` is `nullopt`. -/
def substr (s : FixedString Capacity) (pos count : Nat) :
    Option (Option (FixedString Capacity)) :=
  if pos > s.rawstringSize then some none
  else do
    let length := min count (s.rawstringSize - pos)
    let cells ← readBlock s.rawstring pos length
    let subString ← empty.memcpy 0 cells
    let subString ← subString.terminate length
    some (some subString)

def substrFrom (s : FixedString Capacity) (pos : Nat) : Option (Option (FixedString Capacity)) :=
  s.substr pos s.rawstringSize

def find (s : FixedString Capacity) (t : TextArgument) (pos : Nat) : Option (Option Nat) :=
  if pos > s.rawstringSize then some none
  else (strstr nul (s.rawstring.drop pos) t.getData).map fun found => found.map (pos + ·)

def findFirstOfLoop (s : FixedString Capacity) (data : List Char) :
    Nat → Nat → Option (Option Nat)
  | 0, _ => some none
  | remaining + 1, p => do
    let c ← s.rawstring[p]?
    let found ← strchr nul data c
    if found then some (some p) else findFirstOfLoop s data remaining (p + 1)

def findFirstOf (s : FixedString Capacity) (t : TextArgument) (pos : Nat) :
    Option (Option Nat) :=
  if pos > s.rawstringSize then some none
  else s.findFirstOfLoop t.getData (s.rawstringSize - pos) pos

def findLastOfLoop (s : FixedString Capacity) (data : List Char) : Nat → Option (Option Nat)
  | 0 => do
    let c ← s.rawstring[0]?
    let found ← strchr nul data c
    if found then some (some 0) else some none
  | p + 1 => do
    let c ← s.rawstring[p + 1]?
    let found ← strchr nul data c
    if found then some (some (p + 1)) else findLastOfLoop s data p

def findLastOf (s : FixedString Capacity) (t : TextArgument) (pos : Nat) : Option (Option Nat) :=
  if s.rawstringSize = 0 then some none
  else
    let p := if s.rawstringSize - 1 < pos then s.rawstringSize - 1 else pos
    s.findLastOfLoop t.getData p

def compare (s : FixedString Capacity) (other : TextArgument) : Option Int := do
  let otherSize := other.getSize
  let cells ← readBlock s.rawstring 0 (min s.rawstringSize otherSize)
  let cells' ← readBlock other.getData 0 (min s.rawstringSize otherSize)
  let result := memcmp cells cells'
  if result = 0 then
    if s.rawstringSize < otherSize then some (-1)
    else if s.rawstringSize > otherSize then some 1
    else some 0
  else some result

def compareChar (s : FixedString Capacity) (other : Char) : Option Int := do
  let cells ← readBlock s.rawstring 0 1
  let result := memcmp cells [other]
  if result = 0 then
    if s.rawstringSize = 0 then some (-1)
    else if s.rawstringSize > 1 then some 1
    else some 0
  else some result

def content (s : FixedString Capacity) : List Char := s.rawstring.take s.rawstringSize

structure Holds (s : FixedString Capacity) (content : List Char) : Prop where
  size : s.rawstringSize = content.length
  raw : s.rawstring.take content.length = content
  terminated : s.rawstring[content.length]? = some nul
  nulFree : nul ∉ content

variable {s : FixedString Capacity} {content pre cells : List Char}

theorem Holds.length_le (h : s.Holds content) : content.length ≤ Capacity := by
  obtain ⟨hlt, _⟩ := List.getElem?_eq_some_iff.mp h.terminated
  rw [s.length_rawstring] at hlt
  omega

theorem Holds.split (h : s.Holds content) : ∃ rest, s.rawstring = content ++ nul :: rest := by
  obtain ⟨hlt, hnul⟩ := List.getElem?_eq_some_iff.mp h.terminated
  refine ⟨s.rawstring.drop (content.length + 1), ?_⟩
  calc s.rawstring
      = s.rawstring.take content.length ++ s.rawstring.drop content.length :=
        (List.take_append_drop _ _).symm
    _ = content ++ nul :: s.rawstring.drop (content.length + 1) := by
        rw [h.raw, List.drop_eq_getElem_cons hlt, hnul]

theorem Holds.getElem? (h : s.Holds content) {i : Nat} (hi : i < content.length) :
    s.rawstring[i]? = some content[i] := by
  obtain ⟨rest, hrest⟩ := h.split
  rw [hrest, List.getElem?_append_left hi, List.getElem?_eq_getElem hi]

theorem empty_holds : (empty : FixedString Capacity).Holds [] where
  size := rfl
  raw := rfl
  terminated := by simp [empty]
  nulFree := List.not_mem_nil

theorem memcpy_spec (s : FixedString Capacity) {pos : Nat} (h : pos + cells.length ≤ Capacity + 1) :
    ∃ s', s.memcpy pos cells = some s' ∧ s'.rawstring = overwrite s.rawstring pos cells ∧
      s'.rawstringSize = s.rawstringSize :=
  ⟨_, dif_pos h, rfl, rfl⟩

theorem terminate_spec (hlen : content.length ≤ Capacity)
    (hraw : s.rawstring.take content.length = content) (hnul : nul ∉ content) :
    ∃ s', s.terminate content.length = some s' ∧ s'.Holds content := by
  have hpos : content.length ≤ s.rawstring.length := by
    rw [s.length_rawstring]
    omega
  obtain ⟨s', hcpy, hraw', hsize⟩ := s.memcpy_spec (show content.length + [nul].length ≤ _ by
    simpa using hlen)
  refine ⟨{ s' with rawstringSize := content.length }, by rw [terminate, hcpy]; rfl, ?_⟩
  refine ⟨rfl, ?_, ?_, hnul⟩
  · change s'.rawstring.take content.length = content
    rw [hraw', take_overwrite_of_le hpos le_rfl, hraw]
  · change s'.rawstring[content.length]? = some nul
    rw [hraw', ← Nat.add_zero content.length, ← List.getElem?_drop, Nat.add_zero,
      drop_overwrite hpos]
    rfl

theorem memcpy_terminate (hpre : s.rawstring.take pre.length = pre)
    (hlen : pre.length + cells.length ≤ Capacity) (hnul : nul ∉ pre ++ cells) :
    ∃ s₁ s', s.memcpy pre.length cells = some s₁ ∧ s₁.rawstringSize = s.rawstringSize ∧
      s₁.terminate (pre.length + cells.length) = some s' ∧ s'.Holds (pre ++ cells) := by
  have hpos : pre.length ≤ s.rawstring.length := by
    rw [s.length_rawstring]
    omega
  obtain ⟨s₁, hcpy, hraw, hsize⟩ := s.memcpy_spec (show pre.length + cells.length ≤ _ by omega)
  have htake : s₁.rawstring.take (pre ++ cells).length = pre ++ cells := by
    have htake := take_overwrite hpos cells 0
    rw [Nat.add_zero, List.take_zero, List.append_nil, hpre] at htake
    rw [hraw, List.length_append, htake]
  obtain ⟨s', hterm, hs'⟩ := terminate_spec (by simpa using hlen) htake hnul
  rw [List.length_append] at hterm
  exact ⟨s₁, s', hcpy, hsize, hterm, hs'⟩

theorem Holds.readBlock (h : s.Holds content) {pos count : Nat}
    (hle : pos + count ≤ content.length) :
    Lib.Buffer.readBlock s.rawstring pos count = some ((content.drop pos).take count) := by
  obtain ⟨rest, hrest⟩ := h.split
  rw [readBlock_of_le (by rw [hrest, List.length_append]; omega), hrest,
    List.drop_append_of_le_length (by omega),
    List.take_append_of_le_length (by rw [List.length_drop]; omega)]

theorem Holds.content_eq (h : s.Holds content) : s.content = content := by
  rw [FixedString.content, h.size, h.raw]

end FixedString

namespace TextArgument

def content (t : TextArgument) : List Char := t.getData.take t.getSize

/-- What the argument stands for is free of `nul`; of a character array it is by its
size. -/
def WellFormed : TextArgument → Prop
  | fixedString s => s.Holds s.content
  | charArray _ => True
  | stdString s => nul ∉ s
  | char c => c ≠ nul

def IsConcatenable : TextArgument → Prop
  | charArray data => nul ∈ data
  | stdString _ => False
  | _ => True

def IsCString : TextArgument → Prop
  | charArray data => nul ∈ data
  | char _ => False
  | _ => True

theorem wellFormed_of_holds {N : Nat} {s : FixedString N} {text : List Char}
    (h : s.Holds text) : (fixedString s).WellFormed := by
  rw [WellFormed, h.content_eq]
  exact h

variable {t : TextArgument}

theorem getSize_le (h : t.WellFormed) : t.getSize ≤ t.getData.length := by
  cases t with
  | fixedString s =>
    obtain ⟨rest, hrest⟩ := FixedString.Holds.split h
    have hsize := FixedString.Holds.size h
    rw [getSize, getData, hsize, hrest, List.length_append]
    exact Nat.le_add_right _ _
  | charArray data =>
    rw [getSize, getData, strnlen, List.take_length]
    exact (List.takeWhile_prefix _).length_le
  | stdString s => simp [getSize, getData]
  | char c => simp [getSize, getData]

theorem length_content (h : t.WellFormed) : t.content.length = t.getSize :=
  List.length_take_of_le (getSize_le h)

theorem nul_not_mem_content (h : t.WellFormed) : nul ∉ t.content := by
  cases t with
  | fixedString s => exact FixedString.Holds.nulFree h
  | charArray data =>
    rw [content, getData, getSize, ← takeWhile_eq_take]
    exact nul_not_mem_takeWhile data
  | stdString s =>
    rw [content, getData, getSize, List.take_left]
    exact h
  | char c => simpa [content, getData, getSize] using Ne.symm h

theorem readBlock_getData (h : t.WellFormed) {count : Nat} (hcount : count ≤ t.getSize) :
    readBlock t.getData 0 count = some (t.content.take count) := by
  have hle := getSize_le h
  rw [readBlock_of_le (by omega), List.drop_zero, content, List.take_take, min_eq_left hcount]

theorem getData_eq (h : t.WellFormed) (hstring : t.IsCString) :
    ∃ rest, t.getData = t.content ++ nul :: rest := by
  cases t with
  | fixedString s => exact FixedString.Holds.split h
  | charArray data =>
    obtain ⟨rest, hrest⟩ := exists_takeWhile_append hstring
    exact ⟨rest, by rwa [content, getData, getSize, ← takeWhile_eq_take]⟩
  | stdString s =>
    refine ⟨[], ?_⟩
    rw [content, getData, getSize, List.take_left]
  | char c => exact hstring.elim

theorem getSize_le_getCapa (h : t.WellFormed) (hjoin : t.IsConcatenable) :
    t.getSize ≤ t.getCapa := by
  cases t with
  | fixedString s =>
    have hle := FixedString.Holds.length_le h
    rw [← FixedString.Holds.size h] at hle
    exact hle
  | charArray data =>
    obtain ⟨rest, hrest⟩ := getData_eq (t := .charArray data) h hjoin
    have hlen := congrArg List.length hrest
    rw [List.length_append, length_content h, List.length_cons] at hlen
    simp only [getCapa, getData] at hlen ⊢
    omega
  | stdString s => exact hjoin.elim
  | char c => exact le_rfl

end TextArgument

end Iceoryx.Hoofs
