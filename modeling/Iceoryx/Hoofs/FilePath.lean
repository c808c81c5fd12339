import Iceoryx.Hoofs.BoundedText
import Iceoryx.Lib.Text

namespace Iceoryx.Hoofs

open Lib Lib.Buffer Lib.Text

def isFileNameChar (c : Char) : Bool :=
  'a' ≤ c ∧ c ≤ 'z' ∨ 'A' ≤ c ∧ c ≤ 'Z' ∨ '0' ≤ c ∧ c ≤ '9' ∨ c = '-' ∨ c = '.' ∨ c = ':' ∨
    c = '_'

namespace FixedString

variable {Capacity : Nat}

def currentDirectory : Option (FixedString Capacity) := empty.assignArray ['.', nul]

def parentDirectory : Option (FixedString Capacity) := empty.assignArray ['.', '.', nul]

def equal (s other : FixedString Capacity) : Option Bool :=
  (s.compare (.fixedString other)).map fun r => r = 0

def isValidFileNameLoop (name : FixedString Capacity) : Nat → Nat → Option Bool
  | 0, _ => some true
  | remaining + 1, i => do
    let c ← name.rawstring[i]?
    if !isFileNameChar c then some false
    else isValidFileNameLoop name remaining (i + 1)

def isValidFileName (name : FixedString Capacity) : Option Bool :=
  if name.rawstringSize = 0 then some false
  else do
    let isCurrent ← name.equal (← currentDirectory)
    let isParent ← name.equal (← parentDirectory)
    if isCurrent || isParent then
      some false
    else
      let lastCharacter ← name.rawstring[name.rawstringSize - 1]?
      if lastCharacter = '.' then some false
      else name.isValidFileNameLoop name.rawstringSize 0

/-- The loop of `isValidFilePath`; the fuel bounds its rounds. -/
def isValidFilePathLoop (separators : List Char) : Nat → FixedString Capacity → Option Bool
  | 0, _ => none
  | fuel + 1, temp =>
    if temp.rawstringSize = 0 then some false
    else do
      let separatorPosition ← temp.findFirstOf (.charArray (separators ++ [nul])) 0
      match separatorPosition with
      | some 0 =>
        let rest ← (← temp.substrFrom 1)
        isValidFilePathLoop separators fuel (← temp.copy rest)
      | some position =>
        let filenameToVerify ← (← temp.substr 0 position)
        let isValidName ← filenameToVerify.isValidFileName
        let isCurrent ← filenameToVerify.equal (← currentDirectory)
        let isParent ← filenameToVerify.equal (← parentDirectory)
        if !(isValidName || isCurrent || isParent) then
          some false
        else
          let rest ← (← temp.substrFrom (position + 1))
          isValidFilePathLoop separators fuel (← temp.copy rest)
      | none => temp.isValidFileName

def isValidFilePath (fuel : Nat) (separators : List Char) (name : FixedString Capacity) :
    Option Bool :=
  if name.rawstringSize = 0 then some false
  else do
    let lastCharacter ← name.rawstring[name.rawstringSize - 1]?
    if separators.any (lastCharacter == ·) then
      some false
    else
      isValidFilePathLoop separators fuel (← (empty : FixedString Capacity).copy name)

end FixedString

def IsFileName (n : List Char) : Prop :=
  n ≠ [] ∧ (∀ c ∈ n, isFileNameChar c = true) ∧ n.getLast? ≠ some '.'

def IsDirectoryName (n : List Char) : Prop := IsFileName n ∨ n = ['.'] ∨ n = ['.', '.']

def IsComponentPath (path : List (List Char)) : Prop :=
  ∃ file, path.getLast? = some file ∧ IsFileName file ∧
    ∀ directory ∈ path.dropLast, IsDirectoryName directory

def IsFilePath (separators text : List Char) : Prop :=
  text ≠ [] ∧ (∀ c ∈ separators, text.getLast? ≠ some c) ∧
    IsComponentPath (components (· ∈ separators) text)

theorem isComponentPath_cons {n : List Char} {path : List (List Char)} (h : path ≠ []) :
    IsComponentPath (n :: path) ↔ IsDirectoryName n ∧ IsComponentPath path := by
  unfold IsComponentPath
  rw [List.getLast?_cons_of_ne_nil h, List.dropLast_cons_of_ne_nil h]
  simp only [List.mem_cons, forall_eq_or_imp]
  constructor
  · rintro ⟨file, hlast, hfile, hn, hrest⟩
    exact ⟨hn, file, hlast, hfile, hrest⟩
  · rintro ⟨hn, file, hlast, hfile, hrest⟩
    exact ⟨file, hlast, hfile, hn, hrest⟩

theorem isComponentPath_singleton {n : List Char} : IsComponentPath [n] ↔ IsFileName n := by
  simp [IsComponentPath]

theorem not_isComponentPath_nil : ¬ IsComponentPath [] := by
  simp [IsComponentPath]

namespace FixedString

variable {Capacity : Nat} {name s other : FixedString Capacity} {text text' : List Char}

theorem currentDirectory_spec (hC : 2 ≤ Capacity) :
    ∃ d : FixedString Capacity, currentDirectory = some d ∧ d.Holds ['.'] := by
  obtain ⟨d, hd, hholds⟩ := (empty : FixedString Capacity).assignArray_spec
    (show ['.', nul].length ≤ Capacity + 1 by simp only [List.length_cons, List.length_nil]; omega)
  rw [show ['.', nul].takeWhile (· ≠ nul) = ['.'] by decide,
    List.take_of_length_le (by simp only [List.length_singleton]; omega)] at hholds
  exact ⟨d, hd, hholds⟩

theorem parentDirectory_spec (hC : 2 ≤ Capacity) :
    ∃ d : FixedString Capacity, parentDirectory = some d ∧ d.Holds ['.', '.'] := by
  obtain ⟨d, hd, hholds⟩ := (empty : FixedString Capacity).assignArray_spec
    (show ['.', '.', nul].length ≤ Capacity + 1 by
      simp only [List.length_cons, List.length_nil]; omega)
  rw [show ['.', '.', nul].takeWhile (· ≠ nul) = ['.', '.'] by decide,
    List.take_of_length_le (by simp only [List.length_cons, List.length_nil]; omega)] at hholds
  exact ⟨d, hd, hholds⟩

theorem equal_spec (h : s.Holds text) (h' : other.Holds text') :
    ∃ b, s.equal other = some b ∧ (b = true ↔ text = text') := by
  have hcontent : (TextArgument.fixedString other).content = text' := h'.content_eq
  refine ⟨_, by rw [equal, compare_spec h (TextArgument.wellFormed_of_holds h')]; rfl, ?_⟩
  rw [hcontent, decide_eq_true_eq]
  exact (compareLists_spec text text').2.1

theorem isValidFileNameLoop_spec (h : name.Holds text) {remaining i : Nat}
    (hi : i + remaining = text.length) :
    name.isValidFileNameLoop remaining i = some ((text.drop i).all isFileNameChar) := by
  induction remaining generalizing i with
  | zero =>
    rw [isValidFileNameLoop, List.drop_of_length_le (by omega), List.all_nil]
  | succ remaining ih =>
    have hlt : i < text.length := by omega
    rw [List.drop_eq_getElem_cons hlt, List.all_cons]
    simp only [isValidFileNameLoop, h.getElem? hlt, Option.bind_eq_bind, Option.bind_some]
    cases isFileNameChar text[i] with
    | true => exact ih (by omega)
    | false => rfl

/-- The relative components end in a dot, as the last check would find as well. -/
theorem isValidFileName_spec (hC : 2 ≤ Capacity) (h : name.Holds text) :
    ∃ b, name.isValidFileName = some b ∧ (b = true ↔ IsFileName text) := by
  obtain ⟨cur, hcur, hcurHolds⟩ := currentDirectory_spec hC
  obtain ⟨par, hpar, hparHolds⟩ := parentDirectory_spec hC
  obtain ⟨isCurrent, hisCurrent, hcurrent⟩ := equal_spec h hcurHolds
  obtain ⟨isParent, hisParent, hparent⟩ := equal_spec h hparHolds
  rw [isValidFileName, h.size]
  by_cases hempty : text = []
  · exact ⟨false, by rw [hempty]; rfl, iff_of_false Bool.false_ne_true fun hn => hn.1 hempty⟩
  have hlast : text.length - 1 < text.length := by
    have := List.length_pos_iff.mpr hempty
    omega
  have hgetLast : text.getLast? = some text[text.length - 1] := by
    rw [List.getLast?_eq_getElem?, List.getElem?_eq_getElem hlast]
  rw [if_neg (fun hzero => hempty (List.length_eq_zero_iff.mp hzero))]
  simp only [hcur, hpar, hisCurrent, hisParent, h.getElem? hlast, Option.bind_eq_bind,
    Option.bind_some]
  cases hrelative : isCurrent || isParent with
  | true =>
    refine ⟨false, rfl, iff_of_false Bool.false_ne_true fun hn => hn.2.2 ?_⟩
    rcases Bool.or_eq_true_iff.mp hrelative with hb | hb
    · rw [hcurrent.mp hb]
      rfl
    · rw [hparent.mp hb]
      rfl
  | false =>
    by_cases hdot : text[text.length - 1] = '.'
    · refine ⟨false, ?_, iff_of_false Bool.false_ne_true fun hn => hn.2.2 ?_⟩
      · simp [hdot]
      · rw [hgetLast, hdot]
    · refine ⟨text.all isFileNameChar, ?_, ?_⟩
      · simp only [hdot, Bool.false_eq_true, if_false]
        exact isValidFileNameLoop_spec h (Nat.zero_add _)
      · rw [List.all_eq_true]
        refine ⟨fun hall => ⟨hempty, hall, ?_⟩, fun hn => hn.2.1⟩
        rw [hgetLast]
        simpa using hdot

theorem separators_content {separators : List Char} (hsep : nul ∉ separators) :
    (TextArgument.charArray (separators ++ [nul])).content = separators := by
  rw [TextArgument.content, TextArgument.getData, TextArgument.getSize, ← takeWhile_eq_take,
    takeWhile_append_nul hsep]

theorem rest_spec (h : name.Holds text) {pos : Nat} (hpos : pos ≤ text.length) :
    ∃ rest temp, name.substrFrom pos = some (some rest) ∧ name.copy rest = some temp ∧
      temp.Holds (text.drop pos) := by
  obtain ⟨rest, hrest, hholds⟩ := substrFrom_spec h hpos
  obtain ⟨temp, htemp, hholds'⟩ := copy_spec name hholds le_rfl
  exact ⟨rest, temp, hrest, htemp, hholds'⟩

/-- Each round takes a separator, or a directory and the separator behind it, off the front
of a string that does not end in a separator. -/
theorem isValidFilePathLoop_spec (hC : 2 ≤ Capacity) {separators : List Char}
    (hsep : nul ∉ separators) {fuel : Nat} (h : name.Holds text)
    (hlast : ∀ c ∈ separators, text.getLast? ≠ some c) (hfuel : text.length < fuel) :
    ∃ b, isValidFilePathLoop separators fuel name = some b ∧
      (b = true ↔ IsComponentPath (components (· ∈ separators) text)) := by
  induction fuel generalizing name text with
  | zero => exact absurd hfuel (Nat.not_lt_zero _)
  | succ fuel ih =>
    rw [isValidFilePathLoop, h.size]
    by_cases hempty : text = []
    · refine ⟨false, by rw [hempty]; rfl, iff_of_false Bool.false_ne_true ?_⟩
      rw [hempty, components_nil]
      exact not_isComponentPath_nil
    rw [if_neg (fun hzero => hempty (List.length_eq_zero_iff.mp hzero))]
    obtain ⟨r, hr, hfirst⟩ := findFirstOf_spec h
      (show (TextArgument.charArray (separators ++ [nul])).WellFormed from trivial)
      (show nul ∈ separators ++ [nul] by simp) 0
    rw [separators_content hsep] at hfirst
    simp only [hr, Option.bind_eq_bind, Option.bind_some]
    cases r with
    | none =>
      have hfree : ∀ c ∈ text, decide (c ∈ separators) = false := by
        intro c hc
        obtain ⟨i, hi, rfl⟩ := List.getElem_of_mem hc
        have hnot := not_of_no_first (fun i hi => by simpa using (hfirst i).mpr hi) i
          (Nat.zero_le i)
        rw [oneOfAt_iff hi] at hnot
        exact decide_eq_false hnot
      rw [components_of_free hfree hempty, isComponentPath_singleton]
      exact isValidFileName_spec hC h
    | some p =>
      obtain ⟨pre, a, rest, rfl, rfl, ha, hpre⟩ := split_of_first ((hfirst p).mp rfl)
      have ha' : decide (a ∈ separators) = true := decide_eq_true ha
      have hdrop : (pre ++ a :: rest).drop (pre.length + 1) = rest := by
        rw [← List.drop_drop, List.drop_left]
        rfl
      have hlastRest : ∀ c ∈ separators, rest.getLast? ≠ some c := by
        intro c hc hrest
        apply hlast c hc
        rw [List.getLast?_append, List.getLast?_cons, hrest]
        rfl
      have hne : rest ≠ [] := by
        rintro rfl
        apply hlast a ha
        rw [List.getLast?_append]
        rfl
      have hrestPath : components (· ∈ separators) rest ≠ [] :=
        components_ne_nil hne fun c hc => decide_eq_false fun hmem => hlastRest c hmem hc
      have hlen : (pre ++ a :: rest).length = pre.length + 1 + rest.length := by
        rw [List.length_append, List.length_cons]
        omega
      obtain ⟨sub, temp, hsub, hcopy, htemp⟩ := rest_spec h
        (show pre.length + 1 ≤ (pre ++ a :: rest).length by omega)
      rw [hdrop] at htemp
      obtain ⟨b, hloop, hb⟩ := ih htemp hlastRest (by omega)
      cases pre with
      | nil =>
        rw [List.nil_append, components_cons (p := (· ∈ separators)) ha']
        refine ⟨b, ?_, hb⟩
        simp only [List.length_nil, Nat.zero_add] at hsub ⊢
        simp only [hsub, hcopy, hloop, Option.bind_some]
      | cons c pre =>
        have hpre' : ∀ d ∈ c :: pre, decide (d ∈ separators) = false :=
          fun d hd => decide_eq_false (hpre d hd)
        rw [components_append_cons (p := (· ∈ separators)) hpre' (List.cons_ne_nil c pre) ha',
          isComponentPath_cons hrestPath, ← hb]
        obtain ⟨file, hfile, hfileHolds⟩ := substr_spec h (Nat.zero_le _) (c :: pre).length
        rw [List.drop_zero, List.take_left] at hfileHolds
        obtain ⟨cur, hcur, hcurHolds⟩ := currentDirectory_spec hC
        obtain ⟨par, hpar, hparHolds⟩ := parentDirectory_spec hC
        obtain ⟨isName, hisName, hname⟩ := isValidFileName_spec hC hfileHolds
        obtain ⟨isCurrent, hisCurrent, hcurrent⟩ := equal_spec hfileHolds hcurHolds
        obtain ⟨isParent, hisParent, hparent⟩ := equal_spec hfileHolds hparHolds
        have hdirectory : (isName || isCurrent || isParent) = true ↔
            IsDirectoryName (c :: pre) := by
          rw [Bool.or_eq_true, Bool.or_eq_true, hname, hcurrent, hparent, IsDirectoryName,
            or_assoc]
        simp only [List.length_cons] at hfile hsub ⊢
        simp only [hfile, hisName, hcur, hpar, hisCurrent, hisParent, hsub, hcopy,
          Option.bind_some]
        rw [← hdirectory]
        cases isName || isCurrent || isParent with
        | true => exact ⟨b, hloop, by simp⟩
        | false => exact ⟨false, rfl, by simp⟩

end FixedString

/-- Given as many rounds as the string has characters and one more, the check comes to an
end, and it accepts exactly the file paths. -/
theorem isValidFilePath_iff {Capacity fuel : Nat} (hC : 2 ≤ Capacity) {separators : List Char}
    (hsep : nul ∉ separators) {name : FixedString Capacity} {text : List Char}
    (h : name.Holds text) (hfuel : text.length < fuel) :
    ∃ b, FixedString.isValidFilePath fuel separators name = some b ∧
      (b = true ↔ IsFilePath separators text) := by
  rw [FixedString.isValidFilePath, h.size]
  by_cases hempty : text = []
  · exact ⟨false, by rw [hempty]; rfl, iff_of_false Bool.false_ne_true fun hp => hp.1 hempty⟩
  have hlt : text.length - 1 < text.length := by
    have := List.length_pos_iff.mpr hempty
    omega
  have hgetLast : text.getLast? = some text[text.length - 1] := by
    rw [List.getLast?_eq_getElem?, List.getElem?_eq_getElem hlt]
  rw [if_neg (fun hzero => hempty (List.length_eq_zero_iff.mp hzero))]
  simp only [h.getElem? hlt, Option.bind_eq_bind, Option.bind_some]
  cases hends : separators.any (text[text.length - 1] == ·) with
  | true =>
    refine ⟨false, rfl, iff_of_false Bool.false_ne_true fun hp => ?_⟩
    obtain ⟨c, hc, heq⟩ := List.any_eq_true.mp hends
    exact hp.2.1 c hc (by rw [hgetLast, eq_of_beq heq])
  | false =>
    have hlast : ∀ c ∈ separators, text.getLast? ≠ some c := by
      intro c hc heq
      rw [hgetLast, Option.some.injEq] at heq
      exact List.any_eq_false.mp hends c hc (by rw [heq, beq_self_eq_true])
    obtain ⟨temp, htemp, hholds⟩ := FixedString.copy_spec (.empty : FixedString Capacity) h le_rfl
    obtain ⟨b, hb, hpath⟩ := FixedString.isValidFilePathLoop_spec hC hsep hholds hlast hfuel
    refine ⟨b, ?_, hpath.trans ?_⟩
    · simp only [htemp, Option.bind_some]
      exact hb
    · exact ⟨fun hp => ⟨hempty, hlast, hp⟩, fun hp => hp.2.2⟩

def mixedPath : FixedString 10 where
  rawstring := ['/', '/', 'a', '/', '.', '.', '/', 'b', '.', 'x', nul]
  rawstringSize := 10
  length_rawstring := rfl

theorem mixedPath_holds : mixedPath.Holds ['/', '/', 'a', '/', '.', '.', '/', 'b', '.', 'x'] :=
  ⟨rfl, rfl, rfl, by decide⟩

theorem isValidFilePath_iff_mixed :
    IsFilePath ['/'] ['/', '/', 'a', '/', '.', '.', '/', 'b', '.', 'x'] := by
  have heval : FixedString.isValidFilePath 11 ['/'] mixedPath = some true := by decide +kernel
  obtain ⟨b, hb, hpath⟩ := isValidFilePath_iff (by decide)
    (show nul ∉ ['/'] by decide) mixedPath_holds (show _ < 11 by decide)
  rw [heval] at hb
  cases hb
  exact hpath.mp rfl

end Iceoryx.Hoofs
