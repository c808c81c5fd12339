import Mathlib.Algebra.Group.Nat.Defs
import Mathlib.Data.List.GetD
import Iceoryx.Lib.Text

namespace Iceoryx.Runtime

open Lib.Text

structure IpcMessage where
  msg : List Char := []
  isValid : Bool := true
  numberOfElements : Nat := 0
  deriving DecidableEq, Repr

namespace IpcMessage

def separator : Char := ','

def isValidEntry (entry : List Char) : Bool := (find separator entry 0).isNone

def addEntry (m : IpcMessage) (entry : List Char) : IpcMessage :=
  if !isValidEntry entry then
    { m with isValid := false }
  else
    { m with
      msg := m.msg ++ (entry ++ [separator])
      numberOfElements := (m.numberOfElements + 1) % 2 ^ 32 }

def addEntries (m : IpcMessage) (entries : List (List Char)) : IpcMessage :=
  entries.foldl addEntry m

def ofEntries (entries : List (List Char)) : IpcMessage := addEntries {} entries

def getNumberOfElements (m : IpcMessage) : Nat := m.numberOfElements

def getMessage (m : IpcMessage) : List Char := m.msg

def elementLoop (msg : List Char) (index counter startPos : Nat) : List Char :=
  match h : find separator msg startPos with
  | none => []
  | some endPos =>
    if counter = index then
      substr msg startPos (endPos - startPos)
    else
      elementLoop msg index ((counter + 1) % 2 ^ 32) (endPos + 1)
  termination_by msg.length - startPos
  decreasing_by
    have := find_eq_some h
    omega

def getElementAtIndex (m : IpcMessage) (index : Nat) : List Char :=
  elementLoop m.msg index 0 0

def clearMessage (_ : IpcMessage) : IpcMessage :=
  { msg := [], numberOfElements := 0, isValid := true }

def setMessage (m : IpcMessage) (msg : List Char) : IpcMessage :=
  let m := { m.clearMessage with msg := msg }
  if !m.msg.isEmpty ∧ m.msg.getLast? ≠ some separator then
    { m with isValid := false }
  else
    { m with numberOfElements := m.msg.count separator % 2 ^ 32 }

theorem isValidEntry_iff {entry : List Char} :
    isValidEntry entry = true ↔ separator ∉ entry := by
  constructor
  · intro h hmem
    obtain ⟨e, rest, rfl, he⟩ := List.eq_append_cons_of_mem hmem
    have hfind := find_append [] rest he
    simp only [List.nil_append, List.length_nil] at hfind
    simp [isValidEntry, hfind] at h
  · intro h
    rw [isValidEntry, find_eq_none (by simpa using h)]
    rfl

theorem addEntry_of_valid {m : IpcMessage} {entry : List Char} (h : separator ∉ entry) :
    m.addEntry entry = { m with
      msg := m.msg ++ (entry ++ [separator])
      numberOfElements := (m.numberOfElements + 1) % 2 ^ 32 } := by
  simp [addEntry, isValidEntry_iff.mpr h]

theorem addEntry_of_invalid {m : IpcMessage} {entry : List Char} (h : separator ∈ entry) :
    m.addEntry entry = { m with isValid := false } := by
  have hv : isValidEntry entry = false := by
    rw [Bool.eq_false_iff]
    exact fun hv => isValidEntry_iff.mp hv h
  simp [addEntry, hv]

theorem addEntries_of_valid (entries : List (List Char)) (h : ∀ e ∈ entries, separator ∉ e)
    (m : IpcMessage) (hm : m.numberOfElements < 2 ^ 32) :
    m.addEntries entries = { m with
      msg := m.msg ++ terminated separator entries
      numberOfElements := (m.numberOfElements + entries.length) % 2 ^ 32 } := by
  induction entries generalizing m with
  | nil =>
    rw [List.length_nil, Nat.add_zero, Nat.mod_eq_of_lt hm]
    simp [addEntries]
  | cons e entries ih =>
    have hstep : m.addEntries (e :: entries) = (m.addEntry e).addEntries entries := rfl
    rw [hstep, addEntry_of_valid (h e List.mem_cons_self),
      ih (fun e' he' => h e' (List.mem_cons_of_mem e he')) _ (Nat.mod_lt _ (by decide))]
    simp only [terminated_cons, List.length_cons, List.append_assoc, List.cons_append,
      List.nil_append, Nat.mod_add_mod]
    rw [Nat.add_right_comm, Nat.add_assoc]

theorem addEntry_invalid {m : IpcMessage} (h : m.isValid = false) (entry : List Char) :
    (m.addEntry entry).isValid = false := by
  unfold addEntry
  split
  · rfl
  · exact h

theorem addEntries_invalid {m : IpcMessage} (h : m.isValid = false) (entries : List (List Char)) :
    (m.addEntries entries).isValid = false := by
  induction entries generalizing m with
  | nil => exact h
  | cons e entries ih => exact ih (addEntry_invalid h e)

theorem not_mem_of_isValid {m : IpcMessage} {entries : List (List Char)}
    (h : (m.addEntries entries).isValid = true) : ∀ e ∈ entries, separator ∉ e := by
  induction entries generalizing m with
  | nil => nofun
  | cons e entries ih =>
    refine List.forall_mem_cons.mpr ⟨fun he => ?_, ih h⟩
    have hinvalid : (m.addEntry e).isValid = false := by rw [addEntry_of_invalid he]
    rw [addEntries, List.foldl_cons, ← addEntries, addEntries_invalid hinvalid] at h
    cases h

theorem elementLoop_eq (entries : List (List Char)) (h : ∀ e ∈ entries, separator ∉ e)
    {index : Nat} (hindex : index < 2 ^ 32) (pre : List Char) (counter : Nat)
    (hcounter : counter ≤ index) :
    elementLoop (pre ++ terminated separator entries) index counter pre.length =
      entries.getD (index - counter) [] := by
  induction entries generalizing pre counter with
  | nil =>
    rw [elementLoop]
    split
    · rfl
    · next i hi =>
      have := find_eq_some hi
      simp at this
      omega
  | cons e entries ih =>
    have hfind := find_append pre (terminated separator entries) (h e List.mem_cons_self)
    rw [elementLoop, terminated_cons]
    split
    · next hi =>
      rw [hfind] at hi
      cases hi
    · next i hi =>
      rw [hfind] at hi
      cases hi
      by_cases hc : counter = index
      · subst hc
        simp [substr_append]
      · have hrest := ih (fun e' he' => h e' (List.mem_cons_of_mem e he'))
          (pre ++ (e ++ [separator])) (counter + 1) (by omega)
        have hlen : (pre ++ (e ++ [separator])).length = pre.length + e.length + 1 := by
          simp
          omega
        have hmod : (counter + 1) % 2 ^ 32 = counter + 1 := Nat.mod_eq_of_lt (by omega)
        rw [hlen, List.append_assoc, List.append_assoc, List.singleton_append] at hrest
        rw [if_neg hc, hmod, hrest]
        obtain ⟨d, hd⟩ : ∃ d, index - counter = d + 1 := ⟨index - counter - 1, by omega⟩
        rw [hd, List.getD_cons_succ, show index - (counter + 1) = d by omega]

theorem getElementAtIndex_eq {m : IpcMessage} {entries : List (List Char)}
    (hm : m.msg = terminated separator entries) (h : ∀ e ∈ entries, separator ∉ e)
    {index : Nat} (hindex : index < 2 ^ 32) :
    m.getElementAtIndex index = entries.getD index [] := by
  have hscan := elementLoop_eq entries h hindex [] 0 (Nat.zero_le index)
  rw [getElementAtIndex, hm]
  simpa using hscan

theorem setMessage_msg (m : IpcMessage) (s : List Char) : (m.setMessage s).msg = s := by
  unfold setMessage
  simp only
  split <;> rfl

theorem setMessage_isValid_iff {m : IpcMessage} {s : List Char} :
    (m.setMessage s).isValid = true ↔ Ended separator s := by
  unfold setMessage
  rcases s with _ | ⟨a, s⟩
  · simp [Ended, clearMessage]
  · by_cases hlast : (a :: s).getLast? = some separator
    · simp [Ended, clearMessage, hlast]
    · simp [Ended, hlast]

theorem setMessage_terminated (m : IpcMessage) {entries : List (List Char)}
    (h : ∀ e ∈ entries, separator ∉ e) :
    m.setMessage (terminated separator entries) =
      { msg := terminated separator entries
        isValid := true
        numberOfElements := entries.length % 2 ^ 32 } := by
  have hvalid := setMessage_isValid_iff (m := m).mpr (ended_terminated separator entries)
  unfold setMessage at hvalid ⊢
  simp only at hvalid ⊢
  split at hvalid
  · cases hvalid
  · next hc =>
    rw [if_neg hc, count_terminated h]
    rfl

theorem ofEntries_eq {entries : List (List Char)} (h : ∀ e ∈ entries, separator ∉ e) :
    ofEntries entries =
      { msg := terminated separator entries
        isValid := true
        numberOfElements := entries.length % 2 ^ 32 } := by
  rw [ofEntries, addEntries_of_valid entries h {} (by decide)]
  simp

theorem getNumberOfElements_ofEntries {entries : List (List Char)}
    (h : ∀ e ∈ entries, separator ∉ e) :
    (ofEntries entries).getNumberOfElements = entries.length % 2 ^ 32 := by
  rw [ofEntries_eq h]
  rfl

theorem getElementAtIndex_ofEntries {entries : List (List Char)}
    (h : ∀ e ∈ entries, separator ∉ e) {i : Nat} (hi : i < 2 ^ 32) :
    (ofEntries entries).getElementAtIndex i = entries.getD i [] :=
  getElementAtIndex_eq (by rw [ofEntries_eq h]) h hi

theorem setMessage_ofEntries (m : IpcMessage) {entries : List (List Char)}
    (h : ∀ e ∈ entries, separator ∉ e) :
    m.setMessage (ofEntries entries).getMessage = ofEntries entries := by
  rw [getMessage, ofEntries_eq h]
  exact setMessage_terminated m h

/-- Sending a message and reading it back: the elements, their number and the
validity are those of the entries added; what is accepted consists of its
elements; an entry with a separator is never forgotten. -/
theorem message_round_trip :
    (∀ entries : List (List Char), entries.length < 2 ^ 32 → (∀ e ∈ entries, separator ∉ e) →
      (ofEntries entries).isValid = true ∧
      ∀ m : IpcMessage,
        let received := m.setMessage (ofEntries entries).getMessage
        received.isValid = true ∧
        received.getNumberOfElements = (ofEntries entries).getNumberOfElements ∧
        received.getNumberOfElements = entries.length ∧
        (∀ (i : Nat) (hi : i < entries.length), received.getElementAtIndex i = entries[i]) ∧
        ∀ i, entries.length ≤ i → i < 2 ^ 32 → received.getElementAtIndex i = []) ∧
    (∀ (m : IpcMessage) (s : List Char),
      ((m.setMessage s).isValid = true ↔ s = [] ∨ s.getLast? = some separator) ∧
      ((m.setMessage s).isValid = true →
        ∃ elements : List (List Char),
          s = elements.flatMap (· ++ [separator]) ∧
          (∀ e ∈ elements, separator ∉ e) ∧
          (m.setMessage s).getNumberOfElements = elements.length % 2 ^ 32 ∧
          (∀ i < 2 ^ 32, (m.setMessage s).getElementAtIndex i = elements.getD i []) ∧
          (elements.length < 2 ^ 32 →
            elements = (List.range (m.setMessage s).getNumberOfElements).map
              (m.setMessage s).getElementAtIndex))) ∧
    ∀ (m : IpcMessage) (entry : List Char), separator ∈ entry → ∀ entries : List (List Char),
      ((m.addEntry entry).addEntries entries).isValid = false := by
  refine ⟨?_, ?_, ?_⟩
  · intro entries hlen hfree
    have hbuilt := ofEntries_eq hfree
    refine ⟨by rw [hbuilt], ?_⟩
    intro m received
    have hreceived : received = ofEntries entries := setMessage_ofEntries m hfree
    have hget : ∀ i < 2 ^ 32, received.getElementAtIndex i = entries.getD i [] := by
      intro i hi
      exact getElementAtIndex_eq (by rw [hreceived, hbuilt]) hfree hi
    refine ⟨by rw [hreceived, hbuilt], by rw [hreceived], ?_, ?_, ?_⟩
    · rw [hreceived, hbuilt]
      exact Nat.mod_eq_of_lt hlen
    · intro i hi
      rw [hget i (by omega), List.getD_eq_getElem _ _ hi]
    · intro i hi hi32
      rw [hget i hi32, List.getD_eq_default _ _ hi]
  · intro m s
    refine ⟨setMessage_isValid_iff, ?_⟩
    intro hvalid
    obtain ⟨elements, hfree, rfl⟩ := exists_terminated (setMessage_isValid_iff.mp hvalid)
    have hset := setMessage_terminated m hfree
    have hget : ∀ i < 2 ^ 32, (m.setMessage (terminated separator elements)).getElementAtIndex i =
        elements.getD i [] := by
      intro i hi
      exact getElementAtIndex_eq (setMessage_msg m _) hfree hi
    refine ⟨elements, rfl, hfree, by rw [hset]; rfl, hget, ?_⟩
    intro hlen
    apply List.ext_getElem
    · rw [hset, List.length_map, List.length_range]
      exact (Nat.mod_eq_of_lt hlen).symm
    · intro i hi _
      rw [List.getElem_map, List.getElem_range, hget i (by omega), List.getD_eq_getElem _ _ hi]
  · intro m entry hentry entries
    apply addEntries_invalid
    rw [addEntry_of_invalid hentry]

theorem message_round_trip_three :
    (∀ e ∈ [['A', 'C', 'K'], [], ['4', '2']], separator ∉ e) ∧
    (setMessage {} (ofEntries [['A', 'C', 'K'], [], ['4', '2']]).getMessage).getElementAtIndex 2 =
      ['4', '2'] ∧
    (setMessage {} (ofEntries [['A', 'C', 'K'], [], ['4', '2']]).getMessage).getElementAtIndex 3 =
      [] := by
  have h : ∀ e ∈ [['A', 'C', 'K'], [], ['4', '2']], separator ∉ e := by decide
  obtain ⟨-, -, -, hin, hout⟩ := (message_round_trip.1 _ (by decide) h).2 {}
  exact ⟨h, hin 2 (by decide), hout 3 (by decide) (by decide)⟩

end IpcMessage

end Iceoryx.Runtime
