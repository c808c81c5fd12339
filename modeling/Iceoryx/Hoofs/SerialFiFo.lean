import Iceoryx.Hoofs.SerialIndexQueue
import Iceoryx.Lib.Fifo

namespace Iceoryx.Hoofs

open Lib

structure SerialFiFo (A : Type) where
  data : Nat → Option A
  writePos : Nat
  readPos : Nat

namespace SerialFiFo

variable {A : Type} (capacity : Nat)

def construct : SerialFiFo A where
  data := fun _ => none
  writePos := 0
  readPos := 0

def isFull (q : SerialFiFo A) : Bool := q.writePos = (q.readPos + capacity) % 2 ^ 64

def push (q : SerialFiFo A) (value : A) : Bool × SerialFiFo A :=
  if q.isFull capacity then (false, q)
  else
    (true, { q with
      data := Function.update q.data (q.writePos % capacity) (some value)
      writePos := (q.writePos + 1) % 2 ^ 64 })

def pop (q : SerialFiFo A) : Option A × SerialFiFo A :=
  if q.readPos = q.writePos then (none, q)
  else (q.data (q.readPos % capacity), { q with readPos := (q.readPos + 1) % 2 ^ 64 })

def size (q : SerialFiFo A) : Nat := (q.writePos + (2 ^ 64 - q.readPos)) % 2 ^ 64

def empty (q : SerialFiFo A) : Bool := q.readPos = q.writePos

def elements (q : SerialFiFo A) : List A :=
  (List.range q.size).filterMap fun k => q.data ((q.readPos + k) % 2 ^ 64 % capacity)

structure Rep (q : SerialFiFo A) (r : Nat) (values : List A) : Prop where
  read : q.readPos = r % 2 ^ 64
  write : q.writePos = (r + values.length) % 2 ^ 64
  room : values.length ≤ capacity
  inRange : capacity ∣ 2 ^ 64 ∨ r + values.length < 2 ^ 64
  stored : Ring.Window capacity q.data r values

variable {capacity} {q : SerialFiFo A} {r : Nat} {values : List A}

theorem slot_eq {p : Nat} (h : capacity ∣ 2 ^ 64 ∨ p < 2 ^ 64) :
    p % 2 ^ 64 % capacity = p % capacity := CyclicIndex.getIndex_mod h

theorem rep_construct : Rep capacity (construct : SerialFiFo A) 0 [] where
  read := rfl
  write := rfl
  room := Nat.zero_le _
  inRange := Or.inr (Nat.two_pow_pos 64)
  stored := Ring.Window.nil _ _ _

theorem Rep.isFull_iff (h : Rep capacity q r values) (hlarge : capacity < 2 ^ 63) :
    q.isFull capacity = true ↔ values.length = capacity := by
  have hroom := h.room
  rw [isFull, decide_eq_true_eq, h.write, h.read]
  omega

theorem Rep.push_full (h : Rep capacity q r values) (hlarge : capacity < 2 ^ 63)
    (hfull : values.length = capacity) (a : A) : q.push capacity a = (false, q) := by
  rw [push, if_pos ((h.isFull_iff hlarge).mpr hfull)]

theorem Rep.push_room (h : Rep capacity q r values) (hlarge : capacity < 2 ^ 63)
    (hroom : values.length < capacity) (a : A)
    (hwrap : capacity ∣ 2 ^ 64 ∨ q.writePos + 1 < 2 ^ 64) :
    ∃ q', q.push capacity a = (true, q') ∧ Rep capacity q' r (values ++ [a]) := by
  have hlen : (values ++ [a]).length = values.length + 1 := by simp
  refine ⟨{ q with
    data := Function.update q.data (q.writePos % capacity) (some a)
    writePos := (q.writePos + 1) % 2 ^ 64 }, ?_, h.read, ?_, ?_, ?_, ?_⟩
  · rw [push, if_neg]
    rw [h.isFull_iff hlarge]
    omega
  · rw [h.write, hlen, Nat.mod_add_mod]
    rfl
  · omega
  · rw [hlen]
    rcases h.inRange with hdvd | hrange
    · exact Or.inl hdvd
    · rw [h.write, Nat.mod_eq_of_lt hrange] at hwrap
      exact hwrap
  · rw [h.write, slot_eq h.inRange]
    exact h.stored.push hroom a

theorem Rep.pop_nil (h : Rep capacity q r []) : q.pop capacity = (none, q) := by
  rw [pop, if_pos]
  rw [h.read, h.write]
  rfl

theorem Rep.pop_cons {a : A} (h : Rep capacity q r (a :: values)) (hlarge : capacity < 2 ^ 63) :
    ∃ q', q.pop capacity = (some a, q') ∧ Rep capacity q' (r + 1) values := by
  have hroom := h.room
  have hlen : (a :: values).length = values.length + 1 := rfl
  have hrange : capacity ∣ 2 ^ 64 ∨ r < 2 ^ 64 := h.inRange.imp id fun hlt => by omega
  refine ⟨{ q with readPos := (q.readPos + 1) % 2 ^ 64 }, ?_, ?_, ?_, ?_, ?_, h.stored.tail⟩
  · rw [pop, if_neg, h.read, slot_eq hrange, h.stored.head]
    rw [h.read, h.write]
    omega
  · rw [h.read, Nat.mod_add_mod]
  · rw [h.write, hlen, Nat.add_right_comm, Nat.add_assoc]
  · omega
  · exact h.inRange.imp id fun hlt => by omega

theorem Rep.elements_eq (h : Rep capacity q r values) (hlarge : capacity < 2 ^ 63) :
    q.elements capacity = values := by
  have hroom := h.room
  have hsize : q.size = values.length := by
    rw [size, h.write, h.read]
    omega
  refine Eq.trans ?_ h.stored.values_eq
  rw [elements, hsize]
  refine List.filterMap_congr fun k hk => ?_
  have hlt := List.mem_range.mp hk
  rw [h.read, Nat.mod_add_mod, slot_eq (h.inRange.imp id fun hrange => by omega)]

end SerialFiFo

structure SerialSoFi (A : Type) where
  data : Nat → Option A
  internalSize : Nat
  readPosition : Nat
  writePosition : Nat

namespace SerialSoFi

variable {A : Type} (capacityValue : Nat)

def internalSofiSize : Nat := (capacityValue + 1) % 2 ^ 32

def construct : SerialSoFi A where
  data := fun _ => none
  internalSize := internalSofiSize capacityValue
  readPosition := 0
  writePosition := 0

def capacity (q : SerialSoFi A) : Nat := (q.internalSize + (2 ^ 64 - 1)) % 2 ^ 64

def size (q : SerialSoFi A) : Nat := (q.writePosition + (2 ^ 64 - q.readPosition)) % 2 ^ 64

def empty (q : SerialSoFi A) : Bool := q.writePosition = q.readPosition

def elements (q : SerialSoFi A) : List A :=
  (List.range q.size).filterMap fun k => q.data ((q.readPosition + k) % q.internalSize)

def setCapacity (q : SerialSoFi A) (newSize : Nat) : Bool × SerialSoFi A :=
  let newInternalSize := (newSize + 1) % 2 ^ 64
  if q.empty ∧ newInternalSize ≤ internalSofiSize capacityValue then
    (true, { q with
      internalSize := newInternalSize
      readPosition := 0
      writePosition := 0 })
  else (false, q)

/-- The element of the array at a position; there is none when the division is by zero or the
index lies outside of the array. -/
def slot (q : SerialSoFi A) (position : Nat) : Option Nat :=
  if q.internalSize = 0 then none
  else if position % q.internalSize < internalSofiSize capacityValue then
    some (position % q.internalSize)
  else none

/-- The value that was overridden, if any, and the queue; `none` is undefined behaviour. -/
def push (q : SerialSoFi A) (value : A) : Option (Option A × SerialSoFi A) :=
  (q.slot capacityValue q.writePosition).bind fun index =>
    let q := { q with
      data := Function.update q.data index (some value)
      writePosition := (q.writePosition + 1) % 2 ^ 64 }
    if q.writePosition < (q.readPosition + q.internalSize) % 2 ^ 64 then some (none, q)
    else
      (q.slot capacityValue q.readPosition).map fun index =>
        (q.data index, { q with readPosition := (q.readPosition + 1) % 2 ^ 64 })

def pop (q : SerialSoFi A) : Option (Option A × SerialSoFi A) :=
  if q.readPosition = q.writePosition then some (none, q)
  else
    (q.slot capacityValue q.readPosition).map fun index =>
      (q.data index, { q with readPosition := (q.readPosition + 1) % 2 ^ 64 })

/-- The ring holds `values` from the read position on.  A size of 0 has no slots at all. -/
structure Rep (q : SerialSoFi A) (values : List A) : Prop where
  bounded : q.internalSize ≤ internalSofiSize capacityValue
  write : q.writePosition = q.readPosition + values.length
  inRange : q.writePosition < 2 ^ 64
  room : values.length + 1 ≤ q.internalSize ∨ values = []
  stored : Ring.Window q.internalSize q.data q.readPosition values

variable {capacityValue} {q : SerialSoFi A} {values : List A}

theorem internalSofiSize_lt : internalSofiSize capacityValue < 2 ^ 32 := Nat.mod_lt _ (by decide)

theorem slot_eq (h : Rep capacityValue q values) (hpos : 0 < q.internalSize) (p : Nat) :
    q.slot capacityValue p = some (p % q.internalSize) := by
  rw [slot, if_neg (by omega), if_pos]
  exact Nat.lt_of_lt_of_le (Nat.mod_lt p hpos) h.bounded

theorem rep_construct : Rep capacityValue (construct capacityValue : SerialSoFi A) [] where
  bounded := Nat.le_refl _
  write := rfl
  inRange := Nat.two_pow_pos 64
  room := Or.inr rfl
  stored := Ring.Window.nil _ _ _

theorem Rep.capacity_eq (h : Rep capacityValue q values) (hpos : 0 < q.internalSize) :
    q.capacity = q.internalSize - 1 := by
  have hlt : internalSofiSize capacityValue < 2 ^ 32 := internalSofiSize_lt
  have hle := h.bounded
  rw [capacity]
  omega

theorem Rep.empty_iff (h : Rep capacityValue q values) : q.empty = true ↔ values = [] := by
  have hwrite := h.write
  rw [empty, decide_eq_true_eq, ← List.length_eq_zero_iff]
  omega

theorem Rep.elements_eq (h : Rep capacityValue q values) : q.elements = values := by
  have hwrite := h.write
  have hrange := h.inRange
  have hsize : q.size = values.length := by
    rw [size]
    omega
  rw [elements, hsize]
  exact h.stored.values_eq

theorem Rep.push (h : Rep capacityValue q values) (hpos : 0 < q.internalSize) (a : A)
    (hwrap : q.readPosition + q.internalSize < 2 ^ 64) :
    ∃ q', q.push capacityValue a =
        some ((Fifo.push { capacity := q.capacity, elements := values } a).1, q') ∧
      Rep capacityValue q' (Fifo.push { capacity := q.capacity, elements := values } a).2.elements ∧
      q'.internalSize = q.internalSize := by
  have hwrite := h.write
  have hroom : values.length + 1 ≤ q.internalSize := by
    rcases h.room with hroom | hnil
    · exact hroom
    · rw [hnil]
      exact hpos
  have hlen : (values ++ [a]).length = values.length + 1 := by simp
  have hnext : (q.writePosition + 1) % 2 ^ 64 = q.readPosition + (values ++ [a]).length := by
    rw [hlen]
    omega
  have hsum : (q.readPosition + q.internalSize) % 2 ^ 64 = q.readPosition + q.internalSize :=
    Nat.mod_eq_of_lt hwrap
  have hstored := h.stored.push hroom a
  rw [← hwrite] at hstored
  rw [SerialSoFi.push, slot_eq h hpos, Option.bind_some, Fifo.push, h.capacity_eq hpos]
  simp only [hnext, hsum]
  by_cases hspace : values.length < q.internalSize - 1
  · rw [if_pos (by omega), if_pos hspace]
    exact ⟨_, rfl, ⟨h.bounded, rfl, by simp only; omega,
      Or.inl (show (values ++ [a]).length + 1 ≤ q.internalSize by omega), hstored⟩, rfl⟩
  · rw [if_neg (by omega), if_neg hspace]
    obtain ⟨b, rest, hcons⟩ := List.exists_cons_of_ne_nil (List.append_ne_nil_of_right_ne_nil
      values (List.cons_ne_nil a []))
    rw [hcons, List.length_cons] at hlen
    rw [hcons] at hstored ⊢
    have hslot : ∀ (data : Nat → Option A) (writePosition : Nat),
        slot capacityValue { q with data := data, writePosition := writePosition }
          q.readPosition = some (q.readPosition % q.internalSize) :=
      fun _ _ => slot_eq h hpos q.readPosition
    rw [hslot, Option.map_some]
    have hread : (q.readPosition + 1) % 2 ^ 64 = q.readPosition + 1 := Nat.mod_eq_of_lt (by omega)
    refine ⟨{ q with
      data := Function.update q.data (q.writePosition % q.internalSize) (some a)
      writePosition := q.readPosition + (b :: rest).length
      readPosition := q.readPosition + 1 }, ?_, ⟨h.bounded, ?_, ?_, Or.inl ?_, hstored.tail⟩, rfl⟩
    · rw [hread, hstored.head, List.head?_cons]
    · simp only [List.length_cons, List.tail_cons]
      omega
    · simp only [List.length_cons]
      omega
    · simp only [List.tail_cons]
      omega

theorem Rep.pop (h : Rep capacityValue q values) :
    ∃ q', q.pop capacityValue =
        some ((Fifo.pop { capacity := q.capacity, elements := values }).1, q') ∧
      Rep capacityValue q' (Fifo.pop { capacity := q.capacity, elements := values }).2.elements ∧
      q'.internalSize = q.internalSize := by
  have hwrite := h.write
  have hrange := h.inRange
  rw [SerialSoFi.pop]
  cases values with
  | nil =>
    rw [if_pos (by rw [hwrite]; rfl)]
    exact ⟨q, rfl, h, rfl⟩
  | cons a rest =>
    have hroom : rest.length + 1 + 1 ≤ q.internalSize := by
      rcases h.room with hroom | hnil
      · exact hroom
      · cases hnil
    rw [List.length_cons] at hwrite
    rw [if_neg (by omega), slot_eq h (by omega), Option.map_some, h.stored.head]
    have hread : (q.readPosition + 1) % 2 ^ 64 = q.readPosition + 1 := Nat.mod_eq_of_lt (by omega)
    rw [hread]
    refine ⟨_, rfl, ⟨h.bounded, ?_, hrange, Or.inl ?_, h.stored.tail⟩, rfl⟩
    · simp only [Fifo.pop, List.tail_cons]
      omega
    · simp only [Fifo.pop, List.tail_cons]
      omega

theorem Rep.setCapacity (h : Rep capacityValue q values) (n : Nat) :
    (values = [] ∧ (n + 1) % 2 ^ 64 ≤ internalSofiSize capacityValue ∧
      ∃ q', q.setCapacity capacityValue n = (true, q') ∧ Rep capacityValue q' [] ∧
        q'.internalSize = (n + 1) % 2 ^ 64) ∨
    (¬ (values = [] ∧ (n + 1) % 2 ^ 64 ≤ internalSofiSize capacityValue) ∧
      q.setCapacity capacityValue n = (false, q)) := by
  simp only [SerialSoFi.setCapacity]
  by_cases hfits : values = [] ∧ (n + 1) % 2 ^ 64 ≤ internalSofiSize capacityValue
  · rw [if_pos ⟨h.empty_iff.mpr hfits.1, hfits.2⟩]
    exact Or.inl ⟨hfits.1, hfits.2, _, rfl,
      ⟨hfits.2, rfl, Nat.two_pow_pos 64, Or.inr rfl, Ring.Window.nil _ _ _⟩, rfl⟩
  · rw [if_neg fun hempty => hfits ⟨h.empty_iff.mp hempty.1, hempty.2⟩]
    exact Or.inr ⟨hfits, rfl⟩

end SerialSoFi

end Iceoryx.Hoofs
