import Iceoryx.Hoofs.IndexQueue
import Iceoryx.Lib.Loop

/-! `concurrent::IndexQueue` as one thread executes it undisturbed: no compare-exchange fails.  The
positions wrap around at 64 bits; `r` counts the pops without a bound. -/

namespace Iceoryx.Hoofs

open CyclicIndex Lib

structure SerialIndexQueue where
  cells : Nat → Nat
  readPosition : Nat
  writePosition : Nat

namespace SerialIndexQueue

variable (capacity : Nat)

def constructEmpty : SerialIndexQueue where
  cells := fun _ => 0
  readPosition := capacity
  writePosition := capacity

def constructFull : SerialIndexQueue where
  cells := fun i => i
  readPosition := 0
  writePosition := capacity

def loadvalueAt (q : SerialIndexQueue) (position : Nat) : Nat :=
  q.cells (getIndex capacity position)

/-- One pass of the loop in `push`; the second component is the local `writePosition`. -/
def pushPass (index : Nat) :
    SerialIndexQueue × Nat → Option ((SerialIndexQueue × Nat) ⊕ (SerialIndexQueue × Nat))
  | (q, writePosition) =>
    let oldValue := q.loadvalueAt capacity writePosition
    if isOneCycleBehind capacity oldValue writePosition then
      let newValue := ofIndexCycle capacity index (getCycle capacity writePosition)
      some (.inr ({ q with
        cells := Function.update q.cells (getIndex capacity writePosition) newValue },
        writePosition))
    else if getCycle capacity oldValue = getCycle capacity writePosition ∧
        q.writePosition = writePosition then
      some (.inl ({ q with writePosition := add capacity writePosition 1 }, writePosition))
    else some (.inl (q, q.writePosition))

def push (fuel : Nat) (q : SerialIndexQueue) (index : Nat) : Option SerialIndexQueue :=
  (loop (pushPass capacity index) fuel (q, q.writePosition)).map fun (q, writePosition) =>
    if q.writePosition = writePosition then
      { q with writePosition := add capacity writePosition 1 }
    else q

def popPass (q : SerialIndexQueue) : Option (SerialIndexQueue ⊕ (Option Nat × SerialIndexQueue)) :=
  let value := q.loadvalueAt capacity q.readPosition
  if getCycle capacity q.readPosition = getCycle capacity value then
    some (.inr (some (getIndex capacity value),
      { q with readPosition := add capacity q.readPosition 1 }))
  else if isOneCycleBehind capacity value q.readPosition then some (.inr (none, q))
  else some (.inl q)

def pop (fuel : Nat) (q : SerialIndexQueue) : Option (Option Nat × SerialIndexQueue) :=
  loop (popPass capacity) fuel q

def popIfSizeIsAtLeast (fuel : Nat) (q : SerialIndexQueue) (requiredSize : Nat) :
    Option (Option Nat × SerialIndexQueue) :=
  if requiredSize = 0 then q.pop capacity fuel
  else
    let delta := sub q.writePosition q.readPosition
    if 0 ≤ delta ∧ requiredSize ≤ delta.toNat then
      some (some (getIndex capacity (q.loadvalueAt capacity q.readPosition)),
        { q with readPosition := add capacity q.readPosition 1 })
    else some (none, q)

def empty (q : SerialIndexQueue) : Bool :=
  isOneCycleBehind capacity (q.loadvalueAt capacity q.readPosition) q.readPosition

def contents (q : SerialIndexQueue) : List Nat :=
  (List.range (sub q.writePosition q.readPosition).toNat).map fun k =>
    getIndex capacity (q.loadvalueAt capacity (add capacity q.readPosition k))

/-- Pushing `index` when `count` indices have been pushed from here on runs into the end of the 64
bits neither with the value of the cell nor with the write position; if the capacity divides
`2 ^ 64` the end is the beginning of a cycle. -/
def Fits (q : SerialIndexQueue) (count index : Nat) : Prop :=
  capacity ∣ 2 ^ 64 ∨ index + (q.writePosition + count) / capacity * capacity < 2 ^ 64 ∧
    q.writePosition + count + 1 < 2 ^ 64

instance (q : SerialIndexQueue) (count index : Nat) : Decidable (q.Fits capacity count index) :=
  inferInstanceAs (Decidable (_ ∨ _))

end SerialIndexQueue

namespace CyclicIndex

variable {L p : Nat}

theorem maxCycle_of_dvd {m : Nat} (hL : 0 < L) (hm : 2 ^ 64 = L * m) : maxCycle L + 1 = m := by
  obtain ⟨k, rfl⟩ : ∃ k, m = k + 1 := Nat.exists_eq_succ_of_ne_zero (by
    rintro rfl
    omega)
  rw [Nat.mul_succ] at hm
  have hdiv : maxCycle L = k := by
    rw [maxCycle, maxValue, hm]
    refine Nat.div_eq_of_lt_le ?_ ?_
    · rw [Nat.mul_comm]
      omega
    · rw [Nat.succ_mul, Nat.mul_comm]
      omega
  rw [hdiv]

theorem getIndex_mod (h : L ∣ 2 ^ 64 ∨ p < 2 ^ 64) : getIndex L (p % 2 ^ 64) = p % L := by
  rcases h with h | h
  · exact Nat.mod_mod_of_dvd p h
  · rw [Nat.mod_eq_of_lt h, getIndex]

theorem getCycle_mod (hL : 0 < L) (h : L ∣ 2 ^ 64 ∨ p < 2 ^ 64) :
    getCycle L (p % 2 ^ 64) = p / L % (maxCycle L + 1) := by
  rcases h with ⟨m, hm⟩ | h
  · rw [maxCycle_of_dvd hL hm, getCycle, hm]
    exact Nat.mod_mul_right_div_self p L m
  · have hle : p / L ≤ maxCycle L := Nat.div_le_div_right (show p ≤ 2 ^ 64 - 1 by omega)
    rw [Nat.mod_eq_of_lt h, getCycle, Nat.mod_eq_of_lt (Nat.lt_succ_of_le hle)]

theorem add_mod {k : Nat} (hk : k < 2 ^ 63) (h : L ∣ 2 ^ 64 ∨ p + k < 2 ^ 64) :
    add L (p % 2 ^ 64) k = (p + k) % 2 ^ 64 := by
  have hlt : p % 2 ^ 64 < 2 ^ 64 := Nat.mod_lt p (by decide)
  have hmax : maxValue = 2 ^ 64 - 1 := rfl
  unfold add
  by_cases hover : maxValue - k < p % 2 ^ 64
  · simp only [if_pos hover]
    rcases h with hdvd | h
    · have hstart : overflowStartIndex L = 0 := by
        rw [overflowStartIndex, Nat.mod_add_mod, hmax]
        exact Nat.mod_eq_zero_of_dvd hdvd
      rw [hstart]
      omega
    · omega
  · simp only [if_neg hover]
    omega

theorem ofIndexCycle_mod {i : Nat} (hi : i < L)
    (h : L ∣ 2 ^ 64 ∨ i + p / L * L < 2 ^ 64) :
    getIndex L (ofIndexCycle L i (p / L % (maxCycle L + 1))) = i ∧
      getCycle L (ofIndexCycle L i (p / L % (maxCycle L + 1))) = p / L % (maxCycle L + 1) := by
  have hL : 0 < L := by omega
  have hsmall : i + p / L % (maxCycle L + 1) * L < 2 ^ 64 := by
    rcases h with ⟨m, hm⟩ | h
    · rw [maxCycle_of_dvd hL hm]
      have hm0 : 0 < m := Nat.pos_of_ne_zero (by
        rintro rfl
        omega)
      have hcycle : p / L % m + 1 ≤ m := Nat.mod_lt _ hm0
      have hle := Nat.mul_le_mul_right L hcycle
      rw [Nat.succ_mul, Nat.mul_comm m L, ← hm] at hle
      omega
    · have hle : p / L % (maxCycle L + 1) * L ≤ p / L * L :=
        Nat.mul_le_mul_right L (Nat.mod_le _ _)
      omega
  rw [ofIndexCycle, Nat.mod_eq_of_lt hsmall]
  exact ⟨IndexQueue.getIndex_encode hi, IndexQueue.getCycle_encode hi⟩

theorem isOneCycleBehind_mod {value other c d : Nat}
    (hvalue : getCycle L value = c % (maxCycle L + 1))
    (hother : getCycle L other = d % (maxCycle L + 1)) :
    isOneCycleBehind L value other =
      decide ((c + 1) % (maxCycle L + 1) = d % (maxCycle L + 1)) := by
  have hlt : c % (maxCycle L + 1) < maxCycle L + 1 := Nat.mod_lt _ (Nat.succ_pos _)
  have hnext : (c + 1) % (maxCycle L + 1) = (c % (maxCycle L + 1) + 1) % (maxCycle L + 1) :=
    (Nat.mod_add_mod c _ 1).symm
  unfold isOneCycleBehind
  rw [hvalue, hother, hnext]
  by_cases hlast : c % (maxCycle L + 1) = maxCycle L
  · rw [if_pos hlast, hlast, Nat.mod_self]
    exact decide_eq_decide.mpr eq_comm
  · have hwrap : (c % (maxCycle L + 1) + 1) % (maxCycle L + 1) = c % (maxCycle L + 1) + 1 :=
      Nat.mod_eq_of_lt (by omega)
    rw [if_neg hlast, hwrap]

theorem sub_mod {r n : Nat} (hn : n < 2 ^ 63) : sub ((r + n) % 2 ^ 64) (r % 2 ^ 64) = n := by
  rw [sub, Int.bmod_def]
  omega

end CyclicIndex

namespace SerialIndexQueue

/-- The queue holds `indices`, the first of them at position `r`.  The last `L` positions have
written the cells. -/
structure Rep (L : Nat) (q : SerialIndexQueue) (r : Nat) (indices : List Nat) : Prop where
  read : q.readPosition = r % 2 ^ 64
  write : q.writePosition = (r + indices.length) % 2 ^ 64
  room : indices.length ≤ L
  low : L ≤ r + indices.length
  inRange : L ∣ 2 ^ 64 ∨ r + indices.length < 2 ^ 64
  cycle : ∀ p, r + indices.length ≤ p + L → p < r + indices.length →
    getCycle L (q.cells (p % L)) = p / L % (maxCycle L + 1)
  stored : ∀ k i, indices[k]? = some i → getIndex L (q.cells ((r + k) % L)) = i
  bounded : ∀ i ∈ indices, i < L

/-- What the class asserts of its template parameter. -/
structure ValidCapacity (L : Nat) : Prop where
  positive : 0 < L
  small : L < maxValue / 2

theorem ValidCapacity.lt {L : Nat} (hL : ValidCapacity L) : L < 2 ^ 63 := by
  have h := hL.small
  have hmax : maxValue = 2 ^ 64 - 1 := rfl
  omega

theorem ValidCapacity.cycle_ne {L : Nat} (hL : ValidCapacity L) (c : Nat) :
    (c + 1) % (maxCycle L + 1) ≠ c % (maxCycle L + 1) := by
  have hmax : maxValue = 2 ^ 64 - 1 := rfl
  have hlt := hL.lt
  have hone : 1 ≤ maxCycle L := (Nat.one_le_div_iff hL.positive).mpr (by omega)
  have hmod : c % (maxCycle L + 1) < maxCycle L + 1 := Nat.mod_lt _ (Nat.succ_pos _)
  have hnext : (c + 1) % (maxCycle L + 1) = (c % (maxCycle L + 1) + 1) % (maxCycle L + 1) :=
    (Nat.mod_add_mod c _ 1).symm
  rw [hnext]
  by_cases hlast : c % (maxCycle L + 1) = maxCycle L
  · rw [hlast, Nat.mod_self]
    omega
  · have hwrap : (c % (maxCycle L + 1) + 1) % (maxCycle L + 1) = c % (maxCycle L + 1) + 1 :=
      Nat.mod_eq_of_lt (by omega)
    omega

section

variable {L : Nat} {q : SerialIndexQueue} {r fuel : Nat} {indices : List Nat}

theorem rep_constructEmpty (hL : ValidCapacity L) : Rep L (constructEmpty L) L [] where
  read := (Nat.mod_eq_of_lt (hL.lt.trans (by decide))).symm
  write := (Nat.mod_eq_of_lt (hL.lt.trans (by decide))).symm
  room := Nat.zero_le _
  low := Nat.le_refl _
  inRange := Or.inr (hL.lt.trans (by decide))
  cycle := by
    intro p _ hp
    have hlt : p < L := hp
    rw [Nat.div_eq_of_lt hlt, Nat.zero_mod]
    exact Nat.zero_div L
  stored := fun k i hk => by simp at hk
  bounded := fun i hi => absurd hi List.not_mem_nil

theorem rep_constructFull (hL : ValidCapacity L) :
    Rep L (constructFull L) 0 (List.range L) where
  read := rfl
  write := by
    rw [List.length_range, Nat.zero_add]
    exact (Nat.mod_eq_of_lt (hL.lt.trans (by decide))).symm
  room := by rw [List.length_range]
  low := by rw [List.length_range, Nat.zero_add]
  inRange := by
    rw [List.length_range, Nat.zero_add]
    exact Or.inr (hL.lt.trans (by decide))
  cycle := by
    intro p _ hp
    rw [List.length_range, Nat.zero_add] at hp
    rw [constructFull, getCycle, Nat.mod_eq_of_lt hp, Nat.div_eq_of_lt hp, Nat.zero_mod]
  stored := by
    intro k i hk
    obtain ⟨hlt, rfl⟩ := List.getElem?_eq_some_iff.mp hk
    rw [List.length_range] at hlt
    rw [constructFull, getIndex, Nat.zero_add, Nat.mod_mod, Nat.mod_eq_of_lt hlt,
      List.getElem_range]
  bounded := fun i hi => List.mem_range.mp hi

theorem Rep.behind (h : Rep L q r indices) (hL : ValidCapacity L) {w : Nat} (hw : L ≤ w)
    (hlow : r + indices.length ≤ w) (hhigh : w < r + indices.length + L)
    (hrange : L ∣ 2 ^ 64 ∨ w < 2 ^ 64) :
    isOneCycleBehind L (q.loadvalueAt L (w % 2 ^ 64)) (w % 2 ^ 64) = true ∧
      getCycle L (w % 2 ^ 64) ≠ getCycle L (q.loadvalueAt L (w % 2 ^ 64)) := by
  obtain ⟨p, rfl⟩ : ∃ p, w = L + p := ⟨w - L, by omega⟩
  have hslot : getIndex L ((L + p) % 2 ^ 64) = p % L := by
    rw [getIndex_mod hrange, Nat.add_mod_left]
  have hvalue : getCycle L (q.loadvalueAt L ((L + p) % 2 ^ 64)) = p / L % (maxCycle L + 1) := by
    rw [loadvalueAt, hslot]
    exact h.cycle p (by omega) (by omega)
  have hposition : getCycle L ((L + p) % 2 ^ 64) = (p / L + 1) % (maxCycle L + 1) := by
    rw [getCycle_mod hL.positive hrange, Nat.add_div_left p hL.positive]
  constructor
  · rw [isOneCycleBehind_mod hvalue hposition]
    exact decide_eq_true rfl
  · rw [hvalue, hposition]
    exact hL.cycle_ne _

theorem Rep.head (h : Rep L q r indices) (hL : ValidCapacity L) {i : Nat}
    (hi : indices.head? = some i) :
    getCycle L q.readPosition = getCycle L (q.loadvalueAt L q.readPosition) ∧
      getIndex L (q.loadvalueAt L q.readPosition) = i := by
  have hpos : 0 < indices.length := by
    cases indices with
    | nil => cases hi
    | cons j rest => exact Nat.succ_pos _
  have hroom := h.room
  have hrange : L ∣ 2 ^ 64 ∨ r < 2 ^ 64 := h.inRange.imp id fun hlt => by omega
  rw [h.read, loadvalueAt, getIndex_mod hrange, getCycle_mod hL.positive hrange]
  constructor
  · exact (h.cycle r (by omega) (by omega)).symm
  · exact h.stored 0 i (by rw [← List.head?_eq_getElem?]; exact hi)

theorem Rep.pop_nil (h : Rep L q r []) (hL : ValidCapacity L) (hfuel : 0 < fuel) :
    q.pop L fuel = some (none, q) := by
  have hlow := h.low
  have hpos := hL.positive
  simp only [List.length_nil, Nat.add_zero] at hlow
  obtain ⟨hbehind, hcycle⟩ := h.behind hL hlow (Nat.le_refl _) (by simp; omega) h.inRange
  rw [← h.read] at hbehind hcycle
  refine loop_leave ?_ hfuel
  simp only [popPass]
  rw [if_neg hcycle, if_pos hbehind]

theorem Rep.contents_eq (h : Rep L q r indices) (hL : ValidCapacity L) :
    q.contents L = indices := by
  have hlt := hL.lt
  have hroom := h.room
  have hdelta : sub q.writePosition q.readPosition = indices.length := by
    rw [h.write, h.read]
    exact sub_mod (by omega)
  have hlen : (q.contents L).length = indices.length := by
    rw [contents, hdelta, List.length_map, List.length_range, Int.toNat_natCast]
  refine List.ext_getElem hlen fun k hk hk' => ?_
  have hrange : L ∣ 2 ^ 64 ∨ r + k < 2 ^ 64 := h.inRange.imp id fun hlt => by omega
  simp only [contents, List.getElem_map, List.getElem_range]
  rw [loadvalueAt, h.read, add_mod (by omega) hrange, getIndex_mod hrange]
  exact h.stored k _ (List.getElem?_eq_getElem hk')

theorem Rep.fits_iff (h : Rep L q r indices) {count i : Nat} :
    q.Fits L count i ↔ L ∣ 2 ^ 64 ∨ i + (r + indices.length + count) / L * L < 2 ^ 64 ∧
      r + indices.length + count + 1 < 2 ^ 64 := by
  rcases h.inRange with hdvd | hrange
  · exact iff_of_true (Or.inl hdvd) (Or.inl hdvd)
  · rw [Fits, h.write, Nat.mod_eq_of_lt hrange]

theorem Rep.advance {i : Nat} (h : Rep L q r (i :: indices)) :
    Rep L { q with readPosition := add L q.readPosition 1 } (r + 1) indices where
  read := by
    have hrange : L ∣ 2 ^ 64 ∨ r + 1 < 2 ^ 64 := by
      refine h.inRange.imp id fun hlt => ?_
      rw [List.length_cons] at hlt
      omega
    rw [h.read]
    exact add_mod (by decide) hrange
  write := by
    rw [h.write, List.length_cons]
    congr 1
    omega
  room := by
    have := h.room
    rw [List.length_cons] at this
    omega
  low := by
    have := h.low
    rw [List.length_cons] at this
    omega
  inRange := by
    refine h.inRange.imp id fun hlt => ?_
    rw [List.length_cons] at hlt
    omega
  cycle := by
    intro p hlow hhigh
    refine h.cycle p ?_ ?_
    · rw [List.length_cons]
      omega
    · rw [List.length_cons]
      omega
  stored := by
    intro k j hk
    rw [show r + 1 + k = r + (k + 1) by omega]
    exact h.stored (k + 1) j hk
  bounded := fun j hj => h.bounded j (List.mem_cons_of_mem i hj)

theorem Rep.pop_cons {i : Nat} (h : Rep L q r (i :: indices)) (hL : ValidCapacity L)
    (hfuel : 0 < fuel) :
    ∃ q', q.pop L fuel = some (some i, q') ∧ Rep L q' (r + 1) indices := by
  obtain ⟨hcycle, hindex⟩ := h.head hL rfl
  refine ⟨_, ?_, h.advance⟩
  refine loop_leave ?_ hfuel
  simp only [popPass]
  rw [if_pos hcycle, hindex]

theorem Rep.popIfSizeIsAtLeast_cons {i n : Nat} (h : Rep L q r (i :: indices))
    (hL : ValidCapacity L) (fuel : Nat) (hpos : 0 < n) (hn : n ≤ indices.length + 1) :
    ∃ q', q.popIfSizeIsAtLeast L fuel n = some (some i, q') ∧ Rep L q' (r + 1) indices := by
  have hlt := hL.lt
  have hroom := h.room
  rw [List.length_cons] at hroom
  have hdelta : sub q.writePosition q.readPosition = (indices.length + 1 : Nat) := by
    rw [h.write, h.read, List.length_cons]
    exact sub_mod (by omega)
  obtain ⟨_, hindex⟩ := h.head hL rfl
  refine ⟨_, ?_, h.advance⟩
  rw [popIfSizeIsAtLeast, if_neg (by omega)]
  simp only [hdelta, hindex]
  rw [if_pos (by omega)]

theorem Rep.empty_eq (h : Rep L q r indices) (hL : ValidCapacity L) :
    q.empty L = indices.isEmpty := by
  cases indices with
  | nil =>
    have hlow := h.low
    have hpos := hL.positive
    simp only [List.length_nil, Nat.add_zero] at hlow
    obtain ⟨hbehind, _⟩ := h.behind hL hlow (Nat.le_refl _) (by simp; omega) h.inRange
    rw [← h.read] at hbehind
    exact hbehind
  | cons i rest =>
    obtain ⟨hcycle, _⟩ := h.head hL rfl
    have hroom := h.room
    rw [List.length_cons] at hroom
    have hrange : L ∣ 2 ^ 64 ∨ r < 2 ^ 64 := h.inRange.imp id fun hlt => by omega
    have hposition : getCycle L q.readPosition = r / L % (maxCycle L + 1) := by
      rw [h.read, getCycle_mod hL.positive hrange]
    rw [empty, isOneCycleBehind_mod (hcycle ▸ hposition) hposition]
    exact decide_eq_false (hL.cycle_ne _)

theorem Rep.push_eq (h : Rep L q r indices) (hL : ValidCapacity L)
    (hfuel : 0 < fuel) (i : Nat) :
    ∃ q', q.push L fuel i = some q' ∧ q'.readPosition = q.readPosition ∧
      q'.writePosition = add L q.writePosition 1 ∧
      q'.cells = Function.update q.cells ((r + indices.length) % L)
        (ofIndexCycle L i ((r + indices.length) / L % (maxCycle L + 1))) := by
  have hpos := hL.positive
  obtain ⟨hbehind, _⟩ := h.behind hL h.low (Nat.le_refl _) (by omega) h.inRange
  rw [← h.write] at hbehind
  have hslot : getIndex L q.writePosition = (r + indices.length) % L := by
    rw [h.write, getIndex_mod h.inRange]
  have hcycle : getCycle L q.writePosition =
      (r + indices.length) / L % (maxCycle L + 1) := by
    rw [h.write, getCycle_mod hpos h.inRange]
  have hpass : pushPass L i (q, q.writePosition) = some (.inr ({ q with
      cells := Function.update q.cells ((r + indices.length) % L)
        (ofIndexCycle L i ((r + indices.length) / L % (maxCycle L + 1))) },
      q.writePosition)) := by
    simp only [pushPass]
    rw [if_pos hbehind, hslot, hcycle]
  refine ⟨{ q with
    cells := Function.update q.cells ((r + indices.length) % L)
      (ofIndexCycle L i ((r + indices.length) / L % (maxCycle L + 1)))
    writePosition := add L q.writePosition 1 }, ?_, rfl, rfl, rfl⟩
  rw [SerialIndexQueue.push, loop_leave hpass hfuel, Option.map_some]
  simp only [if_true]

theorem Rep.push {i : Nat} (h : Rep L q r indices) (hL : ValidCapacity L)
    (hroom : indices.length < L) (hi : i < L) (hfits : q.Fits L 0 i) (hfuel : 0 < fuel) :
    ∃ q', q.push L fuel i = some q' ∧ Rep L q' r (indices ++ [i]) := by
  obtain ⟨q', hpush, hread, hwrite, hcells⟩ := h.push_eq hL hfuel i
  have hlen : (indices ++ [i]).length = indices.length + 1 := by simp
  have hfits := h.fits_iff.mp hfits
  obtain ⟨hindex, hcycle⟩ := ofIndexCycle_mod (p := r + indices.length) hi (hfits.imp id And.left)
  have hlow := h.low
  refine ⟨q', hpush, ?_, ?_, ?_, ?_, ?_, ?_, ?_, ?_⟩
  · rw [hread, h.read]
  · rw [hwrite, h.write, hlen]
    exact add_mod (by decide) (hfits.imp id And.right)
  · omega
  · omega
  · rw [hlen]
    exact hfits.imp id And.right
  · intro p hplow hphigh
    rw [hlen] at hplow hphigh
    rw [hcells]
    by_cases hp : p = r + indices.length
    · rw [hp, Function.update_self]
      exact hcycle
    · rw [Function.update_of_ne (Ring.mod_ne (by omega) (by omega)).symm]
      exact h.cycle p (by omega) (by omega)
  · intro k j hk
    rw [hcells]
    rcases Nat.lt_or_ge k indices.length with hlt | hge
    · rw [List.getElem?_append_left hlt] at hk
      rw [Function.update_of_ne (Ring.mod_ne (by omega) (by omega)).symm]
      exact h.stored k j hk
    · rw [List.getElem?_append_right hge, List.getElem?_singleton] at hk
      split at hk
      · rename_i hk0
        cases hk
        rw [show k = indices.length by omega, Function.update_self]
        exact hindex
      · cases hk
  · intro j hj
    rcases List.mem_append.mp hj with hj | hj
    · exact h.bounded j hj
    · rw [List.mem_singleton.mp hj]
      exact hi

end

end SerialIndexQueue

end Iceoryx.Hoofs
