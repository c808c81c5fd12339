import Mathlib.Data.Int.ModEq
import Mathlib.Data.Nat.ModEq
import Iceoryx.Hoofs.IndexQueue

namespace Iceoryx.Hoofs

namespace CyclicIndex

structure Accepted (cycleLength : Nat) : Prop where
  positive : 1 ≤ cycleLength
  small : cycleLength < maxValue / 2

instance (cycleLength : Nat) : Decidable (Accepted cycleLength) :=
  decidable_of_iff (1 ≤ cycleLength ∧ cycleLength < maxValue / 2)
    ⟨fun h => ⟨h.1, h.2⟩, fun h => ⟨h.1, h.2⟩⟩

def next (cycleLength value : Nat) : Nat :=
  if value = maxValue then overflowStartIndex cycleLength else value + 1

/-- The views of a value as an index, as a cycle and as a number agree about the sum `x + n`. -/
structure Coherent (cycleLength x n : Nat) : Prop where
  index : getIndex cycleLength (add cycleLength x n) = (getIndex cycleLength x + n) % cycleLength
  next : next cycleLength x = add cycleLength x 1
  behind : isOneCycleBehind cycleLength x (add cycleLength x cycleLength) = true
  difference : n < 2 ^ 63 → sub (add cycleLength x n) x = n

variable {cycleLength x n : Nat}

theorem maxValue_eq : maxValue = 18446744073709551615 := rfl

theorem Accepted.lt (h : Accepted cycleLength) : cycleLength < 2 ^ 63 := by
  have := h.small
  rw [maxValue_eq] at this
  omega

theorem overflowStartIndex_eq (cycleLength : Nat) :
    overflowStartIndex cycleLength = 2 ^ 64 % cycleLength := by
  rw [overflowStartIndex, Nat.mod_add_mod]
  rfl

theorem overflowStartIndex_lt (h : 0 < cycleLength) :
    overflowStartIndex cycleLength < cycleLength := by
  rw [overflowStartIndex]
  exact Nat.mod_lt _ h

theorem overflowStartIndex_eq_zero : overflowStartIndex cycleLength = 0 ↔ cycleLength ∣ 2 ^ 64 := by
  rw [overflowStartIndex_eq, Nat.dvd_iff_mod_eq_zero]

theorem getIndex_wrap (d : Nat) :
    (2 ^ 64 + d) % cycleLength = (overflowStartIndex cycleLength + d) % cycleLength := by
  rw [overflowStartIndex_eq, Nat.mod_add_mod]

theorem add_of_lt (h : x + n < 2 ^ 64) : add cycleLength x n = x + n := by
  rw [add, if_neg]
  rw [maxValue_eq]
  omega

theorem add_of_le (hn : n < 2 ^ 64) (h : 2 ^ 64 ≤ x + n) :
    add cycleLength x n = (overflowStartIndex cycleLength + (x + n - 2 ^ 64)) % 2 ^ 64 := by
  have hdelta : x - (maxValue - n) - 1 = x + n - 2 ^ 64 := by
    rw [maxValue_eq]
    omega
  rw [add, if_pos, hdelta]
  rw [maxValue_eq]
  omega

theorem next_eq_add (hx : x < 2 ^ 64) (hpos : 0 < cycleLength) (hlt : cycleLength < 2 ^ 63) :
    next cycleLength x = add cycleLength x 1 := by
  have hstart := overflowStartIndex_lt hpos
  unfold next
  split
  · next hmax =>
    rw [maxValue_eq] at hmax
    rw [add_of_le (by omega) (by omega), Nat.mod_eq_of_lt (by omega)]
    omega
  · next hmax =>
    rw [maxValue_eq] at hmax
    rw [add_of_lt (by omega)]

theorem getIndex_add_iff (hpos : 0 < cycleLength) (hx : x < 2 ^ 64) (hn : n < 2 ^ 64) :
    getIndex cycleLength (add cycleLength x n) = (getIndex cycleLength x + n) % cycleLength ↔
      cycleLength ∣ 2 ^ 64 ∨ x + n + overflowStartIndex cycleLength < 2 ^ 65 := by
  rw [getIndex, getIndex, Nat.mod_add_mod]
  rcases Nat.lt_or_ge (x + n) (2 ^ 64) with hsum | hsum
  · have hstart : overflowStartIndex cycleLength ≤ 2 ^ 64 := by
      rw [overflowStartIndex_eq]
      exact Nat.mod_le _ _
    rw [add_of_lt hsum]
    exact iff_of_true rfl (Or.inr (by omega))
  · obtain ⟨d, hd⟩ := Nat.exists_eq_add_of_le hsum
    rw [add_of_le hn hsum, hd, Nat.add_sub_cancel_left, getIndex_wrap]
    rcases Nat.lt_or_ge (overflowStartIndex cycleLength + d) (2 ^ 64) with hd' | hd'
    · rw [Nat.mod_eq_of_lt hd']
      exact iff_of_true rfl (Or.inr (by omega))
    · obtain ⟨e, he⟩ := Nat.exists_eq_add_of_le hd'
      have hsmall : e < 2 ^ 64 := by
        have hstart : overflowStartIndex cycleLength ≤ 2 ^ 64 := by
          rw [overflowStartIndex_eq]
          exact Nat.mod_le _ _
        omega
      rw [he, Nat.add_mod_left, Nat.mod_eq_of_lt hsmall, getIndex_wrap, ← Nat.zero_add e,
        ← Nat.add_assoc, Nat.add_zero]
      have hcancel : (0 + e) % cycleLength = (overflowStartIndex cycleLength + e) % cycleLength ↔
          overflowStartIndex cycleLength = 0 := by
        constructor
        · intro h
          have h0 : 0 % cycleLength = overflowStartIndex cycleLength % cycleLength :=
            Nat.ModEq.add_right_cancel' e h
          rw [Nat.zero_mod, Nat.mod_eq_of_lt (overflowStartIndex_lt hpos)] at h0
          exact h0.symm
        · intro h
          rw [h]
      rw [hcancel, overflowStartIndex_eq_zero, or_iff_left]
      omega

theorem getCycle_eq_of_le {k : Nat} (hle : k * cycleLength ≤ x)
    (hlt : x < k * cycleLength + cycleLength) : getCycle cycleLength x = k :=
  Nat.div_eq_of_lt_le hle (by rwa [Nat.succ_mul])

/-- The last cycle is a full one if the cycles fill the range, and the one after that otherwise. -/
theorem maxCycle_eq (hpos : 0 < cycleLength) (hlt : cycleLength < 2 ^ 64) :
    maxCycle cycleLength =
      if overflowStartIndex cycleLength = 0 then 2 ^ 64 / cycleLength - 1
      else 2 ^ 64 / cycleLength := by
  have hsplit := Nat.div_add_mod' (2 ^ 64) cycleLength
  have hstart := overflowStartIndex_lt hpos
  rw [← overflowStartIndex_eq] at hsplit
  have hfirst : 0 < 2 ^ 64 / cycleLength := Nat.div_pos hlt.le hpos
  split
  · refine getCycle_eq_of_le (x := maxValue) ?_ ?_
    · rw [Nat.sub_mul, maxValue_eq]
      omega
    · have hle : cycleLength ≤ 2 ^ 64 / cycleLength * cycleLength := Nat.le_mul_of_pos_left _ hfirst
      rw [Nat.sub_mul, maxValue_eq]
      omega
  · refine getCycle_eq_of_le (x := maxValue) ?_ ?_
    · rw [maxValue_eq]
      omega
    · rw [maxValue_eq]
      omega

theorem two_le_maxCycle (hpos : 0 < cycleLength) (hlt : cycleLength < 2 ^ 63)
    (hstart : overflowStartIndex cycleLength ≠ 0) : 2 ≤ maxCycle cycleLength := by
  rw [maxCycle_eq hpos (by omega), if_neg hstart, Nat.le_div_iff_mul_le hpos]
  omega

/-- Where the cycles do not fill the range, the cycle after the maximum is not the next one. -/
theorem getCycle_add_of_le (hpos : 0 < cycleLength) (hlt : cycleLength < 2 ^ 63) (hx : x < 2 ^ 64)
    (hstart : overflowStartIndex cycleLength ≠ 0) (hsum : 2 ^ 64 ≤ x + cycleLength) :
    (getCycle cycleLength x = maxCycle cycleLength ∧
      getCycle cycleLength (add cycleLength x cycleLength) = 1) ∨
    (getCycle cycleLength x + 1 = maxCycle cycleLength ∧
      getCycle cycleLength (add cycleLength x cycleLength) = 0) := by
  have hsplit := Nat.div_add_mod' (2 ^ 64) cycleLength
  have hless := overflowStartIndex_lt hpos
  rw [← overflowStartIndex_eq] at hsplit
  have hadd : add cycleLength x cycleLength =
      x + cycleLength - 2 ^ 64 / cycleLength * cycleLength := by
    rw [add_of_le (by omega) hsum, Nat.mod_eq_of_lt (by omega)]
    omega
  rw [maxCycle_eq hpos (by omega), if_neg hstart, hadd]
  rcases Nat.lt_or_ge x (2 ^ 64 / cycleLength * cycleLength) with hlast | hlast
  · have hfirst : 0 < 2 ^ 64 / cycleLength := Nat.div_pos (by omega) hpos
    have hbefore : getCycle cycleLength x = 2 ^ 64 / cycleLength - 1 := by
      refine getCycle_eq_of_le ?_ ?_
      · rw [Nat.sub_mul]
        omega
      · rw [Nat.sub_mul]
        omega
    refine Or.inr ⟨by omega, getCycle_eq_of_le ?_ ?_⟩ <;> omega
  · refine Or.inl ⟨getCycle_eq_of_le hlast ?_, getCycle_eq_of_le ?_ ?_⟩ <;> omega

theorem isOneCycleBehind_add_iff (hpos : 0 < cycleLength) (hlt : cycleLength < 2 ^ 63)
    (hx : x < 2 ^ 64) :
    isOneCycleBehind cycleLength x (add cycleLength x cycleLength) = true ↔
      cycleLength ∣ 2 ^ 64 ∨ x + cycleLength < 2 ^ 64 := by
  rcases Nat.lt_or_ge (x + cycleLength) (2 ^ 64) with hsum | hsum
  · have hcycle : getCycle cycleLength (x + cycleLength) = getCycle cycleLength x + 1 :=
      Nat.add_div_right x hpos
    have hle : getCycle cycleLength (x + cycleLength) ≤ maxCycle cycleLength :=
      Nat.div_le_div_right (Nat.le_pred_of_lt hsum)
    refine iff_of_true ?_ (Or.inr hsum)
    rw [add_of_lt hsum, isOneCycleBehind, if_neg (by omega), hcycle, decide_eq_true rfl]
  · rw [or_iff_left (Nat.not_lt.mpr hsum), ← overflowStartIndex_eq_zero]
    by_cases hstart : overflowStartIndex cycleLength = 0
    · refine iff_of_true ?_ hstart
      have hsplit := Nat.div_add_mod' (2 ^ 64) cycleLength
      rw [← overflowStartIndex_eq, hstart] at hsplit
      have hlast : getCycle cycleLength x = maxCycle cycleLength := by
        rw [maxCycle_eq hpos (by omega), if_pos hstart]
        refine getCycle_eq_of_le ?_ ?_ <;> rw [Nat.sub_mul] <;> omega
      have hzero : getCycle cycleLength (add cycleLength x cycleLength) = 0 := by
        rw [add_of_le (by omega) hsum, hstart, Nat.mod_eq_of_lt (by omega)]
        exact Nat.div_eq_of_lt (by omega)
      rw [isOneCycleBehind, if_pos hlast, hzero, decide_eq_true rfl]
    · refine iff_of_false ?_ hstart
      have hmax := two_le_maxCycle hpos hlt hstart
      rw [isOneCycleBehind]
      rcases getCycle_add_of_le hpos hlt hx hstart hsum with ⟨hlast, hnext⟩ | ⟨hlast, hnext⟩
      · rw [if_pos hlast, hnext]
        decide
      · rw [if_neg (by omega), hnext, decide_eq_true_eq]
        omega

theorem sub_add_iff (hpos : 0 < cycleLength) (hlt : cycleLength < 2 ^ 63) (hx : x < 2 ^ 64)
    (hn : n < 2 ^ 63) :
    sub (add cycleLength x n) x = n ↔ cycleLength ∣ 2 ^ 64 ∨ x + n < 2 ^ 64 := by
  have hstart := overflowStartIndex_lt hpos
  rw [← overflowStartIndex_eq_zero]
  rcases Nat.lt_or_ge (x + n) (2 ^ 64) with hsum | hsum
  · refine iff_of_true ?_ (Or.inr hsum)
    rw [add_of_lt hsum, sub, Int.bmod_def]
    omega
  · rw [add_of_le (by omega) hsum, Nat.mod_eq_of_lt (by omega), sub, Int.bmod_def,
      or_iff_left (Nat.not_lt.mpr hsum)]
    omega

/-- A value and a summand are coherent exactly if the cycles fill the range of the value type or
neither the next cycle nor a summand below 2^63 passes its maximum. -/
theorem coherent_iff (hL : Accepted cycleLength) (hx : x < 2 ^ 64) (hn : n < 2 ^ 64) :
    Coherent cycleLength x n ↔ cycleLength ∣ 2 ^ 64 ∨
      (x + cycleLength < 2 ^ 64 ∧ (n < 2 ^ 63 → x + n < 2 ^ 64)) := by
  have hpos : 0 < cycleLength := hL.positive
  have hlt := hL.lt
  have hstart := overflowStartIndex_lt hpos
  constructor
  · intro h
    rcases (isOneCycleBehind_add_iff hpos hlt hx).mp h.behind with hdvd | hcycle
    · exact Or.inl hdvd
    · by_cases hdvd : cycleLength ∣ 2 ^ 64
      · exact Or.inl hdvd
      · refine Or.inr ⟨hcycle, fun hsmall => ?_⟩
        exact ((sub_add_iff hpos hlt hx hsmall).mp (h.difference hsmall)).resolve_left hdvd
  · intro h
    refine ⟨(getIndex_add_iff hpos hx hn).mpr ?_, next_eq_add hx hpos hlt,
      (isOneCycleBehind_add_iff hpos hlt hx).mpr ?_,
      fun hsmall => (sub_add_iff hpos hlt hx hsmall).mpr ?_⟩
    · exact h.imp_right fun h => by omega
    · exact h.imp_right fun h => h.1
    · exact h.imp_right fun h => h.2 hsmall

theorem coherent_iff_capacity : Coherent 1024 (2 ^ 64 - 1) (2 ^ 62) :=
  (coherent_iff (by decide) (by decide) (by decide)).mpr (Or.inl (by decide))

theorem not_coherent_ten : Accepted 10 ∧
    sub (add 10 (2 ^ 64 - 1) 1) (2 ^ 64 - 1) = 7 ∧
    isOneCycleBehind 10 (2 ^ 64 - 1) (add 10 (2 ^ 64 - 1) 10) = false ∧
    ¬ Coherent 10 (2 ^ 64 - 1) 1 := by
  refine ⟨by decide, by decide, by decide, fun h => ?_⟩
  have hfalse : isOneCycleBehind 10 (2 ^ 64 - 1) (add 10 (2 ^ 64 - 1) 10) = false := by decide
  have htrue := h.behind
  rw [hfalse] at htrue
  cases htrue

end CyclicIndex

namespace IndexQueue

open CyclicIndex Lib

variable {Tid : Type} [DecidableEq Tid] {capacity x i : Nat} {t : Tid} {s : IndexQueue Tid}

/-- The cell that `push` has come to was last written one cycle before, and the positions have
passed the maximum since. -/
structure Wrapped (capacity x i : Nat) (t : Tid) (s : IndexQueue Tid) : Prop where
  write : s.writePosition = add capacity x capacity
  cell : getCycle capacity (s.cells (getIndex capacity s.writePosition)) = getCycle capacity x
  pc : s.pc t = .pushLoad i ∨ s.pc t = .pushCell i s.writePosition

theorem getCycle_add_ne (hL : Accepted capacity) (hx : x < 2 ^ 64)
    (hdvd : ¬ capacity ∣ 2 ^ 64) (hsum : 2 ^ 64 ≤ x + capacity) :
    getCycle capacity x ≠ getCycle capacity (add capacity x capacity) := by
  have hpos : 0 < capacity := hL.positive
  have hlt := hL.lt
  have hstart : overflowStartIndex capacity ≠ 0 := fun h =>
    hdvd (overflowStartIndex_eq_zero.mp h)
  have hmax := two_le_maxCycle hpos hlt hstart
  rcases getCycle_add_of_le hpos hlt hx hstart hsum with ⟨hlast, hnext⟩ | ⟨hlast, hnext⟩ <;> omega

theorem Wrapped.access (h : Wrapped capacity x i t s) (hL : Accepted capacity) (hx : x < 2 ^ 64)
    (hdvd : ¬ capacity ∣ 2 ^ 64) (hsum : 2 ^ 64 ≤ x + capacity) (spurious : Bool) :
    ∃ s', s.access capacity t spurious = some s' ∧ Wrapped capacity x i t s' := by
  have hne := getCycle_add_ne hL hx hdvd hsum
  rcases h.pc with hpc | hpc
  · refine ⟨s.goto t (.pushCell i s.writePosition), ?_, h.write, h.cell,
      Or.inr (Function.update_self _ _ _)⟩
    simp only [IndexQueue.access, hpc]
  · have hbehind : isOneCycleBehind capacity (s.cells (getIndex capacity s.writePosition))
        s.writePosition = false := by
      rw [isOneCycleBehind, h.cell, h.write, ← isOneCycleBehind, ← Bool.not_eq_true,
        isOneCycleBehind_add_iff hL.positive hL.lt hx, not_or]
      exact ⟨hdvd, Nat.not_lt.mpr hsum⟩
    have hretry : retry capacity i s.writePosition
        (s.cells (getIndex capacity s.writePosition)) = .pushLoad i := by
      rw [retry, if_neg]
      rw [h.cell, h.write]
      exact hne
    refine ⟨s.goto t (.pushLoad i), ?_, h.write, h.cell, Or.inl (Function.update_self _ _ _)⟩
    rw [IndexQueue.access, hpc]
    simp only [hbehind, Bool.false_eq_true, if_false, hretry]

theorem push_spins (hL : Accepted capacity) (hx : x < 2 ^ 64) (hdvd : ¬ capacity ∣ 2 ^ 64)
    (hsum : 2 ^ 64 ≤ x + capacity) (attempts : List Bool) (h : Wrapped capacity x i t s) :
    ∃ s', runSteps (step capacity) s (attempts.map fun spurious => (t, .access spurious)) =
      some s' ∧ (s'.pc t).pending = some i := by
  induction attempts generalizing s with
  | nil =>
    refine ⟨s, rfl, ?_⟩
    rcases h.pc with hpc | hpc <;> rw [hpc] <;> rfl
  | cons spurious attempts ih =>
    obtain ⟨m, hm, hnext⟩ := h.access hL hx hdvd hsum spurious
    obtain ⟨s', hrun, hpending⟩ := ih hnext
    refine ⟨s', ?_, hpending⟩
    rw [List.map_cons, runSteps, step, hm]
    exact hrun

end IndexQueue

end Iceoryx.Hoofs
