import Mathlib.Data.Nat.Bitwise
import Iceoryx.Hoofs.PointerRepository

namespace Iceoryx.Hoofs

structure RelativePointerData where
  idAndOffset : Nat
  deriving DecidableEq, Repr

namespace RelativePointerData

def idRange : Nat := 2 ^ 16 - 1

def nullPointerId : Nat := idRange

def maxValidId : Nat := idRange - 1

def offsetRange : Nat := 2 ^ 48 - 1

def nullPointerOffset : Nat := offsetRange

def maxValidOffset : Nat := offsetRange - 1

def logicalNullptr : Nat := (nullPointerOffset <<< 16) % addressRange ||| nullPointerId

def null : RelativePointerData where
  idAndOffset := logicalNullptr

def ofIdAndOffset (id offset : Nat) : RelativePointerData :=
  if id > maxValidId ∨ offset > maxValidOffset then { idAndOffset := logicalNullptr }
  else { idAndOffset := id ||| (offset <<< 16) % addressRange }

def id (d : RelativePointerData) : Nat := (d.idAndOffset &&& idRange) % 2 ^ 16

def offset (d : RelativePointerData) : Nat := (d.idAndOffset >>> 16) &&& offsetRange

def reset (_ : RelativePointerData) : RelativePointerData := null

def isLogicalNullptr (d : RelativePointerData) : Bool := d.idAndOffset == logicalNullptr

theorem logicalNullptr_eq : logicalNullptr = 2 ^ 64 - 1 := by
  decide +kernel

theorem idAndOffset_eq {id offset : Nat} (hid : id ≤ maxValidId)
    (hoffset : offset ≤ maxValidOffset) :
    (ofIdAndOffset id offset).idAndOffset = offset * 2 ^ 16 + id := by
  have hlt : id < 2 ^ 16 := Nat.lt_of_le_of_lt hid (by decide)
  have hmod : offset * 2 ^ 16 < addressRange := by
    unfold maxValidOffset offsetRange at hoffset
    unfold addressRange
    omega
  rw [ofIdAndOffset, if_neg (not_or.mpr ⟨Nat.not_lt.mpr hid, Nat.not_lt.mpr hoffset⟩)]
  change id ||| (offset <<< 16) % addressRange = offset * 2 ^ 16 + id
  rw [Nat.shiftLeft_eq, Nat.mod_eq_of_lt hmod, ← Nat.shiftLeft_eq, Nat.or_comm,
    ← Nat.shiftLeft_add_eq_or_of_lt hlt]

theorem id_ofIdAndOffset {id offset : Nat} (hid : id ≤ maxValidId)
    (hoffset : offset ≤ maxValidOffset) : (ofIdAndOffset id offset).id = id := by
  have hlt : id < 2 ^ 16 := Nat.lt_of_le_of_lt hid (by decide)
  rw [RelativePointerData.id, idAndOffset_eq hid hoffset, idRange, Nat.and_two_pow_sub_one_eq_mod,
    Nat.mod_mod, Nat.mul_add_mod_self_right, Nat.mod_eq_of_lt hlt]

theorem offset_ofIdAndOffset {id offset : Nat} (hid : id ≤ maxValidId)
    (hoffset : offset ≤ maxValidOffset) : (ofIdAndOffset id offset).offset = offset := by
  have hlt : id < 2 ^ 16 := Nat.lt_of_le_of_lt hid (by decide)
  have hshift : offset < 2 ^ 48 := Nat.lt_of_le_of_lt hoffset (by decide)
  rw [RelativePointerData.offset, idAndOffset_eq hid hoffset, offsetRange,
    Nat.and_two_pow_sub_one_eq_mod, Nat.shiftRight_eq_div_pow, Nat.mul_comm,
    Nat.mul_add_div (by decide), Nat.div_eq_of_lt hlt, Nat.add_zero, Nat.mod_eq_of_lt hshift]

theorem isLogicalNullptr_ofIdAndOffset (id offset : Nat) :
    (ofIdAndOffset id offset).isLogicalNullptr = true ↔
      id > maxValidId ∨ offset > maxValidOffset := by
  by_cases hvalid : id > maxValidId ∨ offset > maxValidOffset
  · rw [ofIdAndOffset, if_pos hvalid]
    exact iff_of_true (beq_self_eq_true _) hvalid
  · obtain ⟨hid, hoffset⟩ := not_or.mp hvalid
    have hword := idAndOffset_eq (Nat.not_lt.mp hid) (Nat.not_lt.mp hoffset)
    refine iff_of_false ?_ hvalid
    rw [isLogicalNullptr, hword, beq_iff_eq, logicalNullptr_eq]
    unfold maxValidId idRange at hid
    unfold maxValidOffset offsetRange at hoffset
    omega

theorem offset_le (d : RelativePointerData) : d.offset ≤ offsetRange :=
  Nat.and_le_right

end RelativePointerData

def difference (p base : Nat) : Nat := (p + addressRange - base) % addressRange

namespace PointerRepository

namespace Tracked

variable {t : Tracked}

theorem Ok.getBasePtr (h : t.Ok) {id : Nat} {s : Segment} (hs : t.segments id = some s) :
    t.repository.getBasePtr id = if id = 0 then 0 else s.base := by
  unfold PointerRepository.getBasePtr minId
  by_cases hzero : id = 0
  · rw [if_pos hzero, if_neg]
    omega
  · rw [if_neg hzero, if_pos ⟨h.id_le hs, Nat.one_le_iff_ne_zero.mpr hzero⟩, h.base hs]

theorem Ok.difference_getPtr (h : t.Ok) {id offset : Nat} {s : Segment}
    (hs : t.segments id = some s) (hoffset : offset ≤ RelativePointerData.offsetRange) :
    difference (BaseRelativePointer.getPtr t.repository id offset) s.base =
      if id = 0 then (offset + addressRange - s.base) % addressRange else offset := by
  have hinside := s.inside
  have hnonempty := s.nonempty
  unfold RelativePointerData.offsetRange at hoffset
  have hvalid : offset ≠ BaseRelativePointer.nullPointerOffset := by
    unfold BaseRelativePointer.nullPointerOffset addressRange
    omega
  rw [difference, BaseRelativePointer.getPtr, if_neg hvalid, h.getBasePtr hs]
  unfold addressRange at hinside ⊢
  split <;> omega

/-- A handle is relocated with its segment, unless that was registered under the reserved id. -/
theorem difference_eq_iff {t' : Tracked} (h : t.Ok) (h' : t'.Ok) {id offset : Nat}
    {s s' : Segment} (hs : t.segments id = some s) (hs' : t'.segments id = some s')
    (hoffset : offset ≤ RelativePointerData.offsetRange) :
    difference (BaseRelativePointer.getPtr t.repository id offset) s.base =
        difference (BaseRelativePointer.getPtr t'.repository id offset) s'.base ↔
      id ≠ 0 ∨ s.base = s'.base := by
  have hinside := s.inside
  have hinside' := s'.inside
  have hnonempty := s.nonempty
  have hnonempty' := s'.nonempty
  rw [h.difference_getPtr hs hoffset, h'.difference_getPtr hs' hoffset]
  unfold RelativePointerData.offsetRange at hoffset
  unfold addressRange at hinside hinside' ⊢
  split <;> omega

end Tracked

end PointerRepository

end Iceoryx.Hoofs
