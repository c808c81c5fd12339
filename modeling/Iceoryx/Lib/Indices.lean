import Mathlib.Data.List.Nodup
import Mathlib.Data.List.Perm.Subperm

namespace Lib

variable {l : List Nat} {i n : Nat}

theorem length_le_of_nodup_lt (h : l.Nodup) (hlt : ∀ i ∈ l, i < n) : l.length ≤ n := by
  have hsubset : l ⊆ List.range n := fun i hi => List.mem_range.mpr (hlt i hi)
  have hle := (List.subperm_of_subset h hsubset).length_le
  rwa [List.length_range] at hle

theorem length_lt_of_nodup_lt (h : l.Nodup) (hlt : ∀ i ∈ l, i < n) (hi : i < n) (hnew : i ∉ l) :
    l.length < n :=
  length_le_of_nodup_lt (List.nodup_cons.mpr ⟨hnew, h⟩) (List.forall_mem_cons.mpr ⟨hi, hlt⟩)

end Lib
