import Mathlib.Data.List.Nodup

universe u v

namespace Lib

variable {A : Type u} {K : Type v} [DecidableEq K] {key : A → K} {l : List A} {a : A} {k : K}

theorem find?_key_eq_none_iff (key : A → K) :
    l.find? (fun b => key b = k) = none ↔ k ∉ l.map key := by
  simp [List.find?_eq_none]

theorem find?_key_eq_some_iff (h : (l.map key).Nodup) :
    l.find? (fun b => key b = k) = some a ↔ a ∈ l ∧ key a = k := by
  constructor
  · intro hfind
    exact ⟨List.mem_of_find?_eq_some hfind, by simpa using List.find?_some hfind⟩
  · rintro ⟨ha, rfl⟩
    cases hfind : l.find? fun b => key b = key a with
    | none => exact absurd (List.mem_map_of_mem ha) ((find?_key_eq_none_iff key).mp hfind)
    | some b =>
      have hkey : key b = key a := by simpa using List.find?_some hfind
      rw [List.inj_on_of_nodup_map h (List.mem_of_find?_eq_some hfind) ha hkey]

theorem filter_key_eq_singleton (h : (l.map key).Nodup) (ha : a ∈ l) :
    l.filter (fun b => key b = key a) = [a] := by
  have hperm : List.Perm (l.filter fun b => key b = key a) [a] := by
    rw [List.perm_ext_iff_of_nodup (h.of_map.filter _) (List.nodup_singleton a)]
    intro b
    rw [List.mem_filter, List.mem_singleton, decide_eq_true_eq]
    constructor
    · rintro ⟨hb, hkey⟩
      exact List.inj_on_of_nodup_map h hb ha hkey
    · rintro rfl
      exact ⟨ha, rfl⟩
  exact List.perm_singleton.mp hperm

theorem eraseIdx_findIdx?_key (key : A → K) {i : Nat}
    (h : l.findIdx? (fun b => key b = k) = some i) :
    ∃ before a after, l = before ++ a :: after ∧ key a = k ∧ k ∉ before.map key ∧
      l.eraseIdx i = before ++ after := by
  have herase : l.eraseP (fun b => key b = k) = l.eraseIdx i := by
    rw [List.eraseP_eq_eraseIdx, h]
  obtain ⟨hlt, hi⟩ := List.findIdx?_eq_some_iff_findIdx_eq.mp h
  obtain ⟨b, hb, hkey⟩ := List.findIdx_lt_length.mp (hi ▸ hlt)
  obtain ⟨a, before, after, hbefore, ha, heq, hresult⟩ :=
    List.exists_of_eraseP (p := fun b => key b = k) hb hkey
  refine ⟨before, a, after, heq, by simpa using ha, ?_, herase ▸ hresult⟩
  rw [List.mem_map]
  rintro ⟨c, hc, hck⟩
  exact hbefore c hc (by simpa using hck)

end Lib
