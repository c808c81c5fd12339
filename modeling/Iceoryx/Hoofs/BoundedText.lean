import Iceoryx.Hoofs.FixedString

namespace Iceoryx.Hoofs

open Lib Lib.Buffer Lib.Words

namespace FixedString

variable {Capacity N : Nat} {s : FixedString Capacity} {rhs : FixedString N}
  {text cells : List Char} {t t1 t2 : TextArgument}

theorem memcpy_start (s : FixedString Capacity) (hlen : text.length ≤ Capacity)
    (hnul : nul ∉ text) :
    ∃ s₁ s', s.memcpy 0 text = some s₁ ∧ s₁.terminate text.length = some s' ∧ s'.Holds text := by
  obtain ⟨s₁, s', hcpy, _, hterm, hs'⟩ := memcpy_terminate
    (show s.rawstring.take [].length = [] from List.take_zero)
    (show [].length + text.length ≤ Capacity by rwa [List.length_nil, Nat.zero_add]) hnul
  rw [List.length_nil, Nat.zero_add] at hterm
  exact ⟨s₁, s', hcpy, hterm, hs'⟩

theorem clear_spec (s : FixedString Capacity) : ∃ s', s.clear = some s' ∧ s'.Holds [] :=
  terminate_spec (Nat.zero_le _) (show s.rawstring.take [].length = [] from List.take_zero)
    List.not_mem_nil

theorem copy_spec (s : FixedString Capacity) (h : rhs.Holds text) (hN : N ≤ Capacity) :
    ∃ s', s.copy rhs = some s' ∧ s'.Holds text := by
  have hread := h.readBlock (show 0 + text.length ≤ text.length by omega)
  rw [List.drop_zero, List.take_length] at hread
  obtain ⟨s₁, s', hcpy, hterm, hs'⟩ := s.memcpy_start (h.length_le.trans hN) h.nulFree
  refine ⟨s', ?_, hs'⟩
  simp only [copy, h.size, hread, hcpy, hterm, Option.bind_eq_bind, Option.bind_some]

theorem move_spec (s : FixedString Capacity) (h : rhs.Holds text) (hN : N ≤ Capacity) :
    ∃ s' rhs', s.move rhs = some (s', rhs') ∧ s'.Holds text ∧ rhs'.Holds [] := by
  obtain ⟨s', hcopy, hs'⟩ := copy_spec s h hN
  obtain ⟨rhs', hclear, hrhs'⟩ := rhs.clear_spec
  refine ⟨s', rhs', ?_, hs', hrhs'⟩
  simp only [move, hcopy, hclear, Option.bind_eq_bind, Option.bind_some]

/-- An array that is not terminated loses what would be in the place of the terminator. -/
theorem assignArray_spec (s : FixedString Capacity) {data : List Char}
    (hN : data.length ≤ Capacity + 1) :
    ∃ s', s.assignArray data = some s' ∧
      s'.Holds ((data.takeWhile (· ≠ nul)).take Capacity) := by
  obtain ⟨s₁, hcpy, hraw, _⟩ := s.memcpy_spec (show 0 + data.length ≤ _ by omega)
  have hsize : ((data.takeWhile (· ≠ nul)).take Capacity).length =
      min Capacity (strnlen nul data data.length) := by
    rw [List.length_take, strnlen, List.take_length]
  have htake : s₁.rawstring.take ((data.takeWhile (· ≠ nul)).take Capacity).length =
      (data.takeWhile (· ≠ nul)).take Capacity := by
    have hle : min Capacity (strnlen nul data data.length) ≤ data.length := by
      rw [strnlen, List.take_length]
      exact (min_le_right _ _).trans (List.takeWhile_prefix _).length_le
    rw [hsize, hraw, overwrite, List.take_zero, List.nil_append,
      List.take_append_of_le_length hle, takeWhile_eq_take, List.take_take]
  obtain ⟨s', hterm, hs'⟩ := terminate_spec (s := s₁)
    (by rw [List.length_take]; exact min_le_left _ _) htake
    (fun h => nul_not_mem_takeWhile data (List.mem_of_mem_take h))
  refine ⟨s', ?_, hs'⟩
  simp only [assignArray, hcpy, Option.bind_eq_bind, Option.bind_some]
  rw [← hsize, hterm]

theorem unsafeAssign_spec (h : s.Holds text) {str : List Char}
    (hstr : nul ∈ str ∨ Capacity + 1 ≤ str.length) :
    ∃ s', s.unsafeAssign (.memory str) =
        some (decide ((str.takeWhile (· ≠ nul)).length ≤ Capacity), s') ∧
      s'.Holds (if (str.takeWhile (· ≠ nul)).length ≤ Capacity then str.takeWhile (· ≠ nul)
        else text) := by
  rw [unsafeAssign, if_pos hstr, strnlen_eq]
  by_cases hfits : (str.takeWhile (· ≠ nul)).length ≤ Capacity
  · have hread : readBlock str 0 (str.takeWhile (· ≠ nul)).length =
        some (str.takeWhile (· ≠ nul)) := by
      rw [readBlock_of_le (by rw [Nat.zero_add]; exact (List.takeWhile_prefix _).length_le),
        List.drop_zero, ← List.prefix_iff_eq_take.mp (List.takeWhile_prefix _)]
    obtain ⟨s₁, s', hcpy, hterm, hs'⟩ := s.memcpy_start hfits (nul_not_mem_takeWhile str)
    refine ⟨s', ?_, by rwa [if_pos hfits]⟩
    rw [min_eq_left (hfits.trans (Nat.le_succ Capacity))]
    simp only [if_neg (Nat.not_lt.mpr hfits), hread, hcpy, hterm, Option.bind_eq_bind,
      Option.bind_some, hfits, decide_true]
  · refine ⟨s, ?_, by rwa [if_neg hfits]⟩
    rw [if_pos (lt_min (Nat.not_le.mp hfits) (Nat.lt_succ_self Capacity))]
    simp only [hfits, decide_false]

theorem unsafeAssignStd_spec (h : s.Holds text) {str : List Char} (hstr : nul ∉ str) :
    ∃ s', s.unsafeAssignStd str = some (decide (str.length ≤ Capacity), s') ∧
      s'.Holds (if str.length ≤ Capacity then str else text) := by
  unfold unsafeAssignStd
  by_cases hfits : str.length ≤ Capacity
  · have hread : readBlock (str ++ [nul]) 0 str.length = some str := by
      rw [readBlock_of_le (by simp), List.drop_zero, List.take_left]
    obtain ⟨s₁, s', hcpy, hterm, hs'⟩ := s.memcpy_start hfits hstr
    refine ⟨s', ?_, by rwa [if_pos hfits]⟩
    simp only [if_neg (Nat.not_lt.mpr hfits), hread, hcpy, hterm, Option.bind_eq_bind,
      Option.bind_some, hfits, decide_true]
  · refine ⟨s, ?_, by rwa [if_neg hfits]⟩
    simp only [if_pos (Nat.not_le.mp hfits), hfits, decide_false]

theorem appendClamped_spec (h : s.Holds text) (ht : t.WellFormed) {n : Nat}
    (hn : n ≤ t.getSize) (hfits : text.length + n ≤ Capacity) :
    ∃ s', s.appendClamped t n = some s' ∧ s'.Holds (text ++ t.content.take n) := by
  have hlen : (t.content.take n).length = n := by
    rw [List.length_take, TextArgument.length_content ht, min_eq_left hn]
  have hnul : nul ∉ text ++ t.content.take n := by
    rw [List.mem_append, not_or]
    exact ⟨h.nulFree, fun hmem =>
      TextArgument.nul_not_mem_content ht (List.mem_of_mem_take hmem)⟩
  obtain ⟨s₁, s', hcpy, hsize, hterm, hs'⟩ := memcpy_terminate h.raw (by rwa [hlen]) hnul
  refine ⟨s', ?_, hs'⟩
  rw [hlen] at hterm
  simp only [appendClamped, TextArgument.readBlock_getData ht hn, h.size, hcpy,
    hsize, hterm, Option.bind_eq_bind, Option.bind_some]

theorem unsafeAppend_spec (h : s.Holds text) (ht : t.WellFormed) :
    ∃ s', s.unsafeAppend t =
        some (decide (text.length + t.content.length ≤ Capacity), s') ∧
      s'.Holds (if text.length + t.content.length ≤ Capacity then text ++ t.content
        else text) := by
  have hlen := h.length_le
  have hsize := TextArgument.length_content ht
  unfold unsafeAppend
  by_cases hfits : text.length + t.content.length ≤ Capacity
  · have hclamp : min (Capacity - s.rawstringSize) t.getSize = t.getSize := by
      rw [h.size]
      omega
    obtain ⟨s', happend, hs'⟩ := appendClamped_spec h ht le_rfl (by omega)
    rw [← hsize, List.take_length] at hs'
    refine ⟨s', ?_, by rwa [if_pos hfits]⟩
    simp only [hclamp, gt_iff_lt, lt_irrefl, if_false, happend, Option.bind_eq_bind,
      Option.bind_some, hfits, decide_true]
  · have hclamp : min (Capacity - s.rawstringSize) t.getSize < t.getSize := by
      rw [h.size]
      omega
    refine ⟨s, ?_, by rwa [if_neg hfits]⟩
    simp only [gt_iff_lt, hclamp, if_true, hfits, decide_false]

theorem append_spec (h : s.Holds text) (ht : t.WellFormed) :
    ∃ s', s.append t = some s' ∧ s'.Holds ((text ++ t.content).take Capacity) := by
  have hlen := h.length_le
  obtain ⟨s', happend, hs'⟩ := appendClamped_spec h ht
    (min_le_right (Capacity - s.rawstringSize) t.getSize) (by rw [h.size]; omega)
  refine ⟨s', happend, ?_⟩
  have htake : (text ++ t.content).take Capacity =
      text ++ t.content.take (min (Capacity - s.rawstringSize) t.getSize) := by
    rw [List.take_append, List.take_of_length_le hlen, h.size,
      ← TextArgument.length_content ht, ← List.take_eq_take_min]
  rwa [htake]

theorem appendChar_spec (h : s.Holds text) {c : Char} (hc : c ≠ nul) :
    ∃ s', s.appendChar c = some s' ∧ s'.Holds ((text ++ [c]).take Capacity) := by
  have hlen := h.length_le
  unfold appendChar
  rw [h.size]
  by_cases hfull : text.length = Capacity
  · refine ⟨s, if_pos hfull, ?_⟩
    rwa [List.take_left' hfull]
  · have hnul : nul ∉ text ++ [c] := by
      rw [List.mem_append, List.mem_singleton, not_or]
      exact ⟨h.nulFree, Ne.symm hc⟩
    obtain ⟨s₁, s', hcpy, hsize, hterm, hs'⟩ := memcpy_terminate h.raw
      (by rw [List.length_singleton]; omega) hnul
    refine ⟨s', ?_, ?_⟩
    · rw [if_neg hfull]
      simp only [hcpy, hsize, h.size, Option.bind_eq_bind, Option.bind_some]
      exact hterm
    · rwa [List.take_of_length_le (by rw [List.length_append, List.length_singleton]; omega)]

theorem insertGap_spec (h : s.Holds text) {pos : Nat} (hpos : pos ≤ text.length)
    (hroom : text.length + cells.length ≤ Capacity) (hnul : nul ∉ cells) :
    ∃ s₁ s₂ s', s.memcpy (pos + cells.length) (text.drop pos) = some s₁ ∧
      s₁.memcpy pos cells = some s₂ ∧ s₂.terminate (text.length + cells.length) = some s' ∧
      s'.Holds (text.take pos ++ (cells ++ text.drop pos)) := by
  have htail : (text.drop pos).length = text.length - pos := List.length_drop
  have hprefix : (text.take pos).length = pos := List.length_take_of_le hpos
  have hlen₀ := s.length_rawstring
  obtain ⟨s₁, hmove, hraw₁, -⟩ := s.memcpy_spec
    (show pos + cells.length + (text.drop pos).length ≤ _ by omega)
  obtain ⟨s₂, hcpy, hraw₂, -⟩ := s₁.memcpy_spec (show pos + cells.length ≤ _ by omega)
  have hlen₁ := s₁.length_rawstring
  have htake : s₁.rawstring.take pos = text.take pos := by
    rw [hraw₁, take_overwrite_of_le (by omega) (by omega), ← congrArg (List.take pos) h.raw,
      List.take_take, min_eq_left hpos]
  have hdrop : (s₁.rawstring.drop (pos + cells.length)).take (text.drop pos).length =
      text.drop pos := by
    rw [hraw₁, drop_overwrite (by omega), List.take_left]
  have hresult : (text.take pos ++ (cells ++ text.drop pos)).length =
      text.length + cells.length := by
    simp only [List.length_append, hprefix, htail]
    omega
  have hcontent : s₂.rawstring.take (text.take pos ++ (cells ++ text.drop pos)).length =
      text.take pos ++ (cells ++ text.drop pos) := by
    have htake₂ := take_overwrite (show pos ≤ s₁.rawstring.length by omega) cells
      (text.drop pos).length
    rw [hdrop, htake, ← hraw₂] at htake₂
    rwa [hresult, show text.length + cells.length = pos + (cells.length + (text.drop pos).length)
      by omega]
  have hfree : nul ∉ text.take pos ++ (cells ++ text.drop pos) := by
    simp only [List.mem_append, not_or]
    exact ⟨fun hmem => h.nulFree (List.mem_of_mem_take hmem), hnul,
      fun hmem => h.nulFree (List.mem_of_mem_drop hmem)⟩
  obtain ⟨s', hterm, hs'⟩ := terminate_spec (hresult.trans_le hroom) hcontent hfree
  rw [hresult] at hterm
  exact ⟨s₁, s₂, s', hmove, hcpy, hterm, hs'⟩

/-- The three checks of `insert`; the second one notices a sum that has wrapped around. -/
theorem insert_spec (hC : Capacity < 2 ^ 64) (h : s.Holds text) (ht : t.WellFormed)
    {pos count : Nat} (hcount : count < 2 ^ 64) :
    let fits := count ≤ t.content.length ∧ text.length + count ≤ Capacity ∧ pos ≤ text.length
    ∃ s', s.insert pos t count = some (decide fits, s') ∧
      s'.Holds (if fits then text.take pos ++ (t.content.take count ++ text.drop pos)
        else text) := by
  intro fits
  have hlen := h.length_le
  have hsize := TextArgument.length_content ht
  have hrefused (hnot : ¬ fits) (hinsert : s.insert pos t count = some (false, s)) :
      ∃ s', s.insert pos t count = some (decide fits, s') ∧
        s'.Holds (if fits then text.take pos ++ (t.content.take count ++ text.drop pos)
          else text) :=
    ⟨s, by rw [hinsert, decide_eq_false hnot], by rwa [if_neg hnot]⟩
  by_cases hshort : count ≤ t.getSize
  case neg =>
    apply hrefused (fun hfits : fits => hshort (hsize ▸ hfits.1))
    rw [insert, if_pos (Nat.not_le.mp hshort)]
  by_cases hroom : text.length + count ≤ Capacity
  case neg =>
    apply hrefused (fun hfits : fits => hroom hfits.2.1)
    have hover : toUint64 (text.length + count) > Capacity ∨
        toUint64 (text.length + count) < text.length := by
      rcases Nat.lt_or_ge (text.length + count) (2 ^ 64) with hlt | hge
      · rw [toUint64_of_lt hlt]
        exact Or.inl (Nat.not_le.mp hroom)
      · exact Or.inr ((add_mod_lt_iff (by omega) hcount).mpr hge)
    rw [insert, if_neg (Nat.not_lt.mpr hshort), h.size]
    exact if_pos hover
  by_cases hpos : pos ≤ text.length
  case neg =>
    apply hrefused (fun hfits : fits => hpos hfits.2.2)
    rw [insert, if_neg (Nat.not_lt.mpr hshort), h.size, toUint64_of_lt (by omega)]
    simp only
    rw [if_neg (by omega), if_pos (Nat.not_le.mp hpos)]
  have hfits : fits := ⟨hsize ▸ hshort, hroom, hpos⟩
  have hcells : (t.content.take count).length = count :=
    List.length_take_of_le (hsize ▸ hshort)
  have hread := h.readBlock (show pos + (text.length - pos) ≤ text.length by omega)
  rw [List.take_of_length_le (by rw [List.length_drop])] at hread
  obtain ⟨s₁, s₂, s', hmove, hcpy, hterm, hs'⟩ := insertGap_spec h hpos
    (show text.length + (t.content.take count).length ≤ _ by rwa [hcells])
    (fun hmem => TextArgument.nul_not_mem_content ht (List.mem_of_mem_take hmem))
  rw [hcells] at hmove hterm
  refine ⟨s', ?_, by rwa [if_pos hfits]⟩
  rw [insert, if_neg (Nat.not_lt.mpr hshort), h.size, toUint64_of_lt (by omega)]
  simp only
  rw [if_neg (by omega), if_neg (by omega), toUint64_of_lt (by omega)]
  simp only [hread, hmove, TextArgument.readBlock_getData ht hshort, hcpy, hterm,
    Option.bind_eq_bind, Option.bind_some, hfits, decide_true]

theorem concatenate_spec (h1 : t1.WellFormed) (hjoin1 : t1.IsConcatenable)
    (h2 : t2.WellFormed) (hjoin2 : t2.IsConcatenable) :
    ∃ s', concatenate t1 t2 = some s' ∧ s'.Holds (t1.content ++ t2.content) := by
  have hcapa1 := TextArgument.getSize_le_getCapa h1 hjoin1
  have hcapa2 := TextArgument.getSize_le_getCapa h2 hjoin2
  have hlen1 := TextArgument.length_content h1
  have hlen2 := TextArgument.length_content h2
  have hread1 := TextArgument.readBlock_getData h1 le_rfl
  have hread2 := TextArgument.readBlock_getData h2 le_rfl
  rw [← hlen1, List.take_length] at hread1
  rw [← hlen2, List.take_length] at hread2
  obtain ⟨s₁, hcpy, hraw, -⟩ := (empty : FixedString (t1.getCapa + t2.getCapa)).memcpy_spec
    (show 0 + t1.content.length ≤ _ by omega)
  have htake : s₁.rawstring.take t1.content.length = t1.content := by
    rw [hraw, overwrite, List.take_zero, List.nil_append, List.take_left]
  have hnul : nul ∉ t1.content ++ t2.content := by
    rw [List.mem_append, not_or]
    exact ⟨TextArgument.nul_not_mem_content h1, TextArgument.nul_not_mem_content h2⟩
  obtain ⟨s₂, s', hcpy2, -, hterm, hs'⟩ := memcpy_terminate htake (by omega) hnul
  refine ⟨s', ?_, hs'⟩
  simp only [concatenate, ← hlen1, ← hlen2, hread1, hread2, hcpy, hcpy2, hterm,
    Option.bind_eq_bind, Option.bind_some]

theorem concatenateAll_spec {targs : List TextArgument}
    (h1 : t1.WellFormed ∧ t1.IsConcatenable) (h2 : t2.WellFormed ∧ t2.IsConcatenable)
    (hargs : ∀ t ∈ targs, t.WellFormed ∧ t.IsConcatenable) :
    ∃ s' : FixedString (t1.getCapa + t2.getCapa + (targs.map TextArgument.getCapa).sum),
      concatenateAll t1 t2 targs = some (.fixedString s') ∧
      s'.Holds (t1.content ++ t2.content ++ targs.flatMap TextArgument.content) := by
  induction targs generalizing t1 t2 with
  | nil =>
    obtain ⟨s', hs', hholds⟩ := concatenate_spec h1.1 h1.2 h2.1 h2.2
    refine ⟨s', by rw [concatenateAll, hs']; rfl, ?_⟩
    rwa [List.flatMap_nil, List.append_nil]
  | cons t3 targs ih =>
    obtain ⟨s₁, hs₁, hholds₁⟩ := concatenate_spec h1.1 h1.2 h2.1 h2.2
    have hcontent : (TextArgument.fixedString s₁).content = t1.content ++ t2.content :=
      hholds₁.content_eq
    obtain ⟨s', hs', hholds⟩ :=
      ih ⟨TextArgument.wellFormed_of_holds hholds₁, trivial⟩ (hargs t3 List.mem_cons_self)
      (fun t ht => hargs t (List.mem_cons_of_mem t3 ht))
    rw [hcontent] at hholds
    rw [List.map_cons, List.sum_cons, ← Nat.add_assoc]
    refine ⟨s', by rw [concatenateAll, hs₁]; exact hs', ?_⟩
    rwa [List.flatMap_cons, ← List.append_assoc]

theorem substr_spec (h : s.Holds text) {pos : Nat} (hpos : pos ≤ text.length) (count : Nat) :
    ∃ t, s.substr pos count = some (some t) ∧ t.Holds ((text.drop pos).take count) := by
  have hlen := h.length_le
  have hread := h.readBlock (show pos + min count (text.length - pos) ≤ text.length by omega)
  have hsub : ((text.drop pos).take (min count (text.length - pos))).length =
      min count (text.length - pos) := by
    rw [List.length_take, List.length_drop]
    omega
  have hnul : nul ∉ (text.drop pos).take (min count (text.length - pos)) :=
    fun hmem => h.nulFree (List.mem_of_mem_drop (List.mem_of_mem_take hmem))
  obtain ⟨s₁, t, hcpy, hterm, ht⟩ := (empty : FixedString Capacity).memcpy_start
    (by omega) hnul
  rw [hsub] at hterm
  refine ⟨t, ?_, ?_⟩
  · rw [substr, h.size, if_neg (Nat.not_lt.mpr hpos)]
    simp only [hread, hcpy, hterm, Option.bind_eq_bind, Option.bind_some]
  · rwa [← List.length_drop, ← List.take_eq_take_min] at ht

theorem substr_beyond (h : s.Holds text) {pos : Nat} (hpos : text.length < pos) (count : Nat) :
    s.substr pos count = some none := by
  rw [substr, h.size, if_pos hpos]

theorem substrFrom_spec (h : s.Holds text) {pos : Nat} (hpos : pos ≤ text.length) :
    ∃ t, s.substrFrom pos = some (some t) ∧ t.Holds (text.drop pos) := by
  obtain ⟨t, ht, hholds⟩ := substr_spec h hpos s.rawstringSize
  rw [h.size, List.take_of_length_le (by rw [List.length_drop]; omega)] at hholds
  exact ⟨t, ht, hholds⟩

theorem find_spec (h : s.Holds text) (ht : t.WellFormed) (hstring : t.IsCString) (pos : Nat) :
    ∃ r, s.find t pos = some r ∧
      ∀ i, r = some i ↔ IsFirstFrom (OccursAt text t.content) pos i := by
  unfold find
  rw [h.size]
  by_cases hpos : pos ≤ text.length
  · obtain ⟨rest, hrest⟩ := h.split
    obtain ⟨rest', hdata⟩ := TextArgument.getData_eq ht hstring
    obtain ⟨r, hr, hspec⟩ := strstr_append
      (fun hmem => h.nulFree (List.mem_of_mem_drop (i := pos) hmem))
      (TextArgument.nul_not_mem_content ht) rest rest'
    refine ⟨r.map (pos + ·), ?_, fun i => ?_⟩
    · rw [if_neg (Nat.not_lt.mpr hpos), hrest, List.drop_append_of_le_length hpos, hdata, hr,
        Option.map_some]
    · rw [Option.map_eq_some_iff]
      constructor
      · rintro ⟨k, hk, rfl⟩
        obtain ⟨hocc, hmin⟩ := (hspec k).mp hk
        refine ⟨Nat.le_add_right pos k, (occursAt_drop hpos).mp hocc, fun j hle hlt hj => ?_⟩
        obtain ⟨m, rfl⟩ := Nat.exists_eq_add_of_le hle
        exact hmin m (by omega) ((occursAt_drop hpos).mpr hj)
      · rintro ⟨hle, hocc, hmin⟩
        obtain ⟨k, rfl⟩ := Nat.exists_eq_add_of_le hle
        refine ⟨k, (hspec k).mpr ⟨(occursAt_drop hpos).mpr hocc, fun j hj hocc' => ?_⟩, rfl⟩
        exact hmin (pos + j) (Nat.le_add_right pos j) (by omega) ((occursAt_drop hpos).mp hocc')
  · refine ⟨none, by rw [if_pos (Nat.not_le.mp hpos)], fun i => ?_⟩
    refine iff_of_false (by simp) ?_
    rintro ⟨hle, hocc, -⟩
    have := hocc.1
    omega

theorem strchr_spec (h : s.Holds text) (ht : t.WellFormed) (hstring : t.IsCString) {p : Nat}
    (hp : p < text.length) :
    ∃ c found, s.rawstring[p]? = some c ∧ strchr nul t.getData c = some found ∧
      (found = true ↔ OneOfAt text t.content p) := by
  obtain ⟨rest', hdata⟩ := TextArgument.getData_eq ht hstring
  have hne : text[p] ≠ nul := fun hnul => h.nulFree (hnul ▸ List.getElem_mem hp)
  refine ⟨text[p], decide (text[p] ∈ t.content), h.getElem? hp, ?_, ?_⟩
  · rw [hdata, strchr_append (TextArgument.nul_not_mem_content ht) rest' hne]
  · rw [decide_eq_true_eq, oneOfAt_iff hp]

theorem findFirstOfLoop_spec (h : s.Holds text) (ht : t.WellFormed) (hstring : t.IsCString)
    {remaining p : Nat} (hp : p + remaining = text.length) :
    ∃ r, s.findFirstOfLoop t.getData remaining p = some r ∧
      ∀ i, r = some i ↔ IsFirstFrom (OneOfAt text t.content) p i := by
  induction remaining generalizing p with
  | zero =>
    refine ⟨none, rfl, fun i => iff_of_false (by simp) ?_⟩
    rintro ⟨hle, hi, -⟩
    have := hi.lt
    omega
  | succ remaining ih =>
    obtain ⟨c, found, hc, hchr, hfound⟩ := strchr_spec h ht hstring (show p < text.length by omega)
    simp only [findFirstOfLoop, hc, hchr, Option.bind_eq_bind, Option.bind_some]
    cases found with
    | true =>
      refine ⟨some p, rfl, fun i => ?_⟩
      rw [isFirstFrom_iff_of_here (hfound.mp rfl), Option.some.injEq, eq_comm]
    | false =>
      have hnot : ¬ OneOfAt text t.content p := fun hhere => Bool.false_ne_true (hfound.mpr hhere)
      obtain ⟨r, hr, hspec⟩ := ih (show p + 1 + remaining = text.length by omega)
      exact ⟨r, hr, fun i => by rw [isFirstFrom_iff_of_not hnot, hspec]⟩

theorem findFirstOf_spec (h : s.Holds text) (ht : t.WellFormed) (hstring : t.IsCString)
    (pos : Nat) :
    ∃ r, s.findFirstOf t pos = some r ∧
      ∀ i, r = some i ↔ IsFirstFrom (OneOfAt text t.content) pos i := by
  rw [findFirstOf, h.size]
  by_cases hpos : pos ≤ text.length
  · rw [if_neg (Nat.not_lt.mpr hpos)]
    exact findFirstOfLoop_spec h ht hstring (by omega)
  · refine ⟨none, by rw [if_pos (Nat.not_le.mp hpos)], fun i => iff_of_false (by simp) ?_⟩
    rintro ⟨hle, hi, -⟩
    have := hi.lt
    omega

theorem findLastOfLoop_spec (h : s.Holds text) (ht : t.WellFormed) (hstring : t.IsCString)
    {p : Nat} (hp : p < text.length) :
    ∃ r, s.findLastOfLoop t.getData p = some r ∧
      ∀ i, r = some i ↔ IsLastUpTo (OneOfAt text t.content) p i := by
  induction p with
  | zero =>
    obtain ⟨c, found, hc, hchr, hfound⟩ := strchr_spec h ht hstring hp
    simp only [findLastOfLoop, hc, hchr, Option.bind_eq_bind, Option.bind_some]
    cases found with
    | true =>
      refine ⟨some 0, rfl, fun i => ?_⟩
      rw [isLastUpTo_iff_of_here (hfound.mp rfl), Option.some.injEq, eq_comm]
    | false =>
      refine ⟨none, rfl, fun i => iff_of_false (by simp) ?_⟩
      rintro ⟨hle, hi, -⟩
      obtain rfl : i = 0 := Nat.le_zero.mp hle
      exact Bool.false_ne_true (hfound.mpr hi)
  | succ p ih =>
    obtain ⟨c, found, hc, hchr, hfound⟩ := strchr_spec h ht hstring hp
    simp only [findLastOfLoop, hc, hchr, Option.bind_eq_bind, Option.bind_some]
    cases found with
    | true =>
      refine ⟨some (p + 1), rfl, fun i => ?_⟩
      rw [isLastUpTo_iff_of_here (hfound.mp rfl), Option.some.injEq, eq_comm]
    | false =>
      have hnot : ¬ OneOfAt text t.content (p + 1) :=
        fun hhere => Bool.false_ne_true (hfound.mpr hhere)
      obtain ⟨r, hr, hspec⟩ := ih (Nat.lt_of_succ_lt hp)
      exact ⟨r, hr, fun i => by rw [isLastUpTo_iff_of_not hnot, hspec]⟩

/-- A position behind the text stands for its last character. -/
theorem findLastOf_spec (h : s.Holds text) (ht : t.WellFormed) (hstring : t.IsCString)
    (pos : Nat) :
    ∃ r, s.findLastOf t pos = some r ∧
      ∀ i, r = some i ↔ IsLastUpTo (OneOfAt text t.content) pos i := by
  rw [findLastOf, h.size]
  by_cases hempty : text.length = 0
  · refine ⟨none, by rw [if_pos hempty], fun i => iff_of_false (by simp) ?_⟩
    rintro ⟨-, hi, -⟩
    have := hi.lt
    omega
  · simp only
    rw [if_neg hempty]
    by_cases hlast : text.length - 1 < pos
    · rw [if_pos hlast]
      obtain ⟨r, hr, hspec⟩ := findLastOfLoop_spec h ht hstring
        (show text.length - 1 < text.length by omega)
      refine ⟨r, hr, fun i => (hspec i).trans ?_⟩
      constructor
      · rintro ⟨hle, hi, hmax⟩
        refine ⟨by omega, hi, fun j hlt _ hj => hmax j hlt ?_ hj⟩
        have := hj.lt
        omega
      · rintro ⟨-, hi, hmax⟩
        have := hi.lt
        exact ⟨by omega, hi, fun j hlt hle => hmax j hlt (by omega)⟩
    · rw [if_neg hlast]
      exact findLastOfLoop_spec h ht hstring (by omega)

theorem compare_spec (h : s.Holds text) (ht : t.WellFormed) :
    s.compare t = some (compareLists text t.content) := by
  have hlen := TextArgument.length_content ht
  have hread := h.readBlock (show 0 + min text.length t.getSize ≤ text.length by omega)
  have hread' := TextArgument.readBlock_getData ht (min_le_right text.length t.getSize)
  rw [compare]
  simp only [h.size, hread, hread', List.drop_zero, Option.bind_eq_bind, Option.bind_some,
    compareLists, hlen, gt_iff_lt]
  split
  · split
    · rfl
    · split <;> rfl
  · rfl

theorem nul_lt {c : Char} (hc : c ≠ nul) : nul < c := by
  rw [Char.lt_def, UInt32.lt_iff_toNat_lt]
  have hne : c.val.toNat ≠ 0 := by
    intro h0
    apply hc
    apply Char.ext
    apply UInt32.toNat_inj.mp
    exact h0
  exact Nat.pos_of_ne_zero hne

theorem compareChar_spec (h : s.Holds text) {c : Char} (hc : c ≠ nul) :
    s.compareChar c = some (compareLists text [c]) := by
  obtain ⟨rest, hrest⟩ := h.split
  rw [compareChar, hrest, h.size]
  cases text with
  | nil =>
    have hlt := nul_lt hc
    simp [readBlock, compareLists, memcmp, hlt]
  | cons a text =>
    rw [compareLists_cons, List.cons_append]
    have hread : readBlock (a :: (text ++ nul :: rest)) 0 1 = some [a] := by
      simp [readBlock]
    simp only [hread, Option.bind_eq_bind, Option.bind_some, memcmp, List.length_cons]
    rcases lt_trichotomy a c with hlt | rfl | hgt
    · simp [hlt]
    · cases text <;> simp [compareLists, memcmp]
    · simp [hgt, hgt.not_gt]

end FixedString

structure AnswersFor {Capacity : Nat} (s : FixedString Capacity) (text : List Char) : Prop where
  substr : ∀ pos count, pos ≤ text.length →
    ∃ t, s.substr pos count = some (some t) ∧ t.Holds ((text.drop pos).take count)
  substr_beyond : ∀ pos count, text.length < pos → s.substr pos count = some none
  find : ∀ t pos, t.WellFormed → t.IsCString →
    ∃ r, s.find t pos = some r ∧
      ∀ i, r = some i ↔ IsFirstFrom (OccursAt text t.content) pos i
  findFirstOf : ∀ t pos, t.WellFormed → t.IsCString →
    ∃ r, s.findFirstOf t pos = some r ∧
      ∀ i, r = some i ↔ IsFirstFrom (OneOfAt text t.content) pos i
  findLastOf : ∀ t pos, t.WellFormed → t.IsCString →
    ∃ r, s.findLastOf t pos = some r ∧
      ∀ i, r = some i ↔ IsLastUpTo (OneOfAt text t.content) pos i
  compare : ∀ t, t.WellFormed → ∃ r, s.compare t = some r ∧
    (r < 0 ↔ text < t.content) ∧ (r = 0 ↔ text = t.content) ∧ (0 < r ↔ t.content < text)
  compareChar : ∀ c, c ≠ nul → ∃ r, s.compareChar c = some r ∧
    (r < 0 ↔ text < [c]) ∧ (r = 0 ↔ text = [c]) ∧ (0 < r ↔ [c] < text)

theorem FixedString.Holds.answersFor {Capacity : Nat} {s : FixedString Capacity}
    {text : List Char} (h : s.Holds text) : AnswersFor s text where
  substr _ count hpos := FixedString.substr_spec h hpos count
  substr_beyond _ count hpos := FixedString.substr_beyond h hpos count
  find _ pos ht hstring := FixedString.find_spec h ht hstring pos
  findFirstOf _ pos ht hstring := FixedString.findFirstOf_spec h ht hstring pos
  findLastOf _ pos ht hstring := FixedString.findLastOf_spec h ht hstring pos
  compare _ ht := ⟨_, FixedString.compare_spec h ht, compareLists_spec _ _⟩
  compareChar _ hc := ⟨_, FixedString.compareChar_spec h hc, compareLists_spec _ _⟩

inductive StringOp (Capacity : Nat)
  | unsafeAssign (str : CharPointer)
  | unsafeAssignStd (str : List Char)
  | assignArray (data : List Char) (hN : data.length ≤ Capacity + 1)
  | unsafeAppend (t : TextArgument)
  | append (t : TextArgument)
  | appendChar (c : Char)
  | insert (pos : Nat) (str : TextArgument) (count : Nat)
  | copy {N : Nat} (rhs : FixedString N) (hN : N ≤ Capacity)
  | move {N : Nat} (rhs : FixedString N) (hN : N ≤ Capacity)

namespace StringOp

variable {Capacity : Nat}

def step (s : FixedString Capacity) : StringOp Capacity → Option (Bool × FixedString Capacity)
  | unsafeAssign str => s.unsafeAssign str
  | unsafeAssignStd str => s.unsafeAssignStd str
  | assignArray data _ => (s.assignArray data).map (true, ·)
  | unsafeAppend t => s.unsafeAppend t
  | append t => (s.append t).map (true, ·)
  | appendChar c => (s.appendChar c).map (true, ·)
  | insert pos str count => s.insert pos str count
  | copy rhs _ => (s.copy rhs).map (true, ·)
  | move rhs _ => (s.move rhs).map fun r => (true, r.1)

def WellFormed : StringOp Capacity → Prop
  | unsafeAssign (.memory str) => nul ∈ str ∨ Capacity + 1 ≤ str.length
  | unsafeAssign _ => True
  | unsafeAssignStd str => nul ∉ str
  | assignArray _ _ => True
  | unsafeAppend t => t.WellFormed
  | append t => t.WellFormed
  | appendChar c => c ≠ nul
  | insert pos str count => str.WellFormed ∧ pos < 2 ^ 64 ∧ count < 2 ^ 64
  | copy rhs _ => rhs.Holds rhs.content
  | move rhs _ => rhs.Holds rhs.content

/-- The same on lists that may hold up to `Capacity` characters: an operation either takes
place as a whole and reports so, or it changes nothing; only `append` truncates. -/
def reference (text : List Char) : StringOp Capacity → Bool × List Char
  | unsafeAssign (.memory str) =>
    let new := str.takeWhile (· ≠ nul)
    (decide (new.length ≤ Capacity), if new.length ≤ Capacity then new else text)
  | unsafeAssign _ => (false, text)
  | unsafeAssignStd str =>
    (decide (str.length ≤ Capacity), if str.length ≤ Capacity then str else text)
  | assignArray data _ => (true, (data.takeWhile (· ≠ nul)).take Capacity)
  | unsafeAppend t =>
    (decide (text.length + t.content.length ≤ Capacity),
      if text.length + t.content.length ≤ Capacity then text ++ t.content else text)
  | append t => (true, (text ++ t.content).take Capacity)
  | appendChar c => (true, (text ++ [c]).take Capacity)
  | insert pos t count =>
    let fits := count ≤ t.content.length ∧ text.length + count ≤ Capacity ∧ pos ≤ text.length
    (decide fits, if fits then text.take pos ++ (t.content.take count ++ text.drop pos) else text)
  | copy rhs _ => (true, rhs.content)
  | move rhs _ => (true, rhs.content)

theorem reference_of_failed {op : StringOp Capacity} {text : List Char}
    (h : (op.reference text).1 = false) : (op.reference text).2 = text := by
  cases op with
  | unsafeAssign str =>
    cases str with
    | memory str => exact if_neg (of_decide_eq_false h)
    | null => rfl
    | self => rfl
  | unsafeAssignStd str => exact if_neg (of_decide_eq_false h)
  | unsafeAppend t => exact if_neg (of_decide_eq_false h)
  | insert pos t count => exact if_neg (of_decide_eq_false h)
  | assignArray => cases h
  | append => cases h
  | appendChar => cases h
  | copy => cases h
  | move => cases h

theorem step_refines (hC : Capacity < 2 ^ 64) :
    Simulates step (fun text op => some (op.reference text))
      (fun _ (op : StringOp Capacity) => op.WellFormed) FixedString.Holds := by
  have hmap {x : Option (FixedString Capacity)} {text : List Char}
      (hx : ∃ s', x = some s' ∧ s'.Holds text) :
      ∃ s', x.map (true, ·) = some (true, s') ∧ s'.Holds text := by
    obtain ⟨s', rfl, hs'⟩ := hx
    exact ⟨s', rfl, hs'⟩
  intro s text op out text' h hop href
  obtain rfl : (op.reference text).1 = out := congrArg Prod.fst (Option.some.inj href)
  obtain rfl : (op.reference text).2 = text' := congrArg Prod.snd (Option.some.inj href)
  clear href
  cases op with
  | unsafeAssign str =>
    cases str with
    | memory str => exact FixedString.unsafeAssign_spec h hop
    | null => exact ⟨s, rfl, h⟩
    | self => exact ⟨s, rfl, h⟩
  | unsafeAssignStd str => exact FixedString.unsafeAssignStd_spec h hop
  | assignArray data hN => exact hmap (s.assignArray_spec hN)
  | unsafeAppend t => exact FixedString.unsafeAppend_spec h hop
  | append t => exact hmap (FixedString.append_spec h hop)
  | appendChar c => exact hmap (FixedString.appendChar_spec h hop)
  | insert pos t count => exact FixedString.insert_spec hC h hop.1 hop.2.2
  | copy rhs hN => exact hmap (FixedString.copy_spec s hop hN)
  | move rhs hN =>
    obtain ⟨s', rhs', hmove, hs', -⟩ := FixedString.move_spec s hop hN
    exact ⟨s', by rw [step, hmove]; rfl, hs'⟩

end StringOp

/-- Every run of operations does to the array what the reference does to a list, and reports
the same; searches and comparisons answer for that list. -/
theorem fixedString_refines_text {Capacity : Nat} (hC : Capacity < 2 ^ 64)
    (ops : List (StringOp Capacity)) (hops : ∀ op ∈ ops, op.WellFormed) :
    (∃ outs text s,
      runOps (fun text (op : StringOp Capacity) => some (op.reference text)) [] ops =
        some (outs, text) ∧
      runOps StringOp.step .empty ops = some (outs, s) ∧ s.Holds text ∧
      s.rawstringSize ≤ Capacity ∧ s.rawstring[s.rawstringSize]? = some nul ∧
      AnswersFor s text) ∧
    (∀ (op : StringOp Capacity) text, (op.reference text).1 = false →
      (op.reference text).2 = text) ∧
    (∀ (N : Nat) (s : FixedString Capacity) (rhs : FixedString N) text, rhs.Holds text →
      N ≤ Capacity →
      ∃ s' rhs', s.move rhs = some (s', rhs') ∧ s'.Holds text ∧ rhs'.Holds []) ∧
    ∀ t1 t2 targs, (∀ t ∈ t1 :: t2 :: targs, t.WellFormed ∧ t.IsConcatenable) →
      ∃ s' : FixedString (t1.getCapa + t2.getCapa + (targs.map TextArgument.getCapa).sum),
        FixedString.concatenateAll t1 t2 targs = some (.fixedString s') ∧
        s'.Holds (t1.content ++ t2.content ++ targs.flatMap TextArgument.content) := by
  refine ⟨?_, fun op text => StringOp.reference_of_failed,
    fun N s rhs text h hN => FixedString.move_spec s h hN, ?_⟩
  · have hadmits (s : FixedString Capacity) :
        Admits StringOp.step (fun _ (op : StringOp Capacity) => op.WellFormed) s ops := by
      clear hC
      induction ops generalizing s with
      | nil => trivial
      | cons op ops ih =>
        exact ⟨hops op List.mem_cons_self,
          fun r _ => ih (fun op' hop' => hops op' (List.mem_cons_of_mem op hop')) r.2⟩
    obtain ⟨outs, text, href⟩ :
        ∃ outs text, runOps (fun text (op : StringOp Capacity) => some (op.reference text)) [] ops =
          some (outs, text) := runOps_total (fun _ _ => rfl) ops []
    obtain ⟨s, hs, hholds⟩ := (StringOp.step_refines hC).run ops .empty [] text outs
      FixedString.empty_holds (hadmits _) href
    refine ⟨outs, text, s, href, hs, hholds, ?_, ?_, hholds.answersFor⟩
    · rw [hholds.size]
      exact hholds.length_le
    · rw [hholds.size]
      exact hholds.terminated
  · intro t1 t2 targs hargs
    exact FixedString.concatenateAll_spec (hargs t1 List.mem_cons_self)
      (hargs t2 (by simp)) (fun t ht => hargs t (by simp [ht]))

def fillAndInsert : List (StringOp 4) :=
  [.unsafeAppend (.stdString ['a', 'b']), .insert 1 (.charArray ['x', 'y', nul]) 2,
    .unsafeAppend (.char 'c'), .insert 4 (.stdString ['z']) (2 ^ 64 - 1)]

theorem fillAndInsert_wellFormed : ∀ op ∈ fillAndInsert, op.WellFormed := by
  simp [fillAndInsert, StringOp.WellFormed, TextArgument.WellFormed, nul]

theorem fixedString_refines_text_full :
    ∃ s, runOps StringOp.step .empty fillAndInsert = some ([true, true, false, false], s) ∧
      s.Holds ['a', 'x', 'y', 'b'] := by
  obtain ⟨⟨outs, text, s, href, hrun, hholds, -⟩, -⟩ :=
    fixedString_refines_text (by decide) fillAndInsert fillAndInsert_wellFormed
  have hrun' : runOps (fun text (op : StringOp 4) => some (op.reference text)) [] fillAndInsert =
      some ([true, true, false, false], ['a', 'x', 'y', 'b']) := by decide
  rw [hrun'] at href
  cases href
  exact ⟨s, hrun, hholds⟩

end Iceoryx.Hoofs
