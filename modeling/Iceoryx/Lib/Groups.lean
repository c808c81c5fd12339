import Mathlib.Data.List.Nodup
import Mathlib.Data.List.Perm.Basic

universe u v w x

namespace Lib

variable {A : Type u} {G : Type v} [DecidableEq G]

def byKey (key : A → G) (keys : List G) (as : List A) : List A :=
  keys.flatMap fun k => as.filter fun a => key a = k

variable {key : A → G} {keys : List G} {as : List A} {a : A}

theorem mem_byKey : a ∈ byKey key keys as ↔ a ∈ as ∧ key a ∈ keys := by
  simp only [byKey, List.mem_flatMap, List.mem_filter, decide_eq_true_eq]
  constructor
  · rintro ⟨k, hk, ha, rfl⟩
    exact ⟨ha, hk⟩
  · rintro ⟨ha, hk⟩
    exact ⟨key a, hk, ha, rfl⟩

theorem byKey_perm (h : keys.Nodup) :
    (byKey key keys as).Perm (as.filter fun a => key a ∈ keys) := by
  induction keys with
  | nil => simp [byKey]
  | cons k keys ih =>
    obtain ⟨hk, hkeys⟩ := List.nodup_cons.mp h
    have hfirst : (as.filter fun a => key a ∈ k :: keys).filter (fun a => key a = k) =
        as.filter fun a => key a = k := by
      rw [List.filter_filter]
      refine List.filter_congr fun a _ => ?_
      by_cases ha : key a = k <;> simp [ha]
    have hrest : (as.filter fun a => key a ∈ k :: keys).filter (fun a => !decide (key a = k)) =
        as.filter fun a => key a ∈ keys := by
      rw [List.filter_filter]
      refine List.filter_congr fun a _ => ?_
      by_cases ha : key a = k
      · rw [ha]
        simp [hk]
      · simp [ha]
    have hsplit := List.filter_append_perm (fun a => decide (key a = k))
      (as.filter fun a => key a ∈ k :: keys)
    rw [hfirst, hrest] at hsplit
    exact ((ih hkeys).append_left _).trans hsplit

theorem foldl_byKey {S : Type w} (f : S → A → S) (s : S) :
    keys.foldl (fun s k => as.foldl (fun s a => if key a = k then f s a else s) s) s =
      (byKey key keys as).foldl f s := by
  rw [byKey, List.foldl_flatMap]
  congr 1
  funext s k
  rw [List.foldl_filter]
  simp only [decide_eq_true_eq]

theorem foldlM_byKey {m : Type w → Type x} [Monad m] [LawfulMonad m] {S : Type w}
    (f : S → A → m S) (s : S) :
    keys.foldlM (fun s k => as.foldlM (fun s a => if key a = k then f s a else pure s) s) s =
      (byKey key keys as).foldlM f s := by
  have hinner : ∀ (k : G) (as : List A) (s : S),
      as.foldlM (fun s a => if key a = k then f s a else pure s) s =
        (as.filter fun a => key a = k).foldlM f s := by
    intro k as
    induction as with
    | nil => exact fun s => rfl
    | cons a as ih =>
      intro s
      by_cases ha : key a = k <;> simp [ha, ih]
  induction keys generalizing s with
  | nil => rfl
  | cons k keys ih =>
    rw [List.foldlM_cons, byKey, List.flatMap_cons, List.foldlM_append, hinner]
    congr 1
    funext s
    exact ih s

theorem findSome_byKey :
    (keys.findSome? fun k => as.find? fun a => key a = k) = (byKey key keys as).head? := by
  rw [byKey, List.head?_flatMap]
  congr 1
  funext k
  rw [List.head?_filter]

end Lib
