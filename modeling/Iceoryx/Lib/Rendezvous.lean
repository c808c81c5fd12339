import Mathlib.Logic.Function.Basic
import Mathlib.Data.List.Nodup

universe u v w x

namespace Lib

theorem update_some_eq {α : Type u} {f : Nat → Option α} {i k : Nat} {a b : α} :
    Function.update f i (some a) k = some b ↔ k = i ∧ a = b ∨ k ≠ i ∧ f k = some b := by
  by_cases hki : k = i
  · subst hki
    simp
  · simp [hki]

theorem update_none_eq {α : Type u} {f : Nat → Option α} {i k : Nat} {b : α} :
    Function.update f i none k = some b ↔ k ≠ i ∧ f k = some b := by
  by_cases hki : k = i
  · subst hki
    simp
  · simp [hki]

structure Rendezvous (π : Type u) (σ : Type v) (κ : Type w) (Q : Type x) where
  offered : π → Bool
  queues : π → List Q
  connected : σ → Bool
  compatible : π → σ → Bool
  providerKey : π → κ
  consumerKey : σ → κ
  name : Nat → Q
  name_injective : Function.Injective name
  key_eq : ∀ {p s}, compatible p s = true → providerKey p = consumerKey s

namespace Rendezvous

variable {π : Type u} {σ : Type v} {κ : Type w} {Q : Type x}

/-- `stale i j` marks a consumer that has not been told yet that its provider is gone. -/
structure Agreement (T : Rendezvous π σ κ Q) (stale : Nat → Nat → Prop) (P : Nat → Option π)
    (S : Nat → Option σ) : Prop where
  linked : ∀ {j s}, S j = some s → T.connected s = true →
    ∃ i p, P i = some p ∧ T.compatible p s = true ∧ (T.name j ∈ T.queues p ∨ stale i j)
  held : ∀ {i p q}, P i = some p → q ∈ T.queues p → T.offered p = true ∧
    ∃ j s, q = T.name j ∧ S j = some s ∧ T.compatible p s = true ∧ T.connected s = true
  nodup : ∀ {i p}, P i = some p → (T.queues p).Nodup
  unique : ∀ {i k p p'}, P i = some p → P k = some p' →
    T.providerKey p = T.providerKey p' → i = k

def Settled (_ _ : Nat) : Prop := False

structure SameProvider (T : Rendezvous π σ κ Q) (p p' : π) : Prop where
  compatible : ∀ s, T.compatible p' s = T.compatible p s
  key : T.providerKey p' = T.providerKey p

def SameConsumer (T : Rendezvous π σ κ Q) (s s' : σ) : Prop :=
  ∀ p, T.compatible p s' = T.compatible p s

variable {T : Rendezvous π σ κ Q} {stale stale' : Nat → Nat → Prop}
  {P : Nat → Option π} {S : Nat → Option σ} {i j : Nat} {p p' : π} {s s' : σ}

namespace Agreement

theorem empty : Agreement T stale (fun _ => none) (fun _ => none) where
  linked := by simp
  held := by simp
  nodup := by simp
  unique := by simp

theorem provider_unique (h : Agreement T stale P S) {k : Nat} (hi : P i = some p)
    (hk : P k = some p') (hs : T.compatible p s = true) (hs' : T.compatible p' s = true) :
    i = k :=
  h.unique hi hk ((T.key_eq hs).trans (T.key_eq hs').symm)

theorem not_held_of_idle (h : Agreement T stale P S) (hs : S j = some s)
    (hidle : T.connected s = false) (hp : P i = some p) : T.name j ∉ T.queues p := by
  intro hmem
  obtain ⟨-, k, t, hname, ht, -, hconn⟩ := h.held hp hmem
  rw [← T.name_injective hname, hs] at ht
  cases ht
  simp [hidle] at hconn

theorem not_held_of_absent (h : Agreement T stale P S) (hs : S j = none) (hp : P i = some p) :
    T.name j ∉ T.queues p := by
  intro hmem
  obtain ⟨-, k, t, hname, ht, -⟩ := h.held hp hmem
  rw [← T.name_injective hname, hs] at ht
  cases ht

theorem queues_of_not_offered (h : Agreement T stale P S) (hp : P i = some p)
    (hoff : T.offered p = false) : T.queues p = [] := by
  apply List.eq_nil_iff_forall_not_mem.mpr
  intro q hq
  have := (h.held hp hq).1
  simp [hoff] at this

theorem connected_iff (h : Agreement T Settled P S) (hp : P i = some p) (hs : S j = some s)
    (hcomp : T.compatible p s = true) :
    T.connected s = true ↔ T.offered p = true ∧ T.name j ∈ T.queues p := by
  constructor
  · intro hconn
    obtain ⟨k, t, ht, hc, hmem | hstale⟩ := h.linked hs hconn
    · obtain rfl := h.provider_unique hp ht hcomp hc
      rw [hp] at ht
      cases ht
      exact ⟨(h.held hp hmem).1, hmem⟩
    · exact hstale.elim
  · rintro ⟨-, hmem⟩
    obtain ⟨-, k, t, hname, ht, -, hconn⟩ := h.held hp hmem
    rw [← T.name_injective hname, hs] at ht
    cases ht
    exact hconn

theorem mono (h : Agreement T stale P S) (himp : ∀ i j, stale i j → stale' i j) :
    Agreement T stale' P S where
  linked := by
    intro j s hs hconn
    obtain ⟨i, p, hp, hc, hmem⟩ := h.linked hs hconn
    exact ⟨i, p, hp, hc, hmem.imp_right (himp i j)⟩
  held := h.held
  nodup := h.nodup
  unique := h.unique

theorem unmark (h : Agreement T stale P S)
    (himp : ∀ i j p s, stale i j → P i = some p → S j = some s → T.connected s = true →
      T.compatible p s = true → stale' i j) : Agreement T stale' P S where
  linked := by
    intro j s hs hconn
    obtain ⟨i, p, hp, hc, hmem⟩ := h.linked hs hconn
    exact ⟨i, p, hp, hc, hmem.imp_right fun hst => himp i j p s hst hp hs hconn hc⟩
  held := h.held
  nodup := h.nodup
  unique := h.unique

theorem keys_update (hp : P i = some p) (hsp : T.SameProvider p p') {k : Nat} {t : π}
    (hk : Function.update P i (some p') k = some t) :
    ∃ t', P k = some t' ∧ T.providerKey t = T.providerKey t' := by
  by_cases hki : k = i
  · subst hki
    simp only [Function.update_self, Option.some.injEq] at hk
    subst hk
    exact ⟨p, hp, hsp.key⟩
  · rw [Function.update_of_ne hki] at hk
    exact ⟨t, hk, rfl⟩

theorem unique_update (h : Agreement T stale P S) (hp : P i = some p)
    (hsp : T.SameProvider p p') {k l : Nat} {t u : π}
    (hk : Function.update P i (some p') k = some t)
    (hl : Function.update P i (some p') l = some u)
    (hkey : T.providerKey t = T.providerKey u) : k = l := by
  obtain ⟨t', ht', hkt⟩ := keys_update hp hsp hk
  obtain ⟨u', hu', hku⟩ := keys_update hp hsp hl
  exact h.unique ht' hu' (hkt.symm.trans (hkey.trans hku))

theorem setIdle (h : Agreement T stale P S)
    (hfree : ∀ i p, P i = some p → T.name j ∉ T.queues p) (hidle : T.connected s' = false) :
    Agreement T stale P (Function.update S j (some s')) where
  linked := by
    intro k t hk hconn
    by_cases hkj : k = j
    · subst hkj
      simp only [Function.update_self, Option.some.injEq] at hk
      subst hk
      simp [hidle] at hconn
    · rw [Function.update_of_ne hkj] at hk
      exact h.linked hk hconn
  held := by
    intro i p q hp hmem
    obtain ⟨ho, k, t, hname, ht, hc, hconn⟩ := h.held hp hmem
    have hkj : k ≠ j := by
      rintro rfl
      exact hfree i p hp (hname ▸ hmem)
    exact ⟨ho, k, t, hname, by rw [Function.update_of_ne hkj]; exact ht, hc, hconn⟩
  nodup := h.nodup
  unique := h.unique

theorem setConsumer (h : Agreement T stale P S) (hs : S j = some s) (hsame : T.SameConsumer s s')
    (hconn : T.connected s' = T.connected s) :
    Agreement T stale P (Function.update S j (some s')) where
  linked := by
    intro k t hk hc
    by_cases hkj : k = j
    · subst hkj
      simp only [Function.update_self, Option.some.injEq] at hk
      subst hk
      obtain ⟨i, p, hp, hcomp, hmem⟩ := h.linked hs (hconn ▸ hc)
      exact ⟨i, p, hp, (hsame p).trans hcomp, hmem⟩
    · rw [Function.update_of_ne hkj] at hk
      exact h.linked hk hc
  held := by
    intro i p q hp hmem
    obtain ⟨ho, k, t, hname, ht, hc, hcn⟩ := h.held hp hmem
    by_cases hkj : k = j
    · subst hkj
      rw [hs] at ht
      cases ht
      exact ⟨ho, k, s', hname, by simp, (hsame p).trans hc, hconn.trans hcn⟩
    · exact ⟨ho, k, t, hname, by rw [Function.update_of_ne hkj]; exact ht, hc, hcn⟩
  nodup := h.nodup
  unique := h.unique

theorem link (h : Agreement T stale P S) (hp : P i = some p) (hs : S j = some s)
    (hsp : T.SameProvider p p') (hss : T.SameConsumer s s') (hcomp : T.compatible p s = true)
    (hidle : T.connected s = false) (hoff' : T.offered p' = true)
    (hconn : T.connected s' = true) (hq : T.queues p' = T.queues p ++ [T.name j]) :
    Agreement T stale (Function.update P i (some p')) (Function.update S j (some s')) := by
  refine ⟨?_, ?_, ?_, ?_⟩
  · intro k t hk hc
    by_cases hkj : k = j
    · subst hkj
      simp only [Function.update_self, Option.some.injEq] at hk
      subst hk
      exact ⟨i, p', by simp, by rw [hsp.compatible, hss p]; exact hcomp, Or.inl (by simp [hq])⟩
    · rw [Function.update_of_ne hkj] at hk
      obtain ⟨l, u, hu, hcu, hmem⟩ := h.linked hk hc
      by_cases hli : l = i
      · subst hli
        rw [hp] at hu
        cases hu
        exact ⟨l, p', by simp, (hsp.compatible t).trans hcu,
          hmem.imp_left fun hm => by simp [hq, hm]⟩
      · exact ⟨l, u, by rw [Function.update_of_ne hli]; exact hu, hcu, hmem⟩
  · intro k u q hk hmem
    by_cases hki : k = i
    · subst hki
      simp only [Function.update_self, Option.some.injEq] at hk
      subst hk
      rw [hq, List.mem_append, List.mem_singleton] at hmem
      refine ⟨hoff', ?_⟩
      obtain hmem | rfl := hmem
      · obtain ⟨-, l, t, hname, ht, hc, hcn⟩ := h.held hp hmem
        have hlj : l ≠ j := by
          rintro rfl
          exact h.not_held_of_idle hs hidle hp (hname ▸ hmem)
        exact ⟨l, t, hname, by rw [Function.update_of_ne hlj]; exact ht,
          (hsp.compatible t).trans hc, hcn⟩
      · exact ⟨j, s', rfl, by simp, by rw [hsp.compatible, hss p]; exact hcomp, hconn⟩
    · rw [Function.update_of_ne hki] at hk
      obtain ⟨ho, l, t, hname, ht, hc, hcn⟩ := h.held hk hmem
      have hlj : l ≠ j := by
        rintro rfl
        exact h.not_held_of_idle hs hidle hk (hname ▸ hmem)
      exact ⟨ho, l, t, hname, by rw [Function.update_of_ne hlj]; exact ht, hc, hcn⟩
  · intro k u hk
    by_cases hki : k = i
    · subst hki
      simp only [Function.update_self, Option.some.injEq] at hk
      subst hk
      rw [hq]
      exact (h.nodup hp).append (List.nodup_singleton _)
        (by simpa using h.not_held_of_idle hs hidle hp)
    · rw [Function.update_of_ne hki] at hk
      exact h.nodup hk
  · intro k l u v hk hl hkey
    exact h.unique_update hp hsp hk hl hkey

theorem shrink (h : Agreement T stale P S) (hp : P i = some p) (hsp : T.SameProvider p p')
    (hsub : (T.queues p').Sublist (T.queues p))
    (hoff : T.queues p' ≠ [] → T.offered p' = true)
    (hmark : ∀ j, T.name j ∈ T.queues p → T.name j ∉ T.queues p' → stale' i j)
    (hmono : ∀ k j, stale k j → stale' k j) :
    Agreement T stale' (Function.update P i (some p')) S := by
  refine ⟨?_, ?_, ?_, ?_⟩
  · intro j s hs hconn
    obtain ⟨k, t, hk, hc, hmem⟩ := h.linked hs hconn
    by_cases hki : k = i
    · subst hki
      rw [hp] at hk
      cases hk
      refine ⟨k, p', by simp, (hsp.compatible s).trans hc, ?_⟩
      obtain hmem | hstale := hmem
      · by_cases hm : T.name j ∈ T.queues p'
        · exact Or.inl hm
        · exact Or.inr (hmark j hmem hm)
      · exact Or.inr (hmono k j hstale)
    · exact ⟨k, t, by rw [Function.update_of_ne hki]; exact hk, hc, hmem.imp_right (hmono k j)⟩
  · intro k t q hk hmem
    by_cases hki : k = i
    · subst hki
      simp only [Function.update_self, Option.some.injEq] at hk
      subst hk
      obtain ⟨-, j, s, hname, hs, hc, hconn⟩ := h.held hp (hsub.subset hmem)
      exact ⟨hoff (List.ne_nil_of_mem hmem), j, s, hname, hs, (hsp.compatible s).trans hc, hconn⟩
    · rw [Function.update_of_ne hki] at hk
      exact h.held hk hmem
  · intro k t hk
    by_cases hki : k = i
    · subst hki
      simp only [Function.update_self, Option.some.injEq] at hk
      subst hk
      exact (h.nodup hp).sublist hsub
    · rw [Function.update_of_ne hki] at hk
      exact h.nodup hk
  · intro k l u v hk hl hkey
    exact h.unique_update hp hsp hk hl hkey

theorem setProvider (h : Agreement T stale P S) (hp : P i = some p) (hsp : T.SameProvider p p')
    (hq : T.queues p' = T.queues p) (hoff : T.offered p = true → T.offered p' = true) :
    Agreement T stale (Function.update P i (some p')) S := by
  apply h.shrink hp hsp (hq ▸ List.Sublist.refl _)
  · intro hne
    obtain ⟨q, hmem⟩ := List.exists_mem_of_ne_nil _ hne
    exact hoff (h.held hp (hq ▸ hmem)).1
  · intro j hmem hnot
    exact absurd (hq ▸ hmem) hnot
  · intro k j hst
    exact hst

theorem unlink (h : Agreement T Settled P S) (hp : P i = some p) (hs : S j = some s)
    (hsp : T.SameProvider p p') (hcomp : T.compatible p s = true)
    (hq : (T.queues p').Sublist (T.queues p)) (hoff : T.offered p' = T.offered p)
    (hkeep : ∀ k, k ≠ j → T.name k ∈ T.queues p → T.name k ∈ T.queues p')
    (hgone : T.name j ∉ T.queues p') (hidle : T.connected s' = false) :
    Agreement T Settled (Function.update P i (some p')) (Function.update S j (some s')) := by
  have hmarked : Agreement T (fun k l => k = i ∧ l = j) (Function.update P i (some p')) S := by
    apply h.shrink hp hsp hq
    · intro hne
      obtain ⟨q, hmem⟩ := List.exists_mem_of_ne_nil _ hne
      exact hoff.trans (h.held hp (hq.subset hmem)).1
    · intro k hmem hnot
      refine ⟨rfl, ?_⟩
      by_contra hkj
      exact hnot (hkeep k hkj hmem)
    · intro k l hst
      exact hst.elim
  have hfree : ∀ k t, Function.update P i (some p') k = some t → T.name j ∉ T.queues t := by
    intro k t hk
    by_cases hki : k = i
    · subst hki
      simp only [Function.update_self, Option.some.injEq] at hk
      subst hk
      exact hgone
    · rw [Function.update_of_ne hki] at hk
      intro hmem
      obtain ⟨-, l, u, hname, hu, hc, -⟩ := h.held hk hmem
      rw [← T.name_injective hname, hs] at hu
      cases hu
      exact hki (h.provider_unique hk hp hc hcomp)
  apply (hmarked.setIdle hfree hidle).unmark
  rintro k l t u ⟨rfl, rfl⟩ - hl hconn -
  simp only [Function.update_self, Option.some.injEq] at hl
  subst hl
  simp [hidle] at hconn

theorem eraseProvider (h : Agreement T Settled P S) (hp : P i = some p)
    (hoff : T.offered p = false) : Agreement T Settled (Function.update P i none) S := by
  have hne : ∀ {k t}, Function.update P i none k = some t → P k = some t := by
    intro k t hk
    by_cases hki : k = i
    · subst hki
      simp at hk
    · rwa [Function.update_of_ne hki] at hk
  refine ⟨?_, ?_, ?_, ?_⟩
  · intro j s hs hconn
    obtain ⟨k, t, hk, hc, hmem | hstale⟩ := h.linked hs hconn
    · have hki : k ≠ i := by
        rintro rfl
        rw [hp] at hk
        cases hk
        simp [h.queues_of_not_offered hp hoff] at hmem
      exact ⟨k, t, by rw [Function.update_of_ne hki]; exact hk, hc, Or.inl hmem⟩
    · exact hstale.elim
  · intro k t q hk hmem
    exact h.held (hne hk) hmem
  · intro k t hk
    exact h.nodup (hne hk)
  · intro k l t u hk hl hkey
    exact h.unique (hne hk) (hne hl) hkey

theorem eraseConsumer (h : Agreement T stale P S)
    (hfree : ∀ i p, P i = some p → T.name j ∉ T.queues p) :
    Agreement T stale P (Function.update S j none) where
  linked := by
    intro k t hk hconn
    by_cases hkj : k = j
    · subst hkj
      simp at hk
    · rw [Function.update_of_ne hkj] at hk
      exact h.linked hk hconn
  held := by
    intro i p q hp hmem
    obtain ⟨ho, k, t, hname, ht, hc, hconn⟩ := h.held hp hmem
    have hkj : k ≠ j := by
      rintro rfl
      exact hfree i p hp (hname ▸ hmem)
    exact ⟨ho, k, t, hname, by rw [Function.update_of_ne hkj]; exact ht, hc, hconn⟩
  nodup := h.nodup
  unique := h.unique

theorem insertProvider (h : Agreement T stale P S) (hnone : P i = none)
    (hkey : ∀ k t, P k = some t → T.providerKey t ≠ T.providerKey p) (hq : T.queues p = []) :
    Agreement T stale (Function.update P i (some p)) S := by
  have hcases : ∀ {k t}, Function.update P i (some p) k = some t →
      k = i ∧ t = p ∨ k ≠ i ∧ P k = some t := by
    intro k t hk
    by_cases hki : k = i
    · subst hki
      simp only [Function.update_self, Option.some.injEq] at hk
      exact Or.inl ⟨rfl, hk.symm⟩
    · rw [Function.update_of_ne hki] at hk
      exact Or.inr ⟨hki, hk⟩
  refine ⟨?_, ?_, ?_, ?_⟩
  · intro j s hs hconn
    obtain ⟨k, t, hk, hc, hmem⟩ := h.linked hs hconn
    have hki : k ≠ i := by
      rintro rfl
      simp [hnone] at hk
    exact ⟨k, t, by rw [Function.update_of_ne hki]; exact hk, hc, hmem⟩
  · intro k t q hk hmem
    obtain ⟨rfl, rfl⟩ | ⟨-, hk⟩ := hcases hk
    · simp [hq] at hmem
    · exact h.held hk hmem
  · intro k t hk
    obtain ⟨rfl, rfl⟩ | ⟨-, hk⟩ := hcases hk
    · simp [hq]
    · exact h.nodup hk
  · intro k l t u hk hl hkeys
    obtain ⟨rfl, rfl⟩ | ⟨-, hk'⟩ := hcases hk
    · obtain ⟨rfl, -⟩ | ⟨-, hl'⟩ := hcases hl
      · rfl
      · exact absurd hkeys.symm (hkey l u hl')
    · obtain ⟨-, rfl⟩ | ⟨-, hl'⟩ := hcases hl
      · exact absurd hkeys (hkey k t hk')
      · exact h.unique hk' hl' hkeys

theorem insertConsumer (h : Agreement T stale P S) (hnone : S j = none)
    (hidle : T.connected s = false) : Agreement T stale P (Function.update S j (some s)) :=
  h.setIdle (fun _ _ hp => h.not_held_of_absent hnone hp) hidle

end Agreement

end Rendezvous

end Lib
