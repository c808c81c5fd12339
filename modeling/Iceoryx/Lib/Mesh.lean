import Iceoryx.Lib.Rendezvous

/-! Any number of providers for a key.  A consumer does not know its providers: being
connected only means that it wants the data of every compatible provider, and `Mesh` says
that it is on the list of exactly those that offer. -/

universe u v w x

namespace Lib.Rendezvous

variable {π : Type u} {σ : Type v} {κ : Type w} {Q : Type x}

def Listed (T : Rendezvous π σ κ Q) (p : π) (j : Nat) (s : σ) : Prop :=
  T.name j ∈ T.queues p ↔
    T.offered p = true ∧ T.connected s = true ∧ T.compatible p s = true

def Keeps (T : Rendezvous π σ κ Q) (S : Nat → Option σ) (p : π) : Prop :=
  (T.queues p).Nodup ∧ ∀ q ∈ T.queues p, T.offered p = true ∧
    ∃ j s, q = T.name j ∧ S j = some s ∧ T.compatible p s = true

/-- `pending i j` marks a pair whose change of state has not been carried through yet. -/
structure Mesh (T : Rendezvous π σ κ Q) (pending : Nat → Nat → Prop) (P : Nat → Option π)
    (S : Nat → Option σ) : Prop where
  listed : ∀ {i j p s}, P i = some p → S j = some s → ¬ pending i j → T.Listed p j s
  keeps : ∀ {i p}, P i = some p → T.Keeps S p

def Room (T : Rendezvous π σ κ Q) (n : Nat) (P : Nat → Option π) (S : Nat → Option σ) : Prop :=
  ∀ i p, P i = some p → ∀ js : List Nat, js.Nodup →
    (∀ j ∈ js, ∃ s, S j = some s ∧ T.compatible p s = true) → js.length ≤ n

variable {T : Rendezvous π σ κ Q} {pending pending' : Nat → Nat → Prop}
  {P : Nat → Option π} {S : Nat → Option σ} {i j : Nat} {p p' : π} {s s' : σ}

theorem exists_indices {G : Nat → Prop} :
    ∀ qs : List Q, (∀ q ∈ qs, ∃ j, q = T.name j ∧ G j) →
      ∃ js : List Nat, qs = js.map T.name ∧ ∀ j ∈ js, G j := by
  intro qs
  induction qs with
  | nil =>
    intro _
    exact ⟨[], rfl, by simp⟩
  | cons q qs ih =>
    intro h
    obtain ⟨j, hq, hj⟩ := h q List.mem_cons_self
    obtain ⟨js, hqs, hjs⟩ := ih fun q hq => h q (List.mem_cons_of_mem _ hq)
    refine ⟨j :: js, by simp [hq, hqs], ?_⟩
    intro k hk
    obtain rfl | hk := List.mem_cons.mp hk
    · exact hj
    · exact hjs k hk

theorem Room.length_lt {n : Nat} (h : T.Room n P S) (hkeeps : T.Keeps S p) (hp : P i = some p)
    (hs : S j = some s) (hcomp : T.compatible p s = true) (hnew : T.name j ∉ T.queues p) :
    (T.queues p).length < n := by
  obtain ⟨js, hqs, hjs⟩ := exists_indices (T := T)
    (G := fun j => ∃ s, S j = some s ∧ T.compatible p s = true) (T.queues p) (by
      intro q hq
      obtain ⟨-, k, t, hname, ht, hc⟩ := hkeeps.2 q hq
      exact ⟨k, hname, t, ht, hc⟩)
  have hnodup : (j :: js).Nodup := by
    refine List.nodup_cons.mpr ⟨?_, ?_⟩
    · intro hmem
      apply hnew
      rw [hqs]
      exact List.mem_map_of_mem hmem
    · have := hkeeps.1
      rw [hqs] at this
      exact this.of_map
  have hlen := h i p hp (j :: js) hnodup (by
    intro k hk
    obtain rfl | hk := List.mem_cons.mp hk
    · exact ⟨s, hs, hcomp⟩
    · exact hjs k hk)
  rw [hqs, List.length_map]
  exact hlen

theorem Room.updateProvider {n : Nat} (h : T.Room n P S) (hp : P i = some p)
    (hcomp : ∀ s, T.compatible p' s = T.compatible p s) :
    T.Room n (Function.update P i (some p')) S := by
  intro k t hk js hnd hjs
  by_cases hki : k = i
  · subst hki
    simp only [Function.update_self, Option.some.injEq] at hk
    subst hk
    simp only [hcomp] at hjs
    exact h k p hp js hnd hjs
  · rw [Function.update_of_ne hki] at hk
    exact h k t hk js hnd hjs

theorem Room.updateConsumer {n : Nat} (h : T.Room n P S) (hs : S j = some s)
    (hsame : T.SameConsumer s s') : T.Room n P (Function.update S j (some s')) := by
  intro i p hp js hnd hjs
  refine h i p hp js hnd ?_
  intro k hk
  obtain ⟨t, ht, hc⟩ := hjs k hk
  by_cases hkj : k = j
  · subst hkj
    simp only [Function.update_self, Option.some.injEq] at ht
    subst ht
    exact ⟨s, hs, (hsame p).symm.trans hc⟩
  · rw [Function.update_of_ne hkj] at ht
    exact ⟨t, ht, hc⟩

theorem Room.eraseProvider {n : Nat} (h : T.Room n P S) (i : Nat) :
    T.Room n (Function.update P i none) S := by
  intro k t hk
  by_cases hki : k = i
  · subst hki
    simp at hk
  · rw [Function.update_of_ne hki] at hk
    exact h k t hk

theorem Room.eraseConsumer {n : Nat} (h : T.Room n P S) (j : Nat) :
    T.Room n P (Function.update S j none) := by
  intro i p hp js hnd hjs
  refine h i p hp js hnd ?_
  intro k hk
  obtain ⟨t, ht, hc⟩ := hjs k hk
  by_cases hkj : k = j
  · subst hkj
    simp at ht
  · rw [Function.update_of_ne hkj] at ht
    exact ⟨t, ht, hc⟩

theorem Keeps.nil (hq : T.queues p = []) : T.Keeps S p := by
  refine ⟨by simp [hq], ?_⟩
  simp [hq]

namespace Mesh

theorem empty : Mesh T pending (fun _ => none) (fun _ => none) where
  listed := by simp
  keeps := by simp

theorem mono (h : Mesh T pending P S) (himp : ∀ i j, pending i j → pending' i j) :
    Mesh T pending' P S where
  listed hp hs hnot := h.listed hp hs fun hpend => hnot (himp _ _ hpend)
  keeps := h.keeps

theorem updateProvider (h : Mesh T pending P S)
    (himp : ∀ k j, k ≠ i → pending k j → pending' k j)
    (hnew : ∀ j s, S j = some s → ¬ pending' i j → T.Listed p' j s)
    (hkeeps : T.Keeps S p') : Mesh T pending' (Function.update P i (some p')) S where
  listed := by
    intro k j t s hk hs hnot
    by_cases hki : k = i
    · subst hki
      simp only [Function.update_self, Option.some.injEq] at hk
      subst hk
      exact hnew j s hs hnot
    · rw [Function.update_of_ne hki] at hk
      exact h.listed hk hs fun hpend => hnot (himp k j hki hpend)
  keeps := by
    intro k t hk
    by_cases hki : k = i
    · subst hki
      simp only [Function.update_self, Option.some.injEq] at hk
      subst hk
      exact hkeeps
    · rw [Function.update_of_ne hki] at hk
      exact h.keeps hk

theorem keeps_update (hs : S j = some s) (hsame : T.SameConsumer s s') (h : T.Keeps S p) :
    T.Keeps (Function.update S j (some s')) p := by
  refine ⟨h.1, ?_⟩
  intro q hq
  obtain ⟨ho, k, t, hname, ht, hc⟩ := h.2 q hq
  by_cases hkj : k = j
  · subst hkj
    rw [hs] at ht
    cases ht
    exact ⟨ho, k, s', hname, by simp, (hsame p).trans hc⟩
  · exact ⟨ho, k, t, hname, by rw [Function.update_of_ne hkj]; exact ht, hc⟩

theorem updateConsumer (h : Mesh T pending P S) (hs : S j = some s)
    (hsame : T.SameConsumer s s') (himp : ∀ i k, k ≠ j → pending i k → pending' i k)
    (hnew : ∀ i p, P i = some p → ¬ pending' i j → T.Listed p j s') :
    Mesh T pending' P (Function.update S j (some s')) where
  listed := by
    intro i k p t hp hk hnot
    by_cases hkj : k = j
    · subst hkj
      simp only [Function.update_self, Option.some.injEq] at hk
      subst hk
      exact hnew i p hp hnot
    · rw [Function.update_of_ne hkj] at hk
      exact h.listed hp hk fun hpend => hnot (himp i k hkj hpend)
  keeps := fun hp => keeps_update hs hsame (h.keeps hp)

theorem setConsumer (h : Mesh T pending P S) (hs : S j = some s) (hsame : T.SameConsumer s s')
    (hconn : T.connected s' = T.connected s) :
    Mesh T pending P (Function.update S j (some s')) := by
  refine h.updateConsumer hs hsame (fun _ _ _ hp => hp) ?_
  intro i p hp hnot
  have hlisted := h.listed hp hs hnot
  simpa [Listed, hconn, hsame p] using hlisted

theorem setProvider (h : Mesh T pending P S) (hp : P i = some p)
    (hcomp : ∀ s, T.compatible p' s = T.compatible p s) (hq : T.queues p' = T.queues p)
    (hoff : T.offered p' = T.offered p) : Mesh T pending (Function.update P i (some p')) S := by
  refine h.updateProvider (fun _ _ _ hp => hp) ?_ ?_
  · intro j s hs hnot
    have hlisted := h.listed hp hs hnot
    simpa [Listed, hq, hoff, hcomp] using hlisted
  · have hkeeps := h.keeps hp
    simpa [Keeps, hq, hoff, hcomp] using hkeeps

theorem list (h : Mesh T pending P S) (hp : P i = some p) (hs : S j = some s)
    (hcomp : ∀ s, T.compatible p' s = T.compatible p s) (hoff : T.offered p' = T.offered p)
    (ho : T.offered p = true) (hconn : T.connected s = true) (hc : T.compatible p s = true)
    [DecidableEq Q]
    (hq : T.queues p' =
      if T.name j ∈ T.queues p then T.queues p else T.queues p ++ [T.name j])
    (himp : ∀ k l, ¬ (k = i ∧ l = j) → pending k l → pending' k l) :
    Mesh T pending' (Function.update P i (some p')) S := by
  have hmem : ∀ q, q ∈ T.queues p' ↔ q ∈ T.queues p ∨ q = T.name j := by
    intro q
    rw [hq]
    split
    · next hin =>
      constructor
      · exact Or.inl
      · rintro (h | rfl)
        · exact h
        · exact hin
    · simp
  refine h.updateProvider ?_ ?_ ?_
  · intro k l hki hpend
    exact himp k l (fun hk => hki hk.1) hpend
  · intro l t ht hnot
    by_cases hlj : l = j
    · subst hlj
      rw [hs] at ht
      cases ht
      simp [Listed, hmem, hoff, ho, hconn, hcomp, hc]
    · have hlisted := h.listed hp ht fun hpend => hnot (himp i l (fun hk => hlj hk.2) hpend)
      have hne : T.name l ≠ T.name j := fun hn => hlj (T.name_injective hn)
      simpa [Listed, hmem, hne, hoff, hcomp] using hlisted
  · refine ⟨?_, ?_⟩
    · rw [hq]
      split
      · exact (h.keeps hp).1
      · next hin => exact (h.keeps hp).1.append (List.nodup_singleton _) (by simpa using hin)
    · intro q hmq
      rw [hoff]
      refine ⟨ho, ?_⟩
      obtain hmq | rfl := (hmem q).mp hmq
      · obtain ⟨-, k, t, hname, ht, hct⟩ := (h.keeps hp).2 q hmq
        exact ⟨k, t, hname, ht, (hcomp t).trans hct⟩
      · exact ⟨j, s, rfl, hs, (hcomp s).trans hc⟩

theorem unlist (h : Mesh T pending P S) (hp : P i = some p) (hs : S j = some s)
    (hcomp : ∀ s, T.compatible p' s = T.compatible p s) (hoff : T.offered p' = T.offered p)
    (hconn : T.connected s = false) [DecidableEq Q]
    (hq : T.queues p' = (T.queues p).erase (T.name j))
    (himp : ∀ k l, ¬ (k = i ∧ l = j) → pending k l → pending' k l) :
    Mesh T pending' (Function.update P i (some p')) S := by
  refine h.updateProvider ?_ ?_ ?_
  · intro k l hki hpend
    exact himp k l (fun hk => hki hk.1) hpend
  · intro l t ht hnot
    by_cases hlj : l = j
    · subst hlj
      rw [hs] at ht
      cases ht
      simp [Listed, hconn, hq, (h.keeps hp).1.mem_erase_iff]
    · have hlisted := h.listed hp ht fun hpend => hnot (himp i l (fun hk => hlj hk.2) hpend)
      have hne : T.name l ≠ T.name j := fun hn => hlj (T.name_injective hn)
      simpa [Listed, hq, List.mem_erase_of_ne hne, hoff, hcomp] using hlisted
  · refine ⟨?_, ?_⟩
    · rw [hq]
      exact (h.keeps hp).1.erase _
    · intro q hmq
      rw [hq] at hmq
      obtain ⟨ho, k, t, hname, ht, hct⟩ := (h.keeps hp).2 q (List.mem_of_mem_erase hmq)
      exact ⟨hoff.trans ho, k, t, hname, ht, (hcomp t).trans hct⟩

theorem unmark (h : Mesh T pending P S)
    (himp : ∀ i j p s, pending i j → P i = some p → S j = some s →
      T.Listed p j s ∨ pending' i j) : Mesh T pending' P S where
  listed := by
    intro i j p s hp hs hnot
    by_cases hpend : pending i j
    · exact (himp i j p s hpend hp hs).resolve_right hnot
    · exact h.listed hp hs hpend
  keeps := h.keeps

theorem eraseProvider (h : Mesh T pending P S) (i : Nat) :
    Mesh T pending (Function.update P i none) S where
  listed := by
    intro k j p s hk hs hnot
    by_cases hki : k = i
    · subst hki
      simp at hk
    · rw [Function.update_of_ne hki] at hk
      exact h.listed hk hs hnot
  keeps := by
    intro k p hk
    by_cases hki : k = i
    · subst hki
      simp at hk
    · rw [Function.update_of_ne hki] at hk
      exact h.keeps hk

theorem keeps_of_ne (hfree : T.name j ∉ T.queues p) (hS : ∀ k, k ≠ j → ∀ t,
    S k = some t → (Function.update S j none) k = some t) (h : T.Keeps S p) :
    T.Keeps (Function.update S j none) p := by
  refine ⟨h.1, ?_⟩
  intro q hq
  obtain ⟨ho, k, t, hname, ht, hc⟩ := h.2 q hq
  have hkj : k ≠ j := by
    rintro rfl
    exact hfree (hname ▸ hq)
  exact ⟨ho, k, t, hname, hS k hkj t ht, hc⟩

theorem eraseConsumer (h : Mesh T pending P S)
    (hfree : ∀ i p, P i = some p → T.name j ∉ T.queues p) :
    Mesh T pending P (Function.update S j none) where
  listed := by
    intro i k p t hp hk hnot
    by_cases hkj : k = j
    · subst hkj
      simp at hk
    · rw [Function.update_of_ne hkj] at hk
      exact h.listed hp hk hnot
  keeps := by
    intro i p hp
    apply keeps_of_ne (hfree i p hp) _ (h.keeps hp)
    intro k hkj t ht
    rw [Function.update_of_ne hkj]
    exact ht

theorem insertProvider (h : Mesh T pending P S) (hq : T.queues p = [])
    (hoff : T.offered p = false) : Mesh T pending (Function.update P i (some p)) S := by
  refine h.updateProvider (fun _ _ _ hp => hp) ?_ (Keeps.nil hq)
  intro j s _ _
  simp [Listed, hq, hoff]

theorem insertConsumer (h : Mesh T pending P S) (hnone : S j = none)
    (hidle : T.connected s = false) : Mesh T pending P (Function.update S j (some s)) where
  listed := by
    intro i k p t hp hk hnot
    by_cases hkj : k = j
    · subst hkj
      simp only [Function.update_self, Option.some.injEq] at hk
      subst hk
      have hfree : T.name k ∉ T.queues p := by
        intro hmem
        obtain ⟨-, l, u, hname, hu, -⟩ := (h.keeps hp).2 _ hmem
        rw [← T.name_injective hname, hnone] at hu
        cases hu
      simp [Listed, hfree, hidle]
    · rw [Function.update_of_ne hkj] at hk
      exact h.listed hp hk hnot
  keeps := by
    intro i p hp
    refine ⟨(h.keeps hp).1, ?_⟩
    intro q hq
    obtain ⟨ho, k, t, hname, ht, hc⟩ := (h.keeps hp).2 q hq
    have hkj : k ≠ j := by
      rintro rfl
      simp [hnone] at ht
    exact ⟨ho, k, t, hname, by rw [Function.update_of_ne hkj]; exact ht, hc⟩

end Mesh

end Lib.Rendezvous
