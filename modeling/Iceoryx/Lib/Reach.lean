import Mathlib.Logic.Relation

universe u

namespace Lib

open Relation

variable {V : Type u} {r : V → V → Prop} {a b x y : V}

def AddEdge (r : V → V → Prop) (a b : V) : V → V → Prop := fun x y => r x y ∨ (x = a ∧ y = b)

def Acyclic (r : V → V → Prop) : Prop := ∀ x, ¬ TransGen r x x

theorem AddEdge.of_reflTransGen (h : ReflTransGen r x y) : ReflTransGen (AddEdge r a b) x y :=
  ReflTransGen.mono (fun _ _ => Or.inl) x y h

theorem transGen_addEdge :
    TransGen (AddEdge r a b) x y ↔
      TransGen r x y ∨ (ReflTransGen r x a ∧ ReflTransGen r b y) := by
  constructor
  · intro h
    induction h with
    | single hxy =>
      rcases hxy with hxy | ⟨rfl, rfl⟩
      · exact Or.inl (.single hxy)
      · exact Or.inr ⟨.refl, .refl⟩
    | tail _ hyz ih =>
      rcases hyz with hyz | ⟨rfl, rfl⟩
      · rcases ih with ih | ⟨hxa, hby⟩
        · exact Or.inl (ih.tail hyz)
        · exact Or.inr ⟨hxa, hby.tail hyz⟩
      · rcases ih with ih | ⟨hxa, _⟩
        · exact Or.inr ⟨ih.to_reflTransGen, .refl⟩
        · exact Or.inr ⟨hxa, .refl⟩
  · rintro (h | ⟨hxa, hby⟩)
    · exact TransGen.mono (fun _ _ => Or.inl) x y h
    · exact TransGen.trans_right (AddEdge.of_reflTransGen hxa)
        (TransGen.head' (Or.inr ⟨rfl, rfl⟩) (AddEdge.of_reflTransGen hby))

theorem acyclic_addEdge (h : Acyclic r) :
    Acyclic (AddEdge r a b) ↔ ¬ ReflTransGen r b a := by
  constructor
  · intro hacyclic hba
    exact hacyclic a (transGen_addEdge.mpr (Or.inr ⟨.refl, hba⟩))
  · intro hba x hx
    rcases transGen_addEdge.mp hx with hx | ⟨hxa, hbx⟩
    · exact h x hx
    · exact hba (hbx.trans hxa)

end Lib
