import Iceoryx.Hoofs.StorableFunction

universe u

namespace Iceoryx.Hoofs

open Lib

abbrev FunctionPlace := Option Nat

structure Functions (F G Tag : Type u) where
  function : FunctionPlace → Option (StorableFunction F G Tag) := fun _ => none
  objects : Objects := {}

inductive FunctionOp (F G A : Type u)
  | create (x : Nat)
  | storeFunctor (x : Nat) (functor : F)
  | ofFunction (x : Nat) (function : Option G)
  | copyConstruct (x y : Nat)
  | moveConstruct (x y : Nat)
  | copyAssign (x y : Nat)
  | moveAssign (x y : Nat)
  | swap (x y : Nat)
  | destroy (x : Nat)
  | call (x : Nat) (args : A)
  | holdsFunction (x : Nat)

inductive FunctionAnswer (R : Type u)
  | done
  | result (r : Option R)
  | stored (b : Bool)

namespace Functions

open StorableFunction

variable {F G Tag A R : Type u} (c : Callables F G Tag A R)

def set (x : FunctionPlace) (f : StorableFunction F G Tag) (m : Objects)
    (s : Functions F G Tag) : Functions F G Tag :=
  { function := Function.update s.function x (some f), objects := m }

def construct (x : FunctionPlace) (made : Option (StorableFunction F G Tag × Objects))
    (s : Functions F G Tag) : Option (Functions F G Tag) :=
  match s.function x with
  | none => made.map fun r => s.set x r.1 r.2
  | some _ => none

section

variable [DecidableEq Tag]

def copyConstruct (x y : FunctionPlace) (s : Functions F G Tag) : Option (Functions F G Tag) :=
  (s.function y).bind fun other => s.construct x (some (other.copyConstruct c s.objects))

def moveConstruct (x y : FunctionPlace) (s : Functions F G Tag) : Option (Functions F G Tag) :=
  (s.function y).bind fun other =>
    let (other, f, m) := other.moveConstruct c s.objects
    (s.construct x (some (f, m))).map (set y other m)

def copyAssign (x y : FunctionPlace) (s : Functions F G Tag) : Option (Functions F G Tag) :=
  (s.function x).bind fun f => (s.function y).map fun rhs =>
    if x = y then s
    else
      let (f, m) := f.copyAssign c rhs s.objects
      s.set x f m

def moveAssign (x y : FunctionPlace) (s : Functions F G Tag) : Option (Functions F G Tag) :=
  (s.function x).bind fun f => (s.function y).map fun rhs =>
    if x = y then s
    else
      let (rhs, f, m) := f.moveAssign c rhs s.objects
      (s.set x f m).set y rhs m

def destroy (x : FunctionPlace) (s : Functions F G Tag) : Option (Functions F G Tag) :=
  (s.function x).map fun f =>
    { function := Function.update s.function x none, objects := (f.destroy c s.objects).2 }

def swap (x y : FunctionPlace) (s : Functions F G Tag) : Option (Functions F G Tag) :=
  (s.moveConstruct c none y).bind fun s =>
    (s.moveAssign c y x).bind fun s =>
      (s.moveAssign c x none).bind fun s => s.destroy c none

def call (x : FunctionPlace) (args : A) (s : Functions F G Tag) :
    Option (FunctionAnswer R × Functions F G Tag) :=
  (s.function x).bind fun f => (f.call c args s.objects).map fun r =>
    (.result r.1, s.set x r.2.1 r.2.2)

def step (s : Functions F G Tag) :
    FunctionOp F G A → Option (FunctionAnswer R × Functions F G Tag)
  | .create x => (s.construct (some x) (some ({}, s.objects))).map (.done, ·)
  | .storeFunctor x functor =>
    (s.construct (some x) (StorableFunction.storeFunctor c functor {} s.objects)).map (.done, ·)
  | .ofFunction x function =>
    (s.construct (some x) (some (.ofFunction function, s.objects))).map (.done, ·)
  | .copyConstruct x y => (s.copyConstruct c (some x) (some y)).map (.done, ·)
  | .moveConstruct x y => (s.moveConstruct c (some x) (some y)).map (.done, ·)
  | .copyAssign x y => (s.copyAssign c (some x) (some y)).map (.done, ·)
  | .moveAssign x y => (s.moveAssign c (some x) (some y)).map (.done, ·)
  | .swap x y => (s.swap c (some x) (some y)).map (.done, ·)
  | .destroy x => (s.destroy c (some x)).map (.done, ·)
  | .call x args => s.call c (some x) args
  | .holdsFunction x => (s.function (some x)).map fun f => (.stored !f.empty, s)

end

abbrev Values (F G : Type u) := Nat → Option (Option (F ⊕ G))

def invokeValue (c : Callables F G Tag A R) : F ⊕ G → A → R × (F ⊕ G)
  | .inl v, args => ((c.invoke v args).1, .inl (c.invoke v args).2)
  | .inr g, args => (c.code g args, .inr g)

def constructValue (x : Nat) (v : Option (F ⊕ G)) (t : Values F G) : Option (Values F G) :=
  match t x with
  | none => some (Function.update t x (some v))
  | some _ => none

def valueStep (c : Callables F G Tag A R) (t : Values F G) :
    FunctionOp F G A → Option (FunctionAnswer R × Values F G)
  | .create x => (constructValue x none t).map (.done, ·)
  | .storeFunctor x functor => (constructValue x (some (.inl functor)) t).map (.done, ·)
  | .ofFunction x function => (constructValue x (function.map .inr) t).map (.done, ·)
  | .copyConstruct x y => (t y).bind fun v => (constructValue x v t).map (.done, ·)
  | .moveConstruct x y =>
    (t y).bind fun v => (constructValue x v t).map fun t =>
      (.done, Function.update t y (some none))
  | .copyAssign x y =>
    (t x).bind fun _ => (t y).map fun w => (.done, Function.update t x (some w))
  | .moveAssign x y =>
    (t x).bind fun _ => (t y).map fun w =>
      (.done, if x = y then t else Function.update (Function.update t x (some w)) y (some none))
  | .swap x y =>
    (t x).bind fun v => (t y).map fun w =>
      (.done, Function.update (Function.update t x (some w)) y (some v))
  | .destroy x => (t x).map fun _ => (.done, Function.update t x none)
  | .call x args =>
    (t x).join.map fun v =>
      (.result (some (invokeValue c v args).1),
        Function.update t x (some (some (invokeValue c v args).2)))
  | .holdsFunction x => (t x).map fun v => (.stored v.isSome, t)

/-- No function that still points to something is assigned an emptied one with the operations
of a functor. -/
def Admissible (s : Functions F G Tag) : FunctionOp F G A → Prop
  | .copyAssign x y | .moveAssign x y =>
    x = y ∨ ∀ f rhs, s.function (some x) = some f → s.function (some y) = some rhs →
      assignable f rhs = true
  | .swap x y =>
    ∀ f g, s.function (some x) = some f → s.function (some y) = some g → swappable f g = true
  | _ => True

abbrev Shapes (F G Tag : Type u) := FunctionPlace → Option (Shape F G Tag)

namespace Shapes

def holds (shapes : Shapes F G Tag) : FunctionPlace → Option Nat :=
  fun x => (shapes x).bind Shape.object

def functions (shapes : Shapes F G Tag) : FunctionPlace → Option (StorableFunction F G Tag) :=
  fun x => (shapes x).map (Shape.toFunction c)

def values (shapes : Shapes F G Tag) : Values F G := fun x => (shapes (some x)).map Shape.content

variable {shapes : Shapes F G Tag} {x : FunctionPlace} {sh : Option (Shape F G Tag)}

theorem holds_update : holds (Function.update shapes x sh) =
    Function.update shapes.holds x (sh.bind Shape.object) := by
  funext y
  rcases eq_or_ne y x with rfl | hne
  · simp [holds]
  · simp [holds, hne]

theorem functions_update : functions c (Function.update shapes x sh) =
    Function.update (functions c shapes) x (sh.map (Shape.toFunction c)) := by
  funext y
  rcases eq_or_ne y x with rfl | hne
  · simp [functions]
  · simp [functions, hne]

theorem values_update {n : Nat} : values (Function.update shapes (some n) sh) =
    Function.update (values shapes) n (sh.map Shape.content) := by
  funext y
  rcases eq_or_ne y n with rfl | hne
  · simp [values]
  · have : some y ≠ some n := by simpa using hne
    simp [values, hne, this]

theorem values_of {n : Nat} (h : shapes (some n) = sh) :
    shapes.values n = sh.map Shape.content := by
  rw [values, h]

theorem values_update_none : values (Function.update shapes none sh) = values shapes := by
  funext y
  simp [values]

end Shapes

structure Realizes (shapes : Shapes F G Tag) (s : Functions F G Tag) : Prop where
  function : s.function = shapes.functions c
  books : Ledger.Books shapes.holds s.objects.toLedger
  faults : s.objects.faults = 0

namespace Realizes

variable {c} {shapes : Shapes F G Tag} {s : Functions F G Tag} {x y : FunctionPlace}
  {sh sh' : Shape F G Tag}

theorem at_eq (h : Realizes c shapes s) (x : FunctionPlace) :
    s.function x = (shapes x).map (Shape.toFunction c) := congrFun h.function x

theorem books_grown {holds : FunctionPlace → Option Nat} {m : Objects} {p : Callable G}
    (h : Ledger.Books holds m.toLedger) (hx : holds x = none) (sh : Shape F G Tag) :
    Ledger.Books (Function.update holds x (sh.placed m.next p).object)
      (sh.grown m).toLedger := by
  cases sh with
  | functor id v => exact h.create hx
  | _ =>
    simp only [Shape.placed, Shape.object, Shape.grown]
    rw [← hx, Function.update_eq_self]
    exact h

theorem grown_faults (sh : Shape F G Tag) (m : Objects) : (sh.grown m).faults = m.faults := by
  cases sh <;> rfl

theorem construct_some (h : Realizes c shapes s) (hx : shapes x = none)
    (made : StorableFunction F G Tag × Objects) :
    s.construct x (some made) = some (s.set x made.1 made.2) := by
  rw [construct, h.at_eq, hx]
  rfl

theorem books_moved {holds : FunctionPlace → Option Nat} {m : Objects} {p : Callable G}
    (h : Ledger.Books holds m.toLedger) (hx : holds x = none) (hy : holds y = sh.object)
    (hne : x ≠ y) :
    Ledger.Books (Function.update (Function.update holds x (sh.placed m.next p).object) y none)
      ((sh.grown m).bury sh.object).toLedger := by
  have hclear := (books_grown (p := p) h hx sh).clear y
  rw [Function.update_of_ne hne.symm, hy] at hclear
  exact hclear

theorem assignable_left (h : swappable (sh.toFunction c) (sh'.toFunction c) = true) :
    assignable ((sh'.left c).toFunction c) (sh.toFunction c) = true := by
  cases sh with
  | vacated tag =>
    cases sh' with
    | blank p =>
      cases p with
      | null => rfl
      | _ => cases h
    | _ => rfl
  | _ => cases sh' <;> rfl

theorem assignable_placed (id : Nat)
    (h : swappable (sh.toFunction c) (sh'.toFunction c) = true) :
    assignable ((sh.left c).toFunction c) ((sh'.placed id .null).toFunction c) = true := by
  cases sh' with
  | vacated tag =>
    cases sh with
    | blank p =>
      cases p with
      | null => rfl
      | _ => cases h
    | _ => rfl
  | _ => cases sh <;> rfl

variable [DecidableEq Tag]

theorem copyConstruct (h : Realizes c shapes s) (hx : shapes x = none)
    (hy : shapes y = some sh) : ∃ s', s.copyConstruct c x y = some s' ∧
      Realizes c (Function.update shapes x (some (sh.placed s.objects.next .null))) s' := by
  refine ⟨s.set x ((sh.placed s.objects.next .null).toFunction c) (sh.grown s.objects), ?_, ?_⟩
  · rw [Functions.copyConstruct, h.at_eq, hy, Option.map_some, Option.bind_some,
      copyConstruct_toFunction, h.construct_some hx]
  · refine ⟨?_, ?_, ?_⟩
    · rw [set, Shapes.functions_update, h.function]
      rfl
    · rw [Shapes.holds_update]
      exact books_grown h.books (by rw [Shapes.holds, hx]; rfl) sh
    · exact (grown_faults sh _).trans h.faults

theorem destroy (h : Realizes c shapes s) (hx : shapes x = some sh) :
    ∃ s', s.destroy c x = some s' ∧ Realizes c (Function.update shapes x none) s' := by
  refine ⟨{ function := Function.update s.function x none
            objects := s.objects.bury sh.object }, ?_, ?_⟩
  · rw [Functions.destroy, h.at_eq, hx, Option.map_some, Option.map_some, destroy_toFunction]
  · refine ⟨?_, ?_, h.faults⟩
    · rw [Shapes.functions_update, h.function]
      rfl
    · rw [Shapes.holds_update]
      have hclear := h.books.clear x
      rw [Shapes.holds, hx] at hclear
      exact hclear

theorem copyAssign (h : Realizes c shapes s) (hx : shapes x = some sh)
    (hy : shapes y = some sh') (hne : x ≠ y)
    (ha : assignable (sh.toFunction c) (sh'.toFunction c) = true) :
    ∃ s', s.copyAssign c x y = some s' ∧ Realizes c
      (Function.update shapes x (some (sh'.placed s.objects.next sh.callable))) s' := by
  refine ⟨s.set x ((sh'.placed s.objects.next sh.callable).toFunction c)
    (sh'.grown (s.objects.bury sh.object)), ?_, ?_⟩
  · rw [Functions.copyAssign, h.at_eq, h.at_eq, hx, hy, Option.map_some, Option.bind_some,
      Option.map_some, Option.map_some, if_neg hne, copyAssign_toFunction ha]
  · have hclear := h.books.clear x
    rw [Shapes.holds, hx] at hclear
    refine ⟨?_, ?_, ?_⟩
    · rw [set, Shapes.functions_update, h.function]
      rfl
    · rw [Shapes.holds_update]
      have hgrown := books_grown (x := x) (m := s.objects.bury sh.object) (p := sh.callable)
        hclear (Function.update_self ..) sh'
      rwa [Function.update_idem] at hgrown
    · exact (grown_faults sh' _).trans h.faults

theorem moveConstruct (h : Realizes c shapes s) (hx : shapes x = none)
    (hy : shapes y = some sh) : ∃ s', s.moveConstruct c x y = some s' ∧
      Realizes c (Function.update
        (Function.update shapes x (some (sh.placed s.objects.next .null))) y
        (some (sh.left c))) s' := by
  have hne : x ≠ y := by
    rintro rfl
    rw [hx] at hy
    cases hy
  refine ⟨(s.set x ((sh.placed s.objects.next .null).toFunction c)
    ((sh.grown s.objects).bury sh.object)).set y ((sh.left c).toFunction c)
    ((sh.grown s.objects).bury sh.object), ?_, ?_⟩
  · rw [Functions.moveConstruct, h.at_eq, hy, Option.map_some, Option.bind_some,
      moveConstruct_toFunction]
    simp only
    rw [h.construct_some hx, Option.map_some]
  · refine ⟨?_, ?_, ?_⟩
    · rw [set, set, Shapes.functions_update, Shapes.functions_update, h.function]
      rfl
    · rw [Shapes.holds_update, Shapes.holds_update, Option.bind_some, Option.bind_some,
        Shape.object_left]
      exact books_moved h.books (by rw [Shapes.holds, hx]; rfl) (by rw [Shapes.holds, hy]; rfl) hne
    · exact (grown_faults sh _).trans h.faults

theorem moveAssign (h : Realizes c shapes s) (hx : shapes x = some sh)
    (hy : shapes y = some sh') (hne : x ≠ y)
    (ha : assignable (sh.toFunction c) (sh'.toFunction c) = true) :
    ∃ s', s.moveAssign c x y = some s' ∧ Realizes c
      (Function.update
        (Function.update shapes x (some (sh'.placed s.objects.next sh.callable))) y
        (some (sh'.left c))) s' := by
  refine ⟨(s.set x ((sh'.placed s.objects.next sh.callable).toFunction c)
    ((sh'.grown (s.objects.bury sh.object)).bury sh'.object)).set y ((sh'.left c).toFunction c)
    ((sh'.grown (s.objects.bury sh.object)).bury sh'.object), ?_, ?_⟩
  · rw [Functions.moveAssign, h.at_eq, h.at_eq, hx, hy, Option.map_some, Option.bind_some,
      Option.map_some, Option.map_some, if_neg hne, moveAssign_toFunction ha]
  · have hclear := h.books.clear x
    rw [Shapes.holds, hx] at hclear
    refine ⟨?_, ?_, ?_⟩
    · rw [set, set, Shapes.functions_update, Shapes.functions_update, h.function]
      rfl
    · rw [Shapes.holds_update, Shapes.holds_update, Option.bind_some, Option.bind_some,
        Shape.object_left]
      have hy' : Function.update (Shapes.holds shapes) x none y = sh'.object := by
        rw [Function.update_of_ne hne.symm, Shapes.holds, hy]
        rfl
      have hmoved := books_moved (m := s.objects.bury sh.object) (p := sh.callable) hclear
        (Function.update_self ..) hy' hne
      rwa [Function.update_idem] at hmoved
    · exact (grown_faults sh' _).trans h.faults

theorem swap (h : Realizes c shapes s) (hnone : shapes none = none) {x y : Nat}
    (hx : shapes (some x) = some sh) (hy : shapes (some y) = some sh')
    (ha : swappable (sh.toFunction c) (sh'.toFunction c) = true) :
    ∃ s' shapes', s.swap c (some x) (some y) = some s' ∧ Realizes c shapes' s' ∧
      shapes' none = none ∧ shapes'.values =
        Function.update (Function.update shapes.values x (some sh'.content)) y
          (some sh.content) := by
  have hlocal : (some y : FunctionPlace) ≠ none := by simp
  have hlocal' : (some x : FunctionPlace) ≠ none := by simp
  obtain ⟨s₁, hs₁, h₁⟩ := h.moveConstruct hnone hy
  rcases eq_or_ne x y with rfl | hne
  · -- The assignment in the middle is one to itself.
    rw [hx] at hy
    cases hy
    have hx₁ : Function.update (Function.update shapes none
        (some (sh.placed s.objects.next .null))) (some x) (some (sh.left c)) (some x) =
        some (sh.left c) := Function.update_self ..
    have hself : s₁.moveAssign c (some x) (some x) = some s₁ := by
      rw [Functions.moveAssign, h₁.at_eq, hx₁, Option.map_some, Option.bind_some,
        Option.map_some, if_pos rfl]
    obtain ⟨s₂, hs₂, h₂⟩ := h₁.moveAssign hx₁
      (by rw [Function.update_of_ne hlocal'.symm, Function.update_self]) hlocal'
      (assignable_placed _ ha)
    obtain ⟨s₃, hs₃, h₃⟩ := h₂.destroy (Function.update_self ..)
    refine ⟨s₃, _, ?_, h₃, Function.update_self .., ?_⟩
    · rw [Functions.swap, hs₁, Option.bind_some, hself, Option.bind_some, hs₂, Option.bind_some,
        hs₃]
    · simp only [Shapes.values_update_none, Shapes.values_update, Option.map_some,
        Shape.content_placed, Function.update_idem]
  · have hne' : (some x : FunctionPlace) ≠ some y := by simpa using hne
    obtain ⟨s₂, hs₂, h₂⟩ := h₁.moveAssign (Function.update_self ..)
      (by rw [Function.update_of_ne hne', Function.update_of_ne hlocal', hx]) hne'.symm
      (assignable_left ha)
    obtain ⟨s₃, hs₃, h₃⟩ := h₂.moveAssign (Function.update_self ..)
      (by rw [Function.update_of_ne hlocal'.symm, Function.update_of_ne hlocal.symm,
        Function.update_of_ne hlocal.symm, Function.update_self]) hlocal'
      (assignable_placed _ ha)
    obtain ⟨s₄, hs₄, h₄⟩ := h₃.destroy (Function.update_self ..)
    refine ⟨s₄, _, ?_, h₄, Function.update_self .., ?_⟩
    · rw [Functions.swap, hs₁, Option.bind_some, hs₂, Option.bind_some, hs₃, Option.bind_some,
        hs₄]
    · simp only [Shapes.values_update_none, Shapes.values_update, Option.map_some,
        Shape.content_placed, Function.update_idem]
      rw [Function.update_comm hne]

end Realizes

def Related (s : Functions F G Tag) (t : Values F G) : Prop :=
  ∃ shapes, Realizes c shapes s ∧ shapes none = none ∧ shapes.values = t

def Agree (r : Option (FunctionAnswer R × Functions F G Tag))
    (v : Option (FunctionAnswer R × Values F G)) : Prop :=
  match v with
  | none => r = none
  | some (a, t) => ∃ s, r = some (a, s) ∧ Related c s t

section

variable {c} {shapes : Shapes F G Tag} {s : Functions F G Tag} {x y : Nat}

theorem agree_construct (h : Realizes c shapes s) (hnone : shapes none = none)
    (sh : Shape F G Tag) {m : Objects}
    (hbooks : shapes (some x) = none →
      Ledger.Books (Function.update shapes.holds (some x) sh.object) m.toLedger)
    (hfaults : m.faults = 0) :
    Agree (R := R) c ((s.construct (some x) (some (sh.toFunction c, m))).map (.done, ·))
      ((constructValue x sh.content shapes.values).map (.done, ·)) := by
  cases hx : shapes (some x) with
  | none =>
    have hvalue := Shapes.values_of hx
    rw [h.construct_some hx, constructValue, hvalue]
    refine ⟨_, rfl, Function.update shapes (some x) (some sh), ⟨?_, ?_, hfaults⟩, ?_, ?_⟩
    · rw [set, Shapes.functions_update, h.function]
      rfl
    · rw [Shapes.holds_update]
      exact hbooks hx
    · rw [Function.update_of_ne (by simp), hnone]
    · rw [Shapes.values_update]
      rfl
  | some sh' =>
    have hvalue := Shapes.values_of hx
    rw [construct, h.at_eq, hx, constructValue, hvalue]
    rfl

theorem agree_construct_empty (h : Realizes c shapes s) (hnone : shapes none = none)
    (sh : Shape F G Tag) (hobject : sh.object = none) :
    Agree (R := R) c ((s.construct (some x) (some (sh.toFunction c, s.objects))).map (.done, ·))
      ((constructValue x sh.content shapes.values).map (.done, ·)) := by
  refine agree_construct h hnone sh (fun hx => ?_) h.faults
  have hholds : shapes.holds (some x) = none := by rw [Shapes.holds, hx]; rfl
  rw [hobject, ← hholds, Function.update_eq_self]
  exact h.books

theorem related_start : Related c ({} : Functions F G Tag) fun _ => none := by
  refine ⟨fun _ => none, ⟨rfl, Ledger.Books.start, rfl⟩, rfl, rfl⟩

variable [DecidableEq Tag]

theorem agree_storeFunctor (h : Realizes c shapes s) (hnone : shapes none = none) (v : F) :
    Agree c (s.step c (.storeFunctor x v : FunctionOp F G A))
      (valueStep c shapes.values (.storeFunctor x v)) := by
  refine agree_construct h hnone (.functor s.objects.next v) (m := s.objects.create)
    (fun hx => h.books.create ?_) h.faults
  rw [Shapes.holds, hx]
  rfl

theorem agree_ofFunction (h : Realizes c shapes s) (hnone : shapes none = none)
    (function : Option G) : Agree c (s.step c (.ofFunction x function : FunctionOp F G A))
      (valueStep c shapes.values (.ofFunction x function)) := by
  cases function with
  | none => exact agree_construct_empty h hnone (.blank .null) rfl
  | some g => exact agree_construct_empty h hnone (.free g) rfl

theorem agree_copyConstruct (h : Realizes c shapes s) (hnone : shapes none = none) :
    Agree c (s.step c (.copyConstruct x y : FunctionOp F G A))
      (valueStep c shapes.values (.copyConstruct x y)) := by
  rw [step, valueStep]
  cases hy : shapes (some y) with
  | none =>
    have hvalue := Shapes.values_of hy
    rw [Functions.copyConstruct, h.at_eq, hy, hvalue]
    rfl
  | some sh =>
    have hvalue := Shapes.values_of hy
    rw [hvalue, Option.map_some, Option.bind_some]
    cases hx : shapes (some x) with
    | none =>
      have hvalue := Shapes.values_of hx
      obtain ⟨s', hs', h'⟩ := h.copyConstruct hx hy
      rw [hs', constructValue, hvalue]
      refine ⟨s', rfl, _, h', ?_, ?_⟩
      · rw [Function.update_of_ne (by simp), hnone]
      · rw [Shapes.values_update, Option.map_some, Shape.content_placed]
    | some sh' =>
      have hvalue := Shapes.values_of hx
      rw [constructValue, hvalue, Functions.copyConstruct, h.at_eq, hy, Option.map_some,
        Option.bind_some, construct, h.at_eq, hx]
      rfl

theorem agree_moveConstruct (h : Realizes c shapes s) (hnone : shapes none = none) :
    Agree c (s.step c (.moveConstruct x y : FunctionOp F G A))
      (valueStep c shapes.values (.moveConstruct x y)) := by
  rw [step, valueStep]
  cases hy : shapes (some y) with
  | none =>
    have hvalue := Shapes.values_of hy
    rw [Functions.moveConstruct, h.at_eq, hy, hvalue]
    rfl
  | some sh =>
    have hvalue := Shapes.values_of hy
    rw [hvalue, Option.map_some, Option.bind_some]
    cases hx : shapes (some x) with
    | none =>
      have hvalue := Shapes.values_of hx
      obtain ⟨s', hs', h'⟩ := h.moveConstruct hx hy
      rw [hs', constructValue, hvalue]
      refine ⟨s', rfl, _, h', ?_, ?_⟩
      · rw [Function.update_of_ne (by simp), Function.update_of_ne (by simp), hnone]
      · rw [Shapes.values_update, Shapes.values_update, Option.map_some, Option.map_some,
          Shape.content_placed, Shape.content_left]
    | some sh' =>
      have hvalue := Shapes.values_of hx
      rw [constructValue, hvalue, Functions.moveConstruct, h.at_eq, hy, Option.map_some,
        Option.bind_some]
      simp only [construct, h.at_eq, hx, Option.map_some, Option.map_none]
      rfl

theorem agree_copyAssign (h : Realizes c shapes s) (hnone : shapes none = none)
    (ha : Admissible s (.copyAssign x y : FunctionOp F G A)) :
    Agree c (s.step c (.copyAssign x y : FunctionOp F G A))
      (valueStep c shapes.values (.copyAssign x y)) := by
  rw [step, valueStep]
  cases hx : shapes (some x) with
  | none =>
    rw [Shapes.values_of hx, Functions.copyAssign, h.at_eq, hx]
    rfl
  | some sh =>
    cases hy : shapes (some y) with
    | none =>
      rw [Shapes.values_of hx, Shapes.values_of hy, Functions.copyAssign, h.at_eq, h.at_eq, hx,
        hy]
      rfl
    | some sh' =>
      have hvx := Shapes.values_of hx
      have hvy := Shapes.values_of hy
      rw [hvx, hvy]
      rcases eq_or_ne x y with rfl | hne
      · rw [hx] at hy
        cases hy
        refine ⟨s, ?_, shapes, h, hnone, ?_⟩
        · rw [Functions.copyAssign, h.at_eq, hx, Option.map_some, Option.bind_some,
            Option.map_some, if_pos rfl]
          rfl
        · rw [← Option.map_some, ← hvx, Function.update_eq_self]
      · obtain ⟨s', hs', h'⟩ := h.copyAssign hx hy (by simpa using hne)
          (ha.resolve_left hne _ _ (by rw [h.at_eq, hx]; rfl) (by rw [h.at_eq, hy]; rfl))
        rw [hs']
        refine ⟨s', rfl, _, h', ?_, ?_⟩
        · rw [Function.update_of_ne (by simp), hnone]
        · rw [Shapes.values_update, Option.map_some, Shape.content_placed]

theorem agree_moveAssign (h : Realizes c shapes s) (hnone : shapes none = none)
    (ha : Admissible s (.moveAssign x y : FunctionOp F G A)) :
    Agree c (s.step c (.moveAssign x y : FunctionOp F G A))
      (valueStep c shapes.values (.moveAssign x y)) := by
  rw [step, valueStep]
  cases hx : shapes (some x) with
  | none =>
    rw [Shapes.values_of hx, Functions.moveAssign, h.at_eq, hx]
    rfl
  | some sh =>
    cases hy : shapes (some y) with
    | none =>
      rw [Shapes.values_of hx, Shapes.values_of hy, Functions.moveAssign, h.at_eq, h.at_eq, hx,
        hy]
      rfl
    | some sh' =>
      rw [Shapes.values_of hx, Shapes.values_of hy]
      rcases eq_or_ne x y with rfl | hne
      · refine ⟨s, ?_, shapes, h, hnone, (if_pos rfl).symm⟩
        rw [Functions.moveAssign, h.at_eq, hx, Option.map_some, Option.bind_some,
          Option.map_some, if_pos rfl]
        rfl
      · obtain ⟨s', hs', h'⟩ := h.moveAssign hx hy (by simpa using hne)
          (ha.resolve_left hne _ _ (by rw [h.at_eq, hx]; rfl) (by rw [h.at_eq, hy]; rfl))
        rw [hs']
        simp only [Option.map_some, Option.bind_some, if_neg hne]
        refine ⟨s', rfl, _, h', ?_, ?_⟩
        · rw [Function.update_of_ne (by simp), Function.update_of_ne (by simp), hnone]
        · rw [Shapes.values_update, Shapes.values_update, Option.map_some, Option.map_some,
            Shape.content_placed, Shape.content_left]

theorem agree_swap (h : Realizes c shapes s) (hnone : shapes none = none)
    (ha : Admissible s (.swap x y : FunctionOp F G A)) :
    Agree c (s.step c (.swap x y : FunctionOp F G A))
      (valueStep c shapes.values (.swap x y)) := by
  rw [step, valueStep]
  cases hy : shapes (some y) with
  | none =>
    rw [Shapes.values_of hy, Functions.swap, Functions.moveConstruct, h.at_eq, hy]
    cases shapes.values x <;> rfl
  | some sh' =>
    cases hx : shapes (some x) with
    | none =>
      obtain ⟨s₁, hs₁, h₁⟩ := h.moveConstruct hnone hy
      have hne : (some x : FunctionPlace) ≠ some y := by
        rintro heq
        rw [heq, hy] at hx
        cases hx
      have hx₁ : Function.update (Function.update shapes none
          (some (sh'.placed s.objects.next .null))) (some y) (some (sh'.left c)) (some x) =
          none := by
        rw [Function.update_of_ne hne, Function.update_of_ne (by simp), hx]
      rw [Shapes.values_of hx, Functions.swap, hs₁, Option.bind_some, Functions.moveAssign,
        h₁.at_eq, h₁.at_eq, hx₁, Function.update_self]
      rfl
    | some sh =>
      obtain ⟨s', shapes', hs', h', hnone', hvalues⟩ := h.swap hnone hx hy
        (ha _ _ (by rw [h.at_eq, hx]; rfl) (by rw [h.at_eq, hy]; rfl))
      rw [hs', Shapes.values_of hx, Shapes.values_of hy]
      exact ⟨s', rfl, shapes', h', hnone', hvalues⟩

theorem agree_destroy (h : Realizes c shapes s) (hnone : shapes none = none) :
    Agree c (s.step c (.destroy x : FunctionOp F G A))
      (valueStep c shapes.values (.destroy x)) := by
  rw [step, valueStep]
  cases hx : shapes (some x) with
  | none =>
    rw [Shapes.values_of hx, Functions.destroy, h.at_eq, hx]
    rfl
  | some sh =>
    obtain ⟨s', hs', h'⟩ := h.destroy hx
    rw [hs', Shapes.values_of hx]
    refine ⟨s', rfl, _, h', ?_, ?_⟩
    · rw [Function.update_of_ne (by simp), hnone]
    · rw [Shapes.values_update]
      rfl

theorem agree_call (h : Realizes c shapes s) (hnone : shapes none = none) (args : A) :
    Agree c (s.step c (.call x args)) (valueStep c shapes.values (.call x args)) := by
  rw [step, valueStep]
  cases hx : shapes (some x) with
  | none =>
    rw [Shapes.values_of hx, Functions.call, h.at_eq, hx]
    rfl
  | some sh =>
    rw [Shapes.values_of hx, Functions.call, h.at_eq, hx, Option.map_some, Option.bind_some]
    cases sh with
    | functor id v =>
      -- The called functor stays in its storage, with what the call made of it.
      refine ⟨s.set (some x) ((Shape.functor id (c.invoke v args).2).toFunction c) s.objects, ?_,
        Function.update shapes (some x) (some (.functor id (c.invoke v args).2)),
        ⟨?_, ?_, h.faults⟩, ?_, ?_⟩
      · simp [StorableFunction.call, Shape.toFunction, Shape.invoker, Shape.callable,
          Shape.storage, Shape.operations, c.kind_invoke, invokeValue]
      · rw [set, Shapes.functions_update, h.function]
        rfl
      · have hholds : shapes.holds (some x) = some id := by rw [Shapes.holds, hx]; rfl
        rw [Shapes.holds_update, Option.bind_some, Shape.object, ← hholds,
          Function.update_eq_self]
        exact h.books
      · rw [Function.update_of_ne (by simp), hnone]
      · rw [Shapes.values_update]
        rfl
    | free g =>
      refine ⟨s.set (some x) ((Shape.free g).toFunction c) s.objects, rfl,
        Function.update shapes (some x) (some (.free g)), ⟨?_, ?_, h.faults⟩, ?_, ?_⟩
      · rw [set, Shapes.functions_update, h.function]
        rfl
      · rw [← hx, Function.update_eq_self]
        exact h.books
      · rw [Function.update_of_ne (by simp), hnone]
      · rw [Shapes.values_update]
        rfl
    | _ => rfl

theorem agree_step (h : Realizes c shapes s) (hnone : shapes none = none) (op : FunctionOp F G A)
    (ha : Admissible s op) : Agree c (s.step c op) (valueStep c shapes.values op) := by
  cases op with
  | create x => exact agree_construct_empty h hnone (.blank .null) rfl
  | storeFunctor x functor => exact agree_storeFunctor h hnone functor
  | ofFunction x function => exact agree_ofFunction h hnone function
  | copyConstruct x y => exact agree_copyConstruct h hnone
  | moveConstruct x y => exact agree_moveConstruct h hnone
  | copyAssign x y => exact agree_copyAssign h hnone ha
  | moveAssign x y => exact agree_moveAssign h hnone ha
  | swap x y => exact agree_swap h hnone ha
  | destroy x => exact agree_destroy h hnone
  | call x args => exact agree_call h hnone args
  | holdsFunction x =>
    rw [step, valueStep, h.at_eq]
    cases hx : shapes (some x) with
    | none =>
      rw [Shapes.values_of hx]
      rfl
    | some sh =>
      rw [Shapes.values_of hx]
      refine ⟨s, ?_, shapes, h, hnone, rfl⟩
      cases sh <;> rfl

theorem simulates_values :
    Simulates (step c) (valueStep c) Admissible (Related (F := F) (G := G) c) := by
  rintro s _ op out t' ⟨shapes, h, hnone, rfl⟩ ha hvalue
  have hagree := agree_step h hnone op ha
  rw [hvalue] at hagree
  exact hagree

end

def value (f : StorableFunction F G Tag) : Option (F ⊕ G) :=
  match f.invoker, f.callable, f.storage.object with
  | some (.functor _), .storage, some (_, v) => some (.inl v)
  | some .free, .code g, _ => some (.inr g)
  | _, _, _ => none

@[simp] theorem value_toFunction (sh : Shape F G Tag) : value (sh.toFunction c) = sh.content := by
  cases sh <;> rfl

theorem of_not_assignable {sh sh' : Shape F G Tag}
    (h : ¬ assignable (sh.toFunction c) (sh'.toFunction c) = true) :
    sh.callable ≠ .null ∧ ∃ tag, sh' = .vacated tag := by
  cases sh' with
  | vacated tag =>
    refine ⟨fun hnull => h ?_, tag, rfl⟩
    simp only [assignable, pointsNowhere, Shape.toFunction, hnull, Bool.or_true]
  | _ => exact absurd rfl h

theorem of_not_swappable {sh sh' : Shape F G Tag}
    (h : ¬ swappable (sh.toFunction c) (sh'.toFunction c) = true) :
    ∃ p tag, p ≠ .null ∧
      (sh = .vacated tag ∧ sh' = .blank p ∨ sh = .blank p ∧ sh' = .vacated tag) := by
  cases sh with
  | blank p =>
    cases sh' with
    | vacated tag =>
      refine ⟨p, tag, ?_, Or.inr ⟨rfl, rfl⟩⟩
      rintro rfl
      exact h rfl
    | _ => exact absurd rfl h
  | vacated tag =>
    cases sh' with
    | blank p =>
      refine ⟨p, tag, ?_, Or.inl ⟨rfl, rfl⟩⟩
      rintro rfl
      exact h rfl
    | _ => exact absurd rfl h
  | _ => cases sh' <;> exact absurd rfl h

variable [DecidableEq Tag]

/-- As long as no emptied functor is assigned to a function that still points to something,
functions behave like values: a copy calls an equal callable, a move takes it along and leaves
nothing. -/
theorem functions_are_values (ops : List (FunctionOp F G A)) {outs : List (FunctionAnswer R)}
    {t : Values F G} (hspec : runOps (valueStep c) (fun _ => none) ops = some (outs, t))
    (hadmits : Admits (step c) Admissible {} ops) :
    ∃ s, runOps (step c) {} ops = some (outs, s) ∧
      ∀ x, t x = (s.function (some x)).map value := by
  obtain ⟨s, hs, shapes, h, -, rfl⟩ :=
    simulates_values.run ops {} _ t outs related_start hadmits hspec
  refine ⟨s, hs, fun x => ?_⟩
  rw [h.at_eq, Option.map_map, Shapes.values]
  exact congrArg (fun f => Option.map f _) (funext fun sh => (value_toFunction c sh).symm)

def holds (s : Functions F G Tag) : FunctionPlace → Option Nat :=
  fun x => (s.function x).bind fun f => f.storage.object.map Prod.fst

/-- Every object is in the storage of one function or was destroyed once, nothing else was
accessed as an object, and no destructor of a function is going to. -/
structure Sound (s : Functions F G Tag) : Prop where
  faults : s.objects.faults = 0
  destroyable : ∀ x f, s.function x = some f → (f.destroy c s.objects).2.faults = 0
  books : Ledger.Books s.holds s.objects.toLedger

variable {c} {shapes : Shapes F G Tag} {s s' : Functions F G Tag}

theorem Realizes.sound (h : Realizes c shapes s) : Sound c s where
  faults := h.faults
  destroyable := by
    intro x f hf
    rw [h.at_eq, Option.map_eq_some_iff] at hf
    obtain ⟨sh, -, rfl⟩ := hf
    rw [destroy_toFunction]
    exact h.faults
  books := by
    have hholds : s.holds = shapes.holds := by
      funext x
      rw [holds, h.at_eq, Shapes.holds]
      cases shapes x with
      | none => rfl
      | some sh => cases sh <;> rfl
    rw [hholds]
    exact h.books

theorem destroy_receiver {tag : Tag} {p : Callable G} (hp : p ≠ .null) (m : Objects) :
    ((receiver c (.vacated tag) p).destroy c m).2.faults = m.faults + 1 := by
  cases p with
  | null => exact absurd rfl hp
  | _ => rfl

theorem not_sound {x : FunctionPlace} {tag : Tag} {p : Callable G} (hp : p ≠ .null)
    (hx : s.function x = some (receiver c (.vacated tag) p)) : ¬ Sound c s := by
  intro h
  have hfaults := h.destroyable x _ hx
  rw [destroy_receiver hp] at hfaults
  exact Nat.succ_ne_zero _ hfaults

theorem moveAssign_other {x y z : FunctionPlace} (h : s.moveAssign c x y = some s') (hx : z ≠ x)
    (hy : z ≠ y) : s'.function z = s.function z := by
  obtain ⟨f, -, h⟩ := Option.bind_eq_some_iff.mp h
  obtain ⟨rhs, -, rfl⟩ := Option.map_eq_some_iff.mp h
  split
  · rfl
  · simp only [set, Function.update_of_ne hx, Function.update_of_ne hy]

theorem destroy_other {x z : FunctionPlace} (h : s.destroy c x = some s') (hx : z ≠ x) :
    s'.function z = s.function z := by
  obtain ⟨f, -, rfl⟩ := Option.map_eq_some_iff.mp h
  exact Function.update_of_ne hx ..

theorem moveAssign_vacated (h : Realizes c shapes s) {x y : FunctionPlace} {sh : Shape F G Tag}
    {tag : Tag} (hx : shapes x = some sh) (hy : shapes y = some (.vacated tag)) (hne : x ≠ y)
    (hs' : s.moveAssign c x y = some s') :
    s'.function x = some (receiver c (.vacated tag) sh.callable) := by
  rw [moveAssign, h.at_eq, h.at_eq, hx, hy] at hs'
  simp only [Option.map_some, Option.bind_some, if_neg hne, StorableFunction.moveAssign,
    destroy_toFunction, Option.some.injEq] at hs'
  rw [← hs']
  simp only [set]
  rw [Function.update_of_ne hne, Function.update_self]
  rfl

theorem copyAssign_vacated (h : Realizes c shapes s) {x y : FunctionPlace} {sh : Shape F G Tag}
    {tag : Tag} (hx : shapes x = some sh) (hy : shapes y = some (.vacated tag)) (hne : x ≠ y)
    (hs' : s.copyAssign c x y = some s') :
    s'.function x = some (receiver c (.vacated tag) sh.callable) := by
  rw [copyAssign, h.at_eq, h.at_eq, hx, hy] at hs'
  simp only [Option.map_some, Option.bind_some, if_neg hne, StorableFunction.copyAssign,
    destroy_toFunction, Option.some.injEq] at hs'
  rw [← hs']
  simp only [set]
  rw [Function.update_self]
  rfl

theorem swap_not_sound (h : Realizes c shapes s) (hnone : shapes none = none) {x y : Nat}
    {sh sh' : Shape F G Tag} (hx : shapes (some x) = some sh) (hy : shapes (some y) = some sh')
    (hswap : ¬ swappable (sh.toFunction c) (sh'.toFunction c) = true)
    (hs' : s.swap c (some x) (some y) = some s') : ¬ Sound c s' := by
  obtain ⟨p, tag, hp, hcase⟩ := of_not_swappable c hswap
  have hne : (some x : FunctionPlace) ≠ some y := by
    intro heq
    rw [heq, hy] at hx
    rcases hcase with ⟨rfl, rfl⟩ | ⟨rfl, rfl⟩ <;> cases hx
  obtain ⟨s₁, hs₁, h₁⟩ := h.moveConstruct hnone hy
  rw [swap, hs₁, Option.bind_some] at hs'
  obtain ⟨s₂, hs₂, hs'⟩ := Option.bind_eq_some_iff.mp hs'
  obtain ⟨s₃, hs₃, hs₄⟩ := Option.bind_eq_some_iff.mp hs'
  have hx₁ : Function.update (Function.update shapes none
      (some (sh'.placed s.objects.next .null))) (some y) (some (sh'.left c)) (some x) =
      some sh := by
    rw [Function.update_of_ne hne, Function.update_of_ne (by simp), hx]
  rcases hcase with ⟨rfl, rfl⟩ | ⟨rfl, rfl⟩
  · have hbroken := moveAssign_vacated h₁ (Function.update_self ..) hx₁ hne.symm hs₂
    rw [← moveAssign_other hs₃ hne.symm (by simp), ← destroy_other hs₄ (by simp)] at hbroken
    exact not_sound hp hbroken
  · obtain ⟨s₂', hs₂', h₂⟩ := h₁.moveAssign (Function.update_self ..) hx₁ hne.symm rfl
    rw [hs₂', Option.some.injEq] at hs₂
    subst hs₂
    have hbroken := moveAssign_vacated h₂ (Function.update_self ..)
      (by rw [Function.update_of_ne (by simp), Function.update_of_ne (by simp),
        Function.update_of_ne (by simp), Function.update_self]; rfl) (by simp) hs₃
    rw [← destroy_other hs₄ (by simp)] at hbroken
    exact not_sound hp hbroken

theorem admissible_of_sound (h : Realizes c shapes s) (hnone : shapes none = none)
    {op : FunctionOp F G A} {a : FunctionAnswer R} (hstep : s.step c op = some (a, s'))
    (hsound : Sound c s') : Admissible s op := by
  by_contra hbad
  cases op with
  | copyAssign x y =>
    simp only [Admissible, not_or, not_forall] at hbad
    obtain ⟨hne, f, rhs, hf, hrhs, hbad⟩ := hbad
    obtain ⟨sh, hx, rfl⟩ := Option.map_eq_some_iff.mp ((h.at_eq _).symm.trans hf)
    obtain ⟨sh', hy, rfl⟩ := Option.map_eq_some_iff.mp ((h.at_eq _).symm.trans hrhs)
    obtain ⟨hp, tag, rfl⟩ := of_not_assignable c hbad
    obtain ⟨t, hs', ht⟩ := Option.map_eq_some_iff.mp hstep
    cases ht
    exact not_sound hp (copyAssign_vacated h hx hy (by simpa using hne) hs') hsound
  | moveAssign x y =>
    simp only [Admissible, not_or, not_forall] at hbad
    obtain ⟨hne, f, rhs, hf, hrhs, hbad⟩ := hbad
    obtain ⟨sh, hx, rfl⟩ := Option.map_eq_some_iff.mp ((h.at_eq _).symm.trans hf)
    obtain ⟨sh', hy, rfl⟩ := Option.map_eq_some_iff.mp ((h.at_eq _).symm.trans hrhs)
    obtain ⟨hp, tag, rfl⟩ := of_not_assignable c hbad
    obtain ⟨t, hs', ht⟩ := Option.map_eq_some_iff.mp hstep
    cases ht
    exact not_sound hp (moveAssign_vacated h hx hy (by simpa using hne) hs') hsound
  | swap x y =>
    simp only [Admissible, not_forall] at hbad
    obtain ⟨f, g, hf, hg, hbad⟩ := hbad
    obtain ⟨sh, hx, rfl⟩ := Option.map_eq_some_iff.mp ((h.at_eq _).symm.trans hf)
    obtain ⟨sh', hy, rfl⟩ := Option.map_eq_some_iff.mp ((h.at_eq _).symm.trans hg)
    obtain ⟨t, hs', ht⟩ := Option.map_eq_some_iff.mp hstep
    cases ht
    exact swap_not_sound h hnone hx hy hbad hs' hsound
  | _ => exact hbad trivial

def advance (c : Callables F G Tag A R) (s : Functions F G Tag) (op : FunctionOp F G A) :
    Option (Functions F G Tag) := (s.step c op).map Prod.snd

/-- In a run every stored object is destroyed exactly once, if and only if no emptied functor is
ever assigned to a function that still points to something. -/
theorem destroyed_once_iff (ops : List (FunctionOp F G A))
    (hrun : runSteps (advance c) {} ops = some s) :
    (∀ n m, runSteps (advance c) {} (ops.take n) = some m → Sound c m) ↔
      Meets (advance c) Admissible {} ops := by
  refine runSteps_always_iff (I := fun s => ∃ t, Related c s t) ?_ ?_ ops {} s
    ⟨_, related_start⟩ hrun
  · rintro m ⟨t, shapes, h, -, -⟩
    exact h.sound
  · rintro m op m' ⟨t, shapes, h, hnone, rfl⟩ hstep
    obtain ⟨⟨a, m''⟩, hanswer, rfl⟩ := Option.map_eq_some_iff.mp hstep
    refine ⟨fun hadm => ?_, admissible_of_sound h hnone hanswer⟩
    have hagree := agree_step h hnone op hadm
    rw [hanswer] at hagree
    cases hvalue : valueStep c shapes.values op with
    | none =>
      rw [hvalue] at hagree
      cases hagree
    | some r =>
      rw [hvalue] at hagree
      obtain ⟨s'', hs'', hrelated⟩ := hagree
      cases hs''
      exact ⟨_, hrelated⟩

def counters : Callables Nat Empty Unit Unit Nat where
  kind _ := ()
  invoke n _ := (n, n + 1)
  code g _ := g.elim
  kind_invoke _ _ := rfl

def reassigned : List (FunctionOp Nat Empty Unit) :=
  [.storeFunctor 0 7, .moveConstruct 1 0, .storeFunctor 2 5, .copyAssign 2 0]

theorem destroyed_once_iff_reassigned : ∃ s, runSteps (advance counters) {} reassigned = some s ∧
    ((∀ n m, runSteps (advance counters) {} (reassigned.take n) = some m → Sound counters m) ↔
      Meets (advance counters) Admissible {} reassigned) :=
  ⟨_, rfl, destroyed_once_iff reassigned rfl⟩

theorem functions_are_values_swapped :
    ∃ s, runOps (step counters) {} [.storeFunctor 0 7, .create 1, .swap 0 1, .call 1 ()] =
      some ([.done, .done, .done, .result (some 7)], s) ∧
      (s.function (some 1)).map value = some (some (.inl 8)) := by
  obtain ⟨s, hs, hvalue⟩ := functions_are_values counters
    [.storeFunctor 0 7, .create 1, .swap 0 1, .call 1 ()] rfl (by
      refine ⟨trivial, ?_⟩
      rintro r ⟨⟩
      refine ⟨trivial, ?_⟩
      rintro r ⟨⟩
      refine ⟨?_, ?_⟩
      · rintro f g ⟨⟩ ⟨⟩
        rfl
      · rintro r ⟨⟩
        exact ⟨trivial, fun _ _ => trivial⟩)
  exact ⟨s, hs, (hvalue 1).symm⟩

end Functions

end Iceoryx.Hoofs
