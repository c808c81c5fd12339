import Iceoryx.Lib.Lifetime
import Iceoryx.Lib.Refine
import Iceoryx.Lib.Run
import Mathlib.Logic.Function.Basic

universe u

namespace Iceoryx.Hoofs

open Lib

/-- The functors that are stored: `Tag` names their types, the members of which the operations
are instantiated for.  Free functions are not objects. -/
structure Callables (F G Tag A R : Type u) where
  kind : F → Tag
  /-- A call may change the functor. -/
  invoke : F → A → R × F
  code : G → A → R
  kind_invoke : ∀ v a, kind (invoke v a).2 = kind v

/-- `copy<T>`, `move<T>` and `invoke<T>`, or their counterparts for free functions. -/
inductive Target (Tag : Type u)
  | functor (tag : Tag)
  | free
  deriving DecidableEq, Repr

structure FunctionOperations (Tag : Type u) where
  copyFunction : Option (Target Tag) := none
  moveFunction : Option (Target Tag) := none
  destroyFunction : Option Tag := none
  deriving DecidableEq, Repr

/-- The memory of a `static_storage`; `allocated` says that `m_ptr` is set.  An object has a
number of its own. -/
structure StaticStorage (F : Type u) where
  allocated : Bool := false
  object : Option (Nat × F) := none

inductive Callable (G : Type u)
  | null
  | storage
  | code (g : G)

structure StorableFunction (F G Tag : Type u) where
  operations : FunctionOperations Tag := {}
  storage : StaticStorage F := {}
  callable : Callable G := .null
  invoker : Option (Target Tag) := none

/-- The objects in all storages.  An access to memory without an object of the type it is
accessed as is a fault. -/
structure Objects extends Ledger where
  faults : Nat := 0
  deriving DecidableEq, Repr

namespace Objects

def create (m : Objects) : Objects := { m with toLedger := m.toLedger.create }

def bury (m : Objects) (id : Option Nat) : Objects := { m with toLedger := m.toLedger.bury id }

def fault (m : Objects) : Objects := { m with faults := m.faults + 1 }

@[simp] theorem bury_none (m : Objects) : m.bury none = m := by
  simp [bury]

@[simp] theorem bury_faults (m : Objects) (id : Option Nat) : (m.bury id).faults = m.faults := rfl

end Objects

namespace StorableFunction

variable {F G Tag A R : Type u} [DecidableEq Tag] (c : Callables F G Tag A R)

def empty (f : StorableFunction F G Tag) : Bool := f.invoker.isNone

/-- `destroy<T>`, which leaves `m_callable` as it is. -/
def destroyAs (tag : Tag) (f : StorableFunction F G Tag) (m : Objects) :
    StorableFunction F G Tag × Objects :=
  match f.callable, f.storage.object with
  | .null, _ => (f, m)
  | .storage, some (id, v) =>
    if c.kind v = tag then ({ f with storage := {} }, m.bury (some id))
    else ({ f with storage := {} }, m.fault)
  | _, object => ({ f with storage := { allocated := false, object := object } }, m.fault)

def destroy (f : StorableFunction F G Tag) (m : Objects) : StorableFunction F G Tag × Objects :=
  match f.operations.destroyFunction with
  | none => (f, m)
  | some tag => f.destroyAs c tag m

def place (object : F) (f : StorableFunction F G Tag) (m : Objects) :
    Option (StorableFunction F G Tag × Objects) :=
  if f.storage.allocated then none
  else
    some ({ f with
      storage := { allocated := true, object := some (m.next, object) }
      callable := .storage }, m.create)

def stored (tag : Tag) (f : StorableFunction F G Tag) : Option F :=
  match f.callable, f.storage.object with
  | .storage, some (_, v) => if c.kind v = tag then some v else none
  | _, _ => none

def storeFunctor (functor : F) (f : StorableFunction F G Tag) (m : Objects) :
    Option (StorableFunction F G Tag × Objects) :=
  (f.place functor m).map fun r =>
    ({ r.1 with
      invoker := some (.functor (c.kind functor))
      operations :=
        { copyFunction := some (.functor (c.kind functor))
          moveFunction := some (.functor (c.kind functor))
          destroyFunction := some (c.kind functor) } }, r.2)

def ofFunction : Option G → StorableFunction F G Tag
  | none => {}
  | some g =>
    { invoker := some .free
      callable := .code g
      operations := { copyFunction := some .free, moveFunction := some .free } }

def copyAs (tag : Tag) (src dest : StorableFunction F G Tag) (m : Objects) :
    StorableFunction F G Tag × Objects :=
  if src.empty then (dest, m)
  else
    match src.stored c tag with
    | none => (dest, m.fault)
    | some object =>
      match dest.place object m with
      | none => (dest, m)
      | some (dest, m) => ({ dest with invoker := src.invoker }, m)

def moveAs (tag : Tag) (src dest : StorableFunction F G Tag) (m : Objects) :
    StorableFunction F G Tag × StorableFunction F G Tag × Objects :=
  if src.empty then (src, dest, m)
  else
    match src.stored c tag with
    | none => (src, dest, m.fault)
    | some object =>
      match dest.place object m with
      | none => (src, dest, m)
      | some (dest, m) =>
        let (src', m) := src.destroy c m
        ({ src' with callable := .null, invoker := none },
          { dest with invoker := src.invoker }, m)

def copy (src dest : StorableFunction F G Tag) (m : Objects) :
    StorableFunction F G Tag × Objects :=
  match dest.operations.copyFunction with
  | none => (dest, m)
  | some (.functor tag) => copyAs c tag src dest m
  | some .free => ({ dest with invoker := src.invoker, callable := src.callable }, m)

def move (src dest : StorableFunction F G Tag) (m : Objects) :
    StorableFunction F G Tag × StorableFunction F G Tag × Objects :=
  match dest.operations.moveFunction with
  | none => (src, dest, m)
  | some (.functor tag) => moveAs c tag src dest m
  | some .free =>
    ({ src with invoker := none, callable := .null },
      { dest with invoker := src.invoker, callable := src.callable }, m)

def copyConstruct (other : StorableFunction F G Tag) (m : Objects) :
    StorableFunction F G Tag × Objects :=
  other.copy c { operations := other.operations, invoker := other.invoker } m

def moveConstruct (other : StorableFunction F G Tag) (m : Objects) :
    StorableFunction F G Tag × StorableFunction F G Tag × Objects :=
  other.move c { operations := other.operations, invoker := other.invoker } m

def copyAssign (f rhs : StorableFunction F G Tag) (m : Objects) :
    StorableFunction F G Tag × Objects :=
  let (f, m) := f.destroy c m
  rhs.copy c { f with operations := rhs.operations, invoker := rhs.invoker } m

/-- `operator=(storable_function&&)` for another one; the right hand side comes first. -/
def moveAssign (f rhs : StorableFunction F G Tag) (m : Objects) :
    StorableFunction F G Tag × StorableFunction F G Tag × Objects :=
  let (f, m) := f.destroy c m
  rhs.move c { f with operations := rhs.operations, invoker := rhs.invoker } m

def call (f : StorableFunction F G Tag) (args : A) (m : Objects) :
    Option (Option R × StorableFunction F G Tag × Objects) :=
  match f.invoker, f.callable, f.storage.object with
  | none, _, _ => none
  | some .free, .code g, _ => some (some (c.code g args), f, m)
  | some (.functor tag), .storage, some (id, v) =>
    if c.kind v = tag then
      let (r, v') := c.invoke v args
      some (some r, { f with storage := { f.storage with object := some (id, v') } }, m)
    else some (none, f, m.fault)
  | _, _, _ => some (none, f, m.fault)

/-- Only a function whose operations were cleared by an assignment may have a stale pointer. -/
inductive Shape (F G Tag : Type u)
  | blank (callable : Callable G)
  | vacated (tag : Tag)
  | vacatedFree
  | functor (id : Nat) (v : F)
  | free (g : G)

namespace Shape

def operations : Shape F G Tag → FunctionOperations Tag
  | blank _ => {}
  | vacated tag =>
    { copyFunction := some (.functor tag)
      moveFunction := some (.functor tag)
      destroyFunction := some tag }
  | functor _ v =>
    { copyFunction := some (.functor (c.kind v))
      moveFunction := some (.functor (c.kind v))
      destroyFunction := some (c.kind v) }
  | vacatedFree | free _ => { copyFunction := some .free, moveFunction := some .free }

def callable : Shape F G Tag → Callable G
  | blank callable => callable
  | vacated _ | vacatedFree => .null
  | functor _ _ => .storage
  | free g => .code g

def invoker : Shape F G Tag → Option (Target Tag)
  | functor _ v => some (.functor (c.kind v))
  | free _ => some .free
  | _ => none

def object : Shape F G Tag → Option Nat
  | functor id _ => some id
  | _ => none

def storage : Shape F G Tag → StaticStorage F
  | functor id v => { allocated := true, object := some (id, v) }
  | _ => {}

def toFunction (sh : Shape F G Tag) : StorableFunction F G Tag where
  operations := sh.operations c
  storage := sh.storage
  callable := sh.callable
  invoker := sh.invoker c

def content : Shape F G Tag → Option (F ⊕ G)
  | functor _ v => some (.inl v)
  | free g => some (.inr g)
  | _ => none

def placed (id : Nat) (callable : Callable G) : Shape F G Tag → Shape F G Tag
  | blank _ => blank callable
  | vacated tag => vacated tag
  | vacatedFree => vacatedFree
  | functor _ v => functor id v
  | free g => free g

def left : Shape F G Tag → Shape F G Tag
  | blank callable => blank callable
  | vacated tag => vacated tag
  | functor _ v => vacated (c.kind v)
  | vacatedFree | free _ => vacatedFree

def grown (m : Objects) : Shape F G Tag → Objects
  | functor _ _ => m.create
  | _ => m

omit [DecidableEq Tag]

@[simp] theorem content_placed (id : Nat) (callable : Callable G) (sh : Shape F G Tag) :
    (sh.placed id callable).content = sh.content := by
  cases sh <;> rfl

@[simp] theorem content_left (sh : Shape F G Tag) : (sh.left c).content = none := by
  cases sh <;> rfl

@[simp] theorem object_left (sh : Shape F G Tag) : (sh.left c).object = none := by
  cases sh <;> rfl

end Shape

/-- A function that was emptied by a move out of it, and that would still destroy a functor. -/
def isVacated (f : StorableFunction F G Tag) : Bool :=
  f.invoker.isNone && f.operations.destroyFunction.isSome

def pointsNowhere (f : StorableFunction F G Tag) : Bool :=
  match f.callable with
  | .null => true
  | _ => false

/-- The assigned function does not get the operations of an emptied one for its own pointer. -/
def assignable (f rhs : StorableFunction F G Tag) : Bool := !rhs.isVacated || f.pointsNowhere

def swappable (this f : StorableFunction F G Tag) : Bool :=
  (assignable this f || !this.empty) && (assignable f this || !f.empty)

variable {c} {sh sh' : Shape F G Tag} {m : Objects}

theorem destroy_toFunction : (sh.toFunction c).destroy c m =
    ({ sh.toFunction c with storage := {} }, m.bury sh.object) := by
  cases sh with
  | functor id v =>
    simp [destroy, destroyAs, Shape.toFunction, Shape.operations, Shape.callable, Shape.storage,
      Shape.object]
  | _ =>
    simp [destroy, destroyAs, Shape.toFunction, Shape.operations, Shape.callable, Shape.storage,
      Shape.object]

def receiver (c : Callables F G Tag A R) (sh : Shape F G Tag) (callable : Callable G) :
    StorableFunction F G Tag where
  operations := sh.operations c
  callable := callable
  invoker := sh.invoker c

theorem copy_toFunction {callable : Callable G}
    (h : (sh.toFunction c).isVacated = true → callable = .null) :
    (sh.toFunction c).copy c (receiver c sh callable) m =
      ((sh.placed m.next callable).toFunction c, sh.grown m) := by
  cases sh with
  | functor id v =>
    simp [copy, copyAs, receiver, place, stored, empty, Shape.toFunction, Shape.operations,
      Shape.callable, Shape.storage, Shape.invoker, Shape.placed, Shape.grown]
  | vacated tag =>
    rw [h rfl]
    rfl
  | _ => rfl

theorem move_toFunction {callable : Callable G}
    (h : (sh.toFunction c).isVacated = true → callable = .null) :
    (sh.toFunction c).move c (receiver c sh callable) m =
      ((sh.left c).toFunction c, (sh.placed m.next callable).toFunction c,
        (sh.grown m).bury sh.object) := by
  cases sh with
  | functor id v =>
    simp [move, moveAs, receiver, place, stored, empty, destroy, destroyAs, Shape.toFunction,
      Shape.operations, Shape.callable, Shape.storage, Shape.invoker, Shape.placed, Shape.left,
      Shape.object, Shape.grown]
  | vacated tag =>
    rw [h rfl]
    simp [move, moveAs, receiver, empty, Shape.toFunction, Shape.operations, Shape.callable,
      Shape.storage, Shape.invoker, Shape.placed, Shape.left, Shape.object, Shape.grown]
  | _ =>
    simp [move, receiver, Shape.toFunction, Shape.operations, Shape.callable, Shape.storage,
      Shape.invoker, Shape.placed, Shape.left, Shape.object, Shape.grown]

theorem copyConstruct_toFunction : (sh.toFunction c).copyConstruct c m =
    ((sh.placed m.next .null).toFunction c, sh.grown m) := copy_toFunction fun _ => rfl

theorem moveConstruct_toFunction : (sh.toFunction c).moveConstruct c m =
    ((sh.left c).toFunction c, (sh.placed m.next .null).toFunction c,
      (sh.grown m).bury sh.object) := move_toFunction fun _ => rfl

omit [DecidableEq Tag] in
theorem eq_null_of_assignable {f rhs : StorableFunction F G Tag} (h : assignable f rhs = true)
    (hrhs : rhs.isVacated = true) : f.callable = .null := by
  simp only [assignable, hrhs, pointsNowhere, Bool.not_true, Bool.false_or] at h
  split at h
  · assumption
  · cases h

theorem copyAssign_toFunction (h : assignable (sh.toFunction c) (sh'.toFunction c) = true) :
    (sh.toFunction c).copyAssign c (sh'.toFunction c) m =
      ((sh'.placed m.next sh.callable).toFunction c, sh'.grown (m.bury sh.object)) := by
  rw [copyAssign, destroy_toFunction]
  exact copy_toFunction (eq_null_of_assignable h)

theorem moveAssign_toFunction (h : assignable (sh.toFunction c) (sh'.toFunction c) = true) :
    (sh.toFunction c).moveAssign c (sh'.toFunction c) m =
      ((sh'.left c).toFunction c, (sh'.placed m.next sh.callable).toFunction c,
        (sh'.grown (m.bury sh.object)).bury sh'.object) := by
  rw [moveAssign, destroy_toFunction]
  exact move_toFunction (eq_null_of_assignable h)

end StorableFunction

end Iceoryx.Hoofs
