import Iceoryx.Mepoo.TypedMemPool

namespace Iceoryx.Mepoo

open Hoofs Lib

namespace ObjectEvent

def names (m : Nat) (trace : List ObjectEvent) : Nat :=
  trace.count (.named m) - trace.count (.unnamed m)

def objects (m : Nat) (trace : List ObjectEvent) : Nat :=
  trace.count (.constructed m) - trace.count (.destroyed m)

/-- What may happen next: an object is destroyed while exactly one pointer names its chunk, and
before this pointer ceases to name it and the chunk is returned. -/
def Permitted (trace : List ObjectEvent) : ObjectEvent → Prop
  | .named _ => True
  | .constructed m => objects m trace = 0
  | .destroyed m => objects m trace = 1 ∧ names m trace = 1
  | .unnamed m => names m trace = 1 → objects m trace = 0
  | .returned m => objects m trace = 0

def Lifetime (trace : List ObjectEvent) : Prop :=
  ∀ before event after, trace = before ++ event :: after → Permitted before event

theorem Lifetime.of_isPrefix {trace trace' : List ObjectEvent} (h : Lifetime trace')
    (hpre : trace <+: trace') : Lifetime trace := by
  obtain ⟨rest, rfl⟩ := hpre
  intro before event after heq
  refine h before event (after ++ rest) ?_
  rw [heq, List.append_assoc, List.cons_append]

theorem lifetime_nil : Lifetime [] := by
  intro before event after h
  cases before <;> cases h

/-- The events of a creation: the local pointer goes while the returned one names the chunk. -/
def creationEvents (m : Nat) : List ObjectEvent :=
  [.named m, .constructed m, .named m, .destroyed m, .unnamed m]

theorem not_lifetime_creationEvents (m : Nat) : ¬ Lifetime (creationEvents m) := by
  intro h
  have hnames := (h [.named m, .constructed m, .named m] (.destroyed m) [.unnamed m] rfl).2
  simp [names] at hnames

end ObjectEvent

open ObjectEvent

namespace TypedMemPool

variable {α β : Type} {E : Halt → Prop} {x : Prog Halt TypedMemPool α} {t : TypedMemPool} {m : Nat}

def Grows (x : Prog Halt TypedMemPool α) : Prop :=
  ∀ trace, Triple (fun _ => True) (fun t => trace <+: t.trace) x fun _ t => trace <+: t.trace

theorem Grows.pure (a : α) : Grows (pure a) := fun _ => Triple.pure fun _ h => h

theorem Grows.bind {f : α → Prog Halt TypedMemPool β} (hx : Grows x) (hf : ∀ a, Grows (f a)) :
    Grows (x >>= f) := fun trace => Triple.bind (hx trace) fun a => hf a trace

theorem Grows.isPrefix (hx : Grows x) {r : α × TypedMemPool} (h : (x t).toOption = some r) :
    t.trace <+: r.2.trace :=
  (hx t.trace).of_ok (List.prefix_refl _) (eq_ok_of_toOption h)

theorem Grows.get : Grows get := fun _ => Triple.get fun _ h => h

theorem Grows.emit (e : ObjectEvent) : Grows (emit e) := fun _ =>
  Triple.modify fun _ h => h.trans (List.prefix_append _ _)

theorem Grows.focus (x : Prog Halt MemoryManager α) : Grows (focus memory setMemory x) := by
  refine fun _ => Triple.focus fun t h => ?_
  cases x t.memory with
  | ok r => exact h
  | error e => trivial

theorem Grows.acquire : Grows acquireChunkManagementPointer := by
  intro trace t h
  unfold acquireChunkManagementPointer
  cases t.memPool.getChunk with
  | none => exact h
  | some r =>
    cases t.chunkManagementPool.getChunk with
    | none => exact h
    | some r' =>
      simp only
      cases ChunkHeader.create r.1 r.2.chunkSize t.chunkSettings with
      | none => trivial
      | some header => exact h

theorem Grows.copyChunk (chunk : Option Nat) : Grows (copyChunk chunk) := by
  cases chunk with
  | none => exact Grows.pure _
  | some m => exact Grows.focus (SharedChunk.incrementReferenceCounter m)

theorem Grows.destroyChunk (chunk : Option Nat) : Grows (destroyChunk chunk) := by
  cases chunk with
  | none => exact Grows.pure _
  | some m =>
    refine Grows.get.bind fun t => (Grows.focus _).bind fun _ => ?_
    split
    · exact Grows.emit _
    · exact Grows.pure _

theorem Grows.emitFor (event : Nat → ObjectEvent) (chunk : Option Nat) :
    Grows (SharedPointer.emitFor event chunk) := by
  cases chunk with
  | none => exact Grows.pure _
  | some m => exact Grows.emit _

theorem Grows.copyConstruct (p : SharedPointer) : Grows p.copyConstruct :=
  (Grows.copyChunk _).bind fun _ => (Grows.emitFor _ _).bind fun _ => Grows.pure _

theorem Grows.destroy (p : SharedPointer) : Grows p.destroy := by
  have hdelete : Grows p.deleteManagedObjectIfNecessary := by
    refine Grows.get.bind fun t => ?_
    cases p.chunk with
    | none => exact Grows.pure _
    | some m =>
      simp only
      split
      · exact Grows.emit _
      · exact Grows.pure _
  exact hdelete.bind fun _ => (Grows.emitFor _ _).bind fun _ => Grows.destroyChunk _

theorem Grows.copyAssign (lhs rhs : SharedPointer) : Grows (lhs.copyAssign rhs) := by
  rw [SharedPointer.copyAssign_eq]
  exact (Grows.destroy lhs).bind fun _ => Grows.copyConstruct rhs

theorem Grows.moveAssign (lhs rhs : SharedPointer) : Grows (lhs.moveAssign rhs) := by
  rw [SharedPointer.moveAssign_eq]
  exact (Grows.destroy lhs).bind fun _ => Grows.pure _

theorem Grows.wrap (m : Nat) : Grows (wrap m) := by
  have hcreate : Grows (SharedPointer.create (some m)) := by
    rw [SharedPointer.create_eq, SharedPointer.construct_eq]
    refine Grows.bind ?_ fun _ => Grows.pure _
    exact (Grows.copyConstruct _).bind fun _ => (Grows.emit _).bind fun _ => Grows.pure _
  refine hcreate.bind fun r => (Grows.destroyChunk _).bind fun _ => ?_
  cases r with
  | error e => exact Grows.pure _
  | ok p =>
    exact (Grows.copyConstruct p).bind fun q => (Grows.destroy _).bind fun _ =>
      (Grows.destroy p).bind fun _ => Grows.pure _

theorem Grows.createObject : Grows createObject := by
  refine Grows.acquire.bind fun r => ?_
  cases r with
  | error e => exact Grows.pure _
  | ok m => exact Grows.wrap m

theorem Grows.createObjectWithCreationPattern {E : Type} (created : Except E Unit) :
    Grows (createObjectWithCreationPattern created) := by
  refine Grows.acquire.bind fun r => ?_
  cases r with
  | error e => exact Grows.pure _
  | ok m =>
    cases created with
    | error e => exact Grows.pure _
    | ok _ => exact (Grows.wrap m).bind fun _ => Grows.pure _

structure At (m counter : Nat) (trace : List ObjectEvent) (t : TypedMemPool) : Prop where
  counter : (t.blocks m).referenceCounter = counter
  trace : t.trace = trace

variable {c : Nat} {trace : List ObjectEvent}

theorem At.copyChunk_triple :
    Triple E (At m c trace) (copyChunk (some m)) fun _ => At m (c + 1) trace := by
  intro t h
  rw [copyChunk_some]
  refine ⟨?_, h.trace⟩
  simp only [Function.update_self, h.counter]

theorem At.destroyChunk_triple (hc : c ≠ 1) :
    Triple E (At m c trace) (destroyChunk (some m)) fun _ => At m (c - 1) trace := by
  intro t h
  rw [destroyChunk_some t (h.counter ▸ hc)]
  refine ⟨?_, h.trace⟩
  simp only [Function.update_self, h.counter]

theorem At.emit_triple (e : ObjectEvent) :
    Triple E (At m c trace) (emit e) fun _ => At m c (trace ++ [e]) :=
  Triple.modify fun _ h => ⟨h.counter, congrArg (· ++ [e]) h.trace⟩

theorem At.copyConstruct_triple :
    Triple E (At m c trace) (SharedPointer.naming m).copyConstruct fun p t =>
      p = .naming m ∧ At m (c + 1) (trace ++ [ObjectEvent.named m]) t :=
  Triple.bind At.copyChunk_triple fun _ => Triple.bind (At.emit_triple _) fun _ =>
    Triple.pure fun _ h => ⟨rfl, h⟩

/-- With two references left the object is destroyed, whoever holds the other one. -/
theorem At.destroy_triple :
    Triple E (At m 2 trace) (SharedPointer.naming m).destroy fun _ =>
      At m 1 (trace ++ [ObjectEvent.destroyed m] ++ [ObjectEvent.unnamed m]) := by
  have hdelete : Triple E (At m 2 trace)
      (SharedPointer.naming m).deleteManagedObjectIfNecessary fun _ =>
        At m 2 (trace ++ [ObjectEvent.destroyed m]) := by
    intro t h
    change Ends E _ ((if (t.blocks m).referenceCounter = 2 then emit (.destroyed m)
      else Pure.pure ⟨⟩ : Prog Halt TypedMemPool PUnit) t)
    rw [if_pos h.counter]
    exact At.emit_triple _ t h
  exact Triple.bind hdelete fun _ => Triple.bind (At.emit_triple _) fun _ =>
    At.destroyChunk_triple (by decide)

theorem At.create_triple :
    Triple E (At m c trace) (SharedPointer.create (some m)) fun r t =>
      r = .ok (.naming m) ∧
        At m (c + 1) (trace ++ [ObjectEvent.named m] ++ [ObjectEvent.constructed m]) t := by
  rw [SharedPointer.create_eq, SharedPointer.construct_eq]
  simp only [bind_assoc, pure_bind]
  refine Triple.bind At.copyConstruct_triple fun p => Triple.assume fun hp => ?_
  exact Triple.bind (At.emit_triple _) fun _ => Triple.pure fun _ h => ⟨by rw [hp], h⟩

theorem At.wrap_triple :
    Triple E (At m 1 trace) (wrap m) fun r t =>
      r = .ok (.naming m) ∧ At m 1 (trace ++ creationEvents m) t := by
  refine Triple.bind At.create_triple fun r => Triple.assume fun hr => ?_
  refine Triple.bind (At.destroyChunk_triple (by decide)) fun _ => ?_
  subst hr
  refine Triple.bind At.copyConstruct_triple fun p => Triple.assume fun hp => ?_
  subst hp
  have hmoved : Triple E
      (At m 2 (trace ++ [ObjectEvent.named m] ++ [ObjectEvent.constructed m] ++
        [ObjectEvent.named m]))
      (Pure.pure ⟨⟩ : Prog Halt TypedMemPool PUnit) fun _ =>
        At m 2 (trace ++ [ObjectEvent.named m] ++ [ObjectEvent.constructed m] ++
          [ObjectEvent.named m]) :=
    Triple.pure fun _ h => h
  refine Triple.bind hmoved fun _ => ?_
  refine Triple.bind At.destroy_triple fun _ => Triple.pure fun t h => ⟨rfl, h.counter, ?_⟩
  rw [h.trace]
  simp only [creationEvents, List.append_assoc, List.cons_append, List.nil_append]

end TypedMemPool

namespace PointerRun

open TypedMemPool

variable {E : Type} {s s' : PointerRun E}

def NoObject (s : PointerRun E) : Operation E → Prop
  | .createObject => s.pool.memPool.usedChunks = s.pool.memPool.numberOfChunks
  | .createObjectWithCreationPattern (.ok _) =>
    s.pool.memPool.usedChunks = s.pool.memPool.numberOfChunks
  | _ => True

instance (s : PointerRun E) : DecidablePred s.NoObject
  | .createObject => inferInstanceAs (Decidable (_ = _))
  | .createObjectWithCreationPattern (.ok _) => inferInstanceAs (Decidable (_ = _))
  | .createObjectWithCreationPattern (.error _) => inferInstanceAs (Decidable True)
  | .copyConstruct _ | .moveConstruct _ | .copyAssign _ _ | .moveAssign _ _ | .destroy _ =>
    inferInstanceAs (Decidable True)

structure Untouched (s : PointerRun E) : Prop where
  pool : s.pool.WellFormed
  trace : s.pool.trace = []
  pointers : s.pointers = []

theorem create_grows {x : Prog Halt TypedMemPool (Except (TypedMemPoolError ⊕ E) SharedPointer)}
    (hx : Grows x) (h : s.create x = some s') : s.pool.trace <+: s'.pool.trace := by
  obtain ⟨⟨r, t⟩, hrun, h⟩ := Option.bind_eq_some_iff.mp h
  cases h
  exact hx.isPrefix hrun

theorem step_grows {op : Operation E} (h : s.step op = some s') :
    s.pool.trace <+: s'.pool.trace := by
  cases op with
  | createObject =>
    exact create_grows (Grows.createObject.bind fun _ => Grows.pure _) h
  | createObjectWithCreationPattern created =>
    exact create_grows (Grows.createObjectWithCreationPattern created) h
  | copyConstruct i =>
    obtain ⟨rhs, _, h⟩ := Option.bind_eq_some_iff.mp h
    obtain ⟨r, hrun, h⟩ := Option.bind_eq_some_iff.mp h
    cases h
    exact (Grows.copyConstruct rhs).isPrefix hrun
  | moveConstruct i =>
    obtain ⟨rhs, _, h⟩ := Option.bind_eq_some_iff.mp h
    cases h
    exact List.prefix_refl _
  | copyAssign i j =>
    obtain ⟨lhs, _, h⟩ := Option.bind_eq_some_iff.mp h
    obtain ⟨rhs, _, h⟩ := Option.bind_eq_some_iff.mp h
    split at h
    · cases h
      exact List.prefix_refl _
    · obtain ⟨r, hrun, h⟩ := Option.bind_eq_some_iff.mp h
      cases h
      exact (Grows.copyAssign lhs rhs).isPrefix hrun
  | moveAssign i j =>
    obtain ⟨lhs, _, h⟩ := Option.bind_eq_some_iff.mp h
    obtain ⟨rhs, _, h⟩ := Option.bind_eq_some_iff.mp h
    split at h
    · cases h
      exact List.prefix_refl _
    · obtain ⟨r, hrun, h⟩ := Option.bind_eq_some_iff.mp h
      cases h
      exact (Grows.moveAssign lhs rhs).isPrefix hrun
  | destroy i =>
    obtain ⟨p, _, h⟩ := Option.bind_eq_some_iff.mp h
    obtain ⟨r, hrun, h⟩ := Option.bind_eq_some_iff.mp h
    cases h
    exact (Grows.destroy p).isPrefix hrun

theorem untouched_start {t : TypedMemPool} (h : t.WellFormed) (htrace : t.trace = []) :
    Untouched (start t : PointerRun E) where
  pool := h
  trace := htrace
  pointers := rfl

theorem Untouched.lifetime (h : Untouched s) : Lifetime s.pool.trace := by
  rw [h.trace]
  exact lifetime_nil

theorem Untouched.created_error (h : Untouched s) {t : TypedMemPool} (hwf : t.WellFormed)
    (htrace : t.trace = s.pool.trace) (e : TypedMemPoolError ⊕ E) :
    Untouched (s.created (.error e) t) where
  pool := hwf
  trace := htrace.trans h.trace
  pointers := by
    rw [created, h.pointers]
    rfl

theorem Untouched.acquire (h : Untouched s) :
    (s.pool.memPool.usedChunks = s.pool.memPool.numberOfChunks ∧
      acquireChunkManagementPointer s.pool = .ok (.error .outOfChunks, s.pool)) ∨
    s.pool.memPool.usedChunks ≠ s.pool.memPool.numberOfChunks ∧
    ∃ m t r t', acquireChunkManagementPointer s.pool = .ok (.ok m, t) ∧
      t.WellFormed ∧ t.trace = s.pool.trace ∧
      wrap m t = .ok (r, t') ∧ ¬ Lifetime t'.trace := by
  refine h.pool.acquire.imp_right ?_
  rintro ⟨hroom, i, m, t, _, _, hrun, hwf, _, _, _, htrace, hblocks⟩
  have hcounter : (t.blocks m).referenceCounter = 1 := by
    rw [hblocks, Function.update_self]
  obtain ⟨r, t', hwrap, _, hat⟩ :=
    Triple.returns At.wrap_triple (At.mk hcounter (htrace.trans h.trace))
  refine ⟨hroom, m, t, r, t', hrun, hwf, htrace, hwrap, ?_⟩
  rw [hat.trace]
  exact not_lifetime_creationEvents m

/-- The first object that is constructed is destroyed before its pointer is returned. -/
theorem Untouched.step (h : Untouched s) {op : Operation E} (hstep : s.step op = some s') :
    (s.NoObject op → Untouched s') ∧ (¬ s.NoObject op → ¬ Lifetime s'.pool.trace) := by
  have hnone : ∀ i : Nat, s.pointers[i]? = none := fun i => by rw [h.pointers]; rfl
  cases op with
  | createObject =>
    rcases h.acquire with ⟨hfull, hrun⟩ | ⟨hroom, m, t, r, t', hrun, _, _, hwrap, hbad⟩
    · obtain rfl := Option.some.inj ((step_createObject (createObject_error hrun)).symm.trans hstep)
      exact ⟨fun _ => h.created_error h.pool rfl _, fun hne => absurd hfull hne⟩
    · have hobject := (createObject_ok hrun).trans hwrap
      obtain rfl := Option.some.inj ((step_createObject hobject).symm.trans hstep)
      exact ⟨fun hfull => absurd hfull hroom, fun _ => hbad⟩
  | createObjectWithCreationPattern created =>
    rcases h.acquire with ⟨hfull, hrun⟩ | ⟨hroom, m, t, r, t', hrun, hwf, htrace, hwrap, hbad⟩
    · have hobject := createObjectWithCreationPattern_error created hrun
      obtain rfl := Option.some.inj ((create_eq_some hobject).symm.trans hstep)
      refine ⟨fun _ => h.created_error h.pool rfl _, fun hne => absurd ?_ hne⟩
      cases created with
      | ok _ => exact hfull
      | error e => trivial
    · cases created with
      | error e =>
        have hobject := createObjectWithCreationPattern_failed e hrun
        obtain rfl := Option.some.inj ((create_eq_some hobject).symm.trans hstep)
        exact ⟨fun _ => h.created_error hwf htrace _, fun hne => absurd trivial hne⟩
      | ok _ =>
        have hobject := createObjectWithCreationPattern_ok (E := E) hrun hwrap
        obtain rfl := Option.some.inj ((create_eq_some hobject).symm.trans hstep)
        exact ⟨fun hfull => absurd hfull hroom, fun _ => hbad⟩
  | copyConstruct i | moveConstruct i | copyAssign i _ | moveAssign i _ | destroy i =>
    simp only [PointerRun.step, hnone, Option.bind_eq_bind, Option.bind_none] at hstep
    cases hstep

theorem lifetime_step {op : Operation E} (h : ¬ Lifetime s.pool.trace ∨ Untouched s)
    (hstep : s.step op = some s') :
    (¬ Lifetime s'.pool.trace ∨ Untouched s') ∧
      (¬ Lifetime s'.pool.trace ↔ ¬ Lifetime s.pool.trace ∨ ¬ s.NoObject op) := by
  rcases h with hbad | huntouched
  · have hbad' : ¬ Lifetime s'.pool.trace := fun h => hbad (h.of_isPrefix (step_grows hstep))
    exact ⟨Or.inl hbad', iff_of_true hbad' (Or.inl hbad)⟩
  · obtain ⟨hkeep, hbreak⟩ := huntouched.step hstep
    by_cases hop : s.NoObject op
    · have hgood := huntouched.lifetime
      have hgood' := (hkeep hop).lifetime
      exact ⟨Or.inr (hkeep hop), by simp only [hgood, hgood', hop, not_true_eq_false, or_self]⟩
    · exact ⟨Or.inl (hbreak hop), iff_of_true (hbreak hop) (Or.inr hop)⟩

/-- Whatever else a run does, the objects of a pool live as they should exactly if it constructs
none. -/
theorem object_lifetime_iff {sizeofT alignofT n management chunks : Nat}
    {allocators allocators' : Nat → Allocator} {blocks : Nat → ChunkManagement}
    {headers : Nat → ChunkHeader} {t : TypedMemPool}
    (h : TypedMemPool.create sizeofT alignofT n management chunks allocators blocks headers =
      some (t, allocators')) {ops : List (Operation E)}
    (hrun : runSteps PointerRun.step (start t) ops = some s) :
    Lifetime s.pool.trace ↔ Meets PointerRun.step NoObject (start t) ops := by
  obtain ⟨hwf, _, _, htrace⟩ := create_wellFormed h
  have hstart := untouched_start (E := E) hwf htrace
  have hdefect := (runSteps_defect (I := fun s => ¬ Lifetime s.pool.trace ∨ Untouched s)
    (fun _ _ _ hs hstep => lifetime_step hs hstep) ops _ _ (Or.inr hstart) hrun).2
  rw [← not_iff_not, hdefect]
  simp only [hstart.lifetime, not_true_eq_false, false_or]

theorem object_lifetime_iff_nothing_constructed : ∃ s : PointerRun Unit,
    runSteps PointerRun.step (start (examplePool 1 (by decide)))
      [.createObjectWithCreationPattern (.error ()), .createObject] = some s ∧
    Lifetime s.pool.trace := by
  obtain ⟨_, h⟩ := exampleCreate_eq (n := 1) (by decide)
  obtain ⟨s, hrun⟩ := Option.isSome_iff_exists.mp
    (show (runSteps PointerRun.step (start (examplePool 1 (by decide)))
      [.createObjectWithCreationPattern (.error ()), .createObject]).isSome by decide +kernel)
  exact ⟨s, hrun, (object_lifetime_iff h hrun).mpr (by decide +kernel)⟩

def exampleBlock : Nat := (examplePool 1 (by decide)).chunkManagementPool.rawMemory

theorem created_object_is_dead : ∃ allocators' s,
    exampleCreate 1 = some (examplePool 1 (by decide), allocators') ∧
    runSteps PointerRun.step (start (examplePool 1 (by decide)) : PointerRun Unit)
      [.createObject, .destroy 0] = some s ∧
    s.pool.trace = creationEvents exampleBlock ++ [.unnamed exampleBlock, .returned exampleBlock] ∧
    ¬ Lifetime s.pool.trace := by
  obtain ⟨allocators', h⟩ := exampleCreate_eq (n := 1) (by decide)
  have hrun : (runSteps PointerRun.step (start (examplePool 1 (by decide)) : PointerRun Unit)
      [.createObject, .destroy 0]).map (·.pool.trace) =
      some (creationEvents exampleBlock ++ [.unnamed exampleBlock, .returned exampleBlock]) := by
    decide +kernel
  obtain ⟨s, hs, htrace⟩ := Option.map_eq_some_iff.mp hrun
  refine ⟨allocators', s, h, hs, htrace, fun hlife => ?_⟩
  rw [htrace] at hlife
  exact not_lifetime_creationEvents _ (hlife.of_isPrefix (List.prefix_append _ _))

end PointerRun

end Iceoryx.Mepoo
