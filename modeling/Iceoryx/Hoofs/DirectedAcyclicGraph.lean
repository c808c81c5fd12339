import Mathlib.Data.List.Dedup
import Mathlib.Data.List.Perm.Subperm
import Mathlib.Logic.Function.Basic
import Iceoryx.Lib.Indices
import Iceoryx.Lib.Reach
import Iceoryx.Lib.Run

universe u

namespace Iceoryx.Hoofs

open Lib Relation

namespace IndexSet

def hasElement (container : List Nat) (entry : Nat) : Bool := container.contains entry

def add (capacity : Nat) (container : List Nat) (entry : Nat) : List Nat :=
  if hasElement container entry then container
  else if container.length < capacity then container ++ [entry]
  else container

def unify (capacity : Nat) (set1 set2 : List Nat) : List Nat := set2.foldl (add capacity) set1

structure Fits (n : Nat) (container : List Nat) : Prop where
  nodup : container.Nodup
  lt : ∀ x ∈ container, x < n

variable {capacity n entry : Nat} {container set1 set2 : List Nat}

theorem hasElement_iff : hasElement container entry = true ↔ entry ∈ container :=
  List.contains_iff_mem

theorem Fits.length_lt (h : Fits n container) (hentry : entry < n) (hnew : entry ∉ container) :
    container.length < n :=
  Lib.length_lt_of_nodup_lt h.nodup h.lt hentry hnew

theorem Fits.add (h : Fits n container) (hn : n ≤ capacity) (hentry : entry < n) :
    Fits n (add capacity container entry) ∧
      ∀ x, x ∈ add capacity container entry ↔ x ∈ container ∨ x = entry := by
  unfold IndexSet.add
  by_cases hold : entry ∈ container
  · rw [if_pos (hasElement_iff.mpr hold)]
    refine ⟨h, fun x => (or_iff_left_of_imp ?_).symm⟩
    rintro rfl
    exact hold
  · rw [if_neg (mt hasElement_iff.mp hold),
      if_pos (Nat.lt_of_lt_of_le (h.length_lt hentry hold) hn)]
    refine ⟨⟨List.nodup_append.mpr ⟨h.nodup, List.nodup_singleton entry, ?_⟩, fun x hx => ?_⟩,
      fun x => ?_⟩
    · rintro x hx y hy rfl
      exact hold (List.mem_singleton.mp hy ▸ hx)
    · rcases List.mem_append.mp hx with hx | hx
      · exact h.lt x hx
      · exact List.mem_singleton.mp hx ▸ hentry
    · rw [List.mem_append, List.mem_singleton]

theorem Fits.unify (h : Fits n set1) (hn : n ≤ capacity) (hset2 : ∀ x ∈ set2, x < n) :
    Fits n (unify capacity set1 set2) ∧
      ∀ x, x ∈ unify capacity set1 set2 ↔ x ∈ set1 ∨ x ∈ set2 := by
  induction set2 generalizing set1 with
  | nil => exact ⟨h, fun x => (or_iff_left List.not_mem_nil).symm⟩
  | cons entry set2 ih =>
    obtain ⟨hadd, hmem⟩ := h.add hn (hset2 entry List.mem_cons_self)
    obtain ⟨hfits, hall⟩ := ih hadd fun x hx => hset2 x (List.mem_cons_of_mem entry hx)
    refine ⟨hfits, fun x => (hall x).trans ?_⟩
    rw [hmem, List.mem_cons, or_assoc]

end IndexSet

variable {V : Type u}

structure VertexData (V : Type u) where
  vertex : V
  successors : List V := []
  predecessors : List V := []
  successorIndices : List Nat := []
  predecessorIndices : List Nat := []
  deriving DecidableEq, Repr

structure DirectedGraph (V : Type u) where
  vertices : List (VertexData V) := []
  numEdges : Nat := 0
  deriving DecidableEq, Repr

structure GraphLimits where
  vertex : Nat
  degree : Nat

namespace DirectedGraph

variable [DecidableEq V] (limits : GraphLimits) (g : DirectedGraph V)

def numberOfVertices : Nat := g.vertices.length

def findVertex (vertex : V) : Option Nat := g.vertices.findIdx? (·.vertex = vertex)

def addVertex (vertex : V) : Bool × DirectedGraph V :=
  if g.numberOfVertices ≥ limits.vertex then (false, g)
  else if (g.findVertex vertex).isSome then (false, g)
  else (true, { g with vertices := g.vertices ++ [{ vertex := vertex }] })

def addEdge (fromVertex toVertex : V) : Bool × DirectedGraph V :=
  match g.findVertex fromVertex, g.findVertex toVertex with
  | some i, some j =>
    if i = j then (false, g)
    else
      match g.vertices[i]?, g.vertices[j]? with
      | some fromData, some toData =>
        if fromData.successorIndices.length ≥ limits.degree ∨
            toData.predecessorIndices.length ≥ limits.degree then (false, g)
        else
          let vertices := g.vertices.modify i fun d => { d with
            successorIndices := d.successorIndices ++ [j]
            successors := d.successors ++ [toVertex] }
          let vertices := vertices.modify j fun d => { d with
            predecessorIndices := d.predecessorIndices ++ [i]
            predecessors := d.predecessors ++ [fromVertex] }
          (true, { vertices := vertices, numEdges := g.numEdges + 1 })
      | _, _ => (false, g)
  | _, _ => (false, g)

def successorsOf (i : Nat) : List Nat := (g.vertices[i]?.map (·.successorIndices)).getD []

def predecessorsOf (i : Nat) : List Nat := (g.vertices[i]?.map (·.predecessorIndices)).getD []

def Edge (i j : Nat) : Prop := j ∈ g.successorsOf i

instance (i j : Nat) : Decidable (g.Edge i j) := inferInstanceAs (Decidable (_ ∈ _))

end DirectedGraph

namespace DirectedGraph

section Spec

variable [DecidableEq V] {limits : GraphLimits} {g : DirectedGraph V} {a b : V} {i j : Nat}

theorem findVertex_eq_some (h : g.findVertex a = some i) :
    ∃ d, g.vertices[i]? = some d ∧ d.vertex = a := by
  obtain ⟨hi, hvertex, -⟩ := List.findIdx?_eq_some_iff_getElem.mp h
  exact ⟨g.vertices[i], List.getElem?_eq_getElem hi, of_decide_eq_true hvertex⟩

theorem findVertex_lt (h : g.findVertex a = some i) : i < g.numberOfVertices := by
  obtain ⟨d, hd, -⟩ := findVertex_eq_some h
  exact (List.getElem?_eq_some_iff.mp hd).1

theorem findVertex_inj (ha : g.findVertex a = some i) (hb : g.findVertex b = some j) :
    i = j ↔ a = b := by
  constructor
  · rintro rfl
    obtain ⟨d, hd, rfl⟩ := findVertex_eq_some ha
    obtain ⟨d', hd', rfl⟩ := findVertex_eq_some hb
    cases hd.symm.trans hd'
    rfl
  · rintro rfl
    exact Option.some.inj (ha.symm.trans hb)

theorem addVertex_spec (h : g.numberOfVertices ≤ limits.vertex) (vertex : V) :
    (g.addVertex limits vertex).2.numberOfVertices ≤ limits.vertex ∧
      g.numberOfVertices ≤ (g.addVertex limits vertex).2.numberOfVertices ∧
        (g.addVertex limits vertex).2.Edge = g.Edge := by
  unfold addVertex
  split
  · exact ⟨h, Nat.le_refl _, rfl⟩
  · next hroom =>
    split
    · exact ⟨h, Nat.le_refl _, rfl⟩
    · refine ⟨?_, ?_, ?_⟩
      · rw [numberOfVertices, List.length_append, List.length_singleton]
        exact Nat.not_le.mp hroom
      · rw [numberOfVertices, numberOfVertices, List.length_append]
        exact Nat.le_add_right _ _
      · funext x y
        unfold Edge successorsOf
        rw [List.getElem?_append]
        split
        · rfl
        · next hx =>
          rw [List.getElem?_eq_none (Nat.not_lt.mp hx), List.getElem?_singleton]
          split <;> rfl

theorem addEdge_spec (limits : GraphLimits) (ha : g.findVertex a = some i)
    (hb : g.findVertex b = some j) (hne : i ≠ j) :
    (((g.successorsOf i).length ≥ limits.degree ∨ (g.predecessorsOf j).length ≥ limits.degree) ∧
      g.addEdge limits a b = (false, g)) ∨
    (¬ ((g.successorsOf i).length ≥ limits.degree ∨
        (g.predecessorsOf j).length ≥ limits.degree) ∧
      ∃ g', g.addEdge limits a b = (true, g') ∧ g'.numberOfVertices = g.numberOfVertices ∧
        g'.Edge = AddEdge g.Edge i j) := by
  obtain ⟨d, hd, -⟩ := findVertex_eq_some ha
  obtain ⟨d', hd', -⟩ := findVertex_eq_some hb
  have hsuccessors : g.successorsOf i = d.successorIndices := by rw [successorsOf, hd]; rfl
  have hpredecessors : g.predecessorsOf j = d'.predecessorIndices := by
    rw [predecessorsOf, hd']; rfl
  rw [hsuccessors, hpredecessors]
  simp only [addEdge, ha, hb, hd, hd', if_neg hne]
  by_cases hdegree : d.successorIndices.length ≥ limits.degree ∨
      d'.predecessorIndices.length ≥ limits.degree
  · exact Or.inl ⟨hdegree, if_pos hdegree⟩
  · refine Or.inr ⟨hdegree, _, if_neg hdegree, ?_, ?_⟩
    · simp only [numberOfVertices, List.length_modify]
    · funext x y
      simp only [Edge, successorsOf, AddEdge, List.getElem?_modify, eq_iff_iff]
      by_cases hxi : i = x
      · subst hxi
        simp [hd, hne.symm]
      · by_cases hxj : j = x
        · subst hxj
          simp [hd', hxi, Ne.symm hxi]
        · simp [hxi, hxj, Ne.symm hxi]

end Spec

end DirectedGraph

/-- The tables hold for each vertex index the indices of other vertices. -/
structure DirectedAcyclicGraph (V : Type u) where
  graph : DirectedGraph V := {}
  reachableFrom : Nat → List Nat := fun _ => []
  leadsTo : Nat → List Nat := fun _ => []

namespace DirectedAcyclicGraph

variable [DecidableEq V] (limits : GraphLimits) (g : DirectedAcyclicGraph V)

def addVertex (vertex : V) : Bool × DirectedAcyclicGraph V :=
  let (added, graph) := g.graph.addVertex limits vertex
  (added, { g with graph := graph })

def createsCycle (i j : Nat) : Bool := IndexSet.hasElement (g.leadsTo j) i

/-- One table after the elements of `table source` have been put into `table k` for each of the
`ks`; the `source` may be among them. -/
def unifyAll (source : Nat) (ks : List Nat) (table : Nat → List Nat) : Nat → List Nat :=
  ks.foldl (fun table k =>
    Function.update table k (IndexSet.unify limits.vertex (table k) (table source))) table

def updateConnectivity (i j : Nat) : DirectedAcyclicGraph V :=
  let inTo := IndexSet.unify limits.vertex (IndexSet.add limits.vertex (g.reachableFrom j) i)
    (g.reachableFrom i)
  let reachableFrom := Function.update g.reachableFrom j inTo
  let outFrom := IndexSet.unify limits.vertex (IndexSet.add limits.vertex (g.leadsTo i) j)
    (g.leadsTo j)
  let leadsTo := Function.update g.leadsTo i outFrom
  let leadsTo := unifyAll limits i (reachableFrom i) leadsTo
  let reachableFrom := unifyAll limits i (leadsTo j) reachableFrom
  { g with reachableFrom := reachableFrom, leadsTo := leadsTo }

def addEdge (fromVertex toVertex : V) : Bool × DirectedAcyclicGraph V :=
  match g.graph.findVertex fromVertex, g.graph.findVertex toVertex with
  | some i, some j =>
    if i = j then (false, g)
    else if g.createsCycle i j then (false, g)
    else
      match g.graph.addEdge limits fromVertex toVertex with
      | (true, graph) => (true, { g with graph := graph }.updateConnectivity limits i j)
      | (false, graph) => (false, { g with graph := graph })
  | _, _ => (false, g)

inductive Operation (V : Type u)
  | addVertex (vertex : V)
  | addEdge (fromVertex toVertex : V)

def perform : Operation V → Option (DirectedAcyclicGraph V)
  | .addVertex vertex => some (g.addVertex limits vertex).2
  | .addEdge fromVertex toVertex => some (g.addEdge limits fromVertex toVertex).2

def Refuses (fromVertex toVertex : V) : Prop :=
  g.graph.findVertex fromVertex = none ∨ g.graph.findVertex toVertex = none ∨
    fromVertex = toVertex ∨
    ∃ i j, g.graph.findVertex fromVertex = some i ∧ g.graph.findVertex toVertex = some j ∧
      (TransGen g.graph.Edge j i ∨ (g.graph.successorsOf i).length ≥ limits.degree ∨
        (g.graph.predecessorsOf j).length ≥ limits.degree)

structure Consistent : Prop where
  acyclic : Acyclic g.graph.Edge
  leadsTo : ∀ i j, j ∈ g.leadsTo i ↔ TransGen g.graph.Edge i j
  reachableFrom : ∀ i j, j ∈ g.reachableFrom i ↔ TransGen g.graph.Edge j i
  addEdge : ∀ fromVertex toVertex,
    (g.addEdge limits fromVertex toVertex = (false, g) ↔ g.Refuses limits fromVertex toVertex) ∧
      (¬ g.Refuses limits fromVertex toVertex → (g.addEdge limits fromVertex toVertex).1 = true)

/-- An edge that is going to be added leads to nothing that its start does not lead to. -/
def Admits : Operation V → Prop
  | .addVertex _ => True
  | .addEdge fromVertex toVertex =>
    ∀ i ∈ g.graph.findVertex fromVertex, ∀ j ∈ g.graph.findVertex toVertex,
      i ≠ j → g.createsCycle i j = false → (g.graph.successorsOf i).length < limits.degree →
        (g.graph.predecessorsOf j).length < limits.degree →
          ∀ k ∈ g.leadsTo j, k ∈ g.leadsTo i

instance : (op : Operation V) → Decidable (g.Admits limits op)
  | .addVertex _ => inferInstanceAs (Decidable True)
  | .addEdge .. => inferInstanceAs (Decidable (∀ i ∈ _, _))

structure Exact : Prop where
  room : g.graph.numberOfVertices ≤ limits.vertex
  acyclic : Acyclic g.graph.Edge
  leadsToFits : ∀ k, IndexSet.Fits g.graph.numberOfVertices (g.leadsTo k)
  reachableFromFits : ∀ k, IndexSet.Fits g.graph.numberOfVertices (g.reachableFrom k)
  leadsTo : ∀ i j, j ∈ g.leadsTo i ↔ TransGen g.graph.Edge i j
  reachableFrom : ∀ i j, j ∈ g.reachableFrom i ↔ TransGen g.graph.Edge j i

section Connectivity

variable {limits : GraphLimits} {n i j : Nat} {table : Nat → List Nat}

theorem update_spec {table : Nat → List Nat} {set : List Nat} {k' : Nat} {p : Nat → Prop}
    (h : ∀ k, IndexSet.Fits n (table k)) (hset : IndexSet.Fits n set)
    (hmem : ∀ x, x ∈ set ↔ x ∈ table k' ∨ p x) :
    (∀ k, IndexSet.Fits n (Function.update table k' set k)) ∧
      ∀ k x, x ∈ Function.update table k' set k ↔ x ∈ table k ∨ (k = k' ∧ p x) := by
  refine ⟨fun k => ?_, fun k x => ?_⟩
  · by_cases hk : k = k'
    · rw [hk, Function.update_self]
      exact hset
    · rw [Function.update_of_ne hk]
      exact h k
  · by_cases hk : k = k'
    · subst hk
      rw [Function.update_self, hmem]
      simp only [true_and]
    · rw [Function.update_of_ne hk]
      simp only [hk, false_and, or_false]

theorem unifyAll_spec (source : Nat) (ks : List Nat) (hn : n ≤ limits.vertex)
    (h : ∀ k, IndexSet.Fits n (table k)) :
    (∀ k, IndexSet.Fits n (unifyAll limits source ks table k)) ∧
      ∀ k x, x ∈ unifyAll limits source ks table k ↔
        x ∈ table k ∨ (k ∈ ks ∧ x ∈ table source) := by
  induction ks generalizing table with
  | nil => exact ⟨h, fun k x => (or_iff_left fun hx => List.not_mem_nil hx.1).symm⟩
  | cons k' ks ih =>
    obtain ⟨hfits, hmem⟩ := (h k').unify hn (h source).lt
    obtain ⟨hstep, hone⟩ := update_spec h hfits hmem
    obtain ⟨hall, hspread⟩ := ih hstep
    refine ⟨hall, fun k x => (hspread k x).trans ?_⟩
    rw [hone, hone, List.mem_cons]
    tauto

omit [DecidableEq V] in
/-- Both tables after the update.  Into the sets of what lies behind `j` goes what leads to `i`,
but not `i` itself. -/
theorem updateConnectivity_spec {g : DirectedAcyclicGraph V} (hn : n ≤ limits.vertex)
    (hi : i < n) (hj : j < n) (hne : i ≠ j) (hto : ∀ k, IndexSet.Fits n (g.leadsTo k))
    (hfrom : ∀ k, IndexSet.Fits n (g.reachableFrom k)) (hback : j ∉ g.reachableFrom i) :
    (∀ k, IndexSet.Fits n ((g.updateConnectivity limits i j).leadsTo k)) ∧
    (∀ k, IndexSet.Fits n ((g.updateConnectivity limits i j).reachableFrom k)) ∧
    (∀ k x, x ∈ (g.updateConnectivity limits i j).leadsTo k ↔ x ∈ g.leadsTo k ∨
      ((k = i ∨ k ∈ g.reachableFrom i) ∧ (x ∈ g.leadsTo i ∨ x = j ∨ x ∈ g.leadsTo j))) ∧
    ∀ k x, x ∈ (g.updateConnectivity limits i j).reachableFrom k ↔ x ∈ g.reachableFrom k ∨
      (k = j ∧ x = i) ∨ ((k = j ∨ k ∈ g.leadsTo j) ∧ x ∈ g.reachableFrom i) := by
  obtain ⟨hinAdd, hinAddMem⟩ := (hfrom j).add hn hi
  obtain ⟨hin, hinMem⟩ := hinAdd.unify hn (hfrom i).lt
  obtain ⟨houtAdd, houtAddMem⟩ := (hto i).add hn hj
  obtain ⟨hout, houtMem⟩ := houtAdd.unify hn (hto j).lt
  have hinAll : ∀ x, x ∈ IndexSet.unify limits.vertex
      (IndexSet.add limits.vertex (g.reachableFrom j) i) (g.reachableFrom i) ↔
        x ∈ g.reachableFrom j ∨ x = i ∨ x ∈ g.reachableFrom i := fun x => by
    rw [hinMem, hinAddMem, or_assoc]
  have houtAll : ∀ x, x ∈ IndexSet.unify limits.vertex
      (IndexSet.add limits.vertex (g.leadsTo i) j) (g.leadsTo j) ↔
        x ∈ g.leadsTo i ∨ x = j ∨ x ∈ g.leadsTo j := fun x => by
    rw [houtMem, houtAddMem, or_assoc]
  obtain ⟨hfrom', hfromMem⟩ := update_spec hfrom hin hinAll
  obtain ⟨hto', htoMem⟩ := update_spec hto hout houtAll
  obtain ⟨hallTo, hallToMem⟩ := unifyAll_spec i (g.reachableFrom i) hn hto'
  obtain ⟨hallFrom, hallFromMem⟩ := unifyAll_spec i
    ((g.updateConnectivity limits i j).leadsTo j) hn hfrom'
  have hspread : (g.updateConnectivity limits i j).leadsTo = unifyAll limits i (g.reachableFrom i)
      (Function.update g.leadsTo i (IndexSet.unify limits.vertex
        (IndexSet.add limits.vertex (g.leadsTo i) j) (g.leadsTo j))) := by
    simp only [updateConnectivity, Function.update_of_ne hne]
  rw [← hspread] at hallTo hallToMem
  have hto'' : ∀ k x, x ∈ (g.updateConnectivity limits i j).leadsTo k ↔ x ∈ g.leadsTo k ∨
      ((k = i ∨ k ∈ g.reachableFrom i) ∧ (x ∈ g.leadsTo i ∨ x = j ∨ x ∈ g.leadsTo j)) := by
    intro k x
    rw [hallToMem, htoMem, htoMem]
    constructor
    · rintro ((hk | ⟨rfl, hx⟩) | ⟨hk, hx⟩)
      · exact Or.inl hk
      · exact Or.inr ⟨Or.inl rfl, Or.inr hx⟩
      · exact Or.inr ⟨Or.inr hk, hx.imp_right And.right⟩
    · rintro (hk | ⟨rfl | hk, hx⟩)
      · exact Or.inl (Or.inl hk)
      · exact Or.inl (hx.imp_right fun hx => ⟨rfl, hx⟩)
      · exact Or.inr ⟨hk, hx.imp_right fun hx => ⟨rfl, hx⟩⟩
  refine ⟨hallTo, hallFrom, hto'', fun k x => (hallFromMem k x).trans ?_⟩
  have hbehind : k ∈ (g.updateConnectivity limits i j).leadsTo j ↔ k ∈ g.leadsTo j := by
    rw [hto'', or_iff_left]
    exact fun h => h.1.elim (fun heq => hne heq.symm) hback
  rw [hbehind, hfromMem, hfromMem]
  constructor
  · rintro ((hx | ⟨rfl, rfl | hx⟩) | ⟨hk, hx | ⟨heq, -⟩⟩)
    · exact Or.inl hx
    · exact Or.inr (Or.inl ⟨rfl, rfl⟩)
    · exact Or.inr (Or.inr ⟨Or.inl rfl, hx⟩)
    · exact Or.inr (Or.inr ⟨Or.inr hk, hx⟩)
    · exact absurd heq hne
  · rintro (hx | ⟨rfl, rfl⟩ | ⟨rfl | hk, hx⟩)
    · exact Or.inl (Or.inl hx)
    · exact Or.inl (Or.inr ⟨rfl, Or.inl rfl⟩)
    · exact Or.inl (Or.inr ⟨rfl, Or.inr hx⟩)
    · exact Or.inr ⟨hk, Or.inl hx⟩

end Connectivity

section Runs

variable {limits : GraphLimits} {g : DirectedAcyclicGraph V} {a b : V}

omit [DecidableEq V] in
theorem Exact.createsCycle_iff (h : g.Exact limits) (i j : Nat) :
    g.createsCycle i j = true ↔ TransGen g.graph.Edge j i :=
  IndexSet.hasElement_iff.trans (h.leadsTo j i)

theorem Exact.addEdge_cases (h : g.Exact limits) (a b : V) :
    (g.Refuses limits a b ∧ g.addEdge limits a b = (false, g)) ∨
    (¬ g.Refuses limits a b ∧ ∃ i j graph, g.graph.findVertex a = some i ∧
      g.graph.findVertex b = some j ∧ i ≠ j ∧ ¬ TransGen g.graph.Edge j i ∧
      graph.numberOfVertices = g.graph.numberOfVertices ∧
      graph.Edge = AddEdge g.graph.Edge i j ∧
      g.addEdge limits a b = (true, { g with graph := graph }.updateConnectivity limits i j)) := by
  unfold addEdge
  cases ha : g.graph.findVertex a with
  | none => exact Or.inl ⟨Or.inl ha, rfl⟩
  | some i =>
    cases hb : g.graph.findVertex b with
    | none => exact Or.inl ⟨Or.inr (Or.inl hb), rfl⟩
    | some j =>
      dsimp only
      by_cases heq : i = j
      · rw [if_pos heq]
        exact Or.inl ⟨Or.inr (Or.inr (Or.inl ((DirectedGraph.findVertex_inj ha hb).mp heq))), rfl⟩
      rw [if_neg heq]
      by_cases hcycle : g.createsCycle i j = true
      · rw [if_pos hcycle]
        exact Or.inl ⟨Or.inr (Or.inr (Or.inr
          ⟨i, j, ha, hb, Or.inl ((h.createsCycle_iff i j).mp hcycle)⟩)), rfl⟩
      rw [if_neg hcycle]
      rw [h.createsCycle_iff] at hcycle
      rcases DirectedGraph.addEdge_spec limits ha hb heq with
        ⟨hdegree, hadd⟩ | ⟨hdegree, graph, hadd, hcount, hedge⟩
      · rw [hadd]
        exact Or.inl ⟨Or.inr (Or.inr (Or.inr ⟨i, j, ha, hb, Or.inr hdegree⟩)), rfl⟩
      · rw [hadd]
        refine Or.inr ⟨?_, i, j, graph, rfl, rfl, heq, hcycle, hcount, hedge, rfl⟩
        rintro (hnone | hnone | hsame | ⟨i', j', ha', hb', hrefuse⟩)
        · exact nomatch ha.symm.trans hnone
        · exact nomatch hb.symm.trans hnone
        · exact heq ((DirectedGraph.findVertex_inj ha hb).mpr hsame)
        · cases ha.symm.trans ha'
          cases hb.symm.trans hb'
          exact hrefuse.elim hcycle hdegree

theorem Exact.consistent (h : g.Exact limits) : g.Consistent limits := by
  refine ⟨h.acyclic, h.leadsTo, h.reachableFrom, fun a b => ?_⟩
  rcases h.addEdge_cases a b with ⟨hrefuse, hadd⟩ | ⟨haccept, i, j, graph, -, -, -, -, -, -, hadd⟩
  · exact ⟨iff_of_true hadd hrefuse, absurd hrefuse⟩
  · rw [hadd]
    exact ⟨iff_of_false (fun heq => nomatch (Prod.mk.inj heq).1) haccept, fun _ => rfl⟩

omit [DecidableEq V] in
theorem exact_empty : ({} : DirectedAcyclicGraph V).Exact limits := by
  have hedge : ∀ i j, ¬ ({} : DirectedGraph V).Edge i j := fun i j => List.not_mem_nil
  have hpath : ∀ i j, ¬ TransGen ({} : DirectedGraph V).Edge i j := by
    intro i j hij
    obtain ⟨k, -, hkj⟩ := TransGen.tail'_iff.mp hij
    exact hedge k j hkj
  exact {
    room := Nat.zero_le _
    acyclic := fun i => hpath i i
    leadsToFits := fun k => ⟨List.nodup_nil, fun x hx => absurd hx List.not_mem_nil⟩
    reachableFromFits := fun k => ⟨List.nodup_nil, fun x hx => absurd hx List.not_mem_nil⟩
    leadsTo := fun i j => iff_of_false List.not_mem_nil (hpath i j)
    reachableFrom := fun i j => iff_of_false List.not_mem_nil (hpath j i)
  }

theorem Exact.addVertex (h : g.Exact limits) (vertex : V) :
    (g.addVertex limits vertex).2.Exact limits := by
  obtain ⟨hroom, hgrow, hedge⟩ := DirectedGraph.addVertex_spec h.room vertex
  exact {
    room := hroom
    acyclic := hedge ▸ h.acyclic
    leadsToFits := fun k => ⟨(h.leadsToFits k).nodup,
      fun x hx => Nat.lt_of_lt_of_le ((h.leadsToFits k).lt x hx) hgrow⟩
    reachableFromFits := fun k => ⟨(h.reachableFromFits k).nodup,
      fun x hx => Nat.lt_of_lt_of_le ((h.reachableFromFits k).lt x hx) hgrow⟩
    leadsTo := hedge ▸ h.leadsTo
    reachableFrom := hedge ▸ h.reachableFrom
  }

omit [DecidableEq V] in
theorem Exact.updateConnectivity {i j : Nat} {graph : DirectedGraph V} (h : g.Exact limits)
    (hi : i < g.graph.numberOfVertices) (hj : j < g.graph.numberOfVertices) (hne : i ≠ j)
    (hback : ¬ TransGen g.graph.Edge j i)
    (hcount : graph.numberOfVertices = g.graph.numberOfVertices)
    (hedge : graph.Edge = AddEdge g.graph.Edge i j)
    (hbehind : ∀ k ∈ g.leadsTo j, k ∈ g.leadsTo i) :
    ({ g with graph := graph }.updateConnectivity limits i j).Exact limits := by
  obtain ⟨hto, hfrom, htoMem, hfromMem⟩ := updateConnectivity_spec (g := { g with graph := graph })
    h.room hi hj hne h.leadsToFits h.reachableFromFits (mt (h.reachableFrom i j).mp hback)
  have hcycle : ¬ ReflTransGen g.graph.Edge j i := fun hji =>
    (reflTransGen_iff_eq_or_transGen.mp hji).elim hne hback
  have hclosed : ∀ k, TransGen g.graph.Edge j k → TransGen g.graph.Edge i k := fun k hk =>
    (h.leadsTo i k).mp (hbehind k ((h.leadsTo j k).mpr hk))
  refine ⟨Nat.le_trans (Nat.le_of_eq hcount) h.room, ?_, hcount ▸ hto, hcount ▸ hfrom,
    fun k x => ?_, fun k x => ?_⟩
  · change Acyclic graph.Edge
    rw [hedge]
    exact (acyclic_addEdge h.acyclic).mpr hcycle
  · change _ ↔ TransGen graph.Edge k x
    rw [hedge, transGen_addEdge, htoMem]
    simp only [h.leadsTo, h.reachableFrom, reflTransGen_iff_eq_or_transGen]
    constructor
    · rintro (hx | ⟨rfl | hk, hx | rfl | hx⟩)
      · exact Or.inl hx
      · exact Or.inl hx
      · exact Or.inr ⟨Or.inl rfl, Or.inl rfl⟩
      · exact Or.inr ⟨Or.inl rfl, Or.inr hx⟩
      · exact Or.inl (hk.trans hx)
      · exact Or.inr ⟨Or.inr hk, Or.inl rfl⟩
      · exact Or.inr ⟨Or.inr hk, Or.inr hx⟩
    · rintro (hx | ⟨rfl | hk, hx⟩)
      · exact Or.inl hx
      · exact Or.inr ⟨Or.inl rfl, Or.inr hx⟩
      · exact Or.inr ⟨Or.inr hk, Or.inr hx⟩
  · change _ ↔ TransGen graph.Edge x k
    rw [hedge, transGen_addEdge, hfromMem]
    simp only [h.leadsTo, h.reachableFrom, reflTransGen_iff_eq_or_transGen]
    constructor
    · rintro (hx | ⟨rfl, rfl⟩ | ⟨hk, hx⟩)
      · exact Or.inl hx
      · exact Or.inr ⟨Or.inl rfl, Or.inl rfl⟩
      · exact Or.inr ⟨Or.inr hx, hk⟩
    · rintro (hx | ⟨rfl | hx, hk⟩)
      · exact Or.inl hx
      · exact hk.elim (fun heq => Or.inr (Or.inl ⟨heq, rfl⟩)) fun hk => Or.inl (hclosed k hk)
      · exact Or.inr (Or.inr ⟨hk, hx⟩)

theorem Exact.behind_of_consistent {i j : Nat} {graph : DirectedGraph V}
    (h : g.Exact limits)
    (hi : i < g.graph.numberOfVertices) (hj : j < g.graph.numberOfVertices) (hne : i ≠ j)
    (hback : ¬ TransGen g.graph.Edge j i) (hedge : graph.Edge = AddEdge g.graph.Edge i j)
    (hconsistent : ({ g with graph := graph }.updateConnectivity limits i j).Consistent limits) :
    ∀ k ∈ g.leadsTo j, k ∈ g.leadsTo i := by
  intro k hk
  have hjk := (h.leadsTo j k).mp hk
  have hik : TransGen graph.Edge i k := by
    rw [hedge, transGen_addEdge]
    exact Or.inr ⟨.refl, hjk.to_reflTransGen⟩
  have hmem := (hconsistent.reachableFrom k i).mpr hik
  obtain ⟨-, -, -, hfromMem⟩ := updateConnectivity_spec (g := { g with graph := graph })
    h.room hi hj hne h.leadsToFits h.reachableFromFits (mt (h.reachableFrom i j).mp hback)
  rcases (hfromMem k i).mp hmem with hold | ⟨rfl, -⟩ | ⟨-, hself⟩
  · exact (h.leadsTo i k).mpr ((h.reachableFrom k i).mp hold)
  · exact absurd hjk (h.acyclic k)
  · exact absurd ((h.reachableFrom i i).mp hself) (h.acyclic i)

theorem Exact.perform (h : g.Exact limits) {op : Operation V} {g' : DirectedAcyclicGraph V}
    (hstep : g.perform limits op = some g') :
    (g.Admits limits op → g'.Exact limits) ∧ (g'.Consistent limits → g.Admits limits op) := by
  cases op with
  | addVertex vertex =>
    cases hstep
    exact ⟨fun _ => h.addVertex vertex, fun _ => trivial⟩
  | addEdge a b =>
    cases hstep
    rcases h.addEdge_cases a b with
      ⟨hrefuse, hadd⟩ | ⟨haccept, i, j, graph, ha, hb, hne, hback, hcount, hedge, hadd⟩
    · rw [hadd]
      refine ⟨fun _ => h, fun _ i ha j hb hne hcycle hsuccessors hpredecessors => ?_⟩
      exfalso
      rcases hrefuse with hnone | hnone | hsame | ⟨i', j', ha', hb', hback | hdegree | hdegree⟩
      · exact nomatch ha.symm.trans hnone
      · exact nomatch hb.symm.trans hnone
      · exact hne ((DirectedGraph.findVertex_inj ha hb).mpr hsame)
      · cases ha.symm.trans ha'
        cases hb.symm.trans hb'
        exact Bool.false_ne_true (hcycle.symm.trans ((h.createsCycle_iff i j).mpr hback))
      · cases ha.symm.trans ha'
        exact Nat.not_lt.mpr hdegree hsuccessors
      · cases hb.symm.trans hb'
        exact Nat.not_lt.mpr hdegree hpredecessors
    · rw [hadd]
      have hi := DirectedGraph.findVertex_lt ha
      have hj := DirectedGraph.findVertex_lt hb
      have hcycle : g.createsCycle i j = false :=
        Bool.eq_false_iff.mpr (mt (h.createsCycle_iff i j).mp hback)
      have hdegree : (g.graph.successorsOf i).length < limits.degree ∧
          (g.graph.predecessorsOf j).length < limits.degree := by
        have hroom := not_or.mp fun hfull => haccept
          (Or.inr (Or.inr (Or.inr ⟨i, j, ha, hb, Or.inr hfull⟩)))
        exact ⟨Nat.not_le.mp hroom.1, Nat.not_le.mp hroom.2⟩
      constructor
      · intro hadmits
        exact h.updateConnectivity hi hj hne hback hcount hedge
          (hadmits i ha j hb hne hcycle hdegree.1 hdegree.2)
      · intro hconsistent i' ha' j' hb' _ _ _ _
        cases ha.symm.trans ha'
        cases hb.symm.trans hb'
        exact h.behind_of_consistent hi hj hne hback hedge hconsistent

theorem exists_run (limits : GraphLimits) (g : DirectedAcyclicGraph V)
    (ops : List (Operation V)) : ∃ g', runSteps (perform limits) g ops = some g' := by
  have hstep : ∀ (g : DirectedAcyclicGraph V) (op : Operation V), True →
      ∃ g', perform limits g op = some g' ∧ True := by
    intro g op _
    cases op with
    | addVertex vertex => exact ⟨_, rfl, trivial⟩
    | addEdge a b => exact ⟨_, rfl, trivial⟩
  obtain ⟨g', hrun, -⟩ := runSteps_total hstep ops g trivial
  exact ⟨g', hrun⟩

end Runs

/-- The graph stays acyclic, with exact tables, in all states of a run in which each new edge leads
only to what its start leads to already. -/
theorem consistent_iff_admits (limits : GraphLimits) (ops : List (Operation V)) :
    (∀ n g, runSteps (perform limits) {} (ops.take n) = some g → g.Consistent limits) ↔
      Meets (perform limits) (Admits limits) {} ops := by
  obtain ⟨g', hrun⟩ := exists_run limits {} ops
  exact runSteps_always_iff (I := Exact limits) (fun g h => h.consistent)
    (fun g op g' h => h.perform) ops {} g' exact_empty hrun

/-- The edge from 2 to 3 does not tell 3 that it can be reached from 0 and 1 when it comes last. -/
theorem addEdge_closes_cycle :
    ∃ g : DirectedAcyclicGraph Nat, runSteps (perform ⟨4, 4⟩) {}
      [.addVertex 0, .addVertex 1, .addVertex 2, .addVertex 3, .addEdge 1 2, .addEdge 0 1,
        .addEdge 2 3, .addEdge 3 0] = some g ∧ TransGen g.graph.Edge 0 0 := by
  have hedges : (runSteps (perform ⟨4, 4⟩) ({} : DirectedAcyclicGraph Nat)
      [.addVertex 0, .addVertex 1, .addVertex 2, .addVertex 3, .addEdge 1 2, .addEdge 0 1,
        .addEdge 2 3, .addEdge 3 0]).map (fun g => decide (g.graph.Edge 0 1 ∧ g.graph.Edge 1 2 ∧
          g.graph.Edge 2 3 ∧ g.graph.Edge 3 0)) = some true := by
    decide +kernel
  obtain ⟨g, hg, hedge⟩ := Option.map_eq_some_iff.mp hedges
  obtain ⟨h01, h12, h23, h30⟩ := of_decide_eq_true hedge
  exact ⟨g, hg, (((TransGen.single h01).tail h12).tail h23).tail h30⟩

end DirectedAcyclicGraph

end Iceoryx.Hoofs
