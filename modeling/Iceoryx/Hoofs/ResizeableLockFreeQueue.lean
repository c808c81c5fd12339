import Mathlib.Data.List.Nodup
import Iceoryx.Hoofs.SerialIndexQueue
import Iceoryx.Lib.Fifo
import Iceoryx.Lib.Refine

namespace Iceoryx.Hoofs

open Lib

structure ResizeableLockFreeQueue (A : Type) where
  freeIndices : SerialIndexQueue
  usedIndices : SerialIndexQueue
  buffer : Nat → Option A
  size : Nat
  capacity : Nat
  resizeInProgress : Bool
  unusedIndices : List Nat

namespace ResizeableLockFreeQueue

variable {A : Type} (maxCapacity fuel : Nat)

def construct : ResizeableLockFreeQueue A where
  freeIndices := SerialIndexQueue.constructFull maxCapacity
  usedIndices := SerialIndexQueue.constructEmpty maxCapacity
  buffer := fun _ => none
  size := 0
  capacity := maxCapacity
  resizeInProgress := false
  unusedIndices := []

def readBufferAt (q : ResizeableLockFreeQueue A) (index : Nat) : ResizeableLockFreeQueue A :=
  { q with
    size := (q.size + (2 ^ 64 - 1)) % 2 ^ 64
    buffer := Function.update q.buffer index none }

def writeBufferAt (q : ResizeableLockFreeQueue A) (index : Nat) (value : A) :
    ResizeableLockFreeQueue A :=
  { q with
    size := (q.size + 1) % 2 ^ 64
    buffer := Function.update q.buffer index (some value) }

def popFree (q : ResizeableLockFreeQueue A) : Option (Option Nat × ResizeableLockFreeQueue A) :=
  (q.freeIndices.pop maxCapacity fuel).map fun r => (r.1, { q with freeIndices := r.2 })

def popUsed (q : ResizeableLockFreeQueue A) : Option (Option Nat × ResizeableLockFreeQueue A) :=
  (q.usedIndices.pop maxCapacity fuel).map fun r => (r.1, { q with usedIndices := r.2 })

def pushFree (q : ResizeableLockFreeQueue A) (index : Nat) : Option (ResizeableLockFreeQueue A) :=
  (q.freeIndices.push maxCapacity fuel index).map fun free => { q with freeIndices := free }

def pushUsed (q : ResizeableLockFreeQueue A) (index : Nat) : Option (ResizeableLockFreeQueue A) :=
  (q.usedIndices.push maxCapacity fuel index).map fun used => { q with usedIndices := used }

def tryGetUsedIndex (q : ResizeableLockFreeQueue A) :
    Option (Option Nat × ResizeableLockFreeQueue A) :=
  (q.usedIndices.popIfSizeIsAtLeast maxCapacity fuel q.capacity).map fun r =>
    (r.1, { q with usedIndices := r.2 })

def tryPush (q : ResizeableLockFreeQueue A) (value : A) :
    Option (Bool × ResizeableLockFreeQueue A) :=
  match q.popFree maxCapacity fuel with
  | none => none
  | some (none, q) => some (false, q)
  | some (some index, q) =>
    ((q.writeBufferAt index value).pushUsed maxCapacity fuel index).map fun q => (true, q)

def pop (q : ResizeableLockFreeQueue A) : Option (Option A × ResizeableLockFreeQueue A) :=
  match q.popUsed maxCapacity fuel with
  | none => none
  | some (none, q) => some (none, q)
  | some (some index, q) =>
    ((q.readBufferAt index).pushFree maxCapacity fuel index).map fun q' => (q.buffer index, q')

def empty (q : ResizeableLockFreeQueue A) : Bool := q.usedIndices.empty maxCapacity

/-- One pass of the loop in `pushImpl`: the index to write to, and what was evicted for it. -/
def pushPass (q : ResizeableLockFreeQueue A) :
    Option (ResizeableLockFreeQueue A ⊕ (Nat × Option A × ResizeableLockFreeQueue A)) :=
  match q.popFree maxCapacity fuel with
  | none => none
  | some (some index, q) => some (.inr (index, none, q))
  | some (none, q) =>
    match q.tryGetUsedIndex maxCapacity fuel with
    | none => none
    | some (some index, q) => some (.inr (index, q.buffer index, q.readBufferAt index))
    | some (none, q) => some (.inl q)

def push (q : ResizeableLockFreeQueue A) (value : A) :
    Option (Option A × ResizeableLockFreeQueue A) :=
  (loop (pushPass maxCapacity fuel) fuel q).bind fun r =>
    ((r.2.2.writeBufferAt r.1 value).pushUsed maxCapacity fuel r.1).map fun q => (r.2.1, q)

def increasePass (toIncrease : Nat) : ResizeableLockFreeQueue A × Nat →
    Option ((ResizeableLockFreeQueue A × Nat) ⊕ ResizeableLockFreeQueue A)
  | (q, increased) =>
    if increased < toIncrease then
      match q.unusedIndices.getLast? with
      | none => some (.inr q)
      | some index =>
        let q : ResizeableLockFreeQueue A :=
          { q with
            capacity := (q.capacity + 1) % 2 ^ 64
            unusedIndices := q.unusedIndices.dropLast }
        (q.pushFree maxCapacity fuel index).map fun q => .inl (q, increased + 1)
    else some (.inr q)

def increaseCapacity (q : ResizeableLockFreeQueue A) (toIncrease : Nat) :
    Option (ResizeableLockFreeQueue A) :=
  loop (increasePass maxCapacity fuel toIncrease) fuel (q, 0)

/-- The index goes to the vector, which rejects it when it is full. -/
def retire (q : ResizeableLockFreeQueue A) (index : Nat) : ResizeableLockFreeQueue A :=
  { q with
    capacity := (q.capacity + (2 ^ 64 - 1)) % 2 ^ 64
    unusedIndices :=
      if q.unusedIndices.length < maxCapacity then q.unusedIndices ++ [index]
      else q.unusedIndices }

/-- Where `decreaseCapacity` is: the queue, what was handed to the `removeHandler` and the number
of indices retired so far. -/
structure Decrease (A : Type) where
  queue : ResizeableLockFreeQueue A
  removed : List A
  decreased : Nat

/-- The inner loops leave with `true` when the capacity has reached 0. -/
def retireFreePass (toDecrease : Nat) (d : Decrease A) :
    Option (Decrease A ⊕ (Decrease A × Bool)) :=
  if d.decreased < toDecrease then
    match d.queue.popFree maxCapacity fuel with
    | none => none
    | some (none, q) => some (.inr ({ d with queue := q }, false))
    | some (some index, q) =>
      let d' := { d with queue := q.retire maxCapacity index, decreased := d.decreased + 1 }
      if q.capacity = 1 then some (.inr (d', true)) else some (.inl d')
  else some (.inr (d, false))

def retireUsedPass (toDecrease : Nat) (d : Decrease A) :
    Option (Decrease A ⊕ (Decrease A × Bool)) :=
  if d.decreased < toDecrease then
    match d.queue.tryGetUsedIndex maxCapacity fuel with
    | none => none
    | some (none, q) => some (.inr ({ d with queue := q }, false))
    | some (some index, q) =>
      let d' : Decrease A :=
        { queue := (q.readBufferAt index).retire maxCapacity index
          removed := d.removed ++ (q.buffer index).toList
          decreased := d.decreased + 1 }
      if q.capacity = 1 then some (.inr (d', true)) else some (.inl d')
  else some (.inr (d, false))

def decreasePass (toDecrease : Nat) (d : Decrease A) : Option (Decrease A ⊕ Decrease A) :=
  if d.decreased < toDecrease then
    match loop (retireFreePass maxCapacity fuel toDecrease) fuel d with
    | none => none
    | some (d, true) => some (.inr d)
    | some (d, false) =>
      match loop (retireUsedPass maxCapacity fuel toDecrease) fuel d with
      | none => none
      | some (d, true) => some (.inr d)
      | some (d, false) => some (.inl d)
  else some (.inr d)

def decreaseCapacity (q : ResizeableLockFreeQueue A) (removed : List A) (toDecrease : Nat) :
    Option (Decrease A) :=
  loop (decreasePass maxCapacity fuel toDecrease) fuel
    { queue := q, removed := removed, decreased := 0 }

def resizePass (newCapacity : Nat) : ResizeableLockFreeQueue A × List A →
    Option ((ResizeableLockFreeQueue A × List A) ⊕ (ResizeableLockFreeQueue A × List A))
  | (q, removed) =>
    if q.capacity = newCapacity then some (.inr (q, removed))
    else if q.capacity < newCapacity then
      (q.increaseCapacity maxCapacity fuel (newCapacity - q.capacity)).map fun q =>
        .inl (q, removed)
    else
      (q.decreaseCapacity maxCapacity fuel removed (q.capacity - newCapacity)).map fun d =>
        .inl (d.queue, d.removed)

/-- The result comes with what was handed to the `removeHandler`. -/
def setCapacity (q : ResizeableLockFreeQueue A) (newCapacity : Nat) :
    Option ((Bool × List A) × ResizeableLockFreeQueue A) :=
  if newCapacity > maxCapacity then some ((false, []), q)
  else if q.resizeInProgress then some ((false, []), q)
  else
    (loop (resizePass maxCapacity fuel newCapacity) fuel
      ({ q with resizeInProgress := true }, [])).map fun r =>
        ((true, r.2), { r.1 with resizeInProgress := false })

/-- What the queue stands for.  `hand` holds the index that the running operation has taken and
not yet passed on. -/
structure View (A : Type) where
  popsFree : Nat
  popsUsed : Nat
  free : List Nat
  used : List Nat
  hand : List Nat
  unused : List Nat
  elements : List A
  resizing : Bool

structure Inv (L : Nat) (q : ResizeableLockFreeQueue A) (v : View A) : Prop where
  free : SerialIndexQueue.Rep L q.freeIndices v.popsFree v.free
  used : SerialIndexQueue.Rep L q.usedIndices v.popsUsed v.used
  unused : q.unusedIndices = v.unused
  partition : (v.hand ++ v.free ++ v.used ++ v.unused).Perm (List.range L)
  stored : v.used.map q.buffer = v.elements.map some
  size : q.size = v.elements.length
  capacity : q.capacity = v.free.length + v.used.length + v.hand.length
  resizing : q.resizeInProgress = v.resizing

def FitsAt (L w index : Nat) : Prop :=
  L ∣ 2 ^ 64 ∨ index + w / L * L < 2 ^ 64 ∧ w + 1 < 2 ^ 64

variable {maxCapacity fuel} {L : Nat} {q : ResizeableLockFreeQueue A} {v : View A}

theorem inv_construct (hL : SerialIndexQueue.ValidCapacity L) :
    Inv L (construct L : ResizeableLockFreeQueue A)
      { popsFree := 0
        popsUsed := L
        free := List.range L
        used := []
        hand := []
        unused := []
        elements := []
        resizing := false } where
  free := SerialIndexQueue.rep_constructFull hL
  used := SerialIndexQueue.rep_constructEmpty hL
  unused := rfl
  partition := by simp
  stored := rfl
  size := rfl
  capacity := by simp [construct]
  resizing := rfl

namespace Inv

theorem length_elements (h : Inv L q v) : v.elements.length = v.used.length := by
  have hlen := congrArg List.length h.stored
  simpa using hlen.symm

theorem length_partition (h : Inv L q v) :
    v.hand.length + v.free.length + v.used.length + v.unused.length = L := by
  have hlen := h.partition.length_eq
  simp only [List.length_append, List.length_range] at hlen
  exact hlen

theorem partition_of_count (h : Inv L q v) {hand free used unused : List Nat}
    (hcount : ∀ j, hand.count j + free.count j + used.count j + unused.count j =
      v.hand.count j + v.free.count j + v.used.count j + v.unused.count j) :
    (hand ++ free ++ used ++ unused).Perm (List.range L) := by
  refine List.Perm.trans (List.perm_iff_count.mpr fun j => ?_) h.partition
  simp only [List.count_append]
  exact hcount j

theorem nodup (h : Inv L q v) : (v.hand ++ v.free ++ v.used ++ v.unused).Nodup :=
  h.partition.nodup_iff.mpr List.nodup_range

theorem hand_lt (h : Inv L q v) {i : Nat} (hi : i ∈ v.hand) : i < L :=
  List.mem_range.mp (h.partition.subset (by simp [hi]))

theorem popFree_nil (h : Inv L q v) (hL : SerialIndexQueue.ValidCapacity L) (hfuel : 0 < fuel)
    (hfree : v.free = []) : q.popFree L fuel = some (none, q) := by
  have hrep := h.free
  rw [hfree] at hrep
  rw [popFree, hrep.pop_nil hL hfuel]
  rfl

theorem popFree_cons (h : Inv L q v) (hL : SerialIndexQueue.ValidCapacity L) (hfuel : 0 < fuel)
    {i : Nat} {rest : List Nat} (hfree : v.free = i :: rest) (hhand : v.hand = []) :
    ∃ q', q.popFree L fuel = some (some i, q') ∧
      Inv L q' { v with popsFree := v.popsFree + 1, free := rest, hand := [i] } := by
  have hrep := h.free
  rw [hfree] at hrep
  obtain ⟨free, hpop, hrep⟩ := hrep.pop_cons hL hfuel
  refine ⟨{ q with freeIndices := free }, ?_, hrep, h.used, h.unused, ?_, h.stored, h.size, ?_,
    h.resizing⟩
  · rw [popFree, hpop]
    rfl
  · have hpart := h.partition
    rw [hhand, hfree] at hpart
    exact hpart
  · have hcap := h.capacity
    rw [hhand, hfree] at hcap
    simp only [List.length_cons, List.length_nil] at hcap ⊢
    omega

theorem read (h : Inv L q v) (hL : SerialIndexQueue.ValidCapacity L) {i : Nat} {rest : List Nat}
    {a : A} {elements : List A}
    (hused : v.used = i :: rest) (helements : v.elements = a :: elements) (hhand : v.hand = [])
    {used : SerialIndexQueue} (hrep : SerialIndexQueue.Rep L used (v.popsUsed + 1) rest) :
    q.buffer i = some a ∧
      Inv L (readBufferAt { q with usedIndices := used } i)
        { v with popsUsed := v.popsUsed + 1, used := rest, hand := [i], elements := elements } := by
  have hstored := h.stored
  rw [hused, helements, List.map_cons, List.map_cons, List.cons.injEq] at hstored
  have hnot : i ∉ rest := by
    have hnodup := h.nodup
    rw [hused] at hnodup
    exact (List.nodup_cons.mp hnodup.of_append_left.of_append_right).1
  refine ⟨hstored.1, h.free, hrep, h.unused, ?_, ?_, ?_, ?_, h.resizing⟩
  · refine h.partition_of_count fun j => ?_
    rw [hhand, hused]
    simp only [List.count_cons, List.count_nil]
    omega
  · refine Eq.trans (List.map_congr_left fun j hj => ?_) hstored.2
    refine Function.update_of_ne ?_ _ _
    rintro rfl
    exact hnot hj
  · have hsize := h.size
    have hlen := h.length_elements
    have hall := h.length_partition
    rw [helements, List.length_cons] at hsize
    have hlt := hL.lt
    rw [helements, List.length_cons] at hlen
    change (q.size + (2 ^ 64 - 1)) % 2 ^ 64 = elements.length
    omega
  · have hcap := h.capacity
    rw [hhand, hused] at hcap
    simp only [readBufferAt, List.length_cons, List.length_nil] at hcap ⊢
    omega

theorem write (h : Inv L q v) (hL : SerialIndexQueue.ValidCapacity L) (hfuel : 0 < fuel)
    {i : Nat} (hhand : v.hand = [i]) (a : A)
    (hfits : FitsAt L (v.popsUsed + v.used.length) i) :
    ∃ q', (q.writeBufferAt i a).pushUsed L fuel i = some q' ∧
      Inv L q' { v with used := v.used ++ [i], hand := [], elements := v.elements ++ [a] } := by
  have hlen := h.length_elements
  have hall := h.length_partition
  have hlt := hL.lt
  have hi : i < L := h.hand_lt (by rw [hhand]; exact List.mem_singleton_self i)
  rw [hhand, List.length_singleton] at hall
  obtain ⟨used, hpush, hrep⟩ :=
    h.used.push hL (by omega) hi (h.used.fits_iff.mpr hfits) hfuel
  have hnot : i ∉ v.used := by
    have hnodup := h.nodup
    rw [hhand] at hnodup
    intro hmem
    exact (List.nodup_cons.mp hnodup).1 (by simp [hmem])
  refine ⟨{ q.writeBufferAt i a with usedIndices := used }, ?_, h.free, hrep, h.unused, ?_, ?_,
    ?_, ?_, h.resizing⟩
  · rw [pushUsed, writeBufferAt, hpush]
    rfl
  · refine h.partition_of_count fun j => ?_
    rw [hhand]
    simp only [List.count_append, List.count_cons, List.count_nil]
    omega
  · simp only [List.map_append, List.map_cons, List.map_nil, writeBufferAt, Function.update_self]
    rw [← h.stored]
    congr 1
    refine List.map_congr_left fun j hj => ?_
    refine Function.update_of_ne ?_ _ _
    rintro rfl
    exact hnot hj
  · have hsize := h.size
    rw [List.length_append, List.length_singleton]
    change (q.size + 1) % 2 ^ 64 = v.elements.length + 1
    omega
  · have hcap := h.capacity
    rw [hhand, List.length_singleton] at hcap
    simp only [writeBufferAt, List.length_append, List.length_cons, List.length_nil]
    omega

theorem pushFree (h : Inv L q v) (hL : SerialIndexQueue.ValidCapacity L) (hfuel : 0 < fuel)
    {i : Nat} (hhand : v.hand = [i]) (hfits : FitsAt L (v.popsFree + v.free.length) i) :
    ∃ q', q.pushFree L fuel i = some q' ∧
      Inv L q' { v with free := v.free ++ [i], hand := [] } := by
  have hall := h.length_partition
  have hi : i < L := h.hand_lt (by rw [hhand]; exact List.mem_singleton_self i)
  rw [hhand, List.length_singleton] at hall
  obtain ⟨free, hpush, hrep⟩ :=
    h.free.push hL (by omega) hi (h.free.fits_iff.mpr hfits) hfuel
  refine ⟨{ q with freeIndices := free }, ?_, hrep, h.used, h.unused, ?_, h.stored, h.size, ?_,
    h.resizing⟩
  · rw [ResizeableLockFreeQueue.pushFree, hpush]
    rfl
  · refine h.partition_of_count fun j => ?_
    rw [hhand]
    simp only [List.count_append, List.count_cons, List.count_nil]
    omega
  · have hcap := h.capacity
    rw [hhand, List.length_singleton] at hcap
    simp only [List.length_append, List.length_cons, List.length_nil]
    omega

theorem retire (h : Inv L q v) (hL : SerialIndexQueue.ValidCapacity L) {i : Nat}
    (hhand : v.hand = [i]) :
    Inv L (q.retire L i) { v with hand := [], unused := v.unused ++ [i] } := by
  have hall := h.length_partition
  have hlt := hL.lt
  rw [hhand, List.length_singleton] at hall
  have hroom : q.unusedIndices.length < L := by
    rw [h.unused]
    omega
  rw [ResizeableLockFreeQueue.retire, if_pos hroom, h.unused]
  refine ⟨h.free, h.used, rfl, ?_, h.stored, h.size, ?_, h.resizing⟩
  · refine h.partition_of_count fun j => ?_
    rw [hhand]
    simp only [List.count_append, List.count_cons, List.count_nil]
    omega
  · have hcap := h.capacity
    rw [hhand, List.length_singleton] at hcap
    change (q.capacity + (2 ^ 64 - 1)) % 2 ^ 64 = v.free.length + v.used.length + 0
    omega

theorem grow (h : Inv L q v) (hL : SerialIndexQueue.ValidCapacity L) {i : Nat} {rest : List Nat}
    (hhand : v.hand = []) (hunused : v.unused = rest ++ [i]) :
    Inv L { q with capacity := (q.capacity + 1) % 2 ^ 64, unusedIndices := rest }
      { v with hand := [i], unused := rest } := by
  have hall := h.length_partition
  have hlt := hL.lt
  rw [hhand, hunused, List.length_append, List.length_singleton, List.length_nil] at hall
  refine ⟨h.free, h.used, rfl, ?_, h.stored, h.size, ?_, h.resizing⟩
  · refine h.partition_of_count fun j => ?_
    rw [hhand, hunused]
    simp only [List.count_append, List.count_cons, List.count_nil]
    omega
  · have hcap := h.capacity
    rw [hhand, List.length_nil] at hcap
    change (q.capacity + 1) % 2 ^ 64 = v.free.length + v.used.length + 1
    omega

theorem tryPush_full (h : Inv L q v) (hL : SerialIndexQueue.ValidCapacity L) (hfuel : 0 < fuel)
    (hfree : v.free = []) (a : A) : q.tryPush L fuel a = some (false, q) := by
  rw [tryPush, h.popFree_nil hL hfuel hfree]

theorem popFree_write (h : Inv L q v) (hL : SerialIndexQueue.ValidCapacity L) (hfuel : 0 < fuel)
    (hhand : v.hand = []) {i : Nat} {rest : List Nat} (hfree : v.free = i :: rest) (a : A)
    (hfits : FitsAt L (v.popsUsed + v.used.length) i) :
    ∃ m q', q.popFree L fuel = some (some i, m) ∧
      (m.writeBufferAt i a).pushUsed L fuel i = some q' ∧
      Inv L q' { v with
        popsFree := v.popsFree + 1
        free := rest
        used := v.used ++ [i]
        hand := []
        elements := v.elements ++ [a] } := by
  obtain ⟨m, hpop, hm⟩ := h.popFree_cons hL hfuel hfree hhand
  obtain ⟨q', hpush, hq'⟩ := hm.write hL hfuel rfl a hfits
  exact ⟨m, q', hpop, hpush, hq'⟩

theorem tryPush_room (h : Inv L q v) (hL : SerialIndexQueue.ValidCapacity L) (hfuel : 0 < fuel)
    (hhand : v.hand = []) {i : Nat} {rest : List Nat} (hfree : v.free = i :: rest) (a : A)
    (hfits : FitsAt L (v.popsUsed + v.used.length) i) :
    ∃ q', q.tryPush L fuel a = some (true, q') ∧
      Inv L q' { v with
        popsFree := v.popsFree + 1
        free := rest
        used := v.used ++ [i]
        hand := []
        elements := v.elements ++ [a] } := by
  obtain ⟨m, q', hpop, hpush, hq'⟩ := h.popFree_write hL hfuel hhand hfree a hfits
  refine ⟨q', ?_, hq'⟩
  rw [tryPush, hpop]
  simp only [hpush, Option.map_some]

theorem pop_empty (h : Inv L q v) (hL : SerialIndexQueue.ValidCapacity L) (hfuel : 0 < fuel)
    (hused : v.used = []) : q.pop L fuel = some (none, q) := by
  have hrep := h.used
  rw [hused] at hrep
  rw [pop, popUsed, hrep.pop_nil hL hfuel]
  rfl

theorem pop_cons (h : Inv L q v) (hL : SerialIndexQueue.ValidCapacity L) (hfuel : 0 < fuel)
    (hhand : v.hand = []) {i : Nat} {rest : List Nat} (hused : v.used = i :: rest) {a : A}
    {elements : List A} (helements : v.elements = a :: elements)
    (hfits : FitsAt L (v.popsFree + v.free.length) i) :
    ∃ q', q.pop L fuel = some (some a, q') ∧
      Inv L q' { v with
        popsUsed := v.popsUsed + 1
        free := v.free ++ [i]
        used := rest
        hand := []
        elements := elements } := by
  have hrep := h.used
  rw [hused] at hrep
  obtain ⟨used, hpop, hrep⟩ := hrep.pop_cons hL hfuel
  obtain ⟨hread, hm⟩ := h.read hL hused helements hhand hrep
  obtain ⟨q', hpush, hq'⟩ := hm.pushFree hL hfuel rfl hfits
  refine ⟨q', ?_, hq'⟩
  rw [pop, popUsed, hpop]
  simp only [Option.map_some, hpush, hread]

theorem push_room (h : Inv L q v) (hL : SerialIndexQueue.ValidCapacity L) (hfuel : 0 < fuel)
    (hhand : v.hand = []) {i : Nat} {rest : List Nat} (hfree : v.free = i :: rest) (a : A)
    (hfits : FitsAt L (v.popsUsed + v.used.length) i) :
    ∃ q', q.push L fuel a = some (none, q') ∧
      Inv L q' { v with
        popsFree := v.popsFree + 1
        free := rest
        used := v.used ++ [i]
        hand := []
        elements := v.elements ++ [a] } := by
  obtain ⟨m, q', hpop, hpush, hq'⟩ := h.popFree_write hL hfuel hhand hfree a hfits
  refine ⟨q', ?_, hq'⟩
  have hpass : pushPass L fuel q = some (.inr (i, none, m)) := by
    rw [pushPass, hpop]
  rw [push, loop_leave hpass hfuel]
  simp only [Option.bind_some, hpush, Option.map_some]

theorem tryGetUsedIndex_full (h : Inv L q v) (hL : SerialIndexQueue.ValidCapacity L)
    (fuel : Nat) (hhand : v.hand = []) (hfree : v.free = []) {i : Nat} {rest : List Nat}
    (hused : v.used = i :: rest) {a : A} {elements : List A}
    (helements : v.elements = a :: elements) :
    ∃ m, q.tryGetUsedIndex L fuel = some (some i, m) ∧ m.buffer i = some a ∧
      m.capacity = q.capacity ∧
      Inv L (m.readBufferAt i) { v with
        popsUsed := v.popsUsed + 1
        used := rest
        hand := [i]
        elements := elements } := by
  have hrep := h.used
  have hcap := h.capacity
  rw [hused] at hrep
  rw [hfree, hused, hhand] at hcap
  simp only [List.length_cons, List.length_nil] at hcap
  obtain ⟨used, hpop, hrep⟩ :=
    hrep.popIfSizeIsAtLeast_cons (n := q.capacity) hL fuel (by omega) (by omega)
  obtain ⟨hread, hm⟩ := h.read hL hused helements hhand hrep
  refine ⟨{ q with usedIndices := used }, ?_, hread, rfl, hm⟩
  rw [tryGetUsedIndex, hpop]
  rfl

theorem pushPass_full (h : Inv L q v) (hL : SerialIndexQueue.ValidCapacity L) (hfuel : 0 < fuel)
    (hhand : v.hand = []) (hfree : v.free = []) {i : Nat} {rest : List Nat}
    (hused : v.used = i :: rest) {a : A} {elements : List A}
    (helements : v.elements = a :: elements) :
    ∃ m, pushPass L fuel q = some (.inr (i, some a, m)) ∧
      Inv L m { v with
        popsUsed := v.popsUsed + 1
        used := rest
        hand := [i]
        elements := elements } := by
  obtain ⟨m, htry, hread, _, hm⟩ :=
    h.tryGetUsedIndex_full hL fuel hhand hfree hused helements
  refine ⟨m.readBufferAt i, ?_, hm⟩
  rw [pushPass, h.popFree_nil hL hfuel hfree]
  simp only [htry, hread]

theorem push_full (h : Inv L q v) (hL : SerialIndexQueue.ValidCapacity L) (hfuel : 0 < fuel)
    (hhand : v.hand = []) (hfree : v.free = []) {i : Nat} {rest : List Nat}
    (hused : v.used = i :: rest) {a : A} {elements : List A}
    (helements : v.elements = a :: elements) (b : A)
    (hfits : FitsAt L (v.popsUsed + v.used.length) i) :
    ∃ q', q.push L fuel b = some (some a, q') ∧
      Inv L q' { v with
        popsUsed := v.popsUsed + 1
        used := rest ++ [i]
        hand := []
        elements := elements ++ [b] } := by
  obtain ⟨m, hpass, hm⟩ := h.pushPass_full hL hfuel hhand hfree hused helements
  rw [hused, List.length_cons,
    show v.popsUsed + (rest.length + 1) = v.popsUsed + 1 + rest.length by omega] at hfits
  obtain ⟨q', hpush, hq'⟩ := hm.write hL hfuel rfl b hfits
  refine ⟨q', ?_, hq'⟩
  rw [push, loop_leave hpass hfuel]
  simp only [Option.bind_some, hpush, Option.map_some]

theorem push_never (h : Inv L q v) (hL : SerialIndexQueue.ValidCapacity L)
    (hzero : q.capacity = 0) (a : A) (fuel : Nat) : q.push L fuel a = none := by
  have hcap := h.capacity
  have hfree : v.free = [] := List.eq_nil_of_length_eq_zero (by omega)
  have hused : v.used = [] := List.eq_nil_of_length_eq_zero (by omega)
  have hrep := h.used
  rw [hused] at hrep
  have hloop : loop (pushPass L fuel) fuel q = none := by
    rcases Nat.eq_zero_or_pos fuel with rfl | hfuel
    · rfl
    · refine loop_never (I := fun m => m = q) ?_ fuel q rfl
      rintro m rfl
      have htry : m.tryGetUsedIndex L fuel = some (none, m) := by
        rw [tryGetUsedIndex, SerialIndexQueue.popIfSizeIsAtLeast, if_pos hzero,
          hrep.pop_nil hL hfuel]
        rfl
      refine ⟨m, ?_, rfl⟩
      rw [pushPass, h.popFree_nil hL hfuel hfree]
      simp only [htry]
  rw [push, hloop, Option.bind_none]

theorem increaseCapacity (h : Inv L q v) (hL : SerialIndexQueue.ValidCapacity L)
    (hhand : v.hand = []) {n : Nat} (hn : q.capacity + n ≤ L) (hfuel : n < fuel)
    (hfits : ∀ k i, (v.unused.reverse.take n)[k]? = some i →
      FitsAt L (v.popsFree + v.free.length + k) i) :
    ∃ q', q.increaseCapacity L fuel n = some q' ∧
      Inv L q' { v with
        free := v.free ++ v.unused.reverse.take n
        unused := (v.unused.reverse.drop n).reverse } := by
  have hall := h.length_partition
  have hcap := h.capacity
  rw [hhand, List.length_nil] at hall hcap
  refine loop_returns (S := ResizeableLockFreeQueue A × Nat)
    (I := fun s => s.2 ≤ n ∧ Inv L s.1 { v with
      free := v.free ++ v.unused.reverse.take s.2
      unused := (v.unused.reverse.drop s.2).reverse })
    (Q := fun q' => Inv L q' { v with
      free := v.free ++ v.unused.reverse.take n
      unused := (v.unused.reverse.drop n).reverse })
    (fun s => n - s.2) ?_ fuel (q, 0) ⟨Nat.zero_le n, ?_⟩ hfuel
  · rintro ⟨m, k⟩ ⟨hk, hm⟩
    rcases Nat.lt_or_eq_of_le hk with hlt | rfl
    · have hlen : k < v.unused.reverse.length := by
        rw [List.length_reverse]
        simp only at hlt
        omega
      have hsplit : (v.unused.reverse.drop k).reverse =
          (v.unused.reverse.drop (k + 1)).reverse ++ [v.unused.reverse[k]] := by
        rw [List.drop_eq_getElem_cons hlen, List.reverse_cons]
      have hback : m.unusedIndices.getLast? = some v.unused.reverse[k] := by
        rw [hm.unused, hsplit, List.getLast?_concat]
      have hdrop : m.unusedIndices.dropLast = (v.unused.reverse.drop (k + 1)).reverse := by
        rw [hm.unused, hsplit, List.dropLast_concat]
      have hgrow := hm.grow hL hhand hsplit
      have hfit : FitsAt L (v.popsFree + (v.free ++ v.unused.reverse.take k).length)
          v.unused.reverse[k] := by
        rw [List.length_append, List.length_take, Nat.min_eq_left hlen.le, ← Nat.add_assoc]
        refine hfits k _ ?_
        rw [List.getElem?_take_of_lt hlt, List.getElem?_eq_getElem hlen]
      obtain ⟨m', hpush, hm'⟩ :=
        hgrow.pushFree hL (Nat.zero_lt_of_lt hfuel) rfl hfit
      refine Or.inr ⟨(m', k + 1), ?_, ⟨hlt, ?_⟩, by simp only at hlt ⊢; omega⟩
      · simp only [increasePass]
        rw [if_pos hlt, hback, hdrop]
        simp only [hpush, Option.map_some]
      · rw [List.take_succ_eq_append_getElem hlen, ← List.append_assoc]
        rw [hhand]
        exact hm'
    · refine Or.inl ⟨m, ?_, hm⟩
      simp only [increasePass]
      rw [if_neg (Nat.lt_irrefl _)]
  · simpa using h

end Inv

/-- The indices `decreaseCapacity` has retired were free, or held the oldest elements and no
index was free any more. -/
structure Shrinking (L : Nat) (v : View A) (start toDecrease : Nat) (d : Decrease A)
    (v' : View A) : Prop where
  inv : Inv L d.queue v'
  hand : v'.hand = []
  resizing : v'.resizing = v.resizing
  elements : d.removed ++ v'.elements = v.elements
  capacity : d.queue.capacity + d.decreased = start
  order : d.removed = [] ∨ v'.free = []
  decreased : d.decreased ≤ toDecrease

section Decrease

variable {start n : Nat} {d : Decrease A} {v' : View A}

theorem retireFree_returns (hL : SerialIndexQueue.ValidCapacity L) (h : Shrinking L v start n d v')
    (hfuel : n < fuel) :
    ∃ r, loop (retireFreePass L fuel n) fuel d = some r ∧
      ∃ v', Shrinking L v start n r.1 v' ∧ (r.2 = true → r.1.queue.capacity = 0) ∧
        (r.2 = false → r.1.decreased = n ∨ v'.free = []) := by
  refine loop_returns (I := fun d => ∃ v', Shrinking L v start n d v')
    (Q := fun r : Decrease A × Bool => ∃ v', Shrinking L v start n r.1 v' ∧
      (r.2 = true → r.1.queue.capacity = 0) ∧ (r.2 = false → r.1.decreased = n ∨ v'.free = []))
    (fun d => n - d.decreased) ?_ fuel d ⟨v', h⟩ (by omega)
  rintro d ⟨v', h⟩
  rcases Nat.lt_or_eq_of_le h.decreased with hlt | heq
  · cases hfree : v'.free with
    | nil =>
      refine Or.inl ⟨(d, false), ?_, v', h, nofun, fun _ => Or.inr hfree⟩
      rw [retireFreePass, if_pos hlt, h.inv.popFree_nil hL (by omega) hfree]
    | cons i rest =>
      obtain ⟨m, hpop, hm⟩ :=
        h.inv.popFree_cons hL (Nat.zero_lt_of_lt hfuel) hfree h.hand
      have hremoved : d.removed = [] := h.order.resolve_right (by simp [hfree])
      have hnext := hm.retire hL rfl
      have hcap := h.inv.capacity
      have hcapm := hm.capacity
      have hcap' := hnext.capacity
      have hstart := h.capacity
      rw [hfree, h.hand] at hcap
      simp only [List.length_cons, List.length_nil] at hcap hcapm hcap'
      have hshrink : Shrinking L v start n
          { d with queue := m.retire L i, decreased := d.decreased + 1 } _ :=
        { inv := hnext
          hand := rfl
          resizing := h.resizing
          elements := h.elements
          capacity := by
            simp only
            omega
          order := Or.inl hremoved
          decreased := hlt }
      by_cases hone : m.capacity = 1
      · refine Or.inl ⟨(_, true), ?_, _, hshrink, fun _ => ?_, nofun⟩
        · rw [retireFreePass, if_pos hlt, hpop]
          simp only
          rw [if_pos hone]
        · simp only
          omega
      · refine Or.inr ⟨_, ?_, ⟨_, hshrink⟩, ?_⟩
        · rw [retireFreePass, if_pos hlt, hpop]
          simp only
          rw [if_neg hone]
        · simp only
          omega
  · refine Or.inl ⟨(d, false), ?_, v', h, nofun, fun _ => Or.inl heq⟩
    rw [retireFreePass, if_neg (by omega)]

theorem retireUsed_returns (hL : SerialIndexQueue.ValidCapacity L) (hn : n ≤ start)
    (h : Shrinking L v start n d v') (hfree : d.decreased = n ∨ v'.free = [])
    (hfuel : n < fuel) :
    ∃ r, loop (retireUsedPass L fuel n) fuel d = some r ∧
      ∃ v', Shrinking L v start n r.1 v' ∧ (r.2 = true → r.1.queue.capacity = 0) ∧
        (r.2 = false → r.1.decreased = n) := by
  refine loop_returns
    (I := fun d => ∃ v', Shrinking L v start n d v' ∧ (d.decreased = n ∨ v'.free = []))
    (Q := fun r : Decrease A × Bool => ∃ v', Shrinking L v start n r.1 v' ∧
      (r.2 = true → r.1.queue.capacity = 0) ∧ (r.2 = false → r.1.decreased = n))
    (fun d => n - d.decreased) ?_ fuel d ⟨v', h, hfree⟩ (by omega)
  rintro d ⟨v', h, hfree⟩
  rcases Nat.lt_or_eq_of_le h.decreased with hlt | heq
  · replace hfree : v'.free = [] := hfree.resolve_left (by omega)
    have hcap := h.inv.capacity
    have hstart := h.capacity
    have hlen := h.inv.length_elements
    rw [hfree, h.hand] at hcap
    simp only [List.length_nil] at hcap
    obtain ⟨i, rest, hused⟩ := List.exists_cons_of_length_pos (l := v'.used) (by omega)
    rw [hused, List.length_cons] at hlen hcap
    obtain ⟨a, elements, helements⟩ := List.exists_cons_of_length_pos (l := v'.elements) (by omega)
    obtain ⟨m, htry, hread, hmcap, hm⟩ :=
      h.inv.tryGetUsedIndex_full hL fuel h.hand hfree hused helements
    have hnext := hm.retire hL rfl
    have hcap' := hnext.capacity
    simp only [hfree, List.length_nil] at hcap'
    have hshrink : Shrinking L v start n
        { queue := (m.readBufferAt i).retire L i
          removed := d.removed ++ (m.buffer i).toList
          decreased := d.decreased + 1 } _ :=
      { inv := hnext
        hand := rfl
        resizing := h.resizing
        elements := by
          rw [← h.elements, helements, hread, List.append_assoc]
          rfl
        capacity := by
          simp only
          omega
        order := Or.inr hfree
        decreased := hlt }
    by_cases hone : m.capacity = 1
    · refine Or.inl ⟨(_, true), ?_, _, hshrink, fun _ => ?_, nofun⟩
      · rw [retireUsedPass, if_pos hlt, htry]
        simp only
        rw [if_pos hone]
      · simp only
        omega
    · refine Or.inr ⟨_, ?_, ⟨_, hshrink, Or.inr hfree⟩, ?_⟩
      · rw [retireUsedPass, if_pos hlt, htry]
        simp only
        rw [if_neg hone]
      · simp only
        omega
  · refine Or.inl ⟨(d, false), ?_, v', h, nofun, fun _ => heq⟩
    rw [retireUsedPass, if_neg (by omega)]

theorem decreaseCapacity_returns (hL : SerialIndexQueue.ValidCapacity L) (h : Inv L q v)
    (hhand : v.hand = []) (hn : n ≤ q.capacity) (hfuel : n < fuel) :
    ∃ d, q.decreaseCapacity L fuel [] n = some d ∧
      ∃ v', Shrinking L v q.capacity n d v' ∧ d.queue.capacity = q.capacity - n := by
  have hstart : Shrinking L v q.capacity n { queue := q, removed := [], decreased := 0 } v :=
    { inv := h
      hand := hhand
      resizing := rfl
      elements := rfl
      capacity := rfl
      order := Or.inl rfl
      decreased := Nat.zero_le n }
  refine loop_returns (I := fun d => ∃ v', Shrinking L v q.capacity n d v')
    (Q := fun d => ∃ v', Shrinking L v q.capacity n d v' ∧ d.queue.capacity = q.capacity - n)
    (fun d => n - d.decreased) ?_ fuel _ ⟨v, hstart⟩ hfuel
  rintro d ⟨v', h⟩
  rcases Nat.lt_or_eq_of_le h.decreased with hlt | heq
  · obtain ⟨⟨d₁, b₁⟩, hloop₁, v₁, h₁, hzero₁, hleft₁⟩ := retireFree_returns hL h hfuel
    have hcap₁ := h₁.capacity
    have hdec₁ := h₁.decreased
    cases b₁ with
    | true =>
      have hzero := hzero₁ rfl
      refine Or.inl ⟨d₁, ?_, v₁, h₁, by simp only at hzero hcap₁ hdec₁ ⊢; omega⟩
      rw [decreasePass, if_pos hlt, hloop₁]
    | false =>
      obtain ⟨⟨d₂, b₂⟩, hloop₂, v₂, h₂, hzero₂, hleft₂⟩ :=
        retireUsed_returns hL hn h₁ (hleft₁ rfl) hfuel
      have hcap₂ := h₂.capacity
      have hdec₂ := h₂.decreased
      cases b₂ with
      | true =>
        have hzero := hzero₂ rfl
        refine Or.inl ⟨d₂, ?_, v₂, h₂, by simp only at hzero hcap₂ hdec₂ ⊢; omega⟩
        rw [decreasePass, if_pos hlt, hloop₁]
        simp only
        rw [hloop₂]
      | false =>
        have hall := hleft₂ rfl
        refine Or.inr ⟨d₂, ?_, ⟨v₂, h₂⟩, by simp only at hall ⊢; omega⟩
        rw [decreasePass, if_pos hlt, hloop₁]
        simp only
        rw [hloop₂]
  · refine Or.inl ⟨d, ?_, v', h, ?_⟩
    · rw [decreasePass, if_neg (by omega)]
    · have hcap := h.capacity
      omega

end Decrease

theorem setCapacity_returns (hL : SerialIndexQueue.ValidCapacity L) (h : Inv L q v)
    (hhand : v.hand = []) (hresizing : v.resizing = false) {n : Nat} (hn : n ≤ L)
    (hfuel : L + 1 < fuel)
    (hfits : ∀ k i, (v.unused.reverse.take (n - q.capacity))[k]? = some i →
      FitsAt L (v.popsFree + v.free.length + k) i) :
    ∃ q' v', q.setCapacity L fuel n =
        some ((true, v.elements.take (v.elements.length - n)), q') ∧
      Inv L q' v' ∧ v'.hand = [] ∧ v'.resizing = false ∧
      v'.elements = v.elements.drop (v.elements.length - n) ∧ q'.capacity = n := by
  have hcap := h.capacity
  have hlen := h.length_elements
  have hall := h.length_partition
  rw [hhand, List.length_nil] at hcap hall
  obtain ⟨m, v', removed, hloop, hm, hhand', hremoved, helements, hcapacity⟩ :
      ∃ m v' removed, loop (resizePass L fuel n) fuel ({ q with resizeInProgress := true }, []) =
          some (m, removed) ∧ Inv L m v' ∧ v'.hand = [] ∧
        removed = v.elements.take (v.elements.length - n) ∧
        v'.elements = v.elements.drop (v.elements.length - n) ∧ m.capacity = n := by
    have hstart : Inv L { q with resizeInProgress := true } { v with resizing := true } :=
      ⟨h.free, h.used, h.unused, h.partition, h.stored, h.size, h.capacity, rfl⟩
    have hleave : ∀ m removed, m.capacity = n → resizePass L fuel n (m, removed) =
        some (.inr (m, (removed : List A))) := by
      intro m removed hm
      rw [resizePass, if_pos hm]
    rcases Nat.lt_trichotomy q.capacity n with hlt | heq | hgt
    · obtain ⟨m, hgrow, hm⟩ := hstart.increaseCapacity hL hhand (n := n - q.capacity)
        (show q.capacity + (n - q.capacity) ≤ L by omega)
        (show n - q.capacity < fuel by omega) hfits
      have hmcap : m.capacity = n := by
        have hcap' := hm.capacity
        simp only [hhand, List.length_append, List.length_take, List.length_reverse,
          List.length_nil] at hcap'
        omega
      refine ⟨m, _, [], loop_second ?_ (hleave m [] hmcap) (by omega), hm, hhand, ?_, ?_, hmcap⟩
      · simp only [resizePass]
        rw [if_neg (by omega), if_pos hlt, hgrow]
        rfl
      · rw [show v.elements.length - n = 0 by omega, List.take_zero]
      · rw [show v.elements.length - n = 0 by omega, List.drop_zero]
    · refine ⟨{ q with resizeInProgress := true }, _, [],
        loop_leave (hleave _ [] heq) (by omega), hstart, hhand, ?_, ?_, heq⟩
      · rw [show v.elements.length - n = 0 by omega, List.take_zero]
      · rw [show v.elements.length - n = 0 by omega, List.drop_zero]
    · obtain ⟨d, hshrink, v', hd, hdcap⟩ := decreaseCapacity_returns hL hstart hhand
        (n := q.capacity - n) (show q.capacity - n ≤ q.capacity by omega)
        (show q.capacity - n < fuel by omega)
      have hdcap : d.queue.capacity = n := by
        rw [hdcap]
        simp only
        omega
      have helements : d.removed ++ v'.elements = v.elements := hd.elements
      have hlen' := hd.inv.length_elements
      have hcap' := hd.inv.capacity
      have hsplit := congrArg List.length helements
      rw [List.length_append] at hsplit
      rw [hd.hand, List.length_nil, hdcap] at hcap'
      have hcount : v.elements.length - n = d.removed.length := by
        rcases hd.order with hnil | hfree
        · rw [hnil, List.length_nil] at hsplit ⊢
          omega
        · rw [hfree, List.length_nil] at hcap'
          omega
      refine ⟨d.queue, v', d.removed, loop_second ?_ (hleave _ _ hdcap) (by omega), hd.inv,
        hd.hand, ?_, ?_, hdcap⟩
      · simp only [resizePass]
        rw [if_neg (by omega), if_neg (by omega), hshrink]
        rfl
      · rw [hcount, ← helements, List.take_left]
      · rw [hcount, ← helements, List.drop_left]
  refine ⟨{ m with resizeInProgress := false }, { v' with resizing := false }, ?_,
    ⟨hm.free, hm.used, hm.unused, hm.partition, hm.stored, hm.size, hm.capacity, rfl⟩, hhand',
    rfl, helements, hcapacity⟩
  rw [setCapacity, if_neg (by omega), h.resizing, hresizing, if_neg (by decide), hloop, hremoved]
  rfl

inductive Operation (A : Type)
  | tryPush (value : A)
  | push (value : A)
  | pop
  | setCapacity (newCapacity : Nat)
  | setCapacityWithHandler (newCapacity : Nat)
  | size
  | empty
  | capacity

inductive Answer (A : Type)
  | accepted (result : Bool)
  | evicted (value : Option A)
  | popped (value : Option A)
  | resized (result : Bool)
  | resizedWithHandler (result : Bool) (removed : List A)
  | size (result : Nat)
  | empty (result : Bool)
  | capacity (result : Nat)

def perform (maxCapacity fuel : Nat) (q : ResizeableLockFreeQueue A) :
    Operation A → Option (Answer A × ResizeableLockFreeQueue A)
  | .tryPush value => (q.tryPush maxCapacity fuel value).map fun r => (.accepted r.1, r.2)
  | .push value => (q.push maxCapacity fuel value).map fun r => (.evicted r.1, r.2)
  | .pop => (q.pop maxCapacity fuel).map fun r => (.popped r.1, r.2)
  | .setCapacity n => (q.setCapacity maxCapacity fuel n).map fun r => (.resized r.1.1, r.2)
  | .setCapacityWithHandler n =>
    (q.setCapacity maxCapacity fuel n).map fun r => (.resizedWithHandler r.1.1 r.1.2, r.2)
  | .size => some (.size q.size, q)
  | .empty => some (.empty (q.empty maxCapacity), q)
  | .capacity => some (.capacity q.capacity, q)

/-- `push` is not allowed while the queue has no capacity at all. -/
def fifoStep (maxCapacity : Nat) (f : Fifo A) : Operation A → Option (Answer A × Fifo A)
  | .tryPush value => some (.accepted (f.tryPush value).1, (f.tryPush value).2)
  | .push value =>
    if f.capacity = 0 then none else some (.evicted (f.push value).1, (f.push value).2)
  | .pop => some (.popped f.pop.1, f.pop.2)
  | .setCapacity n =>
    let r := f.setCapacity maxCapacity n
    some (.resized r.1.1, r.2)
  | .setCapacityWithHandler n =>
    let r := f.setCapacity maxCapacity n
    some (.resizedWithHandler r.1.1 r.1.2, r.2)
  | .size => some (.size f.elements.length, f)
  | .empty => some (.empty f.elements.isEmpty, f)
  | .capacity => some (.capacity f.capacity, f)

/-- The indices that the operation moves run into no end of the 64 bits. -/
def NoWrap (maxCapacity : Nat) (q : ResizeableLockFreeQueue A) : Operation A → Prop
  | .tryPush _ =>
    ∀ i ∈ (q.freeIndices.contents maxCapacity).head?, q.usedIndices.Fits maxCapacity 0 i
  | .push _ =>
    ∀ i ∈ (q.freeIndices.contents maxCapacity ++ q.usedIndices.contents maxCapacity).head?,
      q.usedIndices.Fits maxCapacity 0 i
  | .pop => ∀ i ∈ (q.usedIndices.contents maxCapacity).head?, q.freeIndices.Fits maxCapacity 0 i
  | .setCapacity n | .setCapacityWithHandler n =>
    n ≤ maxCapacity → ∀ k i, (q.unusedIndices.reverse.take (n - q.capacity))[k]? = some i →
      q.freeIndices.Fits maxCapacity k i
  | .size | .empty | .capacity => True

theorem noWrap_of_dvd {L : Nat} (hL : L ∣ 2 ^ 64) (q : ResizeableLockFreeQueue A)
    (op : Operation A) : NoWrap L q op := by
  cases op with
  | tryPush value => exact fun _ _ => Or.inl hL
  | push value => exact fun _ _ => Or.inl hL
  | pop => exact fun _ _ => Or.inl hL
  | setCapacity n => exact fun _ _ _ _ => Or.inl hL
  | setCapacityWithHandler n => exact fun _ _ _ _ => Or.inl hL
  | _ => trivial

def elements (maxCapacity : Nat) (q : ResizeableLockFreeQueue A) : List A :=
  (q.usedIndices.contents maxCapacity).filterMap q.buffer

def StandsFor (L : Nat) (q : ResizeableLockFreeQueue A) (f : Fifo A) : Prop :=
  ∃ v, Inv L q v ∧ v.hand = [] ∧ v.resizing = false ∧ v.elements = f.elements ∧
    q.capacity = f.capacity

theorem standsFor_construct (hL : SerialIndexQueue.ValidCapacity L) :
    StandsFor L (construct L : ResizeableLockFreeQueue A) { capacity := L, elements := [] } :=
  ⟨_, inv_construct hL, rfl, rfl, rfl, rfl⟩

theorem Inv.fitsUsed (h : Inv L q v) {i : Nat} (hfits : q.usedIndices.Fits L 0 i) :
    FitsAt L (v.popsUsed + v.used.length) i := h.used.fits_iff.mp hfits

theorem Inv.fitsFree (h : Inv L q v) {i k : Nat} (hfits : q.freeIndices.Fits L k i) :
    FitsAt L (v.popsFree + v.free.length + k) i := h.free.fits_iff.mp hfits

theorem Inv.elements_eq (h : Inv L q v) (hL : SerialIndexQueue.ValidCapacity L) :
    q.elements L = v.elements := by
  have hstored : (v.used.map q.buffer).filterMap id = (v.elements.map some).filterMap id :=
    congrArg _ h.stored
  rw [List.filterMap_map, List.filterMap_map] at hstored
  rw [elements, h.used.contents_eq hL]
  simpa using hstored

section Simulation

variable {f f' : Fifo A} {out : Answer A}

theorem tryPush_simulates (hL : SerialIndexQueue.ValidCapacity L) (hfuel : 0 < fuel)
    (h : StandsFor L q f) (value : A)
    (hwrap : ∀ i ∈ (q.freeIndices.contents L).head?, q.usedIndices.Fits L 0 i) :
    ∃ q', q.tryPush L fuel value = some ((f.tryPush value).1, q') ∧
      StandsFor L q' (f.tryPush value).2 := by
  obtain ⟨v, hv, hhand, hresizing, helements, hcapacity⟩ := h
  have hcap := hv.capacity
  have hlen := hv.length_elements
  rw [hhand, List.length_nil] at hcap
  rw [hv.free.contents_eq hL] at hwrap
  rw [Fifo.tryPush, ← helements, ← hcapacity]
  cases hfree : v.free with
  | nil =>
    rw [hfree, List.length_nil] at hcap
    rw [if_neg (by omega)]
    exact ⟨q, hv.tryPush_full hL hfuel hfree value, v, hv, hhand, hresizing, helements, hcapacity⟩
  | cons i rest =>
    rw [hfree, List.length_cons] at hcap
    rw [if_pos (by omega)]
    obtain ⟨q', hpush, hv'⟩ := hv.tryPush_room hL hfuel hhand hfree value
      (hv.fitsUsed (hwrap i (by rw [hfree]; rfl)))
    refine ⟨q', hpush, _, hv', rfl, hresizing, rfl, ?_⟩
    have hcap' := hv'.capacity
    simp only [List.length_append, List.length_cons, List.length_nil] at hcap' ⊢
    omega

theorem push_simulates (hL : SerialIndexQueue.ValidCapacity L) (hfuel : 0 < fuel)
    (h : StandsFor L q f) (hpos : f.capacity ≠ 0) (value : A)
    (hwrap : ∀ i ∈ (q.freeIndices.contents L ++ q.usedIndices.contents L).head?,
      q.usedIndices.Fits L 0 i) :
    ∃ q', q.push L fuel value = some ((f.push value).1, q') ∧
      StandsFor L q' (f.push value).2 := by
  obtain ⟨v, hv, hhand, hresizing, helements, hcapacity⟩ := h
  have hcap := hv.capacity
  have hlen := hv.length_elements
  rw [hhand, List.length_nil] at hcap
  rw [hv.free.contents_eq hL, hv.used.contents_eq hL] at hwrap
  rw [← hcapacity] at hpos
  rw [Fifo.push, ← helements, ← hcapacity]
  cases hfree : v.free with
  | nil =>
    rw [hfree, List.length_nil] at hcap
    rw [if_neg (by omega)]
    obtain ⟨i, rest, hused⟩ := List.exists_cons_of_length_pos (l := v.used) (by omega)
    obtain ⟨a, elements, hels⟩ := List.exists_cons_of_length_pos (l := v.elements) (by omega)
    obtain ⟨q', hpush, hv'⟩ := hv.push_full hL hfuel hhand hfree hused hels value
      (hv.fitsUsed (hwrap i (by rw [hfree, hused]; rfl)))
    rw [hels]
    refine ⟨q', hpush, _, hv', rfl, hresizing, rfl, ?_⟩
    have hcap' := hv'.capacity
    rw [hused, List.length_cons] at hcap
    simp only [hfree, List.length_append, List.length_cons, List.length_nil] at hcap' ⊢
    omega
  | cons i rest =>
    rw [hfree, List.length_cons] at hcap
    rw [if_pos (by omega)]
    obtain ⟨q', hpush, hv'⟩ := hv.push_room hL hfuel hhand hfree value
      (hv.fitsUsed (hwrap i (by rw [hfree]; rfl)))
    refine ⟨q', hpush, _, hv', rfl, hresizing, rfl, ?_⟩
    have hcap' := hv'.capacity
    simp only [List.length_append, List.length_cons, List.length_nil] at hcap' ⊢
    omega

theorem pop_simulates (hL : SerialIndexQueue.ValidCapacity L) (hfuel : 0 < fuel)
    (h : StandsFor L q f)
    (hwrap : ∀ i ∈ (q.usedIndices.contents L).head?, q.freeIndices.Fits L 0 i) :
    ∃ q', q.pop L fuel = some (f.pop.1, q') ∧ StandsFor L q' f.pop.2 := by
  obtain ⟨v, hv, hhand, hresizing, helements, hcapacity⟩ := h
  have hcap := hv.capacity
  have hlen := hv.length_elements
  rw [hhand, List.length_nil] at hcap
  rw [hv.used.contents_eq hL] at hwrap
  rw [Fifo.pop, ← helements, ← hcapacity]
  cases hused : v.used with
  | nil =>
    rw [hused, List.length_nil] at hlen
    have hnone : v.elements = [] := List.eq_nil_of_length_eq_zero hlen
    rw [hnone]
    exact ⟨q, hv.pop_empty hL hfuel hused, v, hv, hhand, hresizing, hnone, rfl⟩
  | cons i rest =>
    rw [hused, List.length_cons] at hlen hcap
    obtain ⟨a, elements, hels⟩ := List.exists_cons_of_length_pos (l := v.elements) (by omega)
    obtain ⟨q', hpop, hv'⟩ := hv.pop_cons hL hfuel hhand hused hels
      (hv.fitsFree (hwrap i (by rw [hused]; rfl)))
    rw [hels]
    refine ⟨q', hpop, _, hv', rfl, hresizing, rfl, ?_⟩
    have hcap' := hv'.capacity
    simp only [List.length_append, List.length_cons, List.length_nil] at hcap' ⊢
    omega

theorem setCapacity_simulates (hL : SerialIndexQueue.ValidCapacity L) (hfuel : L + 1 < fuel)
    (h : StandsFor L q f) (n : Nat)
    (hwrap : n ≤ L → ∀ k i, (q.unusedIndices.reverse.take (n - q.capacity))[k]? = some i →
      q.freeIndices.Fits L k i) :
    ∃ q', q.setCapacity L fuel n = some ((f.setCapacity L n).1, q') ∧
      StandsFor L q' (f.setCapacity L n).2 := by
  rw [Fifo.setCapacity]
  split
  · rename_i hn
    exact ⟨q, by rw [setCapacity, if_pos hn], h⟩
  · rename_i hn
    obtain ⟨v, hv, hhand, hresizing, helements, _⟩ := h
    rw [hv.unused] at hwrap
    obtain ⟨q', v', hset, hv', hhand', hresizing', helements', hcapacity'⟩ :=
      setCapacity_returns hL hv hhand hresizing (Nat.not_lt.mp hn) hfuel
        fun k i hk => hv.fitsFree (hwrap (Nat.not_lt.mp hn) k i hk)
    rw [helements] at hset helements'
    exact ⟨q', hset, v', hv', hhand', hresizing', helements', hcapacity'⟩

theorem empty_eq (hL : SerialIndexQueue.ValidCapacity L) (h : StandsFor L q f) :
    q.empty L = f.elements.isEmpty := by
  obtain ⟨v, hv, _, _, helements, _⟩ := h
  have hlen := hv.length_elements
  rw [empty, hv.used.empty_eq hL, ← helements, Bool.eq_iff_iff, List.isEmpty_iff_length_eq_zero,
    List.isEmpty_iff_length_eq_zero, hlen]

theorem size_eq (h : StandsFor L q f) : q.size = f.elements.length := by
  obtain ⟨v, hv, _, _, helements, _⟩ := h
  rw [hv.size, helements]

theorem elements_eq (hL : SerialIndexQueue.ValidCapacity L) (h : StandsFor L q f) :
    q.elements L = f.elements := by
  obtain ⟨v, hv, _, _, helements, _⟩ := h
  rw [hv.elements_eq hL, helements]

theorem capacity_eq (h : StandsFor L q f) : q.capacity = f.capacity := by
  obtain ⟨_, _, _, _, _, hcapacity⟩ := h
  exact hcapacity

theorem capacity_le (h : StandsFor L q f) : f.capacity ≤ L := by
  obtain ⟨v, hv, _, _, _, hcapacity⟩ := h
  have hlen := hv.length_partition
  rw [← hcapacity, hv.capacity]
  omega

theorem perform_simulates (hL : SerialIndexQueue.ValidCapacity L) (hfuel : L + 1 < fuel) :
    Simulates (perform L fuel) (fifoStep L) (NoWrap L)
      (StandsFor L : ResizeableLockFreeQueue A → Fifo A → Prop) := by
  intro q f op out f' h hwrap hspec
  have hpos : 0 < fuel := by omega
  cases op with
  | tryPush value =>
    cases hspec
    obtain ⟨q', hpush, hq'⟩ := tryPush_simulates hL hpos h value hwrap
    exact ⟨q', by rw [perform, hpush]; rfl, hq'⟩
  | push value =>
    rw [fifoStep] at hspec
    split at hspec
    · cases hspec
    · rename_i hcapacity
      cases hspec
      obtain ⟨q', hpush, hq'⟩ := push_simulates hL hpos h hcapacity value hwrap
      exact ⟨q', by rw [perform, hpush]; rfl, hq'⟩
  | pop =>
    cases hspec
    obtain ⟨q', hpop, hq'⟩ := pop_simulates hL hpos h hwrap
    exact ⟨q', by rw [perform, hpop]; rfl, hq'⟩
  | setCapacity n =>
    cases hspec
    obtain ⟨q', hset, hq'⟩ := setCapacity_simulates hL hfuel h n hwrap
    exact ⟨q', by rw [perform, hset]; rfl, hq'⟩
  | setCapacityWithHandler n =>
    cases hspec
    obtain ⟨q', hset, hq'⟩ := setCapacity_simulates hL hfuel h n hwrap
    exact ⟨q', by rw [perform, hset]; rfl, hq'⟩
  | size =>
    cases hspec
    exact ⟨q, by rw [perform, size_eq h], h⟩
  | empty =>
    cases hspec
    exact ⟨q, by rw [perform, empty_eq hL h], h⟩
  | capacity =>
    cases hspec
    exact ⟨q, by rw [perform, capacity_eq h], h⟩

/-- As long as no write position runs into the end of its 64 bits, whatever is done with the queue
it answers as the resizable FIFO does, and its indices are never lost or doubled. -/
theorem resizeable_queue_is_fifo (hL : SerialIndexQueue.ValidCapacity L) (hfuel : L + 1 < fuel)
    (ops : List (Operation A)) (hwrap : Admits (perform L fuel) (NoWrap L) (construct L) ops)
    {outs : List (Answer A)}
    (hspec : runOps (fifoStep L) { capacity := L, elements := [] } ops = some (outs, f)) :
    ∃ q, runOps (perform L fuel) (construct L) ops = some (outs, q) ∧
      q.capacity = f.capacity ∧ q.elements L = f.elements ∧ q.size = f.elements.length ∧
      q.empty L = f.elements.isEmpty ∧
      (q.freeIndices.contents L ++ q.usedIndices.contents L ++ q.unusedIndices).Perm
        (List.range L) := by
  obtain ⟨q, hrun, hq⟩ :=
    (perform_simulates hL hfuel).run ops _ _ f outs (standsFor_construct hL) hwrap hspec
  refine ⟨q, hrun, capacity_eq hq, elements_eq hL hq, size_eq hq, empty_eq hL hq, ?_⟩
  obtain ⟨v, hv, hhand, _⟩ := hq
  have hpart := hv.partition
  rw [hhand] at hpart
  rw [hv.free.contents_eq hL, hv.used.contents_eq hL, hv.unused]
  exact hpart

def exampleOperations : List (Operation Nat) :=
  [.push 5, .push 6, .push 7, .setCapacityWithHandler 1, .setCapacity 3, .tryPush 8, .pop]

theorem resizeable_queue_is_fifo_two : ∃ q : ResizeableLockFreeQueue Nat,
    runOps (perform 2 4) (construct 2) exampleOperations =
      some ([.evicted none, .evicted none, .evicted (some 5), .resizedWithHandler true [6],
        .resized false, .accepted false, .popped (some 7)], q) ∧
      q.elements 2 = [] := by
  obtain ⟨q, hrun, _, helements, _⟩ := resizeable_queue_is_fifo (L := 2) ⟨by decide, by decide⟩
    (show 2 + 1 < 4 by decide) exampleOperations
    (admits_of_forall (noWrap_of_dvd (by decide)) _ _) (f := { capacity := 1, elements := [] }) rfl
  exact ⟨q, hrun, helements⟩

theorem perform_standsFor (hL : SerialIndexQueue.ValidCapacity L) (hfuel : L + 1 < fuel)
    {op : Operation A} {q' : ResizeableLockFreeQueue A} (h : StandsFor L q f)
    (hwrap : NoWrap L q op) (hstep : perform L fuel q op = some (out, q')) :
    ∃ f', StandsFor L q' f' := by
  cases hspec : fifoStep L f op with
  | some r =>
    obtain ⟨m, hm, hR⟩ := perform_simulates hL hfuel q f op r.1 r.2 h hwrap hspec
    rw [hm] at hstep
    cases hstep
    exact ⟨_, hR⟩
  | none =>
    cases op with
    | push value =>
      rw [fifoStep] at hspec
      split at hspec
      · rename_i hzero
        have hcapacity := capacity_eq h
        obtain ⟨v, hv, _⟩ := h
        rw [perform, hv.push_never hL (hcapacity.trans hzero)] at hstep
        cases hstep
      · cases hspec
    | _ => cases hspec

theorem Inv.pushUsed_returns (h : Inv L q v) (hL : SerialIndexQueue.ValidCapacity L)
    (hfuel : 0 < fuel) (i : Nat) (a : A) :
    ∃ q', (q.writeBufferAt i a).pushUsed L fuel i = some q' := by
  obtain ⟨used, hpush, _⟩ := h.used.push_eq hL hfuel i
  refine ⟨{ q.writeBufferAt i a with usedIndices := used }, ?_⟩
  rw [pushUsed, writeBufferAt, hpush]
  rfl

theorem Inv.push_returns (h : Inv L q v) (hL : SerialIndexQueue.ValidCapacity L)
    (hhand : v.hand = []) (hpos : 1 ≤ q.capacity) (hfuel : 0 < fuel) (a : A) :
    ∃ r, q.push L fuel a = some r := by
  have hcap := h.capacity
  have hlen := h.length_elements
  rw [hhand, List.length_nil] at hcap
  obtain ⟨i, evicted, m, v', hpass, hm⟩ : ∃ i evicted m v',
      pushPass L fuel q = some (.inr (i, evicted, m)) ∧ Inv L m v' := by
    cases hfree : v.free with
    | nil =>
      rw [hfree, List.length_nil] at hcap
      obtain ⟨i, rest, hused⟩ := List.exists_cons_of_length_pos (l := v.used) (by omega)
      obtain ⟨b, elements, hels⟩ := List.exists_cons_of_length_pos (l := v.elements) (by omega)
      obtain ⟨m, hpass, hm⟩ := h.pushPass_full hL hfuel hhand hfree hused hels
      exact ⟨i, some b, m, _, hpass, hm⟩
    | cons i rest =>
      obtain ⟨m, hpop, hm⟩ := h.popFree_cons hL hfuel hfree hhand
      exact ⟨i, none, m, _, by rw [pushPass, hpop], hm⟩
  obtain ⟨q', hpush⟩ := hm.pushUsed_returns hL hfuel i a
  refine ⟨(evicted, q'), ?_⟩
  rw [push, loop_leave hpass hfuel]
  simp only [Option.bind_some, hpush, Option.map_some]

/-- Wherever the operations have brought the queue without running into the end of the 64 bits,
the loop of `push` ends exactly if the capacity is not 0. -/
theorem push_returns_iff_capacity (hL : SerialIndexQueue.ValidCapacity L) (hfuel : L + 1 < fuel)
    (ops : List (Operation A)) (hwrap : Admits (perform L fuel) (NoWrap L) (construct L) ops)
    {outs : List (Answer A)}
    (hrun : runOps (perform L fuel) (construct L) ops = some (outs, q)) (value : A) :
    (∃ passes r, q.push L passes value = some r) ↔ 1 ≤ q.capacity := by
  obtain ⟨f, hq⟩ : ∃ f, StandsFor L q f :=
    runOps_invariant (I := fun q => ∃ f, StandsFor L q f)
      (fun _ _ _ _ ⟨_, h⟩ hwrap hstep => perform_standsFor hL hfuel h hwrap hstep) ops _ q outs
      ⟨_, standsFor_construct hL⟩ hwrap hrun
  obtain ⟨v, hv, hhand, _⟩ := hq
  constructor
  · rintro ⟨passes, r, hpush⟩
    by_contra hzero
    rw [hv.push_never hL (by omega)] at hpush
    cases hpush
  · intro hpos
    obtain ⟨r, hpush⟩ := hv.push_returns hL hhand hpos Nat.one_pos value
    exact ⟨1, r, hpush⟩

theorem push_returns_one : ∃ outs, ∃ q : ResizeableLockFreeQueue Nat,
    runOps (perform 1 3) (construct 1) [.tryPush 5] = some (outs, q) ∧
    ((∃ passes r, q.push 1 passes 6 = some r) ↔ 1 ≤ q.capacity) := by
  have hL : SerialIndexQueue.ValidCapacity 1 := ⟨by decide, by decide⟩
  have hwrap : Admits (perform 1 3) (NoWrap 1) (construct 1) [.tryPush 5] :=
    admits_of_forall (noWrap_of_dvd (by decide)) _ _
  obtain ⟨q, hrun, _⟩ := (perform_simulates hL (by decide)).run [.tryPush 5] (construct 1) _ _ _
    (standsFor_construct hL) hwrap rfl
  exact ⟨_, q, hrun, push_returns_iff_capacity hL (by decide) [.tryPush 5] hwrap hrun 6⟩

theorem push_never_returns : ∃ q : ResizeableLockFreeQueue Nat,
    runOps (perform 1 3) (construct 1) [.setCapacity 0] = some ([.resized true], q) ∧
    ∀ passes, q.push 1 passes 6 = none := by
  have hL : SerialIndexQueue.ValidCapacity 1 := ⟨by decide, by decide⟩
  have hwrap : Admits (perform 1 3) (NoWrap 1) (construct 1) [(.setCapacity 0 : Operation Nat)] :=
    admits_of_forall (noWrap_of_dvd (by decide)) _ _
  obtain ⟨q, hrun, v, hv, _, _, _, hcapacity⟩ :=
    (perform_simulates hL (by decide)).run [.setCapacity 0] (construct 1) _ _ _
      (standsFor_construct hL) hwrap rfl
  exact ⟨q, hrun, hv.push_never hL hcapacity 6⟩

end Simulation

/-! ### The end of the 64 bits

For a queue of 3 elements the last cycle of a position has one index. -/

section Overflow

theorem validCapacity_three : SerialIndexQueue.ValidCapacity 3 := ⟨by decide, by decide⟩

def Level (k : Nat) (q : ResizeableLockFreeQueue Nat) : Prop :=
  Inv 3 q
    { popsFree := k
      popsUsed := 3 + k
      free := [k % 3, (k + 1) % 3, (k + 2) % 3]
      used := []
      hand := []
      unused := []
      elements := []
      resizing := false }

theorem Level.round {k : Nat} {q : ResizeableLockFreeQueue Nat} (h : Level k q)
    (hk : k + 4 < 2 ^ 64) (hfuel : 0 < fuel) :
    ∃ outs q', runOps (perform 3 fuel) q [.tryPush 0, .pop] = some (outs, q') ∧
      Level (k + 1) q' := by
  obtain ⟨m, hpush, hm⟩ := h.tryPush_room validCapacity_three hfuel rfl rfl 0
    (Or.inr ⟨by simp only [List.length_nil]; omega, by simp only [List.length_nil]; omega⟩)
  obtain ⟨q', hpop, hq'⟩ := hm.pop_cons validCapacity_three hfuel rfl rfl rfl
    (Or.inr ⟨by simp only [List.length_cons, List.length_nil]; omega,
      by simp only [List.length_cons, List.length_nil]; omega⟩)
  refine ⟨[.accepted true, .popped (some 0)], q', ?_, ?_⟩
  · have hfirst : perform 3 fuel q (.tryPush 0) = some (.accepted true, m) := by
      rw [perform, hpush]
      rfl
    have hsecond : perform 3 fuel m .pop = some (.popped (some 0), q') := by
      rw [perform, hpop]
      rfl
    exact runOps_cons_eq hfirst (runOps_cons_eq hsecond rfl)
  · have hlast : (k + 1 + 2) % 3 = k % 3 := by omega
    rw [Level, hlast]
    exact hq'

theorem push_at_start_never {used : SerialIndexQueue} (hwrite : used.writePosition = 1)
    (hcell : CyclicIndex.getCycle 3 (used.cells 1) = 6148914691236517204) (index fuel : Nat) :
    used.push 3 fuel index = none := by
  have hpass : SerialIndexQueue.pushPass 3 index (used, 1) = some (.inl (used, 1)) := by
    have hvalue : used.loadvalueAt 3 1 = used.cells 1 := rfl
    have hmax : CyclicIndex.maxCycle 3 = 6148914691236517205 := by decide
    have hother : CyclicIndex.getCycle 3 1 = 0 := by decide
    have hbehind : CyclicIndex.isOneCycleBehind 3 (used.cells 1) 1 = false := by
      rw [CyclicIndex.isOneCycleBehind, hcell, hmax, hother]
      decide
    simp only [SerialIndexQueue.pushPass]
    rw [hvalue, hbehind, if_neg (by decide), hcell, hother, if_neg (by omega), hwrite]
  have hloop : loop (SerialIndexQueue.pushPass 3 index) fuel (used, 1) = none := by
    refine loop_never (I := fun s => s = (used, 1)) ?_ fuel _ rfl
    rintro s rfl
    exact ⟨_, hpass, rfl⟩
  rw [SerialIndexQueue.push, hwrite, hloop]
  rfl

theorem Level.last {k : Nat} {q : ResizeableLockFreeQueue Nat} (h : Level k q)
    (hk : k + 4 = 2 ^ 64) (hfuel : 0 < fuel) :
    runOps (perform 3 fuel) q [.tryPush 0, .tryPush 0] = none := by
  obtain ⟨m, hpop, hm⟩ := h.popFree_cons validCapacity_three hfuel rfl rfl
  have hused := hm.used
  obtain ⟨used, hpush, _, hwrite, hcells⟩ := hused.push_eq validCapacity_three hfuel (k % 3)
  simp only [List.length_nil, Nat.add_zero] at hcells
  have hposition : m.usedIndices.writePosition = 2 ^ 64 - 1 := by
    rw [hused.write]
    simp only [List.length_nil]
    omega
  have hwrite1 : used.writePosition = 1 := by
    rw [hwrite, hposition]
    decide
  have hcell : CyclicIndex.getCycle 3 (used.cells 1) = 6148914691236517204 := by
    have hold := hused.cycle (k + 1) (by simp only [List.length_nil]; omega)
      (by simp only [List.length_nil]; omega)
    rw [show (k + 1) % 3 = 1 by omega, show (k + 1) / 3 = 6148914691236517204 by omega] at hold
    rw [hcells, show (3 + k) % 3 = 0 by omega, Function.update_of_ne (by decide), hold]
    decide
  have hfirst : q.tryPush 3 fuel 0 =
      some (true, { m.writeBufferAt (k % 3) 0 with usedIndices := used }) := by
    rw [tryPush, hpop]
    simp only [pushUsed, writeBufferAt, hpush, Option.map_some]
  obtain ⟨free, hpop', _⟩ := hm.free.pop_cons validCapacity_three hfuel
  have hsecond : ({ m.writeBufferAt (k % 3) 0 with
      usedIndices := used } : ResizeableLockFreeQueue Nat).tryPush 3 fuel 0 = none := by
    rw [tryPush, popFree]
    simp only [writeBufferAt, hpop', Option.map_some, pushUsed,
      push_at_start_never hwrite1 hcell, Option.map_none]
  rw [runOps, perform, hfirst, Option.map_some, Option.bind_some, runOps, perform, hsecond]
  rfl

def rounds (n : Nat) : List (Operation Nat) := (List.replicate n [.tryPush 0, .pop]).flatten

theorem fifo_rounds (n : Nat) : ∃ outs,
    runOps (fifoStep 3) { capacity := 3, elements := [] } (rounds n) =
      some (outs, ({ capacity := 3, elements := [] } : Fifo Nat)) := by
  have hround : ∀ (k : Nat) (f : Fifo Nat), k < n → f = { capacity := 3, elements := [] } →
      ∃ outs f', runOps (fifoStep 3) f [.tryPush 0, .pop] = some (outs, f') ∧
        f' = { capacity := 3, elements := [] } := by
    rintro k f _ rfl
    exact ⟨[.accepted true, .popped (some 0)], _, rfl, rfl⟩
  obtain ⟨outs, f, hrun, rfl⟩ := runOps_replicate hround rfl
  exact ⟨outs, hrun⟩

theorem rounds_tryPush_never {n : Nat} (hn : n + 4 = 2 ^ 64) (fuel : Nat) :
    runOps (perform 3 fuel) (construct 3) (rounds n ++ [Operation.tryPush 0, Operation.tryPush 0]) =
      none := by
  rcases Nat.eq_zero_or_pos fuel with rfl | hfuel
  · obtain ⟨k, rfl⟩ : ∃ k, n = k + 1 := ⟨n - 1, by omega⟩
    rw [rounds, List.replicate_succ, List.flatten_cons]
    rfl
  · obtain ⟨outs, q, hrun, hlevel⟩ := runOps_replicate (P := Level) (n := n)
      (fun k q hk h => h.round (by omega) hfuel)
      (show Level 0 (construct 3) from inv_construct validCapacity_three)
    rw [rounds, runOps_append_eq hrun, hlevel.last hn hfuel]
    rfl

/-- After `2 ^ 64 - 4` elements have passed through an empty queue it takes one more, and then the
next push never returns. -/
theorem tryPush_never_returns : ∃ outs f,
    runOps (fifoStep 3) { capacity := 3, elements := [] }
      (rounds (2 ^ 64 - 4) ++ [Operation.tryPush 0, .tryPush 0]) = some (outs, f) ∧
    ∀ fuel, runOps (perform 3 fuel) (construct 3)
      (rounds (2 ^ 64 - 4) ++ [Operation.tryPush 0, .tryPush 0]) = none := by
  obtain ⟨outs, hspec⟩ := fifo_rounds (2 ^ 64 - 4)
  have hlast : runOps (fifoStep 3) { capacity := 3, elements := [] }
      [Operation.tryPush 0, .tryPush 0] =
        some ([.accepted true, .accepted true], { capacity := 3, elements := [0, 0] }) := rfl
  exact ⟨_, _, runOps_append_some hspec hlast, rounds_tryPush_never (by decide)⟩

end Overflow

end ResizeableLockFreeQueue

end Iceoryx.Hoofs
