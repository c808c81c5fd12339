import Mathlib.Data.List.Infix
import Mathlib.Data.List.Perm.Subperm
import Iceoryx.Lib.Ring
import Iceoryx.Lib.Run

/-! `concurrent::IndexQueue` run by any number of threads.  One step is one load or one
compare-exchange; the local variables of a call are carried in the program counter. -/

namespace Iceoryx.Hoofs

namespace CyclicIndex

variable (cycleLength : Nat)

def maxValue : Nat := 2 ^ 64 - 1

def maxCycle : Nat := maxValue / cycleLength

def overflowStartIndex : Nat := (maxValue % cycleLength + 1) % cycleLength

def ofIndexCycle (index cycle : Nat) : Nat := (index + cycle * cycleLength) % 2 ^ 64

def getIndex (value : Nat) : Nat := value % cycleLength

def getCycle (value : Nat) : Nat := value / cycleLength

def add (value n : Nat) : Nat :=
  let delta := maxValue - n
  if delta < value then (overflowStartIndex cycleLength + (value - delta - 1)) % 2 ^ 64
  else value + n

def isOneCycleBehind (value other : Nat) : Bool :=
  if getCycle cycleLength value = maxCycle cycleLength then getCycle cycleLength other = 0
  else getCycle cycleLength value + 1 = getCycle cycleLength other

def sub (value other : Nat) : Int := ((value : Int) - (other : Int)).bmod (2 ^ 64)

end CyclicIndex

inductive PopCall
  | pop
  | popIfFull
  | popIfSizeIsAtLeast (requiredSize : Nat)
  deriving DecidableEq, Repr

def PopCall.required (capacity : Nat) : PopCall → Nat
  | .pop => 1
  | .popIfFull => capacity
  | .popIfSizeIsAtLeast requiredSize => requiredSize

namespace IndexQueue

inductive Pc
  | idle
  | pushLoad (index : Nat)
  | pushCell (index writePosition : Nat)
  | pushPublish (index writePosition oldValue : Nat)
  | pushHelp (index writePosition : Nat)
  | pushFinish (writePosition : Nat)
  | popLoad
  | popCell (readPosition : Nat)
  | fullLoadWrite
  | fullLoadRead (writePosition : Nat)
  | fullCell (writePosition readPosition : Nat)
  | sizeLoadWrite (requiredSize : Nat)
  | sizeLoadRead (requiredSize writePosition : Nat)
  | sizeCell (requiredSize readPosition : Nat)
  | exchange (call : PopCall) (readPosition value : Nat)
  deriving DecidableEq, Repr

def Pc.pending : Pc → Option Nat
  | .pushLoad i | .pushCell i _ | .pushPublish i _ _ | .pushHelp i _ => some i
  | _ => none

/-- A call, the next access of the running call, or an index handed over to another
thread. -/
inductive Act (Tid : Type)
  | push (index : Nat)
  | pop
  | popIfFull
  | popIfSizeIsAtLeast (requiredSize : Nat)
  | access (spurious : Bool)
  | give (receiver : Tid) (index : Nat)
  deriving DecidableEq

end IndexQueue

/-- The queue with its threads.  The last four fields record who owns an index outside of
the queue, the calls of `push`, and the indices in the order they were published and
popped: no access reads them. -/
structure IndexQueue (Tid : Type) where
  cells : Nat → Nat
  readPosition : Nat
  writePosition : Nat
  pc : Tid → IndexQueue.Pc
  owner : Nat → Option Tid
  calls : List Nat
  published : List Nat
  popped : List Nat

namespace IndexQueue

open CyclicIndex

variable {Tid : Type} [DecidableEq Tid] (capacity : Nat)

omit [DecidableEq Tid] in
def constructEmpty (owner : Nat → Option Tid) : IndexQueue Tid where
  cells := fun _ => 0
  readPosition := capacity
  writePosition := capacity
  pc := fun _ => .idle
  owner := owner
  calls := []
  published := []
  popped := []

omit [DecidableEq Tid] in
def constructFull : IndexQueue Tid where
  cells := fun i => i
  readPosition := 0
  writePosition := capacity
  pc := fun _ => .idle
  owner := fun _ => none
  calls := []
  published := List.range capacity
  popped := []

def goto (s : IndexQueue Tid) (t : Tid) (p : Pc) : IndexQueue Tid :=
  { s with pc := Function.update s.pc t p }

omit [DecidableEq Tid] in
def publish (s : IndexQueue Tid) (index writePosition : Nat) : IndexQueue Tid :=
  { s with
    cells := Function.update s.cells (getIndex capacity writePosition)
      (ofIndexCycle capacity index (getCycle capacity writePosition))
    owner := Function.update s.owner index none
    published := s.published ++ [index] }

omit [DecidableEq Tid] in
def advanceWrite (s : IndexQueue Tid) (writePosition : Nat) : IndexQueue Tid :=
  { s with writePosition := add capacity writePosition 1 }

omit [DecidableEq Tid] in
def take (s : IndexQueue Tid) (t : Tid) (readPosition value : Nat) : IndexQueue Tid :=
  { s with
    readPosition := add capacity readPosition 1
    owner := Function.update s.owner (getIndex capacity value) (some t)
    popped := s.popped ++ [getIndex capacity value] }

omit [DecidableEq Tid] in
def give (s : IndexQueue Tid) (receiver : Tid) (index : Nat) : IndexQueue Tid :=
  { s with owner := Function.update s.owner index (some receiver) }

/-- Where `push` goes on when it has not published: it helps with the write position, or
loads it again. -/
def retry (index writePosition oldValue : Nat) : Pc :=
  if getCycle capacity oldValue = getCycle capacity writePosition then
    .pushHelp index writePosition
  else .pushLoad index

def failed (readPosition : Nat) : PopCall → Pc
  | .pop => .popCell readPosition
  | .popIfFull | .popIfSizeIsAtLeast _ => .idle

def access (s : IndexQueue Tid) (t : Tid) (spurious : Bool) : Option (IndexQueue Tid) :=
  match s.pc t with
  | .idle => none
  | .pushLoad i => some (s.goto t (.pushCell i s.writePosition))
  | .pushCell i w =>
    let oldValue := s.cells (getIndex capacity w)
    if isOneCycleBehind capacity oldValue w then some (s.goto t (.pushPublish i w oldValue))
    else some (s.goto t (retry capacity i w oldValue))
  | .pushPublish i w oldValue =>
    if s.cells (getIndex capacity w) = oldValue ∧ spurious = false then
      some ((s.publish capacity i w).goto t (.pushFinish w))
    else some (s.goto t (retry capacity i w (s.cells (getIndex capacity w))))
  | .pushHelp i w =>
    if s.writePosition = w then some ((s.advanceWrite capacity w).goto t (.pushCell i w))
    else some (s.goto t (.pushCell i s.writePosition))
  | .pushFinish w =>
    if s.writePosition = w then some ((s.advanceWrite capacity w).goto t .idle)
    else some (s.goto t .idle)
  | .popLoad => some (s.goto t (.popCell s.readPosition))
  | .popCell r =>
    let value := s.cells (getIndex capacity r)
    if getCycle capacity r = getCycle capacity value then some (s.goto t (.exchange .pop r value))
    else if isOneCycleBehind capacity value r then some (s.goto t .idle)
    else some (s.goto t .popLoad)
  | .fullLoadWrite => some (s.goto t (.fullLoadRead s.writePosition))
  | .fullLoadRead w => some (s.goto t (.fullCell w s.readPosition))
  | .fullCell w r =>
    let value := s.cells (getIndex capacity r)
    if getIndex capacity w = getIndex capacity r ∧ isOneCycleBehind capacity r w then
      some (s.goto t (.exchange .popIfFull r value))
    else some (s.goto t .idle)
  | .sizeLoadWrite n => some (s.goto t (.sizeLoadRead n s.writePosition))
  | .sizeLoadRead n w =>
    let delta := sub w s.readPosition
    if 0 ≤ delta ∧ n ≤ delta.toNat then some (s.goto t (.sizeCell n s.readPosition))
    else some (s.goto t .idle)
  | .sizeCell n r =>
    some (s.goto t (.exchange (.popIfSizeIsAtLeast n) r (s.cells (getIndex capacity r))))
  | .exchange call r value =>
    -- only the exchange of `pop` is a weak one
    if s.readPosition = r ∧ (call = .pop → spurious = false) then
      some ((s.take capacity t r value).goto t .idle)
    else some (s.goto t (failed s.readPosition call))

def step (s : IndexQueue Tid) : Tid × Act Tid → Option (IndexQueue Tid)
  | (t, .access spurious) => s.access capacity t spurious
  | (t, .push i) =>
    -- the usage rule: only an index this thread owns is pushed
    if s.pc t = .idle ∧ s.owner i = some t then
      some ({ s with calls := s.calls ++ [i] }.goto t (.pushLoad i))
    else none
  | (t, .pop) => if s.pc t = .idle then some (s.goto t .popLoad) else none
  | (t, .popIfFull) => if s.pc t = .idle then some (s.goto t .fullLoadWrite) else none
  | (t, .popIfSizeIsAtLeast n) =>
    if s.pc t = .idle then some (s.goto t (if n = 0 then .popLoad else .sizeLoadWrite n))
    else none
  | (t, .give t' i) =>
    if s.pc t = .idle ∧ s.owner i = some t then
      some (s.give t' i)
    else none

def contents (s : IndexQueue Tid) : List Nat := s.published.drop s.popped.length

def pushing (s : IndexQueue Tid) (i : Nat) : Bool :=
  match s.owner i with
  | some t => (s.pc t).pending = some i
  | none => false

def pushCall : Tid × Act Tid → List Nat
  | (_, .push i) => [i]
  | _ => []

def pushCalls (ls : List (Tid × Act Tid)) : List Nat := ls.flatMap pushCall

/-- Neither the value of a cell that is published nor the signed difference of the
positions wraps around. -/
def NoWrap (s : IndexQueue Tid) : Tid × Act Tid → Prop
  | (t, .access _) =>
    match s.pc t with
    | .pushPublish i w _ => i + getCycle capacity w * capacity < 2 ^ 64
    | .sizeLoadRead _ w => s.readPosition ≤ w + 2 ^ 63
    | _ => True
  | _ => True

def values (order : List Nat) : List Nat := order.mapIdx fun p i => i + p / capacity * capacity

/-- What the program counter of a thread promises about the positions `r` and `w` and the
published values: what it has read is only relied on while the position has not moved. -/
def PcOk (r w : Nat) (published : List Nat) : Pc → Prop
  | .pushCell _ w' => capacity ≤ w' ∧ w' ≤ w
  | .pushPublish _ w' oldValue =>
    capacity ≤ w' ∧ w' ≤ w ∧ getCycle capacity oldValue + 1 = getCycle capacity w'
  | .pushHelp _ w' => capacity ≤ w' ∧ w' ≤ w ∧ w' < published.length
  | .pushFinish w' => w' < published.length
  | .popCell r' => r' ≤ r
  | .fullLoadRead w' => capacity ≤ w' ∧ w' ≤ w
  | .fullCell w' r' => capacity ≤ w' ∧ w' ≤ w ∧ r' ≤ r
  | .sizeLoadRead n w' => 0 < n ∧ w' ≤ w ∧ w' ≤ r + capacity
  | .sizeCell n r' => 0 < n ∧ r' ≤ r ∧ (r = r' → r' + n ≤ w)
  | .exchange call r' value => r' ≤ r ∧
    (r = r' → published[r']? = some value ∧ r' + call.required capacity ≤ published.length)
  | .sizeLoadWrite n => 0 < n
  | .idle | .pushLoad _ | .popLoad | .fullLoadWrite => True

/-- The positions before the first push belong to `first`, the indices that the queue was
constructed with to `initial`. -/
structure Inv (first initial : List Nat) (s : IndexQueue Tid) : Prop where
  start : first.length + initial.length = capacity
  lowest : capacity ≤ s.writePosition
  write_le : s.writePosition ≤ first.length + s.published.length
  le_write : first.length + s.published.length ≤ s.writePosition + 1
  read : s.readPosition = first.length + s.popped.length
  fifo : s.popped <+: s.published
  small : ∀ i ∈ first ++ s.published, i < capacity
  holds : Lib.Ring.Holds capacity s.cells (values capacity (first ++ s.published))
    (first.length + s.published.length - capacity)
  nodup : s.contents.Nodup
  free : ∀ i ∈ s.contents, s.owner i = none
  owned : ∀ i t, s.owner i = some t → i < capacity
  pending : ∀ t i, (s.pc t).pending = some i → s.owner i = some t
  accounted : ∀ i, (initial ++ s.calls).count i = s.published.count i + (s.pushing i).toNat
  pcOk : ∀ t, PcOk capacity s.readPosition s.writePosition
    (values capacity (first ++ s.published)) (s.pc t)

variable {capacity} {first initial : List Nat} {s : IndexQueue Tid}

@[simp] theorem length_values (order : List Nat) : (values capacity order).length = order.length :=
  List.length_mapIdx

theorem values_concat (order : List Nat) (i : Nat) :
    values capacity (order ++ [i]) =
      values capacity order ++ [i + order.length / capacity * capacity] :=
  List.mapIdx_concat

theorem getElem?_values {order : List Nat} {p value : Nat}
    (h : (values capacity order)[p]? = some value) :
    ∃ i, order[p]? = some i ∧ i + p / capacity * capacity = value := by
  rwa [values, List.getElem?_mapIdx, Option.map_eq_some_iff] at h

theorem getIndex_encode {i n : Nat} (hi : i < capacity) :
    getIndex capacity (i + n * capacity) = i := by
  rw [getIndex, Nat.add_mul_mod_self_right, Nat.mod_eq_of_lt hi]

theorem getCycle_encode {i n : Nat} (hi : i < capacity) :
    getCycle capacity (i + n * capacity) = n := by
  rw [getCycle, Nat.add_mul_div_right _ _ (by omega), Nat.div_eq_of_lt hi, Nat.zero_add]

theorem PcOk.mono {r r' w w' : Nat} {published : List Nat} {p : Pc}
    (h : PcOk capacity r w published p) (more : List Nat) (hr : r ≤ r') (hw : w ≤ w') :
    PcOk capacity r' w' (published ++ more) p := by
  cases p with
  | idle => trivial
  | pushLoad i => trivial
  | pushCell i u => exact ⟨h.1, h.2.trans hw⟩
  | pushPublish i u oldValue => exact ⟨h.1, h.2.1.trans hw, h.2.2⟩
  | pushHelp i u =>
    refine ⟨h.1, h.2.1.trans hw, ?_⟩
    have := h.2.2
    rw [List.length_append]
    omega
  | pushFinish u =>
    have hlt : u < published.length := h
    simp only [PcOk, List.length_append]
    omega
  | popLoad => trivial
  | popCell q => exact Nat.le_trans h hr
  | fullLoadWrite => trivial
  | fullLoadRead u => exact ⟨h.1, h.2.trans hw⟩
  | fullCell u q => exact ⟨h.1, h.2.1.trans hw, h.2.2.trans hr⟩
  | sizeLoadWrite n => exact h
  | sizeLoadRead n u =>
    have := h.2.2
    exact ⟨h.1, h.2.1.trans hw, by omega⟩
  | sizeCell n q =>
    refine ⟨h.1, h.2.1.trans hr, fun hq => ?_⟩
    have := h.2.1
    have := h.2.2 (by omega)
    omega
  | exchange call q value =>
    refine ⟨h.1.trans hr, fun hq => ?_⟩
    have hle := h.1
    obtain ⟨hvalue, hrequired⟩ := h.2 (by omega)
    constructor
    · rw [List.getElem?_append_left (List.getElem?_eq_some_iff.mp hvalue).1, hvalue]
    · rw [List.length_append]
      omega

theorem add_one {value : Nat} (h : value < maxValue) : add capacity value 1 = value + 1 := by
  simp only [add]
  rw [if_neg (by omega)]

theorem isOneCycleBehind_iff {value other : Nat} (h : 0 < getCycle capacity other)
    (hother : other ≤ maxValue) :
    isOneCycleBehind capacity value other = true ↔
      getCycle capacity value + 1 = getCycle capacity other := by
  have hle : getCycle capacity other ≤ maxCycle capacity := Nat.div_le_div_right hother
  unfold isOneCycleBehind
  split
  · simp
    omega
  · simp

/-- The signed difference of the positions is right, unless the read position was far
ahead. -/
theorem sub_le (hlarge : capacity < maxValue / 2) {n r w : Nat} (hw : w ≤ r + capacity)
    (hwrap : r ≤ w + 2 ^ 63) (hdelta : 0 ≤ sub w r ∧ n ≤ (sub w r).toNat) : r + n ≤ w := by
  have hsub : sub w r = (w : Int) - (r : Int) := by
    simp only [maxValue] at hlarge
    rw [sub, Int.bmod_eq_of_le]
    · omega
    · omega
  rw [hsub] at hdelta
  omega

theorem full_of_behind (hcapacity : 0 < capacity) {r w : Nat} (hlow : capacity ≤ w)
    (hmax : w ≤ maxValue)
    (hfull : getIndex capacity w = getIndex capacity r ∧ isOneCycleBehind capacity r w) :
    w = r + capacity := by
  obtain ⟨hindex, hbehind⟩ := hfull
  rw [isOneCycleBehind_iff (Nat.div_pos hlow hcapacity) hmax] at hbehind
  rw [getIndex, getIndex] at hindex
  rw [getCycle, getCycle] at hbehind
  have hrdiv := Nat.div_add_mod r capacity
  have hwdiv := Nat.div_add_mod w capacity
  rw [← hbehind, Nat.mul_add, Nat.mul_one] at hwdiv
  omega

namespace Inv

omit [DecidableEq Tid]

theorem contents_mem (h : s.Inv capacity first initial) {i : Nat} (hi : i ∈ s.contents) :
    i < capacity :=
  h.small i (List.mem_append_right _ (List.mem_of_mem_drop hi))

theorem popped_le (h : s.Inv capacity first initial) : s.popped.length ≤ s.published.length :=
  h.fifo.length_le

theorem length_contents (h : s.Inv capacity first initial) :
    s.readPosition + s.contents.length = first.length + s.published.length := by
  have := h.popped_le
  rw [h.read, contents, List.length_drop]
  omega

theorem room (h : s.Inv capacity first initial) : s.contents.length ≤ capacity := by
  have hsub : s.contents ⊆ List.range capacity := fun i hi => List.mem_range.mpr (h.contents_mem hi)
  simpa using h.nodup.length_le_of_subset hsub

theorem room_lt (h : s.Inv capacity first initial) {i : Nat} {t : Tid} (hi : s.owner i = some t) :
    s.contents.length < capacity := by
  have hnot : i ∉ s.contents := fun hmem => by simp [h.free i hmem] at hi
  have hsub : i :: s.contents ⊆ List.range capacity := by
    intro j hj
    rw [List.mem_range]
    rcases List.mem_cons.mp hj with rfl | hj
    · exact h.owned j t hi
    · exact h.contents_mem hj
  have hlen := (List.nodup_cons.mpr ⟨hnot, h.nodup⟩).length_le_of_subset hsub
  rwa [List.length_cons, List.length_range] at hlen

theorem cell (h : s.Inv capacity first initial) {p : Nat}
    (hlo : first.length + s.published.length ≤ p + capacity)
    (hhi : p < first.length + s.published.length) :
    (values capacity (first ++ s.published))[p]? = some (s.cells (getIndex capacity p)) ∧
      getCycle capacity (s.cells (getIndex capacity p)) = getCycle capacity p := by
  have hlt : p < (first ++ s.published).length := by simpa using hhi
  have hvalue : (values capacity (first ++ s.published))[p]? =
      some ((first ++ s.published)[p] + p / capacity * capacity) := by
    simp [values, List.getElem?_mapIdx, List.getElem?_eq_getElem hlt]
  have hcell := h.holds p _ (by omega) hvalue
  have hsmall := h.small _ (List.getElem_mem hlt)
  rw [getIndex, hcell]
  exact ⟨hvalue, getCycle_encode hsmall⟩

theorem cell_of_cycle (h : s.Inv capacity first initial) (hcapacity : 0 < capacity) (q : Nat) :
    ∃ p, first.length + s.published.length ≤ p + capacity ∧
      p < first.length + s.published.length ∧ p % capacity = q % capacity ∧
      getCycle capacity (s.cells (getIndex capacity q)) = getCycle capacity p := by
  have hlowest := h.lowest
  have hwrite := h.write_le
  obtain ⟨p, hlo, hhi, hslot⟩ :=
    Lib.Ring.exists_mod_eq (q := q) hcapacity (first.length + s.published.length - capacity)
  refine ⟨p, by omega, by omega, hslot, ?_⟩
  have hcell := (h.cell (p := p) (by omega) (by omega)).2
  rwa [getIndex, hslot] at hcell

/-- Case (1) of `push`. -/
theorem le_of_free (h : s.Inv capacity first initial) (hcapacity : 0 < capacity) {w : Nat}
    (hcycle : getCycle capacity (s.cells (getIndex capacity w)) + 1 = getCycle capacity w) :
    first.length + s.published.length ≤ w := by
  obtain ⟨p, hlo, -, hslot, hp⟩ := h.cell_of_cycle hcapacity w
  have hpdiv := Nat.div_add_mod p capacity
  have hwdiv := Nat.div_add_mod w capacity
  have hnext : w / capacity = p / capacity + 1 := by
    rw [hp] at hcycle
    exact hcycle.symm
  rw [hnext, Nat.mul_add, Nat.mul_one] at hwdiv
  omega

/-- Case (2) of `push` and case (1) of `pop`. -/
theorem lt_of_valid (h : s.Inv capacity first initial) (hcapacity : 0 < capacity) {r : Nat}
    (hcycle : getCycle capacity (s.cells (getIndex capacity r)) = getCycle capacity r) :
    first.length + s.published.length ≤ r + capacity ∧ r < first.length + s.published.length := by
  obtain ⟨p, hlo, hhi, hslot, hp⟩ := h.cell_of_cycle hcapacity r
  have hpdiv := Nat.div_add_mod p capacity
  have hrdiv := Nat.div_add_mod r capacity
  have hsame : r / capacity = p / capacity := by
    rw [hp] at hcycle
    exact hcycle.symm
  rw [hsame] at hrdiv
  have heq : p = r := by omega
  subst heq
  exact ⟨hlo, hhi⟩

theorem cell_read (h : s.Inv capacity first initial)
    (hlt : s.readPosition < first.length + s.published.length) :
    (values capacity (first ++ s.published))[s.readPosition]? =
      some (s.cells (getIndex capacity s.readPosition)) := by
  have hroom := h.room
  have hlen := h.length_contents
  exact (h.cell (by omega) hlt).1

theorem getElem?_contents (h : s.Inv capacity first initial) {k value : Nat}
    (hvalue : (values capacity (first ++ s.published))[s.readPosition + k]? = some value) :
    s.contents[k]? = some (getIndex capacity value) := by
  obtain ⟨i, hi, rfl⟩ := getElem?_values hvalue
  rw [getIndex_encode (h.small i (List.mem_of_getElem? hi)), contents, List.getElem?_drop]
  rwa [h.read, Nat.add_assoc, List.getElem?_append_right (Nat.le_add_right _ _),
    Nat.add_sub_cancel_left] at hi

theorem cell_contents (h : s.Inv capacity first initial) {k i : Nat}
    (hi : s.contents[k]? = some i) :
    getIndex capacity (s.cells (getIndex capacity (s.readPosition + k))) = i := by
  have hlt := (List.getElem?_eq_some_iff.mp hi).1
  have hlen := h.length_contents
  have hroom := h.room
  have hcell := (h.cell (p := s.readPosition + k) (by omega) (by omega)).1
  exact Option.some.inj ((h.getElem?_contents hcell).symm.trans hi)

theorem publish_free (h : s.Inv capacity first initial) (hcapacity : 0 < capacity) {t : Tid}
    {i w oldValue : Nat} (hpc : s.pc t = .pushPublish i w oldValue)
    (hcell : s.cells (getIndex capacity w) = oldValue) {k : Nat} (hk : k < s.contents.length) :
    getIndex capacity (s.readPosition + k) ≠ getIndex capacity w := by
  have hok := h.pcOk t
  rw [hpc] at hok
  obtain ⟨-, hle, hcycle⟩ := hok
  have htail := h.le_of_free hcapacity (by rw [hcell]; exact hcycle)
  have hroom := h.room_lt (h.pending t i (by rw [hpc]; rfl))
  have hwrite := h.write_le
  have hlen := h.length_contents
  exact (Lib.Ring.mod_ne (by omega) (by omega)).symm

theorem exchange (h : s.Inv capacity first initial) {t : Tid} {call : PopCall} {value : Nat}
    (hpc : s.pc t = .exchange call s.readPosition value) :
    s.contents.head? = some (getIndex capacity value) ∧
      call.required capacity ≤ s.contents.length := by
  have hok := h.pcOk t
  rw [hpc] at hok
  obtain ⟨hvalue, hrequired⟩ := hok.2 rfl
  have hlen := h.length_contents
  rw [length_values, List.length_append] at hrequired
  refine ⟨?_, by omega⟩
  rw [List.head?_eq_getElem?]
  exact h.getElem?_contents hvalue

theorem tail_le (h : s.Inv capacity first initial)
    (hcalls : s.calls.length < 2 ^ 64 - capacity) :
    first.length + s.published.length ≤ maxValue := by
  have hsub : s.published.Subperm (initial ++ s.calls) := by
    rw [List.subperm_ext_iff]
    intro i _
    rw [h.accounted i]
    exact Nat.le_add_right _ _
  have hlen := hsub.length_le
  have hstart := h.start
  rw [List.length_append] at hlen
  rw [maxValue]
  omega

end Inv

omit [DecidableEq Tid] in
theorem pushing_iff (hpending : ∀ t i, (s.pc t).pending = some i → s.owner i = some t) (i : Nat) :
    s.pushing i = true ↔ ∃ t, (s.pc t).pending = some i := by
  unfold pushing
  split
  · next t hown =>
    simp only [decide_eq_true_eq]
    refine ⟨fun h => ⟨t, h⟩, ?_⟩
    rintro ⟨t', ht'⟩
    obtain rfl : t = t' := Option.some.inj (hown.symm.trans (hpending t' i ht'))
    exact ht'
  · next hown =>
    refine ⟨fun h => absurd h (by simp), ?_⟩
    rintro ⟨t', ht'⟩
    rw [hpending t' i ht'] at hown
    cases hown

theorem pushing_congr {s' : IndexQueue Tid} {t : Tid} {p : Pc} {i : Nat}
    (hs : ∀ t i, (s.pc t).pending = some i → s.owner i = some t)
    (hs' : ∀ t i, (s'.pc t).pending = some i → s'.owner i = some t)
    (hpc : s'.pc = Function.update s.pc t p)
    (hp : p.pending = some i ↔ (s.pc t).pending = some i) : s'.pushing i = s.pushing i := by
  rw [Bool.eq_iff_iff, pushing_iff hs, pushing_iff hs', hpc]
  refine exists_congr fun t' => ?_
  rw [Function.update_apply]
  split
  · next heq => rw [heq, hp]
  · rfl

theorem pending_update {owner : Nat → Option Tid} {t : Tid} {p : Pc}
    (hp : ∀ i, p.pending = some i → owner i = some t)
    (hothers : ∀ t' i, t' ≠ t → (s.pc t').pending = some i → owner i = some t') (t' : Tid) (i : Nat)
    (hi : (Function.update s.pc t p t').pending = some i) : owner i = some t' := by
  rw [Function.update_apply] at hi
  split at hi
  · next heq =>
    rw [heq]
    exact hp i hi
  · next hne => exact hothers t' i hne hi

namespace Inv

theorem goto (h : s.Inv capacity first initial) {t : Tid} {p : Pc}
    (hp : p.pending = (s.pc t).pending)
    (hok : PcOk capacity s.readPosition s.writePosition (values capacity (first ++ s.published))
      p) :
    (s.goto t p).Inv capacity first initial := by
  have hpending : ∀ t' i, ((s.goto t p).pc t').pending = some i → s.owner i = some t' :=
    pending_update (fun i hi => h.pending t i (hp ▸ hi)) fun t' i _ hi => h.pending t' i hi
  exact {
    start := h.start
    lowest := h.lowest
    write_le := h.write_le
    le_write := h.le_write
    read := h.read
    fifo := h.fifo
    small := h.small
    holds := h.holds
    nodup := h.nodup
    free := h.free
    owned := h.owned
    pending := hpending
    accounted := by
      intro i
      rw [pushing_congr h.pending hpending rfl (by rw [hp])]
      exact h.accounted i
    pcOk := by
      intro t'
      simp only [IndexQueue.goto, Function.update_apply]
      split
      · exact hok
      · exact h.pcOk t' }

section publish

variable {t : Tid} {i w oldValue : Nat}

omit [DecidableEq Tid] in
theorem publish_position (h : s.Inv capacity first initial) (hcapacity : 0 < capacity)
    (hpc : s.pc t = .pushPublish i w oldValue)
    (hcell : s.cells (getIndex capacity w) = oldValue) :
    w = first.length + s.published.length := by
  have hok := h.pcOk t
  rw [hpc] at hok
  obtain ⟨-, hle, hcycle⟩ := hok
  have htail := h.le_of_free hcapacity (by rw [hcell]; exact hcycle)
  have hwrite := h.write_le
  omega

omit [DecidableEq Tid] in
theorem publish_owner (h : s.Inv capacity first initial)
    (hpc : s.pc t = .pushPublish i w oldValue) : s.owner i = some t ∧ i ∉ s.contents := by
  have howner : s.owner i = some t := h.pending t i (by rw [hpc]; rfl)
  exact ⟨howner, fun hmem => by simp [h.free i hmem] at howner⟩

theorem publish_pending (h : s.Inv capacity first initial)
    (hpc : s.pc t = .pushPublish i w oldValue) (t' : Tid) (j : Nat)
    (hj : (((s.publish capacity i w).goto t (.pushFinish w)).pc t').pending = some j) :
    (s.publish capacity i w).owner j = some t' := by
  refine pending_update (by simp [Pc.pending]) (fun t' j hne hj => ?_) t' j hj
  have hj' := h.pending t' j hj
  refine (Function.update_of_ne ?_ ..).trans hj'
  rintro rfl
  exact hne (Option.some.inj (hj'.symm.trans (h.publish_owner hpc).1))

omit [DecidableEq Tid] in
theorem publish_holds (h : s.Inv capacity first initial) {value : Nat}
    (hw : w = first.length + s.published.length) :
    Lib.Ring.Holds capacity (Function.update s.cells (getIndex capacity w) value)
      (values capacity (first ++ s.published) ++ [value])
      (first.length + (s.published.length + 1) - capacity) := by
  have hnext := h.holds.advance (Nat.sub_le_sub_right (Nat.le_succ _) capacity)
  have hslot : (values capacity (first ++ s.published)).length = w := by simp [hw]
  have hfree := hnext.write (by rw [hslot]; omega) value
  rw [hslot] at hfree
  exact hfree.push (by rw [hslot, Function.update_self])

theorem publish_accounted (h : s.Inv capacity first initial)
    (hpc : s.pc t = .pushPublish i w oldValue) (j : Nat) :
    (initial ++ s.calls).count j = (s.published ++ [i]).count j +
      (((s.publish capacity i w).goto t (.pushFinish w)).pushing j).toNat := by
  rw [h.accounted j, List.count_append, List.count_singleton]
  by_cases hj : j = i
  · subst hj
    have hbefore : s.pushing j = true := (pushing_iff h.pending j).mpr ⟨t, by rw [hpc]; rfl⟩
    have hafter : ((s.publish capacity j w).goto t (.pushFinish w)).pushing j = false := by
      simp [pushing, IndexQueue.goto, IndexQueue.publish]
    rw [hbefore, hafter]
    simp
  · rw [pushing_congr h.pending (h.publish_pending hpc) rfl
      (by simpa [hpc, Pc.pending] using Ne.symm hj)]
    simp [Ne.symm hj]

theorem publish (h : s.Inv capacity first initial) (hcapacity : 0 < capacity)
    (hpc : s.pc t = .pushPublish i w oldValue)
    (hcell : s.cells (getIndex capacity w) = oldValue)
    (hwrap : i + getCycle capacity w * capacity < 2 ^ 64) :
    ((s.publish capacity i w).goto t (.pushFinish w)).Inv capacity first initial := by
  have hok := h.pcOk t
  rw [hpc] at hok
  obtain ⟨-, hle, -⟩ := hok
  have hw := h.publish_position hcapacity hpc hcell
  have hwrite := h.write_le
  obtain ⟨howner, hnot⟩ := h.publish_owner hpc
  have hencode : ofIndexCycle capacity i (getCycle capacity w) = i + w / capacity * capacity :=
    Nat.mod_eq_of_lt hwrap
  have hcontents : s.published.drop s.popped.length ++ [i] =
      (s.published ++ [i]).drop s.popped.length := (List.drop_append_of_le_length h.popped_le).symm
  have hvalues : values capacity (first ++ (s.published ++ [i])) =
      values capacity (first ++ s.published) ++ [i + w / capacity * capacity] := by
    rw [← List.append_assoc, values_concat, List.length_append, hw]
  exact {
    start := h.start
    lowest := h.lowest
    write_le := by
      simp only [IndexQueue.goto, IndexQueue.publish, List.length_append, List.length_singleton]
      omega
    le_write := by
      simp only [IndexQueue.goto, IndexQueue.publish, List.length_append, List.length_singleton]
      omega
    read := h.read
    fifo := h.fifo.trans (List.prefix_append _ _)
    small := by
      intro j hj
      simp only [IndexQueue.goto, IndexQueue.publish, ← List.append_assoc] at hj
      rcases List.mem_append.mp hj with hj | hj
      · exact h.small j hj
      · rw [List.mem_singleton.mp hj]
        exact h.owned i t howner
    holds := by
      simp only [IndexQueue.goto, IndexQueue.publish, hvalues, hencode, List.length_append,
        List.length_singleton]
      exact h.publish_holds hw
    nodup := by
      simp only [IndexQueue.goto, IndexQueue.publish, contents, ← hcontents]
      rw [List.nodup_append]
      refine ⟨h.nodup, by simp, fun a ha b hb => ?_⟩
      rw [List.mem_singleton.mp hb]
      exact fun heq => hnot (heq ▸ ha)
    free := by
      intro j hj
      simp only [IndexQueue.goto, IndexQueue.publish, contents, ← hcontents] at hj ⊢
      rw [Function.update_apply]
      split
      · rfl
      · next hne =>
        rcases List.mem_append.mp hj with hj | hj
        · exact h.free j hj
        · exact absurd (List.mem_singleton.mp hj) hne
    owned := by
      intro j t' hj
      simp only [IndexQueue.goto, IndexQueue.publish, Function.update_apply] at hj
      split at hj
      · cases hj
      · exact h.owned j t' hj
    pending := h.publish_pending hpc
    accounted := h.publish_accounted hpc
    pcOk := by
      intro t'
      simp only [IndexQueue.goto, IndexQueue.publish, hvalues, Function.update_apply]
      split
      · simp only [PcOk, List.length_append, length_values, List.length_singleton]
        omega
      · exact (h.pcOk t').mono _ le_rfl le_rfl }

end publish

omit [DecidableEq Tid] in
theorem advanceWrite (h : s.Inv capacity first initial) {w : Nat} (hw : s.writePosition = w)
    (hlt : w < first.length + s.published.length)
    (hcalls : s.calls.length < 2 ^ 64 - capacity) :
    (s.advanceWrite capacity w).Inv capacity first initial := by
  have htail := h.tail_le hcalls
  have hlowest := h.lowest
  have hnext : add capacity w 1 = w + 1 := add_one (by omega)
  exact {
    start := h.start
    lowest := by
      simp only [IndexQueue.advanceWrite, hnext]
      omega
    write_le := by
      simp only [IndexQueue.advanceWrite, hnext]
      omega
    le_write := by
      have := h.le_write
      simp only [IndexQueue.advanceWrite, hnext]
      omega
    read := h.read
    fifo := h.fifo
    small := h.small
    holds := h.holds
    nodup := h.nodup
    free := h.free
    owned := h.owned
    pending := h.pending
    accounted := h.accounted
    pcOk := by
      intro t'
      have hmove := (h.pcOk t').mono [] le_rfl (show s.writePosition ≤ w + 1 by omega)
      rw [List.append_nil] at hmove
      simpa only [IndexQueue.advanceWrite, hnext] using hmove }

theorem take (h : s.Inv capacity first initial) {t : Tid} {call : PopCall} {value : Nat}
    (hpc : s.pc t = .exchange call s.readPosition value)
    (hcalls : s.calls.length < 2 ^ 64 - capacity) :
    ((s.take capacity t s.readPosition value).goto t .idle).Inv capacity first initial := by
  have hok := h.pcOk t
  rw [hpc] at hok
  obtain ⟨hvalue, -⟩ := hok.2 rfl
  have htail := h.tail_le hcalls
  have hlt : s.readPosition < first.length + s.published.length := by
    simpa using (List.getElem?_eq_some_iff.mp hvalue).1
  have hnext : add capacity s.readPosition 1 = s.readPosition + 1 := add_one (by omega)
  have hlen : s.popped.length < s.published.length := by
    have := h.read
    omega
  have hindex : getIndex capacity value = s.published[s.popped.length] := by
    obtain ⟨i, hi, rfl⟩ := getElem?_values hvalue
    rw [getIndex_encode (h.small i (List.mem_of_getElem? hi))]
    rw [h.read, List.getElem?_append_right (Nat.le_add_right _ _), Nat.add_sub_cancel_left,
      List.getElem?_eq_getElem hlen] at hi
    exact (Option.some.inj hi).symm
  have hcontents :
      s.contents = getIndex capacity value :: (s.published.drop (s.popped.length + 1)) := by
    rw [contents, List.drop_eq_getElem_cons hlen, hindex]
  have hmem : getIndex capacity value ∈ s.contents := by simp [hcontents]
  have hnodup := h.nodup
  rw [hcontents, List.nodup_cons] at hnodup
  have hpending : ∀ t' j,
      (((s.take capacity t s.readPosition value).goto t .idle).pc t').pending = some j →
      (s.take capacity t s.readPosition value).owner j = some t' := by
    refine pending_update (by simp [Pc.pending]) fun t' j _ hj => ?_
    have hj' := h.pending t' j hj
    refine (Function.update_of_ne ?_ ..).trans hj'
    rintro rfl
    rw [h.free _ hmem] at hj'
    cases hj'
  exact {
    start := h.start
    lowest := h.lowest
    write_le := h.write_le
    le_write := h.le_write
    read := by
      have := h.read
      simp only [IndexQueue.goto, IndexQueue.take, hnext, List.length_append, List.length_singleton]
      omega
    fifo := by
      simp only [IndexQueue.goto, IndexQueue.take, hindex]
      exact List.concat_get_prefix h.fifo hlen
    small := h.small
    holds := h.holds
    nodup := by
      simpa only [contents, IndexQueue.goto, IndexQueue.take, List.length_append,
        List.length_singleton] using hnodup.2
    free := by
      intro j hj
      simp only [contents, IndexQueue.goto, IndexQueue.take, List.length_append,
        List.length_singleton, Function.update_apply] at hj ⊢
      rw [if_neg]
      · exact h.free j (by rw [hcontents]; exact List.mem_cons_of_mem _ hj)
      · rintro rfl
        exact hnodup.1 hj
    owned := by
      intro j t' hj
      simp only [IndexQueue.goto, IndexQueue.take, Function.update_apply] at hj
      split at hj
      · next heq =>
        rw [heq]
        exact h.contents_mem hmem
      · exact h.owned j t' hj
    pending := hpending
    accounted := by
      intro j
      rw [pushing_congr h.pending hpending rfl (by simp [hpc, Pc.pending])]
      exact h.accounted j
    pcOk := by
      intro t'
      simp only [IndexQueue.goto, IndexQueue.take, hnext, Function.update_apply]
      split
      · trivial
      · have hmove := (h.pcOk t').mono [] (Nat.le_succ s.readPosition) (le_refl s.writePosition)
        rwa [List.append_nil] at hmove }

theorem callPush (h : s.Inv capacity first initial) {t : Tid} {i : Nat} (hpc : s.pc t = .idle)
    (howner : s.owner i = some t) :
    (IndexQueue.goto { s with calls := s.calls ++ [i] } t (.pushLoad i)).Inv
      capacity first initial := by
  have hpending : ∀ t' j, ((s.goto t (.pushLoad i)).pc t').pending = some j →
      s.owner j = some t' := by
    refine pending_update (fun j hj => ?_) fun t' j _ hj => h.pending t' j hj
    cases hj
    exact howner
  exact {
    start := h.start
    lowest := h.lowest
    write_le := h.write_le
    le_write := h.le_write
    read := h.read
    fifo := h.fifo
    small := h.small
    holds := h.holds
    nodup := h.nodup
    free := h.free
    owned := h.owned
    pending := hpending
    accounted := by
      intro j
      change (initial ++ (s.calls ++ [i])).count j = s.published.count j +
        ((s.goto t (.pushLoad i)).pushing j).toNat
      rw [← List.append_assoc, List.count_append, h.accounted j, List.count_singleton]
      by_cases hj : j = i
      · subst hj
        have hbefore : s.pushing j = false := by
          simp [pushing, howner, hpc, Pc.pending]
        have hafter : (s.goto t (.pushLoad j)).pushing j = true :=
          (pushing_iff hpending j).mpr ⟨t, by simp [IndexQueue.goto, Pc.pending]⟩
        rw [hbefore, hafter]
        simp
      · rw [pushing_congr h.pending hpending rfl (by simpa [hpc, Pc.pending] using Ne.symm hj)]
        simp [Ne.symm hj]
    pcOk := by
      intro t'
      simp only [IndexQueue.goto, Function.update_apply]
      split
      · trivial
      · exact h.pcOk t' }

theorem give (h : s.Inv capacity first initial) {t : Tid} {i : Nat} (hpc : s.pc t = .idle)
    (howner : s.owner i = some t) (t' : Tid) :
    (s.give t' i).Inv capacity first initial := by
  have hpending : ∀ u j, (s.pc u).pending = some j → (s.give t' i).owner j = some u := by
    intro u j hj
    have hj' := h.pending u j hj
    simp only [IndexQueue.give]
    rw [Function.update_of_ne]
    · exact hj'
    · rintro rfl
      obtain rfl : t = u := Option.some.inj (howner.symm.trans hj')
      rw [hpc] at hj
      cases hj
  exact {
    start := h.start
    lowest := h.lowest
    write_le := h.write_le
    le_write := h.le_write
    read := h.read
    fifo := h.fifo
    small := h.small
    holds := h.holds
    nodup := h.nodup
    free := by
      intro j hj
      simp only [IndexQueue.give]
      rw [Function.update_of_ne]
      · exact h.free j hj
      · rintro rfl
        rw [h.free j hj] at howner
        cases howner
    owned := by
      intro j u hj
      simp only [IndexQueue.give, Function.update_apply] at hj
      split at hj
      · next heq =>
        rw [heq]
        exact h.owned i t howner
      · exact h.owned j u hj
    pending := hpending
    accounted := by
      intro j
      have hsame : (s.give t' i).pushing j = s.pushing j :=
        pushing_congr h.pending hpending (Function.update_eq_self t s.pc).symm Iff.rfl
      rw [hsame]
      exact h.accounted j
    pcOk := h.pcOk }

theorem retry (h : s.Inv capacity first initial) (hcapacity : 0 < capacity) {t : Tid} {i w : Nat}
    (hpc : (s.pc t).pending = some i) (hlow : capacity ≤ w) (hle : w ≤ s.writePosition) :
    (s.goto t (IndexQueue.retry capacity i w (s.cells (getIndex capacity w)))).Inv
      capacity first initial := by
  unfold IndexQueue.retry
  split
  · next hcycle =>
    refine h.goto (by rw [hpc]; rfl) ⟨hlow, hle, ?_⟩
    simpa using (h.lt_of_valid hcapacity hcycle).2
  · exact h.goto (by rw [hpc]; rfl) trivial

theorem fetch (h : s.Inv capacity first initial) {t : Tid} {call : PopCall} {r : Nat}
    (hpc : (s.pc t).pending = none) (hr : r ≤ s.readPosition) (hpos : 0 < call.required capacity)
    (hrequired : s.readPosition = r →
      s.readPosition + call.required capacity ≤ first.length + s.published.length) :
    (s.goto t (.exchange call r (s.cells (getIndex capacity r)))).Inv capacity first initial := by
  refine h.goto (by rw [hpc]; rfl) ⟨hr, ?_⟩
  rintro rfl
  have henough := hrequired rfl
  refine ⟨h.cell_read (by omega), ?_⟩
  rwa [length_values, List.length_append]

section access

variable {t : Tid} {spurious : Bool} {i r w n value oldValue : Nat} {call : PopCall}
  {s' : IndexQueue Tid}

theorem pushCell (h : s.Inv capacity first initial) (hcapacity : 0 < capacity)
    (hcalls : s.calls.length < 2 ^ 64 - capacity) (hpc : s.pc t = .pushCell i w)
    (hstep : s.access capacity t spurious = some s') : s'.Inv capacity first initial := by
  have hok := h.pcOk t
  rw [hpc] at hok
  obtain ⟨hlow, hle⟩ := hok
  simp only [IndexQueue.access, hpc] at hstep
  split at hstep
  · next hbehind =>
    cases hstep
    have hmax := h.tail_le hcalls
    have hwrite := h.write_le
    rw [isOneCycleBehind_iff (Nat.div_pos hlow hcapacity) (by omega)] at hbehind
    exact h.goto (by rw [hpc]; rfl) ⟨hlow, hle, hbehind⟩
  · cases hstep
    exact h.retry hcapacity (by rw [hpc]; rfl) hlow hle

theorem pushPublish (h : s.Inv capacity first initial) (hcapacity : 0 < capacity)
    (hwrap : NoWrap capacity s (t, .access spurious)) (hpc : s.pc t = .pushPublish i w oldValue)
    (hstep : s.access capacity t spurious = some s') : s'.Inv capacity first initial := by
  have hok := h.pcOk t
  rw [hpc] at hok
  obtain ⟨hlow, hle, -⟩ := hok
  simp only [NoWrap, hpc] at hwrap
  simp only [IndexQueue.access, hpc] at hstep
  split at hstep
  · next hcell =>
    cases hstep
    exact h.publish hcapacity hpc hcell.1 hwrap
  · cases hstep
    exact h.retry hcapacity (by rw [hpc]; rfl) hlow hle

theorem pushHelp (h : s.Inv capacity first initial)
    (hcalls : s.calls.length < 2 ^ 64 - capacity) (hpc : s.pc t = .pushHelp i w)
    (hstep : s.access capacity t spurious = some s') : s'.Inv capacity first initial := by
  have hok := h.pcOk t
  rw [hpc] at hok
  obtain ⟨hlow, hle, hlt⟩ := hok
  simp only [IndexQueue.access, hpc] at hstep
  split at hstep
  · next hw =>
    cases hstep
    rw [length_values, List.length_append] at hlt
    have hmax := h.tail_le hcalls
    have hnext : w ≤ add capacity w 1 := by
      rw [add_one (by omega)]
      exact Nat.le_succ w
    exact (h.advanceWrite hw hlt hcalls).goto (by simp [IndexQueue.advanceWrite, hpc, Pc.pending])
      ⟨hlow, hnext⟩
  · cases hstep
    exact h.goto (by rw [hpc]; rfl) ⟨h.lowest, le_rfl⟩

theorem pushFinish (h : s.Inv capacity first initial)
    (hcalls : s.calls.length < 2 ^ 64 - capacity) (hpc : s.pc t = .pushFinish w)
    (hstep : s.access capacity t spurious = some s') : s'.Inv capacity first initial := by
  have hok := h.pcOk t
  rw [hpc] at hok
  have hlt : w < first.length + s.published.length := by simpa [PcOk] using hok
  simp only [IndexQueue.access, hpc] at hstep
  split at hstep
  · next hw =>
    cases hstep
    exact (h.advanceWrite hw hlt hcalls).goto (by simp [IndexQueue.advanceWrite, hpc, Pc.pending])
      trivial
  · cases hstep
    exact h.goto (by rw [hpc]; rfl) trivial

theorem popCell (h : s.Inv capacity first initial) (hcapacity : 0 < capacity)
    (hpc : s.pc t = .popCell r) (hstep : s.access capacity t spurious = some s') :
    s'.Inv capacity first initial := by
  have hok := h.pcOk t
  rw [hpc] at hok
  simp only [IndexQueue.access, hpc] at hstep
  split at hstep
  · next hcycle =>
    cases hstep
    have hvalid := h.lt_of_valid hcapacity hcycle.symm
    refine h.fetch (by rw [hpc]; rfl) hok Nat.one_pos fun hr => ?_
    rw [hr]
    exact Nat.succ_le_of_lt hvalid.2
  · split at hstep
    · cases hstep
      exact h.goto (by rw [hpc]; rfl) trivial
    · cases hstep
      exact h.goto (by rw [hpc]; rfl) trivial

theorem fullCell (h : s.Inv capacity first initial) (hcapacity : 0 < capacity)
    (hcalls : s.calls.length < 2 ^ 64 - capacity) (hpc : s.pc t = .fullCell w r)
    (hstep : s.access capacity t spurious = some s') : s'.Inv capacity first initial := by
  have hok := h.pcOk t
  rw [hpc] at hok
  obtain ⟨hlow, hle, hr⟩ := hok
  simp only [IndexQueue.access, hpc] at hstep
  split at hstep
  · next hfull =>
    cases hstep
    have hmax := h.tail_le hcalls
    have hwrite := h.write_le
    have hsize := full_of_behind hcapacity hlow (by omega) hfull
    refine h.fetch (by rw [hpc]; rfl) hr hcapacity fun hread => ?_
    simp only [PopCall.required]
    omega
  · cases hstep
    exact h.goto (by rw [hpc]; rfl) trivial

theorem sizeLoadWrite (h : s.Inv capacity first initial) (hpc : s.pc t = .sizeLoadWrite n)
    (hstep : s.access capacity t spurious = some s') : s'.Inv capacity first initial := by
  have hok := h.pcOk t
  rw [hpc] at hok
  simp only [IndexQueue.access, hpc, Option.some.injEq] at hstep
  subst hstep
  have hwrite := h.write_le
  have hlen := h.length_contents
  have hroom := h.room
  exact h.goto (by rw [hpc]; rfl) ⟨hok, le_rfl, by omega⟩

theorem sizeLoadRead (h : s.Inv capacity first initial) (hlarge : capacity < maxValue / 2)
    (hwrap : NoWrap capacity s (t, .access spurious)) (hpc : s.pc t = .sizeLoadRead n w)
    (hstep : s.access capacity t spurious = some s') : s'.Inv capacity first initial := by
  have hok := h.pcOk t
  rw [hpc] at hok
  obtain ⟨hn, hle, hw⟩ := hok
  simp only [NoWrap, hpc] at hwrap
  simp only [IndexQueue.access, hpc] at hstep
  split at hstep
  · next hdelta =>
    cases hstep
    have hsize := sub_le hlarge hw hwrap hdelta
    exact h.goto (by rw [hpc]; rfl) ⟨hn, le_rfl, fun _ => hsize.trans hle⟩
  · cases hstep
    exact h.goto (by rw [hpc]; rfl) trivial

theorem sizeCell (h : s.Inv capacity first initial) (hpc : s.pc t = .sizeCell n r)
    (hstep : s.access capacity t spurious = some s') : s'.Inv capacity first initial := by
  have hok := h.pcOk t
  rw [hpc] at hok
  obtain ⟨hn, hr, hsize⟩ := hok
  simp only [IndexQueue.access, hpc, Option.some.injEq] at hstep
  subst hstep
  refine h.fetch (by rw [hpc]; rfl) hr hn fun hread => ?_
  have hwrite := h.write_le
  have hrequired := hsize hread
  simp only [PopCall.required]
  omega

theorem exchangeRead (h : s.Inv capacity first initial)
    (hcalls : s.calls.length < 2 ^ 64 - capacity) (hpc : s.pc t = .exchange call r value)
    (hstep : s.access capacity t spurious = some s') : s'.Inv capacity first initial := by
  simp only [IndexQueue.access, hpc] at hstep
  split at hstep
  · next hr =>
    obtain ⟨rfl, -⟩ := hr
    cases hstep
    exact h.take hpc hcalls
  · cases hstep
    cases call with
    | pop => exact h.goto (by rw [hpc]; rfl) (le_refl s.readPosition)
    | popIfFull => exact h.goto (by rw [hpc]; rfl) trivial
    | popIfSizeIsAtLeast n => exact h.goto (by rw [hpc]; rfl) trivial

theorem access (h : s.Inv capacity first initial) (hcapacity : 0 < capacity)
    (hlarge : capacity < maxValue / 2) (hwrap : NoWrap capacity s (t, .access spurious))
    (hcalls : s.calls.length < 2 ^ 64 - capacity)
    (hstep : s.access capacity t spurious = some s') : s'.Inv capacity first initial := by
  cases hpc : s.pc t with
  | idle => simp [IndexQueue.access, hpc] at hstep
  | pushLoad i =>
    simp only [IndexQueue.access, hpc, Option.some.injEq] at hstep
    subst hstep
    exact h.goto (by rw [hpc]; rfl) ⟨h.lowest, le_rfl⟩
  | pushCell i w => exact h.pushCell hcapacity hcalls hpc hstep
  | pushPublish i w oldValue => exact h.pushPublish hcapacity hwrap hpc hstep
  | pushHelp i w => exact h.pushHelp hcalls hpc hstep
  | pushFinish w => exact h.pushFinish hcalls hpc hstep
  | popLoad =>
    simp only [IndexQueue.access, hpc, Option.some.injEq] at hstep
    subst hstep
    exact h.goto (by rw [hpc]; rfl) (le_refl s.readPosition)
  | popCell r => exact h.popCell hcapacity hpc hstep
  | fullLoadWrite =>
    simp only [IndexQueue.access, hpc, Option.some.injEq] at hstep
    subst hstep
    exact h.goto (by rw [hpc]; rfl) ⟨h.lowest, le_rfl⟩
  | fullLoadRead w =>
    have hok := h.pcOk t
    rw [hpc] at hok
    simp only [IndexQueue.access, hpc, Option.some.injEq] at hstep
    subst hstep
    exact h.goto (by rw [hpc]; rfl) ⟨hok.1, hok.2, le_rfl⟩
  | fullCell w r => exact h.fullCell hcapacity hcalls hpc hstep
  | sizeLoadWrite n => exact h.sizeLoadWrite hpc hstep
  | sizeLoadRead n w => exact h.sizeLoadRead hlarge hwrap hpc hstep
  | sizeCell n r => exact h.sizeCell hpc hstep
  | exchange call r value => exact h.exchangeRead hcalls hpc hstep

end access

theorem step (h : s.Inv capacity first initial) (hcapacity : 0 < capacity)
    (hlarge : capacity < maxValue / 2) {l : Tid × Act Tid} (hwrap : NoWrap capacity s l)
    (hcalls : s.calls.length < 2 ^ 64 - capacity) {s' : IndexQueue Tid}
    (hstep : s.step capacity l = some s') : s'.Inv capacity first initial := by
  obtain ⟨t, act⟩ := l
  cases act with
  | access spurious => exact h.access hcapacity hlarge hwrap hcalls hstep
  | push i =>
    simp only [IndexQueue.step, Option.ite_none_right_eq_some, Option.some.injEq] at hstep
    obtain ⟨⟨hpc, howner⟩, rfl⟩ := hstep
    exact h.callPush hpc howner
  | pop =>
    simp only [IndexQueue.step, Option.ite_none_right_eq_some, Option.some.injEq] at hstep
    obtain ⟨hpc, rfl⟩ := hstep
    exact h.goto (by rw [hpc]; rfl) trivial
  | popIfFull =>
    simp only [IndexQueue.step, Option.ite_none_right_eq_some, Option.some.injEq] at hstep
    obtain ⟨hpc, rfl⟩ := hstep
    exact h.goto (by rw [hpc]; rfl) trivial
  | popIfSizeIsAtLeast n =>
    simp only [IndexQueue.step, Option.ite_none_right_eq_some, Option.some.injEq] at hstep
    obtain ⟨hpc, rfl⟩ := hstep
    split
    · exact h.goto (by rw [hpc]; rfl) trivial
    · next hn => exact h.goto (by rw [hpc]; rfl) (Nat.pos_of_ne_zero hn)
  | give t' i =>
    simp only [IndexQueue.step, Option.ite_none_right_eq_some, Option.some.injEq] at hstep
    obtain ⟨⟨hpc, howner⟩, rfl⟩ := hstep
    exact h.give hpc howner t'

end Inv

theorem calls_access {t : Tid} {spurious : Bool} {s' : IndexQueue Tid}
    (hstep : s.access capacity t spurious = some s') : s'.calls = s.calls := by
  simp only [access] at hstep
  repeat' split at hstep
  all_goals
    cases hstep
    try rfl

theorem calls_step {l : Tid × Act Tid} {s' : IndexQueue Tid}
    (hstep : s.step capacity l = some s') : s'.calls = s.calls ++ pushCall l := by
  obtain ⟨t, act⟩ := l
  cases act with
  | access spurious => simpa [pushCall] using calls_access hstep
  | push i =>
    simp only [step, Option.ite_none_right_eq_some, Option.some.injEq] at hstep
    obtain ⟨-, rfl⟩ := hstep
    rfl
  | pop | popIfFull | popIfSizeIsAtLeast | give =>
    simp only [step, Option.ite_none_right_eq_some, Option.some.injEq] at hstep
    obtain ⟨-, rfl⟩ := hstep
    simp [pushCall, goto, give]

theorem calls_run {ls : List (Tid × Act Tid)} {s' : IndexQueue Tid}
    (hrun : Lib.runSteps (step capacity) s ls = some s') :
    s'.calls = s.calls ++ pushCalls ls := by
  induction ls generalizing s with
  | nil =>
    cases hrun
    simp [pushCalls]
  | cons l ls ih =>
    obtain ⟨m, hm, hrest⟩ := Lib.runSteps_cons hrun
    rw [ih hrest, calls_step hm]
    simp [pushCalls]

def Start (capacity : Nat) (s : IndexQueue Tid) : Prop :=
  s = constructFull capacity ∨
    ∃ owner, (∀ i t, owner i = some t → i < capacity) ∧ s = constructEmpty capacity owner

omit [DecidableEq Tid] in
theorem Inv.start_full (capacity : Nat) :
    Inv capacity [] (List.range capacity) (constructFull capacity : IndexQueue Tid) where
  start := by simp
  lowest := le_rfl
  write_le := by simp [constructFull]
  le_write := by simp [constructFull]
  read := rfl
  fifo := List.nil_prefix
  small := by simp [constructFull]
  holds := by
    intro p v _ hv
    obtain ⟨i, hi, rfl⟩ := getElem?_values hv
    obtain ⟨hlt, rfl⟩ : p < capacity ∧ p = i := by
      simpa [constructFull, List.getElem?_eq_some_iff] using hi
    simp [constructFull, Nat.mod_eq_of_lt hlt, Nat.div_eq_of_lt hlt]
  nodup := List.nodup_range
  free := fun _ _ => rfl
  owned := by simp [constructFull]
  pending := by simp [constructFull, Pc.pending]
  accounted := by simp [constructFull, pushing]
  pcOk := fun _ => trivial

omit [DecidableEq Tid] in
theorem Inv.start_empty {owner : Nat → Option Tid} (hcapacity : 0 < capacity)
    (howner : ∀ i t, owner i = some t → i < capacity) :
    Inv capacity (List.replicate capacity 0) [] (constructEmpty capacity owner) where
  start := by simp
  lowest := le_rfl
  write_le := by simp [constructEmpty]
  le_write := by simp [constructEmpty]
  read := by simp [constructEmpty]
  fifo := List.nil_prefix
  small := by
    simp [constructEmpty]
    omega
  holds := by
    intro p v _ hv
    obtain ⟨i, hi, rfl⟩ := getElem?_values hv
    obtain ⟨hlt, rfl⟩ : p < capacity ∧ 0 = i := by
      simpa [constructEmpty, List.getElem?_eq_some_iff] using hi
    simp [constructEmpty, Nat.div_eq_of_lt hlt]
  nodup := List.nodup_nil
  free := by simp [constructEmpty, contents]
  owned := howner
  pending := by simp [constructEmpty, Pc.pending]
  accounted := by
    intro i
    have hidle : (constructEmpty capacity owner).pushing i = false := by
      simp only [pushing, constructEmpty, Pc.pending]
      split <;> rfl
    rw [hidle]
    rfl
  pcOk := fun _ => trivial

namespace Inv

theorem run (h : s.Inv capacity first initial) (hcapacity : 0 < capacity)
    (hlarge : capacity < maxValue / 2) {ls : List (Tid × Act Tid)} {s' : IndexQueue Tid}
    (hrun : Lib.runSteps (IndexQueue.step capacity) s ls = some s')
    (hcalls : s.calls.length + (pushCalls ls).length < 2 ^ 64 - capacity)
    (hwrap : Lib.Meets (IndexQueue.step capacity) (NoWrap capacity) s ls) :
    s'.Inv capacity first initial := by
  refine Lib.runSteps_budget (I := Inv capacity first initial) (fun s => s.calls.length)
    (fun l => (pushCall l).length) (2 ^ 64 - capacity) ?_ ?_ ls s s' h ?_ hwrap hrun
  · intro s l s' hstep
    rw [calls_step hstep, List.length_append]
  · intro s l s' hs hl hcalls hstep
    refine hs.step hcapacity hlarge hl ?_ hstep
    rw [calls_step hstep, List.length_append] at hcalls
    omega
  · rwa [pushCalls, List.length_flatMap] at hcalls

end Inv

/-- The indices leave the queue once, in the order in which they were published, and none
is overwritten before; a pop with a condition succeeds only if the condition holds. -/
theorem fifo {s₀ : IndexQueue Tid} (hcapacity : 0 < capacity) (hlarge : capacity < maxValue / 2)
    (hstart : Start capacity s₀) (ls : List (Tid × Act Tid))
    (hrun : Lib.runSteps (step capacity) s₀ ls = some s)
    (hpushes : (pushCalls ls).length < 2 ^ 64 - capacity)
    (hwrap : Lib.Meets (step capacity) (NoWrap capacity) s₀ ls) :
    s.popped <+: s.published ∧
    (∀ i, (s₀.published ++ pushCalls ls).count i = s.published.count i + (s.pushing i).toNat) ∧
    s.contents.Nodup ∧ s.contents.length ≤ capacity ∧
    (∀ k i, s.contents[k]? = some i →
      getIndex capacity (s.cells (getIndex capacity (s.readPosition + k))) = i) ∧
    (∀ t call value, s.pc t = .exchange call s.readPosition value →
      s.contents.head? = some (getIndex capacity value) ∧
        call.required capacity ≤ s.contents.length) ∧
    (∀ t i w oldValue, s.pc t = .pushPublish i w oldValue →
      s.cells (getIndex capacity w) = oldValue →
      ∀ k < s.contents.length, getIndex capacity (s.readPosition + k) ≠ getIndex capacity w) := by
  obtain ⟨first, h₀⟩ : ∃ first, s₀.Inv capacity first s₀.published := by
    rcases hstart with rfl | ⟨owner, howner, rfl⟩
    · exact ⟨_, Inv.start_full capacity⟩
    · exact ⟨_, Inv.start_empty hcapacity howner⟩
  have hnone : s₀.calls = [] := by
    rcases hstart with rfl | ⟨owner, howner, rfl⟩ <;> rfl
  have hcalls := calls_run hrun
  rw [hnone, List.nil_append] at hcalls
  have h := h₀.run hcapacity hlarge hrun (by simpa [hnone] using hpushes) hwrap
  refine ⟨h.fifo, ?_, h.nodup, h.room, fun k i => h.cell_contents, fun t call value => h.exchange,
    fun t i w oldValue hpc hcell k hk => h.publish_free hcapacity hpc hcell hk⟩
  rw [← hcalls]
  exact h.accounted

instance (s : IndexQueue Tid) (l : Tid × Act Tid) : Decidable (NoWrap capacity s l) := by
  unfold NoWrap
  split
  · split <;> infer_instance
  · infer_instance

def oneEach (i : Nat) : Option Bool :=
  if i = 0 then some true else if i = 1 then some false else none

/-- Both push at once, one of them helps the other with the write position, and the full
queue is popped. -/
def helpedPush : List (Bool × Act Bool) :=
  [(true, .push 0), (false, .push 1), (true, .access false), (false, .access false),
    (true, .access false), (false, .access false), (true, .access false), (false, .access false),
    (false, .access false), (false, .access false), (false, .access false),
    (false, .access false), (false, .access false), (true, .access false), (false, .access false),
    (true, .popIfFull), (true, .access false), (true, .access false), (true, .access false),
    (true, .access false)]

theorem fifo_helpedPush :
    (Lib.runSteps (step 2) (constructEmpty 2 oneEach) helpedPush).map
      (fun s => (s.published, s.popped)) = some ([0, 1], [0]) ∧
    ∃ s, Lib.runSteps (step 2) (constructEmpty 2 oneEach) helpedPush = some s ∧
      s.popped <+: s.published := by
  refine ⟨by decide, ?_⟩
  obtain ⟨s, hs⟩ : ∃ s, Lib.runSteps (step 2) (constructEmpty 2 oneEach) helpedPush = some s :=
    ⟨_, rfl⟩
  have hstart : Start 2 (constructEmpty 2 oneEach) := by
    refine Or.inr ⟨oneEach, ?_, rfl⟩
    intro i t h
    simp only [oneEach] at h
    split at h
    · omega
    · split at h
      · omega
      · cases h
  exact ⟨s, hs, (fifo (by decide) (by decide) hstart helpedPush hs (by decide) (by decide)).1⟩

theorem getCycle_ofIndexCycle_ne {i n : Nat} (hi : i < capacity) (hlarge : capacity < 2 ^ 64)
    (hwrap : 2 ^ 64 ≤ i + n * capacity) :
    getCycle capacity (ofIndexCycle capacity i n) ≠ n := by
  intro hcycle
  have hle : ofIndexCycle capacity i n ≤ i + n * capacity - 2 ^ 64 := by
    rw [ofIndexCycle, Nat.mod_eq_sub_mod hwrap]
    exact Nat.mod_le _ _
  have hmul := Nat.div_mul_le_self (ofIndexCycle capacity i n) capacity
  rw [getCycle] at hcycle
  rw [hcycle] at hmul
  omega

example : getCycle 7 (ofIndexCycle 7 5 (getCycle 7 (2 ^ 64 - 2))) = 0 := by decide

/-! ## The difference of the positions wraps around -/

def cycle : List (Bool × Act Bool) :=
  [(true, .push 0), (true, .access false), (true, .access false), (true, .access false),
    (true, .access false), (true, .pop), (true, .access false), (true, .access false),
    (true, .access false)]

def slowPop : List (Bool × Act Bool) :=
  [(false, .popIfSizeIsAtLeast 1), (false, .access false)]

def slowPopEnd : List (Bool × Act Bool) :=
  [(false, .access false), (false, .access false), (false, .access false)]

def onlyZero (i : Nat) : Option Bool := if i = 0 then some true else none

structure Level (k : Nat) (s : IndexQueue Bool) : Prop where
  read : s.readPosition = k + 1
  write : s.writePosition = k + 1
  cell : s.cells 0 = k
  first : s.pc true = .idle
  second : s.pc false = .sizeLoadRead 1 1
  owner : s.owner 0 = some true
  published : s.published.length = k
  popped : s.popped.length = k

theorem Level.cycle {k : Nat} {s : IndexQueue Bool} (h : Level k s) (hk : k < 2 ^ 63 + 1) :
    ∃ s', Lib.runSteps (step 1) s IndexQueue.cycle = some s' ∧ Level (k + 1) s' := by
  obtain ⟨hread, hwrite, hcell, hfirst, hsecond, howner, hpublished, hpopped⟩ := h
  have hadd : add 1 (k + 1) 1 = k + 2 := add_one (by simp only [maxValue]; omega)
  have hbehind : isOneCycleBehind 1 k (k + 1) = true := by
    rw [isOneCycleBehind_iff]
    · simp [getCycle]
    · simp [getCycle]
    · simp only [maxValue]
      omega
  have hvalue : (k + 1) % 2 ^ 64 = k + 1 := Nat.mod_eq_of_lt (by omega)
  simp only [Lib.runSteps, IndexQueue.cycle, step, access, IndexQueue.goto, IndexQueue.publish,
    IndexQueue.advanceWrite, IndexQueue.take, getIndex, getCycle, ofIndexCycle, Nat.mod_one,
    Nat.div_one, Nat.mul_one, Nat.zero_add, Function.update_self, hread, hwrite, hcell, hfirst,
    howner, hadd, hbehind, hvalue, Option.bind_some, and_self, if_true, imp_self]
  refine ⟨_, rfl, rfl, rfl, ?_, ?_, ?_, ?_, ?_, ?_⟩
  · simp
  · simp
  · simpa using hsecond
  · simp
  · simpa using hpublished
  · simpa using hpopped

theorem Level.slowPopEnd {s : IndexQueue Bool} (h : Level (2 ^ 63 + 1) s) :
    ∃ s', Lib.runSteps (step 1) s IndexQueue.slowPopEnd = some s' ∧
      s'.published.length < s'.popped.length := by
  obtain ⟨hread, hwrite, hcell, hfirst, hsecond, howner, hpublished, hpopped⟩ := h
  have hdelta : 0 ≤ sub 1 (2 ^ 63 + 1 + 1) ∧ 1 ≤ (sub 1 (2 ^ 63 + 1 + 1)).toNat := by decide
  simp only [Lib.runSteps, IndexQueue.slowPopEnd, step, access, IndexQueue.goto, IndexQueue.take,
    getIndex, Nat.mod_one, Function.update_self, hread, hsecond, hdelta, Option.bind_some, and_self,
    if_true, reduceCtorEq, false_implies]
  refine ⟨_, rfl, ?_⟩
  simp [hpublished, hpopped]

theorem length_pushCalls_cycles (n : Nat) :
    (pushCalls (List.replicate n cycle).flatten).length = n := by
  rw [pushCalls, Lib.length_flatMap_flatten_replicate]
  exact Nat.mul_one n

def slowRun : List (Bool × Act Bool) :=
  slowPop ++ ((List.replicate (2 ^ 63 + 1) cycle).flatten ++ slowPopEnd)

theorem index_popped_twice :
    ∃ s, Lib.runSteps (step 1) (constructEmpty 1 onlyZero) slowRun = some s ∧
      (pushCalls slowRun).length < 2 ^ 64 - 1 ∧ ¬ s.popped <+: s.published := by
  obtain ⟨m₀, hm₀, hlevel₀⟩ : ∃ m,
      Lib.runSteps (step 1) (constructEmpty 1 onlyZero) slowPop = some m ∧
      Level 0 m := ⟨_, rfl, rfl, rfl, rfl, rfl, rfl, rfl, rfl, rfl⟩
  have hcycle : ∀ k s, k < 2 ^ 63 + 1 → Level k s →
      ∃ s', Lib.runSteps (step 1) s cycle = some s' ∧ Level (k + 1) s' :=
    fun k s hk h => h.cycle hk
  obtain ⟨m, hm, hlevel⟩ := Lib.runSteps_replicate hcycle hlevel₀
  obtain ⟨s, hs, hlen⟩ := hlevel.slowPopEnd
  refine ⟨s, ?_, ?_, ?_⟩
  · rw [slowRun, Lib.runSteps_append, hm₀, Option.bind_some, Lib.runSteps_append, hm,
      Option.bind_some, hs]
  · have hpushes := length_pushCalls_cycles (2 ^ 63 + 1)
    rw [pushCalls] at hpushes
    rw [slowRun, pushCalls, List.flatMap_append, List.flatMap_append, List.length_append,
      List.length_append, hpushes]
    decide
  · intro hfifo
    have := hfifo.length_le
    omega

end IndexQueue

end Iceoryx.Hoofs
