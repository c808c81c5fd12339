import Iceoryx.Hoofs.Serialization
import Iceoryx.Popo.Ports

namespace Iceoryx

open Hoofs Hoofs.Serialization
open Hoofs.Convert hiding toString

/-- The text of a `string<100>` that has no NUL inside. -/
def FixedString (s : String) : Prop := s.toList.length ≤ stringCapacity ∧ '\x00' ∉ s.toList

instance (s : String) : Decidable (FixedString s) :=
  inferInstanceAs (Decidable (s.toList.length ≤ stringCapacity ∧ '\x00' ∉ s.toList))

theorem pure_eq_some {σ α : Type} (a : α) (s : σ) :
    (pure a : StateT σ Option α) s = some (a, s) := rfl

namespace Capro

def Scope.toUint16 : Scope → Nat
  | .worldwide => 0
  | .local => 1
  | .invalid => 2

def Scope.ofUint16 : Nat → Scope
  | 0 => .worldwide
  | 1 => .local
  | _ => .invalid

theorem Scope.ofUint16_toUint16 (s : Scope) : ofUint16 s.toUint16 = s := by
  cases s <;> rfl

def Interfaces.toUint16 : Interfaces → Nat
  | .internal => 0
  | .esoc => 1
  | .someip => 2
  | .amqp => 3
  | .mqtt => 4
  | .dds => 5
  | .signal => 6
  | .mta => 7
  | .ros1 => 8
  | .interfaceEnd => 9

def Interfaces.ofUint16 : Nat → Interfaces
  | 0 => .internal
  | 1 => .esoc
  | 2 => .someip
  | 3 => .amqp
  | 4 => .mqtt
  | 5 => .dds
  | 6 => .signal
  | 7 => .mta
  | 8 => .ros1
  | _ => .interfaceEnd

theorem Interfaces.ofUint16_toUint16 (i : Interfaces) : ofUint16 i.toUint16 = i := by
  cases i <;> rfl

namespace ServiceDescription

def serialize (d : ServiceDescription) : List Char :=
  create [
    fixedToString d.serviceString,
    fixedToString d.instanceString,
    fixedToString d.eventString,
    Convert.toString (d.classHash.getD 0 0),
    Convert.toString (d.classHash.getD 1 0),
    Convert.toString (d.classHash.getD 2 0),
    Convert.toString (d.classHash.getD 3 0),
    Convert.toString d.scope.toUint16,
    Convert.toString d.interfaceSource.toUint16]

def extractArgs : StateT (List Char) Option (ServiceDescription × Nat × Nat) := do
  let serviceString ← next fromStringFixed
  let instanceString ← next fromStringFixed
  let eventString ← next fromStringFixed
  let h₀ ← next fromStringUint32
  let h₁ ← next fromStringUint32
  let h₂ ← next fromStringUint32
  let h₃ ← next fromStringUint32
  let scope ← next fromStringUint16
  let interfaceSource ← next fromStringUint16
  let classHash := [h₀, h₁, h₂, h₃]
  return ({ serviceString, instanceString, eventString, classHash }, scope, interfaceSource)

def deserialize (serialized : List Char) : Option ServiceDescription := do
  let (deserializedObject, scope, interfaceSource) ← extract extractArgs serialized
  if Scope.invalid.toUint16 ≤ scope ∨ Interfaces.interfaceEnd.toUint16 ≤ interfaceSource then none
  else
    some { deserializedObject with
      scope := .ofUint16 scope
      interfaceSource := .ofUint16 interfaceSource }

structure WellFormed (d : ServiceDescription) : Prop where
  service : FixedString d.serviceString
  inst : FixedString d.instanceString
  event : FixedString d.eventString
  hash : ∃ h₀ h₁ h₂ h₃, d.classHash = [h₀, h₁, h₂, h₃] ∧
    h₀ < 2 ^ 32 ∧ h₁ < 2 ^ 32 ∧ h₂ < 2 ^ 32 ∧ h₃ < 2 ^ 32

theorem deserialize_serialize {d : ServiceDescription} (h : d.WellFormed) :
    deserialize d.serialize =
      if d.scope ≠ .invalid ∧ d.interfaceSource ≠ .interfaceEnd then some d else none := by
  obtain ⟨hservice, hinst, hevent, h₀, h₁, h₂, h₃, hash, hlt₀, hlt₁, hlt₂, hlt₃⟩ := h
  have hscope : d.scope.toUint16 ≤ 2 ^ 16 - 1 := by cases d.scope <;> decide
  have hinterface : d.interfaceSource.toUint16 ≤ 2 ^ 16 - 1 := by cases d.interfaceSource <;> decide
  have h32 : ∀ {n : Nat} (_ : n < 2 ^ 32) (entries : List (List Char)),
      next fromStringUint32 (create (Convert.toString n :: entries)) = some (n, create entries) :=
    fun {n} hn entries => @next_small (2 ^ 32 - 1) n (by decide) (by omega) entries
  have h16 : ∀ {n : Nat} (_ : n ≤ 2 ^ 16 - 1) (entries : List (List Char)),
      next fromStringUint16 (create (Convert.toString n :: entries)) = some (n, create entries) :=
    fun {n} hn entries => @next_small (2 ^ 16 - 1) n (by decide) hn entries
  have hextract : extract extractArgs d.serialize =
      some ({ d with scope := .worldwide, interfaceSource := .internal }, d.scope.toUint16,
        d.interfaceSource.toUint16) := by
    simp only [extract, extractArgs, serialize, hash, List.getD_cons_zero, List.getD_cons_succ,
      StateT.bind, bind, pure_eq_some, Option.bind, next_fixed hservice.1 hservice.2,
      next_fixed hinst.1 hinst.2, next_fixed hevent.1 hevent.2, h32 hlt₀, h32 hlt₁, h32 hlt₂,
      h32 hlt₃, h16 hscope, h16 hinterface, create_nil, List.isEmpty_nil, if_true]
  have hinvalid : Scope.invalid.toUint16 ≤ d.scope.toUint16 ↔ d.scope = .invalid := by
    cases d.scope <;> decide
  have hend : Interfaces.interfaceEnd.toUint16 ≤ d.interfaceSource.toUint16 ↔
      d.interfaceSource = .interfaceEnd := by
    cases d.interfaceSource <;> decide
  rw [deserialize, hextract]
  simp only [Option.bind_eq_bind, Option.bind_some, Scope.ofUint16_toUint16,
    Interfaces.ofUint16_toUint16, hinvalid, hend, ne_eq, ← not_or, ite_not]

end ServiceDescription

end Capro

namespace Popo

def ConsumerTooSlowPolicy.toUint8 : ConsumerTooSlowPolicy → Nat
  | .waitForConsumer => 0
  | .discardOldestData => 1

def ConsumerTooSlowPolicy.ofUint8 : Nat → ConsumerTooSlowPolicy
  | 0 => .waitForConsumer
  | _ => .discardOldestData

def QueueFullPolicy.toUint8 : QueueFullPolicy → Nat
  | .blockProducer => 0
  | .discardOldestData => 1

def QueueFullPolicy.ofUint8 : Nat → QueueFullPolicy
  | 0 => .blockProducer
  | _ => .discardOldestData

theorem ConsumerTooSlowPolicy.ofUint8_toUint8 (p : ConsumerTooSlowPolicy) :
    ofUint8 p.toUint8 = p := by
  cases p <;> rfl

theorem ConsumerTooSlowPolicy.not_lt_toUint8 (p : ConsumerTooSlowPolicy) :
    ¬ discardOldestData.toUint8 < p.toUint8 := by
  cases p <;> decide

theorem QueueFullPolicy.ofUint8_toUint8 (p : QueueFullPolicy) : ofUint8 p.toUint8 = p := by
  cases p <;> rfl

theorem QueueFullPolicy.not_lt_toUint8 (p : QueueFullPolicy) :
    ¬ discardOldestData.toUint8 < p.toUint8 := by
  cases p <;> decide

theorem next_consumerTooSlowPolicy (p : ConsumerTooSlowPolicy) (entries : List (List Char)) :
    next fromStringUint8 (create (Convert.toString p.toUint8 :: entries)) =
      some (p.toUint8, create entries) :=
  @next_small (2 ^ 8 - 1) p.toUint8 (by decide) (by cases p <;> decide) entries

theorem next_queueFullPolicy (p : QueueFullPolicy) (entries : List (List Char)) :
    next fromStringUint8 (create (Convert.toString p.toUint8 :: entries)) =
      some (p.toUint8, create entries) :=
  @next_small (2 ^ 8 - 1) p.toUint8 (by decide) (by cases p <;> decide) entries

namespace PublisherOptions

def serialize (o : PublisherOptions) : List Char :=
  create [
    Convert.toString o.historyCapacity,
    fixedToString o.nodeName,
    boolToString o.offerOnCreate,
    Convert.toString o.subscriberTooSlowPolicy.toUint8]

def extractArgs : StateT (List Char) Option (PublisherOptions × Nat) := do
  let historyCapacity ← next fromStringUint64
  let nodeName ← next fromStringFixed
  let offerOnCreate ← next fromStringBool
  let subscriberTooSlowPolicy ← next fromStringUint8
  return ({ historyCapacity, nodeName, offerOnCreate }, subscriberTooSlowPolicy)

def deserialize (serialized : List Char) : Option PublisherOptions := do
  let (publisherOptions, subscriberTooSlowPolicy) ← extract extractArgs serialized
  if ConsumerTooSlowPolicy.discardOldestData.toUint8 < subscriberTooSlowPolicy then none
  else some { publisherOptions with subscriberTooSlowPolicy := .ofUint8 subscriberTooSlowPolicy }

structure WellFormed (o : PublisherOptions) : Prop where
  history : o.historyCapacity < 2 ^ 64
  node : FixedString o.nodeName

theorem deserialize_serialize {o : PublisherOptions} (h : o.WellFormed) :
    deserialize o.serialize = if o.historyCapacity = 2 ^ 64 - 1 then none else some o := by
  simp only [deserialize, extract, extractArgs, serialize, StateT.bind, bind, pure_eq_some,
    next_uint64 h.history]
  split
  · rfl
  · simp only [Option.bind, next_fixed h.node.1 h.node.2, next_bool, next_consumerTooSlowPolicy,
      create_nil, List.isEmpty_nil, if_true, ConsumerTooSlowPolicy.not_lt_toUint8,
      if_false, ConsumerTooSlowPolicy.ofUint8_toUint8]

end PublisherOptions

namespace SubscriberOptions

def serialize (o : SubscriberOptions) : List Char :=
  create [
    Convert.toString o.queueCapacity,
    Convert.toString o.historyRequest,
    fixedToString o.nodeName,
    boolToString o.subscribeOnCreate,
    Convert.toString o.queueFullPolicy.toUint8,
    boolToString o.requiresPublisherHistorySupport]

def extractArgs : StateT (List Char) Option (SubscriberOptions × Nat) := do
  let queueCapacity ← next fromStringUint64
  let historyRequest ← next fromStringUint64
  let nodeName ← next fromStringFixed
  let subscribeOnCreate ← next fromStringBool
  let queueFullPolicy ← next fromStringUint8
  let requiresPublisherHistorySupport ← next fromStringBool
  return ({ queueCapacity, historyRequest, nodeName, subscribeOnCreate,
            requiresPublisherHistorySupport }, queueFullPolicy)

def deserialize (serialized : List Char) : Option SubscriberOptions := do
  let (subscriberOptions, queueFullPolicy) ← extract extractArgs serialized
  if QueueFullPolicy.discardOldestData.toUint8 < queueFullPolicy then none
  else some { subscriberOptions with queueFullPolicy := .ofUint8 queueFullPolicy }

structure WellFormed (o : SubscriberOptions) : Prop where
  queue : o.queueCapacity < 2 ^ 64
  history : o.historyRequest < 2 ^ 64
  node : FixedString o.nodeName

theorem deserialize_serialize {o : SubscriberOptions} (h : o.WellFormed) :
    deserialize o.serialize =
      if o.queueCapacity = 2 ^ 64 - 1 then none
      else if o.historyRequest = 2 ^ 64 - 1 then none
      else some o := by
  simp only [deserialize, extract, extractArgs, serialize, StateT.bind, bind, pure_eq_some,
    next_uint64 h.queue]
  split
  · rfl
  · simp only [Option.bind_some, next_uint64 h.history]
    split
    · rfl
    · simp only [Option.bind, next_fixed h.node.1 h.node.2, next_bool, next_queueFullPolicy,
        create_nil, List.isEmpty_nil, if_true, QueueFullPolicy.not_lt_toUint8, if_false,
        QueueFullPolicy.ofUint8_toUint8]

end SubscriberOptions

namespace ClientOptions

def serialize (o : ClientOptions) : List Char :=
  create [
    Convert.toString o.responseQueueCapacity,
    fixedToString o.nodeName,
    boolToString o.connectOnCreate,
    Convert.toString o.responseQueueFullPolicy.toUint8,
    Convert.toString o.serverTooSlowPolicy.toUint8]

def extractArgs : StateT (List Char) Option (ClientOptions × Nat × Nat) := do
  let responseQueueCapacity ← next fromStringUint64
  let nodeName ← next fromStringFixed
  let connectOnCreate ← next fromStringBool
  let responseQueueFullPolicy ← next fromStringUint8
  let serverTooSlowPolicy ← next fromStringUint8
  return ({ responseQueueCapacity, nodeName, connectOnCreate }, responseQueueFullPolicy,
    serverTooSlowPolicy)

def deserialize (serialized : List Char) : Option ClientOptions := do
  let (clientOptions, responseQueueFullPolicy, serverTooSlowPolicy) ←
    extract extractArgs serialized
  if QueueFullPolicy.discardOldestData.toUint8 < responseQueueFullPolicy ∨
      ConsumerTooSlowPolicy.discardOldestData.toUint8 < serverTooSlowPolicy then none
  else
    some { clientOptions with
      responseQueueFullPolicy := .ofUint8 responseQueueFullPolicy
      serverTooSlowPolicy := .ofUint8 serverTooSlowPolicy }

structure WellFormed (o : ClientOptions) : Prop where
  queue : o.responseQueueCapacity < 2 ^ 64
  node : FixedString o.nodeName

theorem deserialize_serialize {o : ClientOptions} (h : o.WellFormed) :
    deserialize o.serialize = if o.responseQueueCapacity = 2 ^ 64 - 1 then none else some o := by
  simp only [deserialize, extract, extractArgs, serialize, StateT.bind, bind, pure_eq_some,
    next_uint64 h.queue]
  split
  · rfl
  · simp only [Option.bind, next_fixed h.node.1 h.node.2, next_bool, next_queueFullPolicy,
      next_consumerTooSlowPolicy, create_nil, List.isEmpty_nil, if_true,
      QueueFullPolicy.not_lt_toUint8, ConsumerTooSlowPolicy.not_lt_toUint8, or_self, if_false,
      QueueFullPolicy.ofUint8_toUint8, ConsumerTooSlowPolicy.ofUint8_toUint8]

end ClientOptions

namespace ServerOptions

def serialize (o : ServerOptions) : List Char :=
  create [
    Convert.toString o.requestQueueCapacity,
    fixedToString o.nodeName,
    boolToString o.offerOnCreate,
    Convert.toString o.requestQueueFullPolicy.toUint8,
    Convert.toString o.clientTooSlowPolicy.toUint8]

def extractArgs : StateT (List Char) Option (ServerOptions × Nat × Nat) := do
  let requestQueueCapacity ← next fromStringUint64
  let nodeName ← next fromStringFixed
  let offerOnCreate ← next fromStringBool
  let requestQueueFullPolicy ← next fromStringUint8
  let clientTooSlowPolicy ← next fromStringUint8
  return ({ requestQueueCapacity, nodeName, offerOnCreate }, requestQueueFullPolicy,
    clientTooSlowPolicy)

def deserialize (serialized : List Char) : Option ServerOptions := do
  let (serverOptions, requestQueueFullPolicy, clientTooSlowPolicy) ← extract extractArgs serialized
  if QueueFullPolicy.discardOldestData.toUint8 < requestQueueFullPolicy ∨
      ConsumerTooSlowPolicy.discardOldestData.toUint8 < clientTooSlowPolicy then none
  else
    some { serverOptions with
      requestQueueFullPolicy := .ofUint8 requestQueueFullPolicy
      clientTooSlowPolicy := .ofUint8 clientTooSlowPolicy }

structure WellFormed (o : ServerOptions) : Prop where
  queue : o.requestQueueCapacity < 2 ^ 64
  node : FixedString o.nodeName

theorem deserialize_serialize {o : ServerOptions} (h : o.WellFormed) :
    deserialize o.serialize = if o.requestQueueCapacity = 2 ^ 64 - 1 then none else some o := by
  simp only [deserialize, extract, extractArgs, serialize, StateT.bind, bind, pure_eq_some,
    next_uint64 h.queue]
  split
  · rfl
  · simp only [Option.bind, next_fixed h.node.1 h.node.2, next_bool, next_queueFullPolicy,
      next_consumerTooSlowPolicy, create_nil, List.isEmpty_nil, if_true,
      QueueFullPolicy.not_lt_toUint8, ConsumerTooSlowPolicy.not_lt_toUint8, or_self, if_false,
      QueueFullPolicy.ofUint8_toUint8, ConsumerTooSlowPolicy.ofUint8_toUint8]

end ServerOptions

/-- Everything survives serialization but a capacity or a history request of
`2 ^ 64 - 1`, which `strtoull` cannot tell from an overflow. -/
theorem serialization_round_trip {d : Capro.ServiceDescription} {p : PublisherOptions}
    {s : SubscriberOptions} {c : ClientOptions} {v : ServerOptions} (hd : d.WellFormed)
    (hscope : d.scope ≠ .invalid) (hinterface : d.interfaceSource ≠ .interfaceEnd)
    (hp : p.WellFormed) (hs : s.WellFormed) (hc : c.WellFormed) (hv : v.WellFormed) :
    Capro.ServiceDescription.deserialize d.serialize = some d ∧
    (PublisherOptions.deserialize p.serialize = some p ↔ p.historyCapacity ≠ 2 ^ 64 - 1) ∧
    (SubscriberOptions.deserialize s.serialize = some s ↔
      s.queueCapacity ≠ 2 ^ 64 - 1 ∧ s.historyRequest ≠ 2 ^ 64 - 1) ∧
    (ClientOptions.deserialize c.serialize = some c ↔ c.responseQueueCapacity ≠ 2 ^ 64 - 1) ∧
    (ServerOptions.deserialize v.serialize = some v ↔ v.requestQueueCapacity ≠ 2 ^ 64 - 1) := by
  refine ⟨?_, ?_, ?_, ?_, ?_⟩
  · rw [Capro.ServiceDescription.deserialize_serialize hd, if_pos ⟨hscope, hinterface⟩]
  · rw [PublisherOptions.deserialize_serialize hp]
    split <;> simp_all
  · rw [SubscriberOptions.deserialize_serialize hs]
    split
    · simp_all
    · split <;> simp_all
  · rw [ClientOptions.deserialize_serialize hc]
    split <;> simp_all
  · rw [ServerOptions.deserialize_serialize hv]
    split <;> simp_all

theorem serialization_round_trip_subscriber :
    SubscriberOptions.WellFormed { queueCapacity := 2 ^ 64 - 2, nodeName := "3:a,b" } ∧
    SubscriberOptions.deserialize
        (SubscriberOptions.serialize { queueCapacity := 2 ^ 64 - 2, nodeName := "3:a,b" }) =
      some { queueCapacity := 2 ^ 64 - 2, nodeName := "3:a,b" } := by
  have hs : SubscriberOptions.WellFormed { queueCapacity := 2 ^ 64 - 2, nodeName := "3:a,b" } :=
    ⟨by decide, by decide, by decide⟩
  have hd : Capro.ServiceDescription.WellFormed ⟨"Radar", "1:x", "", [0, 1, 2, 2 ^ 32 - 1], .local,
      .internal⟩ :=
    ⟨by decide, by decide, by decide, _, _, _, _, rfl, by decide, by decide, by decide, by decide⟩
  have hall := serialization_round_trip (p := {}) (c := {}) (v := {}) hd (by decide) (by decide)
    ⟨by decide, by decide⟩ hs ⟨by decide, by decide⟩ ⟨by decide, by decide⟩
  exact ⟨hs, hall.2.2.1.mpr ⟨by decide, by decide⟩⟩

theorem deserialize_largest_queueCapacity :
    SubscriberOptions.WellFormed { queueCapacity := 2 ^ 64 - 1 } ∧
    SubscriberOptions.deserialize (SubscriberOptions.serialize { queueCapacity := 2 ^ 64 - 1 }) =
      none := by
  have h : SubscriberOptions.WellFormed { queueCapacity := 2 ^ 64 - 1 } :=
    ⟨by decide, by decide, by decide⟩
  refine ⟨h, ?_⟩
  rw [SubscriberOptions.deserialize_serialize h, if_pos rfl]

end Popo

end Iceoryx
