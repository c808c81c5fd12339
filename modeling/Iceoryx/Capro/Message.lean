import Mathlib.Logic.Basic

namespace Iceoryx.Capro

inductive Interfaces
  | internal | esoc | someip | amqp | mqtt | dds | signal | mta | ros1 | interfaceEnd
  deriving DecidableEq, Repr

inductive Scope
  | worldwide | local | invalid
  deriving DecidableEq, Repr

structure ServiceDescription where
  serviceString : String
  instanceString : String
  eventString : String
  classHash : List Nat := [0, 0, 0, 0]
  scope : Scope := .worldwide
  interfaceSource : Interfaces := .internal
  deriving DecidableEq, Repr

namespace ServiceDescription

/-- What `operator==` looks at; class hash, scope and interface are not part of it. -/
def key (d : ServiceDescription) : String × String × String :=
  (d.serviceString, d.instanceString, d.eventString)

def Same (d e : ServiceDescription) : Prop := d.key = e.key

instance (d e : ServiceDescription) : Decidable (d.Same e) :=
  inferInstanceAs (Decidable (d.key = e.key))

theorem same_iff {d e : ServiceDescription} : d.Same e ↔ d.key = e.key := Iff.rfl

end ServiceDescription

inductive CaproMessageType
  | notype | find | offer | stopOffer | sub | unsub | connect | disconnect | ack | nack
  | pub | req | res | ping | pong | messageTypeEnd
  deriving DecidableEq, Repr

inductive CaproServiceType
  | none | publisher | server
  deriving DecidableEq, Repr

/-- The address of the `m_chunkReceiverData` of the port in one slot of the pool. -/
inductive QueuePtr
  | subscriber (slot : Nat)
  | client (slot : Nat)
  | server (slot : Nat)
  deriving DecidableEq, Repr

structure CaproMessage where
  type : CaproMessageType
  serviceDescription : ServiceDescription
  serviceType : CaproServiceType := .none
  chunkQueueData : Option QueuePtr := .none
  historyCapacity : Nat := 0
  deriving DecidableEq, Repr

end Iceoryx.Capro
