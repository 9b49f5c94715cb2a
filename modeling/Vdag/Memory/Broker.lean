import Vdag.Memory.Queue

/-! Queue servers by endpoint. Some can be out of reach. -/
namespace Vdag

structure MemoryBroker where
  servers : SortedMap String MemoryQueue
  unreachable : List String
  connects : Nat
  deriving DecidableEq, Repr

namespace MemoryBroker

def empty : MemoryBroker := ⟨.empty, [], 0⟩

def server (b : MemoryBroker) (endpoint : String) : MemoryQueue := (b.servers.find? endpoint).getD .empty

def setServer (b : MemoryBroker) (endpoint : String) (server : MemoryQueue) : MemoryBroker :=
  { b with servers := b.servers.insert endpoint server }

def push (b : MemoryBroker) (endpoint queue : String) (payload : Bytes) : MemoryBroker :=
  b.setServer endpoint ((b.server endpoint).push queue payload)

def pop (b : MemoryBroker) (endpoint queue : String) : Option Bytes × MemoryBroker :=
  let (payload, server) := (b.server endpoint).pop queue
  (payload, b.setServer endpoint server)

def drain (b : MemoryBroker) (endpoint queue : String) : List Bytes × MemoryBroker :=
  let (payloads, server) := (b.server endpoint).drain queue
  (payloads, b.setServer endpoint server)

def cutOff (b : MemoryBroker) (endpoint : String) : MemoryBroker :=
  { b with unreachable := endpoint :: b.unreachable }

def connect (d : Destination) : Action (StateM MemoryBroker) String := ExceptT.mk fun b =>
  let outcome := if d.endpoint ∈ b.unreachable then .error (.transport (.refused d.endpoint)) else .ok d.endpoint
  (outcome, { b with connects := b.connects + 1 })

def deliver (endpoint queue : String) (payload : Bytes) : Action (StateM MemoryBroker) Unit := ExceptT.mk fun b =>
  (.ok (), b.push endpoint queue payload)

def service : Connector (StateM MemoryBroker) String := ⟨connect, deliver⟩

end MemoryBroker

end Vdag
