import Vdag.Router
import Vdag.StagePolicy

/-! Blocks: each takes packets from its input queue, one at a time, and passes them on. -/
namespace Vdag

/- What a block remembers between packets. It changes how fast a packet is handled, not what becomes of it. -/
structure BlockMemory (κ π : Type) where
  connections : ConnectionCache κ
  policies : PolicyCache π

structure Block (m : Type → Type) (κ π : Type) where
  input : QueueClient m
  work : Packet → Action m Packet
  policies : PolicyBook m π
  router : Router m κ

namespace Block

variable {m : Type → Type} [Monad m] {κ π : Type}

abbrev Step (m : Type → Type) (κ π α : Type) : Type := Action (StateT (BlockMemory κ π) m) α

def onPolicies {α : Type} (action : Action (StateT (PolicyCache π) m) α) : Step m κ π α :=
  ExceptT.mk fun memory => do
    let (outcome, policies) ← action.run memory.policies
    return (outcome, { memory with policies })

def onConnections {α : Type} (action : Action (StateT (ConnectionCache κ) m) α) : Step m κ π α :=
  ExceptT.mk fun memory => do
    let (outcome, connections) ← action.run memory.connections
    return (outcome, { memory with connections })

def outside {α : Type} (action : Action m α) : Step m κ π α := action.hoist StateT.lift

def id (block : Block m κ π) : BlockId := block.router.block

def applyPolicy (block : Block m κ π) (session : Session) (stage : Stage) (packet : Packet) : Step m κ π Packet :=
  onPolicies (block.policies.apply session stage packet)

def forward (block : Block m κ π) (packet : Packet) : Step m κ π ForwardReport :=
  onConnections (block.router.forward packet)

def handle (block : Block m κ π) (payload : Bytes) : Step m κ π ForwardReport := do
  let packet ← Action.ofOutcome (Packet.decode payload)
  let session ← Action.ofOutcome (Session.parse packet.session)
  let prepared ← block.applyPolicy session .preprocessing packet
  let output ← outside (block.work prepared)
  let finished ← block.applyPolicy session .postprocessing output
  block.forward finished

def patience : Nat := 1

/- Takes at most one packet, and says whether there was one. A packet that cannot be handled is dropped. -/
def takeOne (block : Block m κ π) : Step m κ π Bool := do
  match ← outside (block.input.pop block.id.inputQueue patience) with
  | none => return false
  | some payload =>
      let _ ← ExceptT.lift (block.handle payload).run
      return true

/- Serves the input queue for a number of seconds, in at most so many looks. A queue that cannot be read is
tried again after the same wait. -/
def serve (block : Block m κ π) : (looks seconds : Nat) → StateT (BlockMemory κ π) m Unit
  | 0, _ => return ()
  | _, 0 => return ()
  | looks + 1, seconds + 1 => do
      match ← block.takeOne.run with
      | .ok true => block.serve looks (seconds + 1)
      | .ok false | .error _ => block.serve looks seconds

end Block

def echo {m : Type → Type} [Monad m] (packet : Packet) : Action m Packet := return packet

end Vdag
