import Vdag.RecencyCache
import Vdag.Service
import Vdag.Session

/-! The policies a block runs before and after its own work. A block knows only its own id; which node it is, and
so which policies it runs, is for each vDAG to say. Both stages are loaded together and remembered. -/
namespace Vdag

open Json

abbrev PolicyCache (π : Type) := RecencyCache (VdagUri × Stage) (Option π)

structure PolicyBook (m : Type → Type) (π : Type) where
  block : BlockId
  registry : Registry m
  policies : PolicyService m π
  clock : m Nat

namespace PolicyBook

variable {m : Type → Type} [Monad m] {π : Type}

/- The node that a block is in a vDAG. A block that came in with an embedded vDAG is no node of the outer
one. -/
def nodeOf (block : BlockId) (uri : VdagUri) (stored : Option Definition) : Outcome (Option Node) :=
  match stored with
  | none => .error (.notFound (.vdag uri))
  | some vdag => match vdag.compiled with
      | none => .error (.notFound (.compilation uri))
      | some compiled => match compiled.labelOf? block with
          | none => .ok none
          | some label => match vdag.node? label with
              | some node => .ok (some node)
              | none => .error (.notFound (.node label uri))

def loadRule (book : PolicyBook m π) : Option PolicyRule → Action m (Option π)
  | none => return none
  | some rule => return some (← book.policies.load rule)

def load (book : PolicyBook m π) (uri : VdagUri) : Action m (Option π × Option π) := do
  match ← Action.ofOutcome (nodeOf book.block uri (← book.registry.get uri)) with
  | none => return (none, none)
  | some node =>
      let before ← book.loadRule node.preprocessingRule
      let after ← book.loadRule node.postprocessingRule
      return (before, after)

def invalidate (uri : VdagUri) (cache : PolicyCache π) : Nat × PolicyCache π :=
  cache.invalidateWhere (fun key => key.1 = uri)

def remember (now : Nat) (uri : VdagUri) (loaded : Option π × Option π) (cache : PolicyCache π) : PolicyCache π :=
  (cache.insert now (uri, .preprocessing) loaded.1).insert now (uri, .postprocessing) loaded.2

def select (stage : Stage) (loaded : Option π × Option π) : Option π :=
  match stage with
  | .preprocessing => loaded.1
  | .postprocessing => loaded.2

/- The policy of a stage. A load that fails leaves nothing of that vDAG remembered. -/
def policyFor (book : PolicyBook m π) (uri : VdagUri) (stage : Stage) :
    Action (StateT (PolicyCache π) m) (Option π) := ExceptT.mk fun cache => do
  let (cached, cache) := cache.get (← book.clock) (uri, stage)
  match cached with
  | some policy => return (.ok policy, cache)
  | none => match ← (book.load uri).run with
      | .error failure => return (.error failure, (invalidate uri cache).2)
      | .ok loaded => return (.ok (select stage loaded), remember (← book.clock) uri loaded cache)

def packetOf (stage : Stage) (uri : VdagUri) (output : Value) : Outcome Packet :=
  match output.member? "packet" with
  | none => .error (.policy (.noPacket stage uri))
  | some document => match readValue Packet.read document with
      | .ok packet => .ok packet
      | .error _ => .error (.policy (.malformedPacket stage))

def apply (book : PolicyBook m π) (session : Session) (stage : Stage) (packet : Packet) :
    Action (StateT (PolicyCache π) m) Packet := do
  match session.uri? with
  | none => return packet
  | some uri => match ← book.policyFor uri stage with
      | none => return packet
      | some policy =>
          let output ← (book.policies.evaluate policy packet.wrapped).hoist StateT.lift
          Action.ofOutcome (packetOf stage uri output)

end PolicyBook

end Vdag
