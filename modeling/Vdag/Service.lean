import Vdag.Definition
import Vdag.Packet.Basic
import Vdag.Task

/-! The services that compilers and blocks talk to, as records of operations in any monad. What answers, a
store in memory or a server far away, is decided by whoever fills in the record. -/
namespace Vdag

/-- An operation with effects that can fail. The effects of one that fails stay. -/
abbrev Action (m : Type → Type) (α : Type) : Type := ExceptT Failure m α

namespace Action

variable {m n : Type → Type} [Monad m] {α : Type}

def ofOutcome (outcome : Outcome α) : Action m α := ExceptT.mk (pure outcome)

def fail (failure : Failure) : Action m α := ofOutcome (.error failure)

def hoist (lift : {β : Type} → m β → n β) (action : Action m α) : Action n α := ExceptT.mk (lift action.run)

end Action

structure SearchMatch where
  block : BlockId
  extra : Members
  deriving DecidableEq, Repr

/-- Where vDAGs are stored. A claim clears the way for compiling a vDAG: it fails while a stored copy is
running, and otherwise drops the copy. `reach` bounds how many records a walk can come upon. -/
structure Registry (m : Type → Type) where
  get : VdagUri → Action m (Option Definition)
  create : Definition → Action m Unit
  update : VdagUri → Definition → Action m Unit
  delete : VdagUri → Action m Unit
  query : Json.Value → Action m (List Definition)
  claim : VdagUri → Action m Unit
  release : VdagUri → m Unit
  reach : m Nat

structure SearchPolicy (m : Type → Type) where
  search : PolicyRule → Action m (List SearchMatch)

structure Discovery (m : Type → Type) where
  resolve : Adjacency → Action m PhysicalGraph

structure TaskStore (m : Type → Type) where
  create : (category : String) → (data : Json.Value) → Action m TaskId
  update : TaskUpdate → Action m Unit
  get : TaskId → Action m (Option Task)

structure QueueClient (m : Type → Type) where
  push : (queue : String) → Bytes → Action m Unit
  pop : (queue : String) → (seconds : Nat) → Action m (Option Bytes)

structure Connector (m : Type → Type) (κ : Type) where
  connect : Destination → Action m κ
  push : κ → (queue : String) → Bytes → Action m Unit

structure PolicyService (m : Type → Type) (π : Type) where
  load : PolicyRule → Action m π
  evaluate : π → Json.Value → Action m Json.Value

namespace Registry

variable {m n : Type → Type} [Monad m]

def refuseRunning (uri : VdagUri) (stored : Definition) : Outcome Unit :=
  if stored.status.allowsResubmission then .ok () else .error (.conflict uri.text stored.status.text)

/- The plain claim: read, check, delete. Two claims at once may both pass the check. -/
def plainClaim (registry : Registry m) (uri : VdagUri) : Action m Unit := do
  match ← registry.get uri with
  | none => return ()
  | some stored =>
      Action.ofOutcome (refuseRunning uri stored)
      registry.delete uri

def withPlainClaim (registry : Registry m) : Registry m :=
  { registry with claim := registry.plainClaim, release := fun _ => pure () }

def hoist (lift : {β : Type} → m β → n β) (registry : Registry m) : Registry n where
  get uri := (registry.get uri).hoist lift
  create vdag := (registry.create vdag).hoist lift
  update uri vdag := (registry.update uri vdag).hoist lift
  delete uri := (registry.delete uri).hoist lift
  query filter := (registry.query filter).hoist lift
  claim uri := (registry.claim uri).hoist lift
  release uri := lift (registry.release uri)
  reach := lift registry.reach

end Registry

end Vdag
