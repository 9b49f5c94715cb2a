import Vdag.Assignment.Resolution
import Vdag.Compilation

/-! What is done with a submitted vDAG: mapping it to blocks and storing the result, or showing parts of that
without storing anything. -/
namespace Vdag

structure Processor (m : Type → Type) where
  registry : Registry m
  search : SearchPolicy m
  discovery : Discovery m

namespace Processor

variable {m : Type → Type} [Monad m]

def plan (p : Processor m) (vdag : Definition) : Action m (Assignment × CompiledGraph) := do
  let assignment ← Assignment.resolve p.search vdag
  let compiled ← CompiledGraph.build p.registry p.discovery vdag.uri? vdag.graph assignment
  return (assignment, compiled)

/-- What is stored after planning: the plan, or nothing but that there is none. -/
def recordOf (vdag : Definition) : Outcome (Assignment × CompiledGraph) → Definition
  | .ok (assignment, compiled) => { vdag with assignment, compiled := some compiled, status := .assigned }
  | .error _ => { vdag with assignment := .empty, compiled := none, status := .failed }

def persist (p : Processor m) (uri : VdagUri) (vdag : Definition) : Action m Unit := ExceptT.mk do
  match ← (p.registry.create vdag).run with
  | .ok () => return .ok ()
  | .error failure => do
      p.registry.release uri
      return .error failure

/-- Claims, plans and stores. A vDAG that cannot be planned is stored as failed, and the reason answered. -/
def mapToBlocks (p : Processor m) (vdag : Definition) : Action m Definition := do
  Action.ofOutcome vdag.validate
  let uri ← Action.ofOutcome vdag.requireUri
  p.registry.claim uri
  let planned ← ExceptT.lift (p.plan vdag).run
  let stored := recordOf vdag planned
  let persisted ← ExceptT.lift (p.persist uri stored).run
  let _ ← Action.ofOutcome planned
  Action.ofOutcome persisted
  return stored

def dryAssignment (p : Processor m) (vdag : Definition) : Action m Assignment := do
  Action.ofOutcome vdag.validate
  Assignment.resolve p.search vdag

def checkResubmission (p : Processor m) (uri : VdagUri) : Action m Unit := do
  match ← p.registry.get uri with
  | some stored => Action.ofOutcome (Registry.refuseRunning uri stored)
  | none => return ()

def dryEndToEnd (p : Processor m) (vdag : Definition) : Action m (Assignment × CompiledGraph) := do
  Action.ofOutcome vdag.validate
  match vdag.uri? with
  | some uri => p.checkResubmission uri
  | none => pure ()
  p.plan vdag

def validateGraph (p : Processor m) (vdag : Definition) : Action m BlockGraph := do
  Action.ofOutcome vdag.validate
  let assignment ← Assignment.resolve p.search vdag
  BlockGraph.build p.registry vdag.uri? vdag.graph assignment

end Processor

end Vdag
