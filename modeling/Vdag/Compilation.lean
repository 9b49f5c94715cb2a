import Vdag.Closure
import Vdag.CompiledGraph

/-! Compiling an assignment: its inverse, the block graph, and the address of every block. -/
namespace Vdag

variable {m : Type → Type} [Monad m]

def BlockGraph.build (registry : Registry m) (root : Option VdagUri) (logical : LogicalGraph)
    (assignment : Assignment) : Action m BlockGraph := do
  let index ← EmbeddedIndex.collect registry root assignment
  Action.ofOutcome (BlockGraph.compile root logical assignment index)

def PhysicalGraph.checkCovers (addresses : PhysicalGraph) (graph : BlockGraph) : Outcome Unit :=
  match graph.blocks.find? (fun block => !addresses.contains block) with
  | some block => .error (.notFound (.address block))
  | none => .ok ()

def PhysicalGraph.locate (discovery : Discovery m) (graph : BlockGraph) : Action m PhysicalGraph := do
  let addresses ← discovery.resolve graph.adjacency
  Action.ofOutcome (addresses.checkCovers graph)
  return addresses

def CompiledGraph.build (registry : Registry m) (discovery : Discovery m) (root : Option VdagUri)
    (logical : LogicalGraph) (assignment : Assignment) : Action m CompiledGraph := do
  let labels ← Action.ofOutcome assignment.reverse
  let blocks ← BlockGraph.build registry root logical assignment
  let addresses ← PhysicalGraph.locate discovery blocks
  return ⟨blocks, addresses, labels⟩

end Vdag
