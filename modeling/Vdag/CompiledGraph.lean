import Vdag.BlockGraph.Splicing
import Vdag.PhysicalGraph

/-! What compiling a vDAG leaves behind: its block graph, the addresses, and the label of each target. -/
namespace Vdag

structure CompiledGraph where
  blocks : BlockGraph
  addresses : PhysicalGraph
  labels : ReverseAssignment
  deriving DecidableEq, Repr

def CompiledGraph.labelOf? (compiled : CompiledGraph) (block : BlockId) : Option NodeLabel :=
  compiled.labels.find? (.block block)

end Vdag
