import Vdag.Document.Vdag

/-! What dry runs show: the assignment, the flat graph of blocks, and the addressed graph. -/
namespace Vdag

open Json

def Assignment.toJson (assignment : Assignment) : Value := .ofMap .string assignment.texts

def BlockGraph.toJson (graph : BlockGraph) : Value := .record [
  ("head", .string graph.head.text), ("tail", .strings (graph.tail.map Id.text)),
  ("graph", .ofMap .strings graph.adjacency.texts)]

def CompiledGraph.dryRunJson (compiled : CompiledGraph) : Value :=
  let d := compiled.toDocument
  .record [
    ("head", .string d.head), ("tail", .strings d.tail), ("flat_graph", .ofMap .strings d.blockGraph),
    ("connections_graph", compiled.addresses.toJson), ("rev_mapping", .ofMap .string d.labels)]

def endToEndJson (assignment : Assignment) (compiled : CompiledGraph) : Value := .record [
  ("nodesAssignmentInfo", assignment.toJson), ("graph", compiled.dryRunJson)]

end Vdag
