import Vdag.Node

/-! The dependencies between node labels as the author of a vDAG declares them. -/
namespace Vdag

structure Connection where
  node : NodeLabel
  inputs : List NodeLabel
  deriving DecidableEq, Repr

structure LogicalGraph where
  connections : List Connection
  extra : Members
  deriving DecidableEq, Repr

namespace Connection

def edges (c : Connection) : List (NodeLabel × NodeLabel) := c.inputs.map (·, c.node)

def check (known : List NodeLabel) (c : Connection) : Outcome Unit :=
  if c.node ∉ known then .error (.definition (.unknownConnection c.node))
  else match c.inputs.find? (· ∉ known) with
    | some input => .error (.definition (.unknownInput c.node input))
    | none => .ok ()

end Connection

namespace LogicalGraph

def empty : LogicalGraph := ⟨[], .empty⟩

def edges (graph : LogicalGraph) : List (NodeLabel × NodeLabel) := graph.connections.flatMap Connection.edges

def check (graph : LogicalGraph) (known : List NodeLabel) : Outcome Unit :=
  graph.connections.forM (Connection.check known)

end LogicalGraph

end Vdag
