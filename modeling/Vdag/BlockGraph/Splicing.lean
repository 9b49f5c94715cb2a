import Vdag.Assignment
import Vdag.BlockGraph.Basic
import Vdag.LogicalGraph

/-! From labels to blocks. A node assigned to a block becomes that block; a node assigned to a vDAG is replaced
by that vDAG's own graph, entered at its head. -/
namespace Vdag

structure EmbeddedVdag where
  assignment : Assignment
  graph : LogicalGraph
  deriving DecidableEq, Repr

abbrev EmbeddedIndex := SortedMap VdagUri EmbeddedVdag

namespace BlockGraph

structure Placement where
  adjacency : Adjacency
  blocks : SortedMap NodeLabel BlockId

namespace Placement

def blockOf (p : Placement) (label : NodeLabel) : Outcome BlockId :=
  match p.blocks.find? label with
  | some block => .ok block
  | none => .error (.definition (.notInAssignment label))

def addNode (embed : NodeLabel → VdagUri → Outcome BlockGraph) (p : Placement) (entry : NodeLabel × Target) :
    Outcome Placement :=
  match entry.2 with
  | .block block => .ok ⟨p.adjacency.addBlock block, p.blocks.insert entry.1 block⟩
  | .embedded uri => do
      let inner ← embed entry.1 uri
      .ok ⟨(p.adjacency.absorb inner.adjacency).addBlock inner.head, p.blocks.insert entry.1 inner.head⟩

def addEdge (p : Placement) (edge : NodeLabel × NodeLabel) : Outcome Placement := do
  let source ← p.blockOf edge.1
  let sink ← p.blockOf edge.2
  .ok { p with adjacency := p.adjacency.addEdge source sink }

end Placement

def splice (embed : NodeLabel → VdagUri → Outcome BlockGraph) (logical : LogicalGraph) (assignment : Assignment) :
    Outcome BlockGraph := do
  let nodes ← assignment.entries.foldlM (Placement.addNode embed) ⟨.empty, .empty⟩
  let placed ← logical.edges.foldlM Placement.addEdge nodes
  ofAdjacency placed.adjacency

def unopened (index : EmbeddedIndex) (opened : List VdagUri) : List VdagUri := index.keys.filter (· ∉ opened)

theorem unopenedShrinks {index : EmbeddedIndex} {opened : List VdagUri} {uri : VdagUri} {vdag : EmbeddedVdag}
    (known : index.find? uri = some vdag) (fresh : uri ∉ opened) :
    (unopened index (opened ++ [uri])).length < (unopened index opened).length := by
  have member : uri ∈ index.keys :=
    List.mem_map.mpr ⟨(uri, vdag), (SortedMap.findSomeIff index).mp known, rfl⟩
  have narrower : unopened index (opened ++ [uri]) = (unopened index opened).filter (· ≠ uri) := by
    simp only [unopened, List.filter_filter]
    refine List.filter_congr (fun other _ => ?_)
    by_cases same : other = uri <;> simp [same]
  rw [narrower]
  exact List.length_filter_lt_length_iff_exists.mpr
    ⟨uri, List.mem_filter.mpr ⟨member, by simpa using fresh⟩, by simp⟩

/-- Compiles with a chain of vDAGs already opened; one that embeds itself again is refused. -/
def compileWithin (index : EmbeddedIndex) (opened : List VdagUri) (logical : LogicalGraph)
    (assignment : Assignment) : Outcome BlockGraph :=
  splice
    (fun label uri =>
      if _fresh : uri ∈ opened then .error (.composition (.cycle opened uri))
      else match _known : index.find? uri with
        | none => .error (.composition (.notLoaded uri label))
        | some vdag => compileWithin index (opened ++ [uri]) vdag.graph vdag.assignment)
    logical assignment
termination_by (unopened index opened).length
decreasing_by exact unopenedShrinks _known _fresh

def compile (root : Option VdagUri) (logical : LogicalGraph) (assignment : Assignment) (index : EmbeddedIndex) :
    Outcome BlockGraph :=
  compileWithin index root.toList logical assignment

end BlockGraph

end Vdag
