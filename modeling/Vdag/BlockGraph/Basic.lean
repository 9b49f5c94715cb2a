import Vdag.BlockGraph.Indegree
import Vdag.Failure

/-! Block graphs: the blocks of a vDAG with its embedded vDAGs spliced in, entered at one head. -/
namespace Vdag

structure BlockGraph where
  head : BlockId
  tail : List BlockId
  adjacency : Adjacency
  deriving DecidableEq, Repr

namespace Adjacency

def addBlock (adjacency : Adjacency) (block : BlockId) : Adjacency := adjacency.modify block [] id

/-- An edge is listed once, and both its ends have lists. -/
def addEdge (adjacency : Adjacency) (source sink : BlockId) : Adjacency :=
  (adjacency.addBlock sink).modify source [] (fun sinks => if sink ∈ sinks then sinks else sinks ++ [sink])

def absorb (adjacency other : Adjacency) : Adjacency :=
  other.entries.foldl
    (fun found entry => (entry.2.foldl (fun found sink => found.addEdge entry.1 sink) found).addBlock entry.1)
    adjacency

def sinks (adjacency : Adjacency) : List BlockId :=
  (adjacency.entries.filter (fun entry => entry.2.isEmpty)).map (·.1)

def checkAcyclic (adjacency : Adjacency) (counts : Indegrees) : Outcome Unit :=
  let (taken, left) := Peeling.run adjacency ⟨counts.sources, counts⟩
  if taken.length = adjacency.size then .ok () else .error (.definition (.cycle left.waiting))

end Adjacency

namespace BlockGraph

def blocks (graph : BlockGraph) : List BlockId := graph.adjacency.keys

def ofAdjacency (adjacency : Adjacency) : Outcome BlockGraph :=
  if adjacency.isEmpty then .error (.definition .emptyBlockGraph)
  else
    let counts := Indegrees.ofAdjacency adjacency
    match counts.sources with
    | [] => .error (.definition .noHead)
    | [head] => do
        adjacency.checkAcyclic counts
        .ok ⟨head, adjacency.sinks, adjacency⟩
    | several => .error (.definition (.severalHeads several))

end BlockGraph

end Vdag
