import Vdag.Id
import Vdag.SortedMap

/-! Addressed graphs: for every block, the queues its results go to. -/
namespace Vdag

structure Destination where
  host : String := "localhost"
  port : UInt16 := 6379
  queue : String := "OUTPUT"
  block : Option String := none
  deriving DecidableEq, Repr

namespace Destination

def defaultQueue : String := "OUTPUT"

def endpointOf (host : String) (port : UInt16) : String := host ++ ":" ++ toString port.toNat

def endpoint (d : Destination) : String := endpointOf d.host d.port

def label (d : Destination) : String := d.endpoint ++ "/" ++ d.queue

end Destination

/- A block may be listed without outputs; its results then go to the entry `final`. -/
structure PhysicalGraph where
  outputs : SortedMap String (List Destination)
  deriving DecidableEq, Repr

namespace PhysicalGraph

def finalKey : String := "final"

def empty : PhysicalGraph := ⟨.empty⟩

def find? (graph : PhysicalGraph) (block : String) : Option (List Destination) := graph.outputs.find? block

def insert (graph : PhysicalGraph) (block : String) (outputs : List Destination) : PhysicalGraph :=
  ⟨graph.outputs.insert block outputs⟩

def contains (graph : PhysicalGraph) (block : BlockId) : Bool := graph.outputs.contains block.text

def final? (graph : PhysicalGraph) : Option (List Destination) := graph.find? finalKey

def withFinal (graph : PhysicalGraph) (sink : List Destination) : PhysicalGraph := graph.insert finalKey sink

end PhysicalGraph

end Vdag
