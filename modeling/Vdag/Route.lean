import Vdag.Document.PhysicalGraph
import Vdag.Failure
import Vdag.Json.Printer

/-! Where a packet goes next: the routing envelope that travels in its output pointer, and the next hops it gives
to a block. -/
namespace Vdag

open Json

inductive Route where
  | adhoc
  | graph (addresses : PhysicalGraph)
  | direct (outputs : List Destination)
  deriving DecidableEq, Repr

namespace Route

def ofReading {α : Type} (fault : RoutingFault) (reading : Reading α) : Outcome α :=
  match reading with
  | .ok value => .ok value
  | .error _ => .error (.routing fault)

def outputsOf : Value → Outcome Value
  | .array items => .ok (.array items)
  | .object members => .ok (((Value.object members).member? "outputs").getD (.array []))
  | other => .error (.routing (.unexpectedShape other.render))

def ofValue (value : Value) : Outcome Route :=
  if value.member? "is_graph" = some (.bool true) then
    match value.member? "graph" with
    | none => .error (.routing .noGraph)
    | some inner => do .ok (.graph (← ofReading .malformedGraph (readValue PhysicalGraph.read inner)))
  else do
    let outputs ← outputsOf value
    .ok (.direct (← ofReading .malformedOutputs (readValue (Source.listOf Destination.read) outputs)))

def parse (pointer : String) : Outcome Route :=
  if Text.isBlank pointer then .ok .adhoc
  else do ofValue (← ofReading .notJson (readText Source.any pointer))

def pointer : Route → String
  | .adhoc => ""
  | .graph addresses => (Value.record [("is_graph", .bool true), ("graph", addresses.toJson)]).render
  | .direct outputs => (Value.record [("outputs", PhysicalGraph.listJson outputs)]).render

end Route

/- The hops of a block: its own outputs, or else the final ones. A block that leads nowhere is a failure. -/
def PhysicalGraph.hops (graph : PhysicalGraph) (block : BlockId) : Outcome (List Destination) :=
  match graph.find? block.text with
  | none => .error (.routing (.foreignBlock block))
  | some (output :: outputs) => .ok (output :: outputs)
  | some [] =>
      match graph.final? with
      | some (output :: outputs) => .ok (output :: outputs)
      | _ => .error (.routing (.deadEnd block))

end Vdag
