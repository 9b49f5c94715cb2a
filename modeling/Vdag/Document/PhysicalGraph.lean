import Vdag.Json.Reading
import Vdag.PhysicalGraph

/-! Addressed graphs in documents: an object from block ids to their lists of destinations. -/
namespace Vdag

open Json

namespace Destination

def fields : List (FieldReader Destination) := [
  .defaulted "host" Source.string (fun d host => { d with host }),
  .defaulted "port" Source.word16 (fun d port => { d with port }),
  .defaulted "queue_name" Source.string (fun d queue => { d with queue }),
  .defaulted "block_id" (Source.optional Source.string) (fun d block => { d with block })]

def read : Source → Reading Destination := FieldReader.readRecord fields {}

def toJson (d : Destination) : Value :=
  .record ([("host", .string d.host), ("port", .ofNat d.port.toNat), ("queue_name", .string d.queue)] ++
    d.block.toList.map (fun block => ("block_id", .string block)))

end Destination

namespace PhysicalGraph

def outputsField : FieldReader (List Destination) :=
  .defaulted "outputs" (Source.listOf Destination.read) (fun _ outputs => outputs)

def read (source : Source) : Reading PhysicalGraph := do
  .ok ⟨← source.mapOf (FieldReader.readRecord [outputsField] [])⟩

def listJson (outputs : List Destination) : Value := .array (outputs.map Destination.toJson)

def toJson (graph : PhysicalGraph) : Value :=
  .ofMap (fun outputs => .record [("outputs", listJson outputs)]) graph.outputs

end PhysicalGraph

end Vdag
