import Vdag.Json.Reading
import Vdag.LogicalGraph

/-! Logical graphs in documents, with labels as text. Members beside the connections are kept and printed back. -/
namespace Vdag

open Json

structure ConnectionDocument where
  node : String
  inputs : List String
  deriving DecidableEq, Repr

structure LogicalGraphDocument where
  connections : List ConnectionDocument
  extra : Members
  deriving DecidableEq, Repr

namespace ConnectionDocument

def inputField : FieldReader String := .mandatory "nodeLabel" Source.string (fun _ text => text)

def fields : List (FieldReader ConnectionDocument) := [
  .mandatory "nodeLabel" Source.string (fun d node => { d with node }),
  .defaulted "inputs" (Source.listOf (FieldReader.readRecord [inputField] "")) (fun d inputs => { d with inputs })]

def read : Source → Reading ConnectionDocument := FieldReader.readRecord fields ⟨"", []⟩

def inputJson (label : String) : Value := .record [("nodeLabel", .string label)]

def toJson (d : ConnectionDocument) : Value :=
  .record [("nodeLabel", .string d.node), ("inputs", .array (d.inputs.map inputJson))]

end ConnectionDocument

namespace LogicalGraphDocument

def empty : LogicalGraphDocument := ⟨[], .empty⟩

def connectionsField : FieldReader LogicalGraphDocument :=
  .defaulted "connections" (Source.listOf ConnectionDocument.read) (fun d connections => { d with connections })

def keepExtra (key : String) (source : Source) (d : LogicalGraphDocument) : Reading LogicalGraphDocument := do
  .ok { d with extra := d.extra.insert key (← source.any) }

/- Always an object: a list of its parts would have no place for the other members. -/
def read : Source → Reading LogicalGraphDocument := FieldReader.readObject [connectionsField] keepExtra .empty

def toJson (d : LogicalGraphDocument) : Value :=
  .ofMap id (d.extra.insert "connections" (.array (d.connections.map ConnectionDocument.toJson)))

end LogicalGraphDocument

namespace Connection

def ofDocument (d : ConnectionDocument) : Connection := ⟨⟨d.node⟩, d.inputs.map (⟨·⟩)⟩

def toDocument (c : Connection) : ConnectionDocument := ⟨c.node.text, c.inputs.map Id.text⟩

end Connection

namespace LogicalGraph

def ofDocument (d : LogicalGraphDocument) : LogicalGraph := ⟨d.connections.map Connection.ofDocument, d.extra⟩

def toDocument (graph : LogicalGraph) : LogicalGraphDocument :=
  ⟨graph.connections.map Connection.toDocument, graph.extra⟩

def read (source : Source) : Reading LogicalGraph := do .ok (ofDocument (← LogicalGraphDocument.read source))

def toJson (graph : LogicalGraph) : Value := graph.toDocument.toJson

end LogicalGraph

end Vdag
