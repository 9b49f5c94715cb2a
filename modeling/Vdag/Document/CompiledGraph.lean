import Vdag.CompiledGraph
import Vdag.Document.PhysicalGraph

/-! Compiled graphs in documents, with all identifiers as text. -/
namespace Vdag

open Json

structure CompiledDocument where
  head : String
  tail : List String
  blockGraph : SortedMap String (List String)
  physicalGraph : Option PhysicalGraph
  labels : SortedMap String String
  deriving DecidableEq, Repr

namespace CompiledDocument

def fields : List (FieldReader CompiledDocument) := [
  .mandatory "head" Source.string (fun d head => { d with head }),
  .defaulted "tail" (Source.listOf Source.string) (fun d tail => { d with tail }),
  .defaulted "t2_graph" (Source.mapOf (Source.listOf Source.string)) (fun d blockGraph => { d with blockGraph }),
  .defaulted "t3_graph" (Source.optional PhysicalGraph.read) (fun d physicalGraph => { d with physicalGraph }),
  .defaulted "rev_mapping" (Source.mapOf Source.string) (fun d labels => { d with labels })]

def read : Source → Reading CompiledDocument := FieldReader.readRecord fields ⟨"", [], .empty, none, .empty⟩

def toJson (d : CompiledDocument) : Value := .record [
  ("head", .string d.head), ("tail", .strings d.tail), ("t2_graph", .ofMap Value.strings d.blockGraph),
  ("t3_graph", (d.physicalGraph.map PhysicalGraph.toJson).getD .null), ("rev_mapping", .ofMap .string d.labels)]

end CompiledDocument

def Adjacency.texts (adjacency : Adjacency) : SortedMap String (List String) :=
  SortedMap.ofList (adjacency.entries.map (fun entry => (entry.1.text, entry.2.map Id.text)))

def Adjacency.ofTexts (texts : SortedMap String (List String)) : Adjacency :=
  SortedMap.ofList (texts.entries.map (fun entry => (⟨entry.1⟩, entry.2.map (⟨·⟩))))

namespace CompiledGraph

def ofDocument (d : CompiledDocument) : CompiledGraph where
  blocks := ⟨⟨d.head⟩, d.tail.map (⟨·⟩), Adjacency.ofTexts d.blockGraph⟩
  addresses := d.physicalGraph.getD .empty
  labels := SortedMap.ofList (d.labels.entries.map (fun entry => (Target.ofText entry.1, ⟨entry.2⟩)))

def toDocument (compiled : CompiledGraph) : CompiledDocument where
  head := compiled.blocks.head.text
  tail := compiled.blocks.tail.map Id.text
  blockGraph := compiled.blocks.adjacency.texts
  physicalGraph := some compiled.addresses
  labels := SortedMap.ofList (compiled.labels.entries.map (fun entry => (entry.1.text, entry.2.text)))

end CompiledGraph

end Vdag
