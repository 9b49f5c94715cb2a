import Vdag.Definition
import Vdag.Document.CompiledGraph
import Vdag.Document.LogicalGraph
import Vdag.Document.Node

/-! vDAG documents as submitted and stored. The URI is derived; the one in a document is ignored. -/
namespace Vdag

open Json

structure VdagDocument where
  name : String
  version : Version
  uri : String
  discoveryTags : List String
  controller : Value
  nodes : List NodeDocument
  graph : LogicalGraphDocument
  assignment : SortedMap String String
  status : String
  compiled : Option CompiledDocument
  deriving DecidableEq, Repr

namespace Version

def fields : List (FieldReader Version) := [
  .defaulted "version" Source.string (fun v version => { v with version }),
  .defaulted "release-tag" Source.string (fun v releaseTag => { v with releaseTag })]

def read : Source → Reading Version := FieldReader.readRecord fields ⟨"", ""⟩

def toJson (v : Version) : Value := .record [("version", .string v.version), ("release-tag", .string v.releaseTag)]

end Version

namespace VdagDocument

def blank : VdagDocument := ⟨"", ⟨"", ""⟩, "", [], .null, [], .empty, .empty, "pending", none⟩

def fields : List (FieldReader VdagDocument) := [
  .defaulted "vdag_name" Source.string (fun d name => { d with name }),
  .defaulted "vdag_version" Version.read (fun d version => { d with version }),
  .defaulted "vdagURI" Source.string (fun d uri => { d with uri }),
  .defaulted "discoveryTags" (Source.listOf Source.string) (fun d discoveryTags => { d with discoveryTags }),
  .defaulted "controller" Source.any (fun d controller => { d with controller }),
  .defaulted "nodes" (Source.listOf NodeDocument.read) (fun d nodes => { d with nodes }),
  .defaulted "graph" LogicalGraphDocument.read (fun d graph => { d with graph }),
  .defaulted "assignment_info" (Source.mapOf Source.string) (fun d assignment => { d with assignment }),
  .defaulted "status" Source.string (fun d status => { d with status }),
  .defaulted "compiled_graph_data" (Source.optional CompiledDocument.read) (fun d compiled => { d with compiled })]

def read : Source → Reading VdagDocument := FieldReader.readRecord fields blank

def toJson (d : VdagDocument) : Value := .record [
  ("vdag_name", .string d.name), ("vdag_version", d.version.toJson), ("vdagURI", .string d.uri),
  ("discoveryTags", .strings d.discoveryTags), ("controller", d.controller),
  ("nodes", .array (d.nodes.map NodeDocument.toJson)), ("graph", d.graph.toJson),
  ("assignment_info", .ofMap .string d.assignment), ("status", .string d.status),
  ("compiled_graph_data", (d.compiled.map CompiledDocument.toJson).getD .null)]

end VdagDocument

namespace Assignment

def ofTexts (texts : SortedMap String String) : Assignment :=
  SortedMap.ofList (texts.entries.map (fun entry => (⟨entry.1⟩, Target.ofText entry.2)))

def texts (assignment : Assignment) : SortedMap String String :=
  SortedMap.ofList (assignment.entries.map (fun entry => (entry.1.text, entry.2.text)))

end Assignment

namespace Definition

def statusOf (text : String) : Outcome VdagStatus :=
  match VdagStatus.ofText? text with
  | some status => .ok status
  | none => .error (.definition (.unknownVdagStatus text))

def ofDocument (d : VdagDocument) : Outcome Definition := do
  let nodes ← d.nodes.mapM Node.ofDocument
  let status ← statusOf d.status
  .ok {
    name := d.name, version := d.version, discoveryTags := d.discoveryTags, controller := d.controller, nodes,
    graph := .ofDocument d.graph, status, assignment := Assignment.ofTexts d.assignment,
    compiled := d.compiled.map CompiledGraph.ofDocument }

def toDocument (vdag : Definition) : VdagDocument where
  name := vdag.name
  version := vdag.version
  uri := vdag.uriText
  discoveryTags := vdag.discoveryTags
  controller := vdag.controller
  nodes := vdag.nodes.map Node.toDocument
  graph := vdag.graph.toDocument
  assignment := vdag.assignment.texts
  status := vdag.status.text
  compiled := vdag.compiled.map CompiledGraph.toDocument

def toJson (vdag : Definition) : Value := vdag.toDocument.toJson

end Definition

end Vdag
