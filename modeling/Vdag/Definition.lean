import Vdag.CompiledGraph

/-! A vDAG: its nodes and their dependencies, and, once compiled, where they run. -/
namespace Vdag

structure Version where
  version : String
  releaseTag : String
  deriving DecidableEq, Repr

structure Definition where
  name : String
  version : Version
  discoveryTags : List String
  controller : Json.Value
  nodes : List Node
  graph : LogicalGraph
  status : VdagStatus
  assignment : Assignment
  compiled : Option CompiledGraph
  deriving DecidableEq, Repr

def uriText (name version releaseTag : String) : String :=
  if name.isEmpty || version.isEmpty || releaseTag.isEmpty then ""
  else name ++ ":" ++ version ++ "-" ++ releaseTag

namespace Definition

def uriText (vdag : Definition) : String :=
  Vdag.uriText vdag.name vdag.version.version vdag.version.releaseTag

def uri? (vdag : Definition) : Option VdagUri := Id.ofNonEmpty? vdag.uriText

def requireUri (vdag : Definition) : Outcome VdagUri :=
  match vdag.uri? with
  | some uri => .ok uri
  | none => .error (.definition .incompleteUri)

def node? (vdag : Definition) (label : NodeLabel) : Option Node :=
  vdag.nodes.find? (fun node => node.label == label)

def checkNodes : List Node → (seen : List NodeLabel) → Outcome Unit
  | [], _ => .ok ()
  | node :: rest, seen =>
      if node.label.isEmpty then .error (.definition .emptyLabel)
      else if node.label ∈ seen then .error (.definition (.duplicateLabel node.label))
      else do
        node.check
        checkNodes rest (node.label :: seen)

def validate (vdag : Definition) : Outcome Unit := do
  if vdag.nodes.isEmpty then .error (.definition .noNodes)
  else
    checkNodes vdag.nodes []
    vdag.graph.check (vdag.nodes.map (·.label))

end Definition

end Vdag
