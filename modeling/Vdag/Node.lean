import Vdag.Failure
import Vdag.Json.Value

/-! The nodes of a vDAG: what stands behind a label, how it is resolved to a block, and what travels along. -/
namespace Vdag

abbrev Members := SortedMap String Json.Value

structure PolicyRule where
  uri : String
  parameters : Json.Value
  deriving DecidableEq, Repr

structure NodeExtras where
  modelParameters : Members
  outputProtocol : Members
  inputProtocol : Members
  ioMap : List Json.Value
  deriving DecidableEq, Repr

structure Node where
  label : NodeLabel
  kind : NodeKind
  embedded : Option VdagUri
  assignmentRule : Option PolicyRule
  preprocessingRule : Option PolicyRule
  postprocessingRule : Option PolicyRule
  manualBlock : Option BlockId
  extras : NodeExtras
  deriving DecidableEq, Repr

namespace Node

def searchRule? (node : Node) : Option PolicyRule :=
  node.assignmentRule.filter (fun rule => !rule.uri.isEmpty)

def rule (node : Node) : Stage → Option PolicyRule
  | .preprocessing => node.preprocessingRule
  | .postprocessing => node.postprocessingRule

def check (node : Node) : Outcome Unit :=
  if node.manualBlock.isSome then .ok ()
  else if node.kind.isBlock then
    if node.searchRule?.isSome then .ok () else .error (.definition (.noRule node.label))
  else if node.embedded.isSome then .ok ()
  else .error (.definition (.noEmbedded node.label))

end Node

end Vdag
