import Vdag.Json.Reading
import Vdag.Node

/-! Nodes in documents. A rule that is an empty object is no rule; an empty text is no reference. -/
namespace Vdag

open Json

def Json.Reading.outcome {α : Type} (reading : Reading α) : Outcome α :=
  match reading with
  | .ok value => .ok value
  | .error _ => .error .malformed

namespace PolicyRule

def fields : List (FieldReader PolicyRule) := [
  .defaulted "policyRuleURI" Source.string (fun r uri => { r with uri }),
  .defaulted "parameters" Source.any (fun r parameters => { r with parameters })]

def read : Source → Reading PolicyRule := FieldReader.readRecord fields ⟨"", .null⟩

def members (rule : PolicyRule) : Members :=
  SortedMap.ofList [("policyRuleURI", .string rule.uri), ("parameters", rule.parameters)]

def toJson (rule : PolicyRule) : Value := .ofMap id rule.members

def ofMembers (members : Members) : Outcome (Option PolicyRule) :=
  if members.isEmpty then .ok none
  else (readValue read (.object members.entries)).outcome.map some

def membersOf : Option PolicyRule → Members
  | none => .empty
  | some rule => rule.members

end PolicyRule

structure NodeDocument where
  nodeLabel : String
  nodeKind : String
  vdagUri : String
  assignmentRule : Members
  preprocessingRule : Members
  postprocessingRule : Members
  modelParameters : Members
  outputProtocol : Members
  inputProtocol : Members
  ioMap : List Value
  manualBlockId : String
  deriving DecidableEq, Repr

namespace NodeDocument

def blank : NodeDocument := ⟨"", "", "", .empty, .empty, .empty, .empty, .empty, .empty, [], ""⟩

def memberMap : Source → Reading Members := Source.mapOf Source.any

def fields : List (FieldReader NodeDocument) := [
  .defaulted "nodeLabel" Source.string (fun d nodeLabel => { d with nodeLabel }),
  .defaulted "nodeType" Source.string (fun d nodeKind => { d with nodeKind }),
  .defaulted "vdagURI" Source.string (fun d vdagUri => { d with vdagUri }),
  .defaulted "assignmentPolicyRule" memberMap (fun d assignmentRule => { d with assignmentRule }),
  .defaulted "preprocessingPolicyRule" memberMap (fun d preprocessingRule => { d with preprocessingRule }),
  .defaulted "postprocessingPolicyRule" memberMap (fun d postprocessingRule => { d with postprocessingRule }),
  .defaulted "modelParameters" memberMap (fun d modelParameters => { d with modelParameters }),
  .defaulted "outputProtocol" memberMap (fun d outputProtocol => { d with outputProtocol }),
  .defaulted "inputProtocol" memberMap (fun d inputProtocol => { d with inputProtocol }),
  .defaulted "IOMap" (Source.listOf Source.any) (fun d ioMap => { d with ioMap }),
  .defaulted "manualBlockId" Source.string (fun d manualBlockId => { d with manualBlockId })]

def read : Source → Reading NodeDocument := FieldReader.readRecord fields blank

def toJson (d : NodeDocument) : Value := .record [
  ("nodeLabel", .string d.nodeLabel), ("nodeType", .string d.nodeKind), ("vdagURI", .string d.vdagUri),
  ("assignmentPolicyRule", .ofMap id d.assignmentRule),
  ("preprocessingPolicyRule", .ofMap id d.preprocessingRule),
  ("postprocessingPolicyRule", .ofMap id d.postprocessingRule),
  ("modelParameters", .ofMap id d.modelParameters), ("outputProtocol", .ofMap id d.outputProtocol),
  ("inputProtocol", .ofMap id d.inputProtocol), ("IOMap", .array d.ioMap),
  ("manualBlockId", .string d.manualBlockId)]

end NodeDocument

namespace Node

def kindOf (text : String) : Outcome NodeKind :=
  match NodeKind.ofText? text with
  | some kind => .ok kind
  | none => .error (.definition (.unknownNodeKind text))

def ofDocument (d : NodeDocument) : Outcome Node := do
  let kind ← kindOf d.nodeKind
  let assignmentRule ← PolicyRule.ofMembers d.assignmentRule
  let preprocessingRule ← PolicyRule.ofMembers d.preprocessingRule
  let postprocessingRule ← PolicyRule.ofMembers d.postprocessingRule
  .ok {
    label := ⟨d.nodeLabel⟩, kind, embedded := Id.ofNonEmpty? d.vdagUri,
    assignmentRule, preprocessingRule, postprocessingRule,
    manualBlock := Id.ofNonEmpty? d.manualBlockId,
    extras := ⟨d.modelParameters, d.outputProtocol, d.inputProtocol, d.ioMap⟩ }

def toDocument (node : Node) : NodeDocument where
  nodeLabel := node.label.text
  nodeKind := node.kind.text
  vdagUri := (node.embedded.map Id.text).getD ""
  assignmentRule := PolicyRule.membersOf node.assignmentRule
  preprocessingRule := PolicyRule.membersOf node.preprocessingRule
  postprocessingRule := PolicyRule.membersOf node.postprocessingRule
  modelParameters := node.extras.modelParameters
  outputProtocol := node.extras.outputProtocol
  inputProtocol := node.extras.inputProtocol
  ioMap := node.extras.ioMap
  manualBlockId := (node.manualBlock.map Id.text).getD ""

end Node

end Vdag
