import Vdag.Status
import Vdag.Target

/-! What can go wrong, by cause. Each cause has one wording; the class of a failure is what callers act on.
A cause `reported` is one that a service tells in its own words. -/
namespace Vdag

inductive DefinitionFault where
  | unknownNodeKind (text : String)
  | unknownVdagStatus (text : String)
  | unknownTaskStatus (text : String)
  | noNodes
  | emptyLabel
  | duplicateLabel (label : NodeLabel)
  | noEmbedded (label : NodeLabel)
  | noRule (label : NodeLabel)
  | unknownConnection (label : NodeLabel)
  | unknownInput (label input : NodeLabel)
  | incompleteUri
  | emptyBlockGraph
  | noHead
  | severalHeads (blocks : List BlockId)
  | cycle (blocks : List BlockId)
  | notInAssignment (label : NodeLabel)
  | sharedTarget (first second : NodeLabel) (target : Target)
  | malformedSession (session : String)
  | noBlockId
  | reported (text : String)
  deriving DecidableEq, Repr

inductive AssignmentFault where
  | noRule
  | searchFailed (rule message : String)
  | noMatch (rule : String)
  | severalMatches (rule : String) (count : Nat)
  | reported (text : String)
  deriving DecidableEq, Repr

inductive CompositionFault where
  | cycle (chain : List VdagUri) (uri : VdagUri)
  | notLoaded (uri : VdagUri) (label : NodeLabel)
  | missing (uri : VdagUri)
  | notFetched (uri : VdagUri) (message : String)
  | notAssigned (uri : VdagUri) (status : VdagStatus)
  | reported (text : String)
  deriving DecidableEq, Repr

inductive TransportFault where
  | exchange
  | searching (label : NodeLabel) (cause : TransportFault)
  | unsupportedPort (host : String)
  | refused (endpoint : String)
  | pushing (target : String)
  | unexpectedReply (status body : String)
  | unresolved (message : String)
  | noGraph
  | noTaskId
  | reported (text : String)
  deriving DecidableEq, Repr

inductive Missing where
  | vdag (uri : VdagUri)
  | task (id : TaskId)
  | compilation (uri : VdagUri)
  | node (label : NodeLabel) (uri : VdagUri)
  | runningBlock (block : BlockId)
  | address (block : BlockId)
  | reported (text : String)
  deriving DecidableEq, Repr

inductive RoutingFault where
  | notJson
  | noGraph
  | malformedGraph
  | unexpectedShape (value : String)
  | malformedOutputs
  | foreignBlock (block : BlockId)
  | deadEnd (block : BlockId)
  | noDestinations (session : String)
  | reported (text : String)
  deriving DecidableEq, Repr

inductive PolicyFault where
  | noRuleUri
  | unknownRule (rule : String)
  | noPacket (stage : Stage) (uri : VdagUri)
  | malformedPacket (stage : Stage)
  | remote (rule message : String)
  | reported (text : String)
  deriving DecidableEq, Repr

inductive Failure where
  | definition (fault : DefinitionFault)
  | assignment (node vdag : String) (fault : AssignmentFault)
  | composition (fault : CompositionFault)
  | conflict (vdag status : String)
  | transport (fault : TransportFault)
  | notFound (missing : Missing)
  | routing (fault : RoutingFault)
  | policy (fault : PolicyFault)
  | codec
  | unreadable
  | malformed
  deriving DecidableEq, Repr

abbrev Outcome := Except Failure

def Id.listed {kind : IdKind} (ids : List (Id kind)) : String := Text.joined ", " (ids.map Id.text)

def DefinitionFault.message : DefinitionFault → String
  | .unknownNodeKind text => s!"unknown nodeType '{text}'"
  | .unknownVdagStatus text => s!"unknown vDAG status '{text}'"
  | .unknownTaskStatus text => s!"unknown task status '{text}'"
  | .noNodes => "vDAG declares no nodes"
  | .emptyLabel => "node with empty nodeLabel"
  | .duplicateLabel label => s!"duplicate node label '{label}'"
  | .noEmbedded label => s!"node '{label}' is of type vdag but has no vdagURI"
  | .noRule label => s!"node '{label}' has neither manualBlockId nor an assignmentPolicyRule"
  | .unknownConnection label => s!"connection references unknown node label '{label}'"
  | .unknownInput label input => s!"node '{label}' takes input from unknown node label '{input}'"
  | .incompleteUri => "vdag_name, vdag_version.version and vdag_version.release-tag are required"
  | .emptyBlockGraph => "vDAG compiles to an empty block graph"
  | .noHead => "block graph has no head: every block has an input"
  | .severalHeads blocks => s!"ambiguous head, several source blocks: {Id.listed blocks}"
  | .cycle blocks => s!"block graph contains a cycle through: {Id.listed blocks}"
  | .notInAssignment label => s!"node '{label}' has no entry in the assignment"
  | .sharedTarget first second target => s!"nodes '{first}' and '{second}' are both assigned to {target.text}"
  | .malformedSession session => s!"malformed vDAG session id '{session}'"
  | .noBlockId => "BLOCK_ID environment variable is not set"
  | .reported text => text

def AssignmentFault.message : AssignmentFault → String
  | .noRule => "no assignmentPolicyRule and no manualBlockId"
  | .searchFailed rule message => s!"search policy {rule} failed: {message}"
  | .noMatch rule => s!"policy {rule} matched no block"
  | .severalMatches rule count => s!"policy {rule} matched {count} blocks, exactly one is required"
  | .reported text => text

def CompositionFault.message : CompositionFault → String
  | .cycle chain uri => "cyclic sub-vDAG reference: " ++ Text.joined " -> " ((chain ++ [uri]).map Id.text)
  | .notLoaded uri label => s!"sub-vDAG {uri} referenced by node '{label}' was not loaded"
  | .missing uri => s!"sub-vDAG {uri} does not exist"
  | .notFetched uri message => s!"failed to fetch sub-vDAG {uri}: {message}"
  | .notAssigned uri status => s!"sub-vDAG {uri} is not assigned (status {status.text})"
  | .reported text => text

def TransportFault.message : TransportFault → String
  | .exchange => "error sending request"
  | .searching label cause => s!"search for node '{label}' failed: {cause.message}"
  | .unsupportedPort host => s!"destination {host} uses port 0 (gRPC), which is not supported"
  | .refused endpoint => s!"connection to {endpoint} refused"
  | .pushing target => s!"push to {target} failed"
  | .unexpectedReply status body => s!"unexpected response (HTTP {status}): {body}"
  | .unresolved message => s!"graph resolution failed: {message}"
  | .noGraph => "discovery returned no graph"
  | .noTaskId => "task store did not return a task_id"
  | .reported text => text

def Missing.message : Missing → String
  | .vdag uri => s!"vDAG {uri}"
  | .task id => s!"task {id}"
  | .compilation uri => s!"vDAG {uri} has not been compiled"
  | .node label uri => s!"node '{label}' missing from vDAG {uri}"
  | .runningBlock block => s!"no running instance of block {block}"
  | .address block => s!"discovery returned no address for block {block}"
  | .reported text => text

def RoutingFault.message : RoutingFault → String
  | .notJson => "output_ptr is not valid JSON"
  | .noGraph => "output_ptr is marked is_graph but carries no graph"
  | .malformedGraph => "output_ptr graph is malformed"
  | .unexpectedShape value => s!"output_ptr has unexpected shape: {value}"
  | .malformedOutputs => "output_ptr outputs are malformed"
  | .foreignBlock block => s!"block {block} is not part of the routed graph"
  | .deadEnd block => s!"block {block} has no outputs and the graph defines no final destination"
  | .noDestinations session => s!"output_ptr of session {session} lists no destinations"
  | .reported text => text

def PolicyFault.message : PolicyFault → String
  | .noRuleUri => "policy rule without policyRuleURI"
  | .unknownRule rule => s!"unknown policy rule {rule}"
  | .noPacket stage uri => s!"{stage.title} policy of vDAG {uri} returned no packet"
  | .malformedPacket stage => s!"{stage.title} policy returned a malformed packet"
  | .remote rule message => s!"{rule}: {message}"
  | .reported text => text

namespace Failure

def kind : Failure → String
  | .definition _ => "validation_error"
  | .assignment .. => "assignment_error"
  | .composition _ => "composition_error"
  | .conflict .. => "conflict_error"
  | .transport _ => "transport_error"
  | .notFound _ => "not_found"
  | .routing _ => "routing_error"
  | .policy _ => "policy_error"
  | .codec => "codec_error"
  | .unreadable => "io_error"
  | .malformed => "deserialization_error"

def reported (kind text : String) : Failure :=
  match kind with
  | "validation_error" => .definition (.reported text)
  | "composition_error" => .composition (.reported text)
  | "transport_error" => .transport (.reported text)
  | "not_found" => .notFound (.reported text)
  | "routing_error" => .routing (.reported text)
  | "policy_error" => .policy (.reported text)
  | "codec_error" => .codec
  | "io_error" => .unreadable
  | _ => .malformed

def message : Failure → String
  | .definition fault => s!"Invalid vDAG definition: {fault.message}"
  | .assignment node vdag fault => s!"Assignment failed for node {node} of vDAG {vdag}: {fault.message}"
  | .composition fault => s!"Sub-vDAG composition failed: {fault.message}"
  | .conflict vdag status => s!"vDAG {vdag} already exists with status {status}"
  | .transport fault => s!"Transport failure: {fault.message}"
  | .notFound missing => s!"Not found: {missing.message}"
  | .routing fault => s!"Routing failed: {fault.message}"
  | .policy fault => s!"Policy evaluation failed: {fault.message}"
  | .codec => "Packet codec failure"
  | .unreadable => "File not found or could not be read"
  | .malformed => "Failed to parse JSON"

end Failure

end Vdag
