import Vdag.Document.Task
import Vdag.Processing
import Vdag.Remote.Registry
import Vdag.Settings

/-! The other services behind HTTP, and all of them together as settings address them. -/
namespace Vdag

open Json

variable {m : Type → Type} [Monad m]

namespace RemoteSearch

def fields : List (FieldReader SearchMatch) := [
  .mandatory "id" Source.string (fun found text => { found with block := ⟨text⟩ })]

def keepExtra (key : String) (source : Source) (found : SearchMatch) : Reading SearchMatch := do
  .ok { found with extra := found.extra.insert key (← source.any) }

def readMatch : Source → Reading SearchMatch := FieldReader.readObject fields keepExtra ⟨⟨""⟩, .empty⟩

def matchesOf (data : Value) : Outcome (List SearchMatch) :=
  match data with
  | .null => .ok []
  | .array items => (readValue (Source.listOf readMatch) (.array items)).outcome
  | single => do .ok [← (readValue readMatch single).outcome]

def service (client : WebClient m) (base : BaseUrl) : SearchPolicy m where
  search rule := do
    let answer ← client.ask .post (base.path "/api/no-ir/similarity-search")
      (some (.record [("rankingPolicyRule", rule.toJson)]))
    Action.ofOutcome (do matchesOf (← answer.data))

end RemoteSearch

def SearchMatch.toJson (found : SearchMatch) : Value :=
  .ofMap id (found.extra.insert "id" (.string found.block.text))

namespace RemoteDiscovery

def graphOf (reply : Reply) : Outcome PhysicalGraph :=
  if !reply.success then .error (.transport (.unresolved reply.errorMessage))
  else match (reply.graph.or reply.data).getD .null with
    | .null => .error (.transport .noGraph)
    | graph => (readValue PhysicalGraph.read graph).outcome

def service (client : WebClient m) (base : BaseUrl) : Discovery m where
  resolve adjacency := do
    let answer ← client.ask .post (base.path "/discovery/resolve_graph") (some (.ofMap .strings adjacency.texts))
    Action.ofOutcome (do graphOf (← answer.envelope))

end RemoteDiscovery

namespace RemoteTasks

def taskIdOf (data : Value) : Outcome TaskId :=
  match (data.member? "task_id").bind Value.text? with
  | some id => .ok ⟨id⟩
  | none => .error (.transport .noTaskId)

def create (client : WebClient m) (base : BaseUrl) (category : String) (data : Value) : Action m TaskId := do
  let body : Value := .record [
    ("task_type", .string category), ("task_data", data), ("task_status", .string TaskStatus.pending.text)]
  let answer ← client.ask .post (base.path "/task") (some body)
  Action.ofOutcome (do taskIdOf (← answer.data))

def get (client : WebClient m) (base : BaseUrl) (id : TaskId) : Action m (Option Task) := do
  let answer ← client.ask .get (base.path ("/task/" ++ id.text)) none
  if answer.isMissing then return none
  else
    let document ← Action.ofOutcome (answer.typed TaskDocument.read)
    return some (← Action.ofOutcome (Task.ofDocument document))

def service (client : WebClient m) (base : BaseUrl) : TaskStore m where
  create := create client base
  update change := client.command .post (base.path "/task_update") (some change.toDocument.toJson)
  get := get client base

end RemoteTasks

namespace RemotePolicies

def evaluationFailure (rule : PolicyRule) : Failure → Failure
  | .transport cause => .policy (.remote rule.uri cause.message)
  | other => other

def evaluate (client : WebClient m) (base : BaseUrl) (rule : PolicyRule) (input : Value) : Action m Value := do
  let body : Value := .record [
    ("policy_rule_id", .string rule.uri), ("policy_rule_inputs", input), ("policy_rule_parameters", rule.parameters)]
  let answer ← client.ask .post (base.path "/evaluatePolicyRule") (some body)
  Action.ofOutcome (answer.data.mapError (evaluationFailure rule))

def service (client : WebClient m) (base : BaseUrl) : PolicyService m PolicyRule where
  load rule := if rule.uri.isEmpty then Action.fail (.policy .noRuleUri) else return rule
  evaluate := evaluate client base

end RemotePolicies

structure RemoteServices (m : Type → Type) where
  registry : Registry m
  search : SearchPolicy m
  discovery : Discovery m
  tasks : TaskStore m
  policies : PolicyService m PolicyRule

namespace RemoteServices

def ofSettings (client : WebClient m) (s : Settings) : RemoteServices m where
  registry := RemoteRegistry.service client (.ofText s.registryUrl)
  search := RemoteSearch.service client (.ofText s.searchUrl)
  discovery := RemoteDiscovery.service client (.ofText s.discoveryUrl)
  tasks := RemoteTasks.service client (.ofText s.tasksUrl)
  policies := RemotePolicies.service client (.ofText s.policyUrl)

def processor (services : RemoteServices m) : Processor m :=
  ⟨services.registry, services.search, services.discovery⟩

end RemoteServices

end Vdag
