import Vdag.Failure
import Vdag.Json.Reading

/-! Settings of the service and of a block: defaults, then a file, then the environment. -/
namespace Vdag

open Json

structure Settings where
  apiBind : String := "0.0.0.0:10500"
  queueUrl : String := "redis://localhost:6379/0"
  registryUrl : String := "http://localhost:10501"
  searchUrl : String := "http://localhost:12000"
  discoveryUrl : String := "http://localhost:20000"
  tasksUrl : String := "http://localhost:8000"
  policyUrl : String := "http://localhost:10350"
  inputsQueue : String := "INPUTS"
  taskUpdatesQueue : String := "TASK_UPDATES"
  httpTimeout : UInt64 := 30
  connectionCapacity : UInt64 := 128
  connectionTimeToLive : UInt64 := 600
  policyCapacity : UInt64 := 64
  policyTimeToLive : UInt64 := 0
  deriving DecidableEq, Repr

abbrev Environment := String → Option String

def Environment.filled? (environment : Environment) (name : String) : Option String :=
  (environment name).filter (fun value => !Text.isBlank value)

namespace Settings

def fields : List (FieldReader Settings) := [
  .defaulted "api_bind" Source.string (fun s apiBind => { s with apiBind }),
  .defaulted "redis_url" Source.string (fun s queueUrl => { s with queueUrl }),
  .defaulted "vdag_registry_url" Source.string (fun s registryUrl => { s with registryUrl }),
  .defaulted "search_server_url" Source.string (fun s searchUrl => { s with searchUrl }),
  .defaulted "discovery_url" Source.string (fun s discoveryUrl => { s with discoveryUrl }),
  .defaulted "tasks_db_url" Source.string (fun s tasksUrl => { s with tasksUrl }),
  .defaulted "policy_executor_url" Source.string (fun s policyUrl => { s with policyUrl }),
  .defaulted "inputs_queue" Source.string (fun s inputsQueue => { s with inputsQueue }),
  .defaulted "task_updates_queue" Source.string (fun s taskUpdatesQueue => { s with taskUpdatesQueue }),
  .defaulted "http_timeout_secs" Source.word64 (fun s httpTimeout => { s with httpTimeout }),
  .defaulted "connection_cache_capacity" Source.word64 (fun s connectionCapacity => { s with connectionCapacity }),
  .defaulted "connection_cache_ttl_secs" Source.word64
    (fun s connectionTimeToLive => { s with connectionTimeToLive }),
  .defaulted "policy_cache_capacity" Source.word64 (fun s policyCapacity => { s with policyCapacity }),
  .defaulted "policy_cache_ttl_secs" Source.word64 (fun s policyTimeToLive => { s with policyTimeToLive })]

def read : Source → Reading Settings := FieldReader.readRecord fields {}

def count (word : UInt64) : Value := .ofNat word.toNat

def toJson (s : Settings) : Value := .record [
  ("api_bind", .string s.apiBind), ("redis_url", .string s.queueUrl), ("vdag_registry_url", .string s.registryUrl),
  ("search_server_url", .string s.searchUrl), ("discovery_url", .string s.discoveryUrl),
  ("tasks_db_url", .string s.tasksUrl), ("policy_executor_url", .string s.policyUrl),
  ("inputs_queue", .string s.inputsQueue), ("task_updates_queue", .string s.taskUpdatesQueue),
  ("http_timeout_secs", count s.httpTimeout), ("connection_cache_capacity", count s.connectionCapacity),
  ("connection_cache_ttl_secs", count s.connectionTimeToLive), ("policy_cache_capacity", count s.policyCapacity),
  ("policy_cache_ttl_secs", count s.policyTimeToLive)]

def overrides : List (String × (Settings → String → Settings)) := [
  ("VDAG_API_BIND", fun s apiBind => { s with apiBind }),
  ("REDIS_HOST_URL", fun s queueUrl => { s with queueUrl }),
  ("VDAG_DB_API_URL", fun s registryUrl => { s with registryUrl }),
  ("SEARCH_SERVER_API_URL", fun s searchUrl => { s with searchUrl }),
  ("ADHOC_INFERENCE_API_URL", fun s discoveryUrl => { s with discoveryUrl }),
  ("GLOBAL_TASKS_DB_URL", fun s tasksUrl => { s with tasksUrl }),
  ("POLICY_EXECUTOR_URL", fun s policyUrl => { s with policyUrl })]

def withEnvironment (settings : Settings) (environment : Environment) : Settings :=
  overrides.foldl
    (fun s (name, put) => match environment.filled? name with
      | some value => put s value
      | none => s)
    settings

def ofFile (content : Option String) : Outcome Settings :=
  match content with
  | none => .error .unreadable
  | some text => match readText read text with
      | .ok settings => .ok settings
      | .error _ => .error .malformed

def limit? (seconds : UInt64) : Option Nat := if seconds = 0 then none else some seconds.toNat

def connectionLimit? (s : Settings) : Option Nat := limit? s.connectionTimeToLive

def policyLimit? (s : Settings) : Option Nat := limit? s.policyTimeToLive

end Settings

structure BlockSettings where
  block : BlockId
  queueUrl : String
  deriving DecidableEq, Repr

def BlockSettings.ofEnvironment (defaults : Settings) (environment : Environment) : Outcome BlockSettings :=
  match environment.filled? "BLOCK_ID" with
  | none => .error (.definition .noBlockId)
  | some block => .ok ⟨⟨block⟩, (environment "BLOCK_REDIS_URL").getD defaults.queueUrl⟩

end Vdag
