import Vdag.Launch
import Std.Time.DateTime.Timestamp

/-! The program: reads its arguments, starts the command and follows it until it ends. -/
namespace Vdag.Program

/- No service is within reach: every request goes unanswered and every connection is refused. Commands that
need neither work as they are. -/
def host (environment : Environment) : Host IO Unit where
  content file := do
    match ← (IO.FS.readFile file).toBaseIO with
    | .ok content => return some content
    | .error _ => return none
  environment
  web := .unreachable
  lists := .unreachable
  openApi _ _ := Action.fail .unreadable
  pause seconds := IO.sleep (UInt32.ofNat (1000 * seconds))
  timestamp := do
    let now ← Std.Time.Timestamp.now
    return (Fraction.round false ⟨now.toMillisecondsSinceUnixEpoch.toInt.toNat, 1000⟩).getD .zero
  clock := do return (← IO.monoMsNow) / 1000

def variableNames : List String := "BLOCK_ID" :: "BLOCK_REDIS_URL" :: Settings.overrides.map (·.1)

def readEnvironment : IO Environment := do
  let found ← variableNames.mapM (fun name => do return (name, ← IO.getEnv name))
  return fun name => (found.find? (fun entry => entry.1 == name)).bind (·.2)

def report (failure : Failure) : IO UInt32 := do
  IO.eprintln ("Error: " ++ failure.message)
  return 1

partial def follow (host : Host IO Unit) (course : Course IO Unit) : IO UInt32 := do
  match ← (host.advance course).run with
  | .error failure => report failure
  | .ok (bytes, next) => do
      let output ← IO.getStdout
      output.write ⟨bytes.toArray⟩
      output.flush
      follow host next

def run (call : Invocation) : IO UInt32 := do
  let host := host (← readEnvironment)
  match ← (host.launch call).run with
  | .error failure => report failure
  | .ok .done => return 0
  | .ok (.printed document) => do
      IO.println document.pretty
      return 0
  | .ok course => follow host course

def usage : String := "Usage: vdag [--config FILE] serve | worker | block | dryrun MODE FILE |\n" ++
  "  ingest VDAG_URI SESSION DATA [--head-redis URL] [--sink-host HOST] [--sink-port PORT] [--sink-queue QUEUE] |\n" ++
  "  sink [--redis URL] [--queue QUEUE]\nModes: end-to-end, assignment, validate"

end Vdag.Program

open Vdag Vdag.Program in
def main (args : List String) : IO UInt32 := do
  match CommandLine.parse args none with
  | .ok call => run call
  | .error .help => do
      IO.println usage
      return 0
  | .error .wrong => do
      IO.eprintln usage
      return 2
