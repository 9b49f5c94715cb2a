import Vdag.PhysicalGraph
import Vdag.Text.Basic

/-! The command line: a command with its arguments, and options that may stand anywhere among them. -/
namespace Vdag

inductive DryRun where
  | endToEnd
  | assignment
  | validate
  deriving DecidableEq, Repr

def DryRun.ofText? : String → Option DryRun
  | "end-to-end" => some .endToEnd
  | "assignment" => some .assignment
  | "validate" => some .validate
  | _ => none

inductive Command where
  | serve
  | worker
  | block
  | dryRun (mode : DryRun) (file : String)
  | ingest (uri session data : String) (head : Option String) (sink : Destination)
  | sink (server : Option String) (queue : String)
  deriving DecidableEq, Repr

structure Invocation where
  config : Option String
  command : Command
  deriving DecidableEq, Repr

inductive Usage where
  | help
  | wrong
  deriving DecidableEq, Repr

structure Grammar where
  options : List (String × (String → Bool))
  places : List (String → Bool)

structure Supplied where
  options : List (String × String)
  arguments : List String
  deriving DecidableEq, Repr

namespace Supplied

def start : Supplied := ⟨[], []⟩

def option? (r : Supplied) (name : String) : Option String :=
  (r.options.find? (fun entry => entry.1 == name)).map (·.2)

def addOption (r : Supplied) (grammar : Grammar) (name value : String) : Except Usage Supplied :=
  match grammar.options.find? (fun entry => entry.1 == name) with
  | none => .error .wrong
  | some (_, allows) =>
      if (r.option? name).isSome ∨ !allows value then .error .wrong
      else .ok { r with options := (name, value) :: r.options }

def addArgument (r : Supplied) (grammar : Grammar) (value : String) : Except Usage Supplied :=
  match grammar.places[r.arguments.length]? with
  | none => .error .wrong
  | some allows => if allows value then .ok { r with arguments := r.arguments ++ [value] } else .error .wrong

end Supplied

namespace CommandLine

def isDashed (argument : String) : Bool := (Text.dropFront? "-" argument).any (· ≠ "")

inductive Word where
  | separator
  | option (name : String) (value : Option String)
  | letters (text : String)
  | argument (text : String)
  deriving DecidableEq, Repr

def wordOf (argument : String) : Word :=
  match Text.dropFront? "--" argument with
  | some "" => .separator
  | some rest => match Text.splitFirst? "=" rest with
      | some (name, value) => .option name (some value)
      | none => .option rest none
  | none => if isDashed argument then .letters argument else .argument argument

def helpOption : String := "help"

def askedBy (letters : String) : Usage := if (Text.dropFront? "-h" letters).isSome then .help else .wrong

/- Words from left to right; the first that is wrong, or that asks for help, decides. After a separator all
words are arguments. -/
def read (grammar : Grammar) : List String → Supplied → Except Usage Supplied
  | [], r => .ok r
  | word :: rest, r =>
      match wordOf word with
      | .separator => rest.foldlM (fun r value => r.addArgument grammar value) r
      | .letters text => .error (askedBy text)
      | .argument value => do read grammar rest (← r.addArgument grammar value)
      | .option name (some value) =>
          if name = helpOption then .error .wrong
          else do read grammar rest (← r.addOption grammar name value)
      | .option name none =>
          if name = helpOption then .error .help
          else match rest with
            | [] => .error .wrong
            | value :: rest =>
                if isDashed value then .error .wrong
                else do read grammar rest (← r.addOption grammar name value)

def anyValue (_ : String) : Bool := true

def configOption : String × (String → Bool) := ("config", anyValue)

def port? (text : String) : Option UInt16 :=
  let negative := (Text.dropFront? "-" text).isSome
  let digits := ((Text.dropFront? "-" text).or (Text.dropFront? "+" text)).getD text
  let n := digits.toList.foldl (fun n c => 10 * n + (c.toNat - 48)) 0
  if digits.isEmpty ∨ !digits.toList.all Char.isDigit ∨ (negative ∧ n ≠ 0) ∨ 0x10000 ≤ n then none
  else some (UInt16.ofNat n)

def grammars : List (String × Grammar) := [
  ("serve", ⟨[configOption], []⟩),
  ("worker", ⟨[configOption], []⟩),
  ("block", ⟨[configOption], []⟩),
  ("dryrun", ⟨[configOption], [fun mode => (DryRun.ofText? mode).isSome, anyValue]⟩),
  ("ingest", ⟨[configOption, ("head-redis", anyValue), ("sink-host", anyValue),
    ("sink-port", fun port => (port? port).isSome), ("sink-queue", anyValue)], [anyValue, anyValue, anyValue]⟩),
  ("sink", ⟨[configOption, ("redis", anyValue), ("queue", anyValue)], []⟩)]

def resultsQueue : String := "OUTPUTS"

def commandOf (name : String) (r : Supplied) : Option Command :=
  match name, r.arguments with
  | "serve", [] => some .serve
  | "worker", [] => some .worker
  | "block", [] => some .block
  | "dryrun", [mode, file] => (DryRun.ofText? mode).map (.dryRun · file)
  | "ingest", [uri, session, data] => some (.ingest uri session data (r.option? "head-redis") {
      host := (r.option? "sink-host").getD "localhost"
      port := ((r.option? "sink-port").bind port?).getD 6379
      queue := (r.option? "sink-queue").getD resultsQueue })
  | "sink", [] => some (.sink (r.option? "redis") ((r.option? "queue").getD resultsQueue))
  | _, _ => none

def helpCommand : String := "help"

def helpFor : List String → Usage
  | [] => .help
  | [name] => if name = helpCommand ∨ (grammars.find? (fun entry => entry.1 == name)).isSome then .help else .wrong
  | _ => .wrong

def readCommand (config : Option String) (name : String) (rest : List String) : Except Usage Invocation :=
  if name = helpCommand then .error (helpFor rest)
  else match grammars.find? (fun entry => entry.1 == name) with
    | none => .error .wrong
    | some (_, grammar) => do
        let r ← read grammar rest .start
        match commandOf name r with
        | some command => .ok ⟨(r.option? configOption.1).or config, command⟩
        | none => .error .wrong

/- With two settings files before the command there is only help left to give, if the command asks for it. -/
def helpOnly (words : List String) : Usage :=
  match words with
  | [] => .wrong
  | word :: rest => match wordOf word with
      | .argument name => match readCommand none name rest with
          | .error .help => .help
          | _ => .wrong
      | _ => .wrong

def parse : List String → (config : Option String) → Except Usage Invocation
  | [], _ => .error .wrong
  | word :: rest, config =>
      match wordOf word with
      | .separator => .error .wrong
      | .letters text => .error (askedBy text)
      | .argument name => readCommand config name rest
      | .option name value =>
          if name = helpOption then .error (if value.isSome then .wrong else .help)
          else if name ≠ configOption.1 then .error .wrong
          else match value, config with
            | some value, none => parse rest (some value)
            | some _, some _ => .error .wrong
            | none, _ => match rest, config with
                | [], _ => .error .wrong
                | value :: rest, none => if isDashed value then .error .wrong else parse rest (some value)
                | value :: rest, some _ => .error (if isDashed value then .wrong else helpOnly rest)

end CommandLine

end Vdag
