import Vdag.Block
import Vdag.CommandLine
import Vdag.Gateway
import Vdag.Ingress
import Vdag.Packet.Framing
import Vdag.Remote.ListServer
import Vdag.Remote.Services

/-! What each command does: it prints a document, or it is done, or it goes on in steps until it is stopped. -/
namespace Vdag

open Json

structure Host (m : Type → Type) (κ : Type) where
  content : String → m (Option String)
  environment : Environment
  web : WebClient m
  lists : ListClient m κ
  openApi : (address : String) → Gateway m → Action m Unit
  pause : (seconds : Nat) → m Unit
  timestamp : m Binary64
  clock : m Nat

inductive Course (m : Type → Type) (κ : Type) where
  | done
  | printed (document : Value)
  | working (worker : Worker m) (queue : QueueClient m) (queueName : String)
  | serving (block : Block m κ PolicyRule) (memory : BlockMemory κ PolicyRule)
  | copying (queue : QueueClient m) (queueName : String)

namespace Host

variable {m : Type → Type} [Monad m] {κ : Type}

def settings (host : Host m κ) (config : Option String) : Action m Settings := do
  let base ← match config with
    | none => pure ({} : Settings)
    | some file => do Action.ofOutcome (Settings.ofFile (← ExceptT.lift (host.content file)))
  return base.withEnvironment host.environment

def services (host : Host m κ) (s : Settings) : RemoteServices m := .ofSettings host.web s

def definition (host : Host m κ) (file : String) : Action m Definition := do
  match ← ExceptT.lift (host.content file) with
  | none => Action.fail .unreadable
  | some text => Action.ofOutcome do Definition.ofDocument (← (readText VdagDocument.read text).outcome)

def dryRun (host : Host m κ) (s : Settings) (mode : DryRun) (file : String) : Action m Value := do
  let vdag ← host.definition file
  let processor := (host.services s).processor
  match mode with
  | .assignment => return (← processor.dryAssignment vdag).toJson
  | .validate => return (← processor.validateGraph vdag).toJson
  | .endToEnd => do
      let (assignment, compiled) ← processor.dryEndToEnd vdag
      return endToEndJson assignment compiled

def entry (host : Host m κ) (s : Settings) (uri : VdagUri) (session data : String) (sink : Destination) :
    Action m Entry := do
  match ← (host.services s).registry.get uri with
  | none => Action.fail (.notFound (.vdag uri))
  | some vdag => match vdag.compiled with
      | none => Action.fail (.notFound (.compilation uri))
      | some compiled => return compiled.entry uri session data [sink] (← ExceptT.lift host.timestamp)

def ingest (host : Host m κ) (s : Settings) (uri : VdagUri) (session data : String) (head : String)
    (sink : Destination) : Action m Unit := do
  let entry ← host.entry s uri session data sink
  let queue ← host.lists.openUrl head
  queue.push entry.queue entry.packet.encode

def worker (host : Host m κ) (s : Settings) : Action m (Worker m × QueueClient m) := do
  let services := host.services s
  let queue ← host.lists.openUrl s.queueUrl
  return (⟨services.processor, services.tasks.withQueuedUpdates queue s.taskUpdatesQueue⟩, queue)

def serve (host : Host m κ) (s : Settings) : Action m (Course m κ) := do
  let (worker, queue) ← host.worker s
  host.openApi s.apiBind ⟨worker.processor, ⟨worker.tasks, queue, s.inputsQueue⟩⟩
  return .working worker queue s.inputsQueue

def block (host : Host m κ) (s : Settings) : Action m (Course m κ) := do
  let own ← Action.ofOutcome (BlockSettings.ofEnvironment s host.environment)
  let services := host.services s
  let queue ← host.lists.openUrl own.queueUrl
  return .serving {
      input := queue
      work := echo
      policies := ⟨own.block, services.registry, services.policies, host.clock⟩
      router := ⟨own.block, queue, ⟨host.lists.connector, host.clock⟩⟩ }
    ⟨.new s.connectionCapacity.toNat s.connectionLimit?, .new s.policyCapacity.toNat s.policyLimit?⟩

def start (host : Host m κ) (s : Settings) : Command → Action m (Course m κ)
  | .serve => host.serve s
  | .worker => do
      let (worker, queue) ← host.worker s
      return .working worker queue s.inputsQueue
  | .block => host.block s
  | .dryRun mode file => return .printed (← host.dryRun s mode file)
  | .ingest uri session data head sink => do
      host.ingest s ⟨uri⟩ session data (head.getD s.queueUrl) sink
      return .done
  | .sink server queueName => return .copying (← host.lists.openUrl (server.getD s.queueUrl)) queueName

def launch (host : Host m κ) (call : Invocation) : Action m (Course m κ) := do
  host.start (← host.settings call.config) call.command

def frameOf (payload : Bytes) : Outcome Bytes :=
  match Packet.decode payload with
  | .ok packet => Frame.writeAll [packet]
  | .error _ => .ok []

def advance (host : Host m κ) : Course m κ → Action m (Bytes × Course m κ)
  | .working worker queue queueName => do
      match ← ExceptT.lift (Intake.next queue queueName) with
      | .message found => do
          let _ ← ExceptT.lift (worker.process found)
      | .unavailable _ => ExceptT.lift (host.pause SubmissionDesk.patience)
      | .nothing | .illegible => pure ()
      return ([], .working worker queue queueName)
  | .serving block memory => do
      let (taken, memory) ← ExceptT.lift (block.takeOne.run memory)
      match taken with
      | .ok _ => pure ()
      | .error _ => ExceptT.lift (host.pause Block.patience)
      return ([], .serving block memory)
  | .copying queue queueName => do
      match ← queue.pop queueName SubmissionDesk.patience with
      | none => return ([], .copying queue queueName)
      | some payload => return (← Action.ofOutcome (frameOf payload), .copying queue queueName)
  | .done => return ([], .done)
  | .printed document => return ([], .printed document)

end Host

end Vdag
