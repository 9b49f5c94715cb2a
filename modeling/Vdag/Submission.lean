import Vdag.Document.DryRun
import Vdag.Document.Task
import Vdag.Json.Printer
import Vdag.Packet.Wire
import Vdag.Processing

/-! Submitted vDAGs wait in a queue for a worker. Each is a task, which ends with exactly one update. -/
namespace Vdag

open Json

variable {m : Type → Type} [Monad m]

structure SubmissionDesk (m : Type → Type) where
  tasks : TaskStore m
  queue : QueueClient m
  queueName : String

structure Receipt where
  uri : VdagUri
  task : TaskId
  deriving DecidableEq, Repr

def Receipt.toJson (r : Receipt) : Value :=
  .record [("vdagURI", .string r.uri.text), ("task_id", .string r.task.text)]

def VdagDocument.requireUri (document : VdagDocument) : Outcome VdagUri := do
  (← Definition.ofDocument document).requireUri

namespace SubmissionDesk

def submit (desk : SubmissionDesk m) (document : VdagDocument) : Action m Receipt := do
  let uri ← Action.ofOutcome document.requireUri
  let data := document.toJson
  let task ← desk.tasks.create processingTask data
  desk.queue.push desk.queueName (Wire.textBytes (SubmissionMessage.mk task.text data).toJson.render)
  return ⟨uri, task⟩

def patience : Nat := 5

end SubmissionDesk

inductive Intake where
  | nothing
  | unavailable (failure : Failure)
  | illegible
  | message (message : SubmissionMessage)
  deriving DecidableEq, Repr

namespace Intake

def ofPayload (payload : Bytes) : Intake :=
  match Wire.textOfBytes? payload with
  | none => .illegible
  | some text => match readText SubmissionMessage.read text with
      | .ok found => .message found
      | .error _ => .illegible

def next (queue : QueueClient m) (queueName : String) : m Intake := do
  match ← (queue.pop queueName SubmissionDesk.patience).run with
  | .ok (some payload) => return ofPayload payload
  | .ok none => return .nothing
  | .error failure => return .unavailable failure

/- Listens for a number of seconds, in at most so many looks, and passes on what can be read. `room` is how many
messages can wait to be taken: one more holds the listener up for the rest of the time, and is lost. Without anybody
to take messages the first one is lost too, and listening ends early, which is the second part of the answer. A queue
that is unavailable is tried again after the same wait. -/
def listen (queue : QueueClient m) (queueName : String) :
    (looks seconds : Nat) → (room : Option Nat) → List SubmissionMessage → m (List SubmissionMessage × Bool)
  | 0, _, _, found => return (found, false)
  | _, 0, _, found => return (found, false)
  | looks + 1, seconds, room, found => do
      match ← next queue queueName with
      | .nothing => listen queue queueName looks (seconds - SubmissionDesk.patience) room found
      | .unavailable _ => listen queue queueName looks (seconds - SubmissionDesk.patience) room found
      | .illegible => listen queue queueName looks seconds room found
      | .message submission => match room with
          | none => return (found, true)
          | some 0 => return (found, false)
          | some (room + 1) => listen queue queueName looks seconds (some room) (found ++ [submission])

end Intake

structure Worker (m : Type → Type) where
  processor : Processor m
  tasks : TaskStore m

namespace Worker

def resultData (vdag : Definition) : Value :=
  .record [("vdagURI", .string vdag.uriText), ("assignment_info", vdag.assignment.toJson)]

def definitionOf (data : Value) : Outcome Definition := do
  Definition.ofDocument (← (readValue VdagDocument.read data).outcome)

def compile (worker : Worker m) (data : Value) : Action m Value := do
  let vdag ← Action.ofOutcome (definitionOf data)
  return resultData (← worker.processor.mapToBlocks vdag)

def updateOf (id : TaskId) : Outcome Value → TaskUpdate
  | .ok data => .completed id data
  | .error failure => .failed id failure

def process (worker : Worker m) (message : SubmissionMessage) : m TaskUpdate := do
  let update := updateOf ⟨message.taskId⟩ (← (worker.compile message.taskData).run)
  let _ ← (worker.tasks.update update).run
  return update

def processAll (worker : Worker m) : List SubmissionMessage → m Unit
  | [] => return ()
  | message :: rest => do
      let _ ← worker.process message
      worker.processAll rest

end Worker

/- Updates travel through a queue; whoever takes them from there applies them. -/
def TaskStore.withQueuedUpdates (store : TaskStore m) (queue : QueueClient m) (queueName : String) : TaskStore m :=
  { store with update := fun update => queue.push queueName (Wire.textBytes update.toDocument.toJson.render) }

end Vdag
