import Vdag.Memory.Queue
import Vdag.Proofs.Registry.Hoisting
import Vdag.Proofs.Submission.Passage

/-! Submission as a whole: desk, queue, listener and worker around one processor, on one errand after the other. How an
errand is run is the program's own; what is kept here beside its state is the channel between listener and worker, and
a journal of the updates that the task store was asked for. -/
namespace Vdag
open Json Vdag.Action

structure Office (σ : Type) where
  world : σ
  tasks : MemoryTasks
  queue : MemoryQueue
  channel : List SubmissionMessage
  journal : List TaskUpdate
  readings : Nat

structure Staff (σ : Type) where
  processor : Processor (StateM σ)
  queueName : String
  clock : Nat → Int64

inductive Errand where
  | submit (document : VdagDocument)
  | listen
  | work
  deriving DecidableEq, Repr

namespace Office

variable {σ : Type}

def inside : Part (Office σ) σ where
  get := Office.world
  put office world := { office with world }
  getPut _ _ := rfl
  putGet _ := rfl
  putPut _ _ _ := rfl

def client : QueueClient (StateM (Office σ)) where
  push queue payload := ExceptT.mk fun office => (.ok (), { office with queue := office.queue.push queue payload })
  pop queue _ := ExceptT.mk fun office =>
    let (payload, left) := office.queue.pop queue
    (.ok payload, { office with queue := left })

structure Idle (office : Office σ) (queueName : String) : Prop where
  queue : office.queue.waiting queueName = []
  channel : office.channel = []

end Office

namespace Staff

variable {σ : Type} (staff : Staff σ)

def timed {α : Type} (op : TaskStore (StateM MemoryTasks) → MemoryTasks.Op α) : Action (StateM (Office σ)) α :=
  ExceptT.mk fun office =>
    let (answer, tasks) := on (op (MemoryTasks.service (staff.clock office.readings))) office.tasks
    (answer, { office with tasks, readings := office.readings + 1 })

def tasks : TaskStore (StateM (Office σ)) where
  create category data := staff.timed (·.create category data)
  update change := ExceptT.mk fun office =>
    on (staff.timed (·.update change)) { office with journal := office.journal ++ [change] }
  get id := staff.timed (·.get id)

def desk : SubmissionDesk (StateM (Office σ)) := ⟨staff.tasks, Office.client, staff.queueName⟩

def worker : Worker (StateM (Office σ)) := ⟨staff.processor.hoist Office.inside.lift, staff.tasks⟩

def listen (office : Office σ) : Office σ :=
  match Intake.next Office.client staff.queueName office with
  | (.message submission, after) => { after with channel := after.channel ++ [submission] }
  | (_, after) => after

def work (office : Office σ) : Office σ :=
  match office.channel with
  | [] => office
  | submission :: rest => (staff.worker.process submission { office with channel := rest }).2

def serve (office : Office σ) : Errand → Office σ
  | .submit document => (on (staff.desk.submit document) office).2
  | .listen => staff.listen office
  | .work => staff.work office

def run (office : Office σ) (errands : List Errand) : Office σ := errands.foldl staff.serve office

end Staff

/- A document that was accepted, with the vDAG it describes and the task it became. -/
structure Ticket where
  task : TaskId
  document : VdagDocument
  vdag : Definition

def VdagDocument.accepted? (document : VdagDocument) : Option Definition :=
  match Definition.ofDocument document with
  | .error _ => none
  | .ok vdag => match vdag.requireUri with
    | .error _ => none
    | .ok _ => some vdag

namespace Ticket

def message (ticket : Ticket) : SubmissionMessage := ⟨ticket.task.text, ticket.document.toJson⟩

def ending (ticket : Ticket) : Outcome Definition → TaskUpdate
  | .ok vdag => ⟨ticket.task, .completed,
      .record [("vdagURI", .string vdag.uriText), ("assignment_info", vdag.assignment.toJson)]⟩
  | .error failure => ⟨ticket.task, .failed,
      .record [("error", .string failure.message), ("kind", .string failure.kind)]⟩

def issued (created : Nat) : List VdagDocument → List Ticket
  | [] => []
  | document :: rest => match document.accepted? with
    | none => issued created rest
    | some vdag => ⟨MemoryTasks.idOf (created + 1), document, vdag⟩ :: issued (created + 1) rest

end Ticket

def Staff.inOrder {σ : Type} (staff : Staff σ) (tickets : List Ticket) : StateM σ (List TaskUpdate) :=
  tickets.mapM (fun ticket => do return ticket.ending (← (staff.processor.mapToBlocks ticket.vdag).run))

def Errand.submitted (errands : List Errand) : List VdagDocument :=
  errands.filterMap (fun errand => match errand with
    | .submit document => some document
    | .listen | .work => none)

def Errand.closing (errands : List Errand) : List Errand :=
  List.replicate errands.length .listen ++ List.replicate errands.length .work

namespace Office

variable {σ : Type}

def Pending (office : Office σ) (ticket : Ticket) : Prop :=
  ∃ created, office.tasks.tasks.find? ticket.task =
    some (.pending ticket.task processingTask ticket.document.toJson created)

def Ended (office : Office σ) (ticket : Ticket) (update : TaskUpdate) : Prop :=
  ∃ created updated, office.tasks.tasks.find? ticket.task =
    some ((Task.pending ticket.task processingTask ticket.document.toJson created).apply update updated)

variable {office after : Office σ} {ticket : Ticket}

theorem Pending.pendingKept (pending : office.Pending ticket)
    (same : after.tasks.tasks.find? ticket.task = office.tasks.tasks.find? ticket.task) : after.Pending ticket := by
  obtain ⟨created, found⟩ := pending
  exact ⟨created, same.trans found⟩

theorem Ended.endedKept {update : TaskUpdate} (ended : office.Ended ticket update)
    (same : after.tasks.tasks.find? ticket.task = office.tasks.tasks.find? ticket.task) :
    after.Ended ticket update := by
  obtain ⟨created, updated, found⟩ := ended
  exact ⟨created, updated, same.trans found⟩

end Office

def Staff.handled {σ : Type} (staff : Staff σ) (office : Office σ) (ticket : Ticket) (task : Task) : Office σ :=
  let (answer, world) := on (staff.processor.mapToBlocks ticket.vdag) office.world
  { office with
    world
    tasks := { office.tasks with
      tasks := office.tasks.tasks.insert ticket.task
        (task.apply (ticket.ending answer) (staff.clock office.readings)) }
    journal := office.journal ++ [ticket.ending answer]
    readings := office.readings + 1 }

section Errands

variable {σ : Type} {staff : Staff σ} {ticket : Ticket}

theorem VdagDocument.acceptedCases (document : VdagDocument) :
    match document.accepted? with
    | none => ∃ failure, document.requireUri = .error failure
    | some vdag => Definition.ofDocument document = .ok vdag ∧ ∃ uri, document.requireUri = .ok uri := by
  rw [VdagDocument.requireUri, accepted?]
  cases Definition.ofDocument document with
  | error failure => exact ⟨failure, rfl⟩
  | ok vdag =>
    dsimp only
    cases named : vdag.requireUri with
    | error failure => exact ⟨failure, named⟩
    | ok uri => exact ⟨rfl, uri, named⟩

theorem submitRejected {document : VdagDocument} {failure : Failure} (refused : document.requireUri = .error failure)
    (office : Office σ) : on (staff.desk.submit document) office = (.error failure, office) := by
  rw [SubmissionDesk.submit, onBind, onOutcome, refused]

theorem submitAccepted {document : VdagDocument} {uri : VdagUri} (accepted : document.requireUri = .ok uri)
    (office : Office σ) :
    on (staff.desk.submit document) office =
      let id := MemoryTasks.idOf (office.tasks.created + 1)
      (.ok ⟨uri, id⟩, { office with
        tasks := ⟨office.tasks.tasks.insert id
          (.pending id processingTask document.toJson (staff.clock office.readings)), office.tasks.created + 1⟩
        queue := office.queue.push staff.queueName (SubmissionMessage.mk id.text document.toJson).payload
        readings := office.readings + 1 }) := by
  rw [staff.desk.submitAccepted accepted]
  rfl

theorem submitAnswers (document : VdagDocument) (office : Office σ) :
    match document.accepted? with
    | none => ∃ failure, document.requireUri = .error failure ∧
        on (staff.desk.submit document) office = (.error failure, office)
    | some _ => ∃ uri, document.requireUri = .ok uri ∧
        (on (staff.desk.submit document) office).1 = .ok ⟨uri, MemoryTasks.idOf (office.tasks.created + 1)⟩ := by
  have known := document.acceptedCases
  cases accepted : document.accepted? with
  | none =>
    rw [accepted] at known
    obtain ⟨failure, refused⟩ := known
    exact ⟨failure, refused, submitRejected refused office⟩
  | some vdag =>
    rw [accepted] at known
    obtain ⟨_, uri, named⟩ := known
    exact ⟨uri, named, congrArg Prod.fst (submitAccepted named office)⟩

structure Ticket.Carried (ticket : Ticket) : Prop where
  portable : ticket.document.Portable
  accepted : ticket.document.accepted? = some ticket.vdag

theorem Ticket.Carried.carriedDescribed {ticket : Ticket} (carried : ticket.Carried) :
    Definition.ofDocument ticket.document = .ok ticket.vdag := by
  have known := ticket.document.acceptedCases
  rw [carried.accepted] at known
  exact known.1

theorem onCompile (carried : ticket.Carried) (office : Office σ) :
    on (staff.worker.compile ticket.document.toJson) office =
      ((on (staff.processor.mapToBlocks ticket.vdag) office.world).1.map Worker.resultData,
        { office with world := (on (staff.processor.mapToBlocks ticket.vdag) office.world).2 }) := by
  have described := carried.portable.portableDescribed.trans carried.carriedDescribed
  rw [Worker.compile, onBind, onOutcome, described]
  dsimp only
  rw [onBindPure]
  have mapped : on (staff.worker.processor.mapToBlocks ticket.vdag) office = _ :=
    staff.processor.sameMapping Office.inside ticket.vdag office
  rw [mapped]
  rfl

theorem updateEnding (answer : Outcome Definition) :
    Worker.updateOf ticket.task (answer.map Worker.resultData) = ticket.ending answer := by
  cases answer <;> rfl

theorem endingTask (answer : Outcome Definition) : (ticket.ending answer).id = ticket.task := by cases answer <;> rfl

theorem onProcess {τ : Type} (worker : Worker (StateM τ)) (message : SubmissionMessage) (state : τ) :
    worker.process message state =
      let update := Worker.updateOf ⟨message.taskId⟩ (on (worker.compile message.taskData) state).1
      (update, (on (worker.tasks.update update) (on (worker.compile message.taskData) state).2).2) := rfl

theorem onUpdate (change : TaskUpdate) {office : Office σ} {task : Task}
    (known : office.tasks.tasks.find? change.id = some task) :
    on (staff.tasks.update change) office = (.ok (), { office with
      tasks := { office.tasks with
        tasks := office.tasks.tasks.insert change.id (task.apply change (staff.clock office.readings)) }
      journal := office.journal ++ [change]
      readings := office.readings + 1 }) := by
  have stored : on (MemoryTasks.update (staff.clock office.readings) change) office.tasks =
      (.ok (), { office.tasks with
        tasks := office.tasks.tasks.insert change.id (task.apply change (staff.clock office.readings)) }) := by
    simp only [on, MemoryTasks.update, ExceptT.run_mk, StateT.run, known]
  have asked : on (staff.tasks.update change) office =
      let told := on (MemoryTasks.update (staff.clock office.readings) change) office.tasks
      (told.1, { office with
        tasks := told.2
        journal := office.journal ++ [change]
        readings := office.readings + 1 }) := rfl
  rw [asked, stored]

theorem workerHandles (carried : ticket.Carried) {office : Office σ} {task : Task}
    (known : office.tasks.tasks.find? ticket.task = some task) :
    (staff.worker.process ticket.message office).2 = staff.handled office ticket task := by
  rw [onProcess, Staff.handled]
  have compiled : on (staff.worker.compile ticket.message.taskData) office = _ := onCompile carried office
  have named : (⟨ticket.message.taskId⟩ : TaskId) = ticket.task := rfl
  rw [compiled, named]
  dsimp only
  rw [updateEnding]
  generalize on (staff.processor.mapToBlocks ticket.vdag) office.world = ran
  have known : ({ office with world := ran.2 } : Office σ).tasks.tasks.find? (ticket.ending ran.1).id = some task := by
    rw [endingTask]
    exact known
  have told : on (staff.tasks.update (ticket.ending ran.1)) { office with world := ran.2 } = _ := onUpdate _ known
  change (on (staff.tasks.update (ticket.ending ran.1)) { office with world := ran.2 }).2 = _
  rw [told, endingTask]

theorem onNext {τ : Type} (queue : QueueClient (StateM τ)) (queueName : String) (state : τ) :
    Intake.next queue queueName state = match on (queue.pop queueName SubmissionDesk.patience) state with
      | (.ok (some payload), after) => (.ofPayload payload, after)
      | (.ok none, after) => (.nothing, after)
      | (.error failure, after) => (.unavailable failure, after) := by
  rcases popped : on (queue.pop queueName SubmissionDesk.patience) state with ⟨failure | _ | payload, after⟩
  all_goals
    have popped : (queue.pop queueName SubmissionDesk.patience).run state = _ := popped
    simp only [Intake.next, bind, StateT.bind]
    rw [popped]
    rfl

theorem nextNothing {queueName : String} {office : Office σ} (empty : office.queue.waiting queueName = []) :
    Intake.next Office.client queueName office = (.nothing, office) := by
  have popped : on (Office.client.pop queueName SubmissionDesk.patience) office = (.ok none, office) := by
    change (let (payload, queue) := office.queue.pop queueName
      (Except.ok payload, { office with queue })) = _
    rw [MemoryQueue.pop, empty]
  rw [onNext, popped]

theorem nextWaiting {queueName : String} {payload : Bytes} {rest : List Bytes} {office : Office σ}
    (queued : office.queue.waiting queueName = payload :: rest) :
    Intake.next Office.client queueName office =
      (.ofPayload payload, { office with queue := ⟨office.queue.queues.insert queueName rest⟩ }) := by
  have popped : on (Office.client.pop queueName SubmissionDesk.patience) office =
      (.ok (some payload), { office with queue := ⟨office.queue.queues.insert queueName rest⟩ }) := by
    change (let (payload, queue) := office.queue.pop queueName
      (Except.ok payload, { office with queue })) = _
    rw [MemoryQueue.pop, queued]
  rw [onNext, popped]

theorem serveWork (carried : ticket.Carried) {office : Office σ} {rest : List SubmissionMessage}
    (channel : office.channel = ticket.message :: rest) {task : Task}
    (known : office.tasks.tasks.find? ticket.task = some task) :
    staff.serve office .work = staff.handled { office with channel := rest } ticket task := by
  rw [Staff.serve, Staff.work, channel]
  have known : ({ office with channel := rest } : Office σ).tasks.tasks.find? ticket.task = some task := known
  exact workerHandles carried known

end Errands

end Vdag
