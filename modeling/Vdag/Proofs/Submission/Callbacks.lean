import Vdag.Memory.Queue
import Vdag.Proofs.Broker
import Vdag.Proofs.Effects
import Vdag.Proofs.Json.Characters
import Vdag.Proofs.Submission.Passage

/-! Updates that go through a queue and are applied later. Each message carries its update whole; and once all of them
have been applied, in the order of the queue, every task is as if its updates had been applied at once. -/
namespace Vdag
open Json Vdag.Action

namespace TaskUpdateDocument

theorem toJsonFields (d : TaskUpdateDocument) : d.toJson =
    .object [("status", .string d.status), ("task_id", .string d.id), ("task_status_data", d.statusData)] := by
  have order : ["status", "task_id", "task_status_data"].Pairwise KeyOrder.Before := by decide +kernel
  exact congrArg Value.object (SortedMap.ofListSorted order (by simp) (by simp))

theorem plainPrinted {d : TaskUpdateDocument} {levels : Nat} (data : Plain levels d.statusData) :
    Plain (levels + 1) d.toJson := by
  refine plainRecord ?_
  simp only [List.forall_mem_cons]
  exact ⟨.string levels d.id, .string levels d.status, data, List.forall_mem_nil _⟩

theorem readPrinted {d : TaskUpdateDocument} {levels : Nat} (data : Plain levels d.statusData)
    (room : nestingLimit = levels + 1) :
    readBytes TaskUpdateDocument.read (Wire.textBytes d.toJson.render) = .ok d := by
  have returns := data.plainReturns
  rw [Returns] at returns
  rw [readTextBytes, (plainPrinted data).readOfRender, room, toJsonFields]
  simp [Value.tree, memberTrees, TaskUpdateDocument.read, FieldReader.readRecord, FieldReader.readObject,
    Source.members, FieldReader.readMembers, fields, FieldReader.mandatory, FieldReader.defaulted, Source.string,
    Source.any, returns, bind, Except.bind]

end TaskUpdateDocument

namespace TaskUpdate

def reported (task : TaskId) (outcome : Outcome Definition) : TaskUpdate :=
  Worker.updateOf task (outcome.map Worker.resultData)

theorem reportedTask (task : TaskId) (outcome : Outcome Definition) : (reported task outcome).id = task := by
  cases outcome <;> rfl

def payload (update : TaskUpdate) : Bytes := Wire.textBytes update.toDocument.toJson.render

def ofPayload (payload : Bytes) : Outcome TaskUpdate := do
  ofDocument (← (readBytes TaskUpdateDocument.read payload).outcome)

theorem statusReread (status : TaskStatus) : taskStatusOf status.text = .ok status := by cases status <;> rfl

theorem reportedPlain (levels : Nat) (task : TaskId) (outcome : Outcome Definition) :
    Plain (levels + 2) (reported task outcome).statusData := by
  cases outcome with
  | ok vdag =>
    refine plainRecord ?_
    simp only [List.forall_mem_cons]
    exact ⟨.string _ _, plainMap fun _ _ => .string _ _, List.forall_mem_nil _⟩
  | error failure =>
    refine plainRecord ?_
    simp only [List.forall_mem_cons]
    exact ⟨.string _ _, .string _ _, List.forall_mem_nil _⟩

theorem reportedReread (task : TaskId) (outcome : Outcome Definition) :
    ofPayload (reported task outcome).payload = .ok (reported task outcome) := by
  have plain := reportedPlain 124 task outcome
  generalize reported task outcome = update at plain
  have read := TaskUpdateDocument.readPrinted (d := update.toDocument) plain rfl
  rw [ofPayload, payload, read]
  show (taskStatusOf update.status.text >>= fun status => .ok ⟨update.id, status, update.statusData⟩) = .ok update
  rw [statusReread]
  rfl

end TaskUpdate

inductive TaskEvent where
  | created (category : String) (data : Value) (now : Int64)
  | ended (task : TaskId) (outcome : Outcome Definition) (now : Int64)

namespace TaskEvent

def creates : TaskEvent → Bool
  | .created _ _ _ => true
  | .ended _ _ _ => false

def update? : TaskEvent → Option TaskUpdate
  | .created _ _ _ => none
  | .ended task outcome _ => some (.reported task outcome)

def perform {m : Type → Type} [Monad m] (store : Int64 → TaskStore m) : TaskEvent → m Unit
  | .created category data now => do
      let _ ← ((store now).create category data).run
      return ()
  | .ended task outcome now => do
      let _ ← ((store now).update (.reported task outcome)).run
      return ()

def performAll {m : Type → Type} [Monad m] (store : Int64 → TaskStore m) : List TaskEvent → m Unit
  | [] => return ()
  | event :: rest => do
      event.perform store
      performAll store rest

end TaskEvent

structure Callbacks where
  tasks : MemoryTasks
  queue : MemoryQueue

namespace Callbacks

def empty : Callbacks := ⟨.empty, .empty⟩

def onTasks {α : Type} (op : StateM MemoryTasks α) : StateM Callbacks α := fun c =>
  let (answer, tasks) := op c.tasks
  (answer, { c with tasks })

def wrapped (now : Int64) : TaskStore (StateM Callbacks) where
  create category data := (MemoryTasks.create now category data).hoist onTasks
  update change := (MemoryTasks.update now change).hoist onTasks
  get id := (MemoryTasks.get id).hoist onTasks

def client : QueueClient (StateM Callbacks) where
  push queue payload := ExceptT.mk fun c => (.ok (), { c with queue := c.queue.push queue payload })
  pop queue _ := ExceptT.mk fun c =>
    let (payload, left) := c.queue.pop queue
    (.ok payload, { c with queue := left })

def service (queueName : String) (now : Int64) : TaskStore (StateM Callbacks) :=
  (wrapped now).withQueuedUpdates client queueName

def applyRead (now : Int64) (tasks : MemoryTasks) : Outcome TaskUpdate → MemoryTasks
  | .ok update => (on (MemoryTasks.update now update) tasks).2
  | .error _ => tasks

def settle (queueName : String) (now : Int64) (c : Callbacks) : MemoryTasks :=
  (c.queue.drain queueName).1.foldl (fun tasks payload => applyRead now tasks (TaskUpdate.ofPayload payload)) c.tasks

end Callbacks

namespace MemoryTasks

def undated? (tasks : MemoryTasks) (id : TaskId) : Option Task :=
  (tasks.tasks.find? id).map fun task => { task with updatedAt := 0 }

def after (tasks : MemoryTasks) (events : List TaskEvent) : MemoryTasks := (TaskEvent.performAll service events tasks).2

def given (created : Nat) : List TaskEvent → List TaskId
  | [] => []
  | .created _ _ _ :: rest => idOf (created + 1) :: given (created + 1) rest
  | .ended _ _ _ :: rest => given created rest

/- An event names a task whose id is only given out after it. Nobody can, where ids are not to be guessed. -/
def Foreseen (id : TaskId) : (created : Nat) → List TaskEvent → Prop
  | _, [] => False
  | created, .created _ _ _ :: rest => Foreseen id (created + 1) rest
  | created, .ended task _ _ :: rest => (task = id ∧ id ∈ given created rest) ∨ Foreseen id created rest

instance decidableForeseen (id : TaskId) :
    (created : Nat) → (events : List TaskEvent) → Decidable (Foreseen id created events)
  | _, [] => isFalse nofun
  | created, .created _ _ _ :: rest => decidableForeseen id (created + 1) rest
  | created, .ended _ _ _ :: rest =>
    have := decidableForeseen id created rest
    inferInstanceAs (Decidable (_ ∧ _ ∨ _))

structure Alike (id : TaskId) (a b : MemoryTasks) : Prop where
  undated : a.undated? id = b.undated? id
  created : a.created = b.created

section Steps

variable (tasks : MemoryTasks) (now : Int64) (id : TaskId)

theorem onUpdate (change : TaskUpdate) : (on (update now change) tasks).2 =
    match tasks.tasks.find? change.id with
    | some task => { tasks with tasks := tasks.tasks.insert change.id (task.apply change now) }
    | none => tasks := by
  simp only [on, update, ExceptT.run_mk, StateT.run]
  cases tasks.tasks.find? change.id <;> rfl

theorem createdUpdate (change : TaskUpdate) : (on (update now change) tasks).2.created = tasks.created := by
  rw [onUpdate]
  cases tasks.tasks.find? change.id <;> rfl

theorem undatedUpdate (change : TaskUpdate) : (on (update now change) tasks).2.undated? id =
    if change.id = id then
      (tasks.undated? id).map fun task => { task with status := change.status, statusData := change.statusData }
    else tasks.undated? id := by
  rw [onUpdate]
  by_cases own : change.id = id
  · subst own
    cases found : tasks.tasks.find? change.id with
    | none => simp [undated?, found]
    | some task => simp [undated?, found, Task.apply]
  · cases tasks.tasks.find? change.id with
    | none => simp [own]
    | some task => simp [undated?, own, Ne.symm own, SortedMap.findInsert]

theorem undatedCreate (category : String) (data : Value) : (on (create now category data) tasks).2.undated? id =
    if idOf (tasks.created + 1) = id then some { Task.pending id category data now with updatedAt := 0 }
    else tasks.undated? id := by
  have made : (on (create now category data) tasks).2 = ⟨tasks.tasks.insert (idOf (tasks.created + 1))
    (.pending (idOf (tasks.created + 1)) category data now), tasks.created + 1⟩ := rfl
  rw [made]
  by_cases own : idOf (tasks.created + 1) = id
  · subst own
    simp [undated?]
  · simp [undated?, own, Ne.symm own, SortedMap.findInsert]

end Steps

variable {id : TaskId} {a b tasks : MemoryTasks} {events : List TaskEvent}

namespace Alike

theorem trans {c : MemoryTasks} (first : Alike id a b) (later : Alike id b c) : Alike id a c :=
  ⟨first.undated.trans later.undated, first.created.trans later.created⟩

theorem alikeUpdate (alike : Alike id a b) (now now' : Int64) (change : TaskUpdate) :
    Alike id (on (MemoryTasks.update now change) a).2 (on (MemoryTasks.update now' change) b).2 where
  undated := by rw [undatedUpdate, undatedUpdate, alike.undated]
  created := by rw [createdUpdate, createdUpdate, alike.created]

theorem alikeCreate (alike : Alike id a b) (now : Int64) (category : String) (data : Value) :
    Alike id (on (MemoryTasks.create now category data) a).2 (on (MemoryTasks.create now category data) b).2 where
  undated := by rw [undatedCreate, undatedCreate, alike.undated, alike.created]
  created := congrArg (· + 1) alike.created

theorem alikeAfter (alike : Alike id a b) (events : List TaskEvent) : Alike id (a.after events) (b.after events) := by
  induction events generalizing a b with
  | nil => exact alike
  | cons event rest ih =>
    cases event with
    | created category data now => exact ih (alike.alikeCreate now category data)
    | ended task outcome now => exact ih (alike.alikeUpdate now now _)

end Alike

theorem createdAfter (tasks : MemoryTasks) (events : List TaskEvent) :
    (tasks.after events).created = tasks.created + (given tasks.created events).length := by
  induction events generalizing tasks with
  | nil => rfl
  | cons event rest ih =>
    cases event with
    | created category data now =>
      have later : (tasks.after (.created category data now :: rest)).created = _ :=
        ih (on (create now category data) tasks).2
      have count : (on (create now category data) tasks).2.created = tasks.created + 1 := rfl
      rw [later, count, given, List.length_cons]
      omega
    | ended task outcome now =>
      have later : (tasks.after (.ended task outcome now :: rest)).created = _ := ih (on (update now _) tasks).2
      rw [later, createdUpdate, given]

theorem undatedUntouched (absent : id ∉ given tasks.created events) :
    (tasks.after (events.filter TaskEvent.creates)).undated? id = tasks.undated? id := by
  induction events generalizing tasks with
  | nil => rfl
  | cons event rest ih =>
    cases event with
    | created category data now =>
      obtain ⟨own, absent⟩ := not_or.mp (List.mem_cons.not.mp absent)
      refine (@ih (on (create now category data) tasks).2 absent).trans ?_
      rw [undatedCreate, if_neg (Ne.symm own)]
    | ended task outcome now => exact ih absent

theorem updatePostponed (tasks : MemoryTasks) {change : TaskUpdate} {now now' : Int64}
    (known : change.id = id → id ∉ given tasks.created events) :
    Alike id (on (update now' change) (tasks.after (events.filter TaskEvent.creates))).2
      ((on (update now change) tasks).2.after (events.filter TaskEvent.creates)) where
  created := by rw [createdUpdate, createdAfter, createdAfter, createdUpdate]
  undated := by
    rw [undatedUpdate]
    by_cases own : change.id = id
    · have absent := known own
      rw [if_pos own, undatedUntouched absent, undatedUntouched (by rwa [createdUpdate]), undatedUpdate, if_pos own]
    · have same : Alike id tasks (on (update now change) tasks).2 :=
        ⟨by rw [undatedUpdate, if_neg own], (createdUpdate tasks now change).symm⟩
      rw [if_neg own, (same.alikeAfter _).undated]

def applyAll (now : Int64) (updates : List TaskUpdate) (tasks : MemoryTasks) : MemoryTasks :=
  updates.foldl (fun tasks change => (on (update now change) tasks).2) tasks

theorem Alike.applyAll (alike : Alike id a b) (now : Int64) (updates : List TaskUpdate) :
    Alike id (a.applyAll now updates) (b.applyAll now updates) := by
  induction updates generalizing a b with
  | nil => exact alike
  | cons change rest ih => exact ih (alike.alikeUpdate now now change)

/- Creations first and all updates after them come to the same, for a task that no update foresaw. -/
theorem updatesLast (tasks : MemoryTasks) (now : Int64) (unforeseen : ¬ Foreseen id tasks.created events) :
    Alike id ((tasks.after (events.filter TaskEvent.creates)).applyAll now (events.filterMap TaskEvent.update?))
      (tasks.after events) := by
  induction events generalizing tasks with
  | nil => exact ⟨rfl, rfl⟩
  | cons event rest ih =>
    cases event with
    | created category data time => exact ih (on (create time category data) tasks).2 unforeseen
    | ended task outcome time =>
      obtain ⟨foreseen, unforeseen⟩ := not_or.mp unforeseen
      have known : (TaskUpdate.reported task outcome).id = id → id ∉ given tasks.created rest :=
        fun own later => foreseen ⟨(TaskUpdate.reportedTask task outcome).symm.trans own, later⟩
      exact ((updatePostponed tasks known).applyAll now (rest.filterMap TaskEvent.update?)).trans
        (ih (on (update time _) tasks).2 (by rwa [createdUpdate]))

end MemoryTasks

namespace Callbacks

variable (queueName : String)

theorem performedAll (events : List TaskEvent) (c : Callbacks) :
    (TaskEvent.performAll (service queueName) events c).2 =
      ⟨c.tasks.after (events.filter TaskEvent.creates), (events.filterMap TaskEvent.update?).foldl
        (fun queue update => queue.push queueName update.payload) c.queue⟩ := by
  induction events generalizing c with
  | nil => rfl
  | cons event rest ih =>
    cases event with
    | created category data now => exact ih _
    | ended task outcome now => exact ih _

theorem waitingPushed (updates : List TaskUpdate) (queue : MemoryQueue) :
    (updates.foldl (fun queue update => queue.push queueName update.payload) queue).waiting queueName =
      queue.waiting queueName ++ updates.map TaskUpdate.payload := by
  induction updates generalizing queue with
  | nil => simp
  | cons update rest ih => simp [ih, MemoryQueue.waitingPush]

theorem messagesReread (events : List TaskEvent) :
    ((events.filterMap TaskEvent.update?).map TaskUpdate.payload).map TaskUpdate.ofPayload =
      (events.filterMap TaskEvent.update?).map .ok := by
  rw [List.map_map, List.map_inj_left]
  intro update member
  obtain ⟨event, -, told⟩ := List.mem_filterMap.mp member
  cases event with
  | created category data now => cases told
  | ended task outcome now =>
    cases told
    exact TaskUpdate.reportedReread task outcome

theorem settleApplies (now : Int64) (c : Callbacks) {updates : List TaskUpdate}
    (reread : (c.queue.drain queueName).1.map TaskUpdate.ofPayload = updates.map .ok) :
    c.settle queueName now = c.tasks.applyAll now updates :=
  calc c.settle queueName now
      = ((c.queue.drain queueName).1.map TaskUpdate.ofPayload).foldl (applyRead now) c.tasks := List.foldl_map.symm
    _ = (updates.map .ok).foldl (applyRead now) c.tasks := by rw [reread]
    _ = c.tasks.applyAll now updates := List.foldl_map

structure CarriesAll (events : List TaskEvent) (c : Callbacks) (now : Int64) : Prop where
  wrapped : c.tasks = MemoryTasks.empty.after (events.filter TaskEvent.creates)
  messages : (c.queue.drain queueName).1.map TaskUpdate.ofPayload = (events.filterMap TaskEvent.update?).map .ok
  settled : ∀ id, ¬ MemoryTasks.Foreseen id 0 events →
    (c.settle queueName now).undated? id = (MemoryTasks.empty.after events).undated? id

theorem carriesAll (events : List TaskEvent) (now : Int64) :
    CarriesAll queueName events (TaskEvent.performAll (service queueName) events empty).2 now := by
  have messages : ((TaskEvent.performAll (service queueName) events empty).2.queue.drain queueName).1.map
      TaskUpdate.ofPayload = (events.filterMap TaskEvent.update?).map .ok := by
    rw [performedAll, MemoryQueue.drain, waitingPushed]
    exact messagesReread events
  refine ⟨by rw [performedAll]; rfl, messages, fun id unforeseen => ?_⟩
  rw [settleApplies queueName now _ messages, performedAll]
  exact (MemoryTasks.empty.updatesLast now unforeseen).undated

def sampleVdag : Definition where
  name := "leaf"
  version := ⟨"1", "a"⟩
  discoveryTags := []
  controller := .null
  nodes := []
  graph := .empty
  status := .assigned
  assignment := .ofList [(⟨"A"⟩, .block ⟨"b1"⟩), (⟨"S"⟩, .embedded ⟨"other:1-a"⟩)]
  compiled := none

def sampleEvents : List TaskEvent :=
  [.created processingTask .null 1, .ended ⟨"task-1"⟩ (.error (.policy .noRuleUri)) 2,
    .ended ⟨"elsewhere"⟩ (.ok sampleVdag) 3, .created processingTask .null 4, .ended ⟨"task-1"⟩ (.ok sampleVdag) 5]

theorem sampleCarried : ¬ MemoryTasks.Foreseen ⟨"task-1"⟩ 0 sampleEvents ∧
    (((TaskEvent.performAll (service "UPDATES") sampleEvents empty).2.settle "UPDATES" 9).undated? ⟨"task-1"⟩) =
      (MemoryTasks.empty.after sampleEvents).undated? ⟨"task-1"⟩ ∧
    (MemoryTasks.empty.after sampleEvents).undated? ⟨"task-1"⟩ =
      some ⟨⟨"task-1"⟩, processingTask, .null, .completed, Worker.resultData sampleVdag, 1, 0⟩ := by
  have unforeseen : ¬ MemoryTasks.Foreseen ⟨"task-1"⟩ 0 sampleEvents := by decide +kernel
  exact ⟨unforeseen, (carriesAll "UPDATES" sampleEvents 9).settled _ unforeseen, by decide +kernel⟩

end Callbacks

end Vdag
