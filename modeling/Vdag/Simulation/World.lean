import Vdag.Block
import Vdag.Gateway
import Vdag.Ingress
import Vdag.Json.Bytes
import Vdag.Memory.Broker
import Vdag.Memory.Discovery
import Vdag.Memory.Registry
import Vdag.Memory.Search
import Vdag.Memory.Tasks
import Vdag.Simulation.Script

/-! A whole deployment in memory: all services, all queues and any number of blocks, with faults on demand. -/
namespace Vdag

inductive Operation where
  | getVdag
  | createVdag
  | deleteVdag
  | search
  | resolve
  | createTask
  | updateTask
  | pop
  deriving DecidableEq, Repr

structure BlockSetup where
  host : String := "own"
  port : UInt16 := 6379
  connectionCapacity : Nat := 16
  connectionTimeToLive : Option Nat := none
  policyCapacity : Nat := 16
  policyTimeToLive : Option Nat := none
  script : Option Script := none
  deriving DecidableEq, Repr

structure Deployment where
  addresses : AddressBook
  policies : SortedMap String Script
  blocks : SortedMap BlockId BlockSetup
  plainClaim : Bool
  queuedUpdates : Bool

structure World where
  registry : MemoryRegistry
  searches : MemorySearch
  tasks : MemoryTasks
  submissions : MemoryQueue
  broker : MemoryBroker
  loads : Nat
  faults : List (Operation × Failure)
  broken : List String
  memories : SortedMap BlockId (BlockMemory String Script)

abbrev Simulated := StateM World

namespace World

def start (registry : MemoryRegistry) (searches : MemorySearch) : World :=
  ⟨registry, searches, .empty, .empty, .empty, 0, [], [], .empty⟩

def onRegistry {α : Type} (op : StateM MemoryRegistry α) : Simulated α := fun w =>
  let (answer, registry) := op w.registry
  (answer, { w with registry })

def onSearches {α : Type} (op : StateM MemorySearch α) : Simulated α := fun w =>
  let (answer, searches) := op w.searches
  (answer, { w with searches })

def onTasks {α : Type} (op : StateM MemoryTasks α) : Simulated α := fun w =>
  let (answer, tasks) := op w.tasks
  (answer, { w with tasks })

def onBroker {α : Type} (op : StateM MemoryBroker α) : Simulated α := fun w =>
  let (answer, broker) := op w.broker
  (answer, { w with broker })

def arm (operation : Operation) (failure : Failure) (w : World) : World :=
  { w with faults := (operation, failure) :: w.faults.filter (fun fault => fault.1 ≠ operation) }

def checkFault (operation : Operation) : Action Simulated Unit := ExceptT.mk fun w =>
  match w.faults.find? (fun fault => fault.1 = operation) with
  | none => (.ok (), w)
  | some (_, failure) => (.error failure, { w with faults := w.faults.filter (fun fault => fault.1 ≠ operation) })

def guarded {α : Type} (operation : Operation) (action : Action Simulated α) : Action Simulated α := do
  checkFault operation
  action

def checkPush (target : String) : Action Simulated Unit := ExceptT.mk fun w =>
  (if target ∈ w.broken then .error (.transport (.pushing target)) else .ok (), w)

end World

namespace Deployment

open World

def registry (d : Deployment) : Registry Simulated :=
  let memory := MemoryRegistry.service.hoist onRegistry
  let faulty : Registry Simulated := { memory with
    get := fun uri => guarded .getVdag (memory.get uri)
    create := fun vdag => guarded .createVdag (memory.create vdag)
    delete := fun uri => guarded .deleteVdag (memory.delete uri) }
  if d.plainClaim then faulty.withPlainClaim else faulty

def search : SearchPolicy Simulated where
  search rule := do
    let found ← (MemorySearch.search rule).hoist onSearches
    checkFault .search
    return found

def discovery (d : Deployment) : Discovery Simulated where
  resolve adjacency := guarded .resolve (d.addresses.service.resolve adjacency)

def processor (d : Deployment) : Processor Simulated := ⟨d.registry, search, d.discovery⟩

def inputsQueue : String := "INPUTS"

def taskUpdatesQueue : String := "TASK_UPDATES"

/- Clocks stand still: an entry lives for ever or not at all. -/
def clock : Simulated Nat := return 0

def submissionTarget : String := "submission"

def submissionQueue : QueueClient Simulated where
  push queue payload := do
    checkPush submissionTarget
    modify (fun w => { w with submissions := w.submissions.push queue payload })
  pop queue _ := guarded .pop (ExceptT.mk fun w =>
    let (payload, submissions) := w.submissions.pop queue
    (.ok payload, { w with submissions }))

def tasks (d : Deployment) : TaskStore Simulated :=
  let memory : TaskStore Simulated := {
    create := fun category data => guarded .createTask ((MemoryTasks.create 0 category data).hoist onTasks)
    update := fun change => guarded .updateTask ((MemoryTasks.update 0 change).hoist onTasks)
    get := fun id => (MemoryTasks.get id).hoist onTasks }
  if d.queuedUpdates then memory.withQueuedUpdates submissionQueue taskUpdatesQueue else memory

def desk (d : Deployment) : SubmissionDesk Simulated := ⟨d.tasks, submissionQueue, inputsQueue⟩

def worker (d : Deployment) : Worker Simulated := ⟨d.processor, d.tasks⟩

def gateway (d : Deployment) : Gateway Simulated := ⟨d.processor, d.desk⟩

def setup (d : Deployment) (block : BlockId) : BlockSetup := (d.blocks.find? block).getD {}

def ownEndpoint (d : Deployment) (block : BlockId) : String :=
  Destination.endpointOf (d.setup block).host (d.setup block).port

def ownTarget (block : BlockId) : String := "own:" ++ block.text

def ownQueue (d : Deployment) (block : BlockId) : QueueClient Simulated where
  push queue payload := do
    checkPush (ownTarget block)
    (MemoryBroker.deliver (d.ownEndpoint block) queue payload).hoist onBroker
  pop queue _ := guarded .pop (ExceptT.mk fun w =>
    let (payload, broker) := w.broker.pop (d.ownEndpoint block) queue
    (.ok payload, { w with broker }))

def connector : Connector Simulated String where
  connect d := (MemoryBroker.connect d).hoist onBroker
  push endpoint queue payload := do
    checkPush endpoint
    (MemoryBroker.deliver endpoint queue payload).hoist onBroker

def policyService (d : Deployment) : PolicyService Simulated Script where
  load rule := ExceptT.mk fun w =>
    (match d.policies.find? rule.uri with
      | some script => .ok script
      | none => .error (.policy (.unknownRule rule.uri)),
      { w with loads := w.loads + 1 })
  evaluate script input := Action.ofOutcome (script.run input)

def work (d : Deployment) (block : BlockId) (packet : Packet) : Action Simulated Packet :=
  match (d.setup block).script with
  | some script => Action.ofOutcome (script.work packet)
  | none => echo packet

def block (d : Deployment) (id : BlockId) : Block Simulated String Script where
  input := d.ownQueue id
  work := d.work id
  policies := ⟨id, d.registry, d.policyService, clock⟩
  router := ⟨id, d.ownQueue id, ⟨connector, clock⟩⟩

def freshMemory (setup : BlockSetup) : BlockMemory String Script :=
  ⟨.new setup.connectionCapacity setup.connectionTimeToLive, .new setup.policyCapacity setup.policyTimeToLive⟩

def runBlock {α : Type} (d : Deployment) (id : BlockId)
    (step : Block Simulated String Script → StateT (BlockMemory String Script) Simulated α) :
    Simulated α := fun w =>
  let memory := (w.memories.find? id).getD (freshMemory (d.setup id))
  let ((answer, memory), w) := (step (d.block id)).run memory w
  (answer, { w with memories := w.memories.insert id memory })

def runStep {α : Type} (d : Deployment) (id : BlockId)
    (step : Block Simulated String Script → Block.Step Simulated String Script α) : Action Simulated α :=
  ExceptT.mk (d.runBlock id (fun block => (step block).run))

def looks : Nat := 4096

def waitingRoom : Nat := 64

def listen (heard : Bool) : Simulated (List SubmissionMessage × Bool) :=
  Intake.listen submissionQueue inputsQueue looks 30 (if heard then some waitingRoom else none) []

def serveBlock (d : Deployment) (id : BlockId) : Simulated Unit :=
  d.runBlock id (fun block => block.serve looks 5)

def enqueue (d : Deployment) (id : BlockId) (payload : Bytes) : Simulated Unit :=
  modify (fun w => { w with broker := w.broker.push (d.ownEndpoint id) id.inputQueue payload })

def workOnce (d : Deployment) : Action Simulated (Option TaskUpdate) := do
  match ← submissionQueue.pop inputsQueue 0 with
  | none => return none
  | some payload => do
      let submission ← Action.ofOutcome (Json.readBytes SubmissionMessage.read payload).outcome
      return some (← ExceptT.lift (d.worker.process submission))

def pushSubmission (queue : String) (payload : Bytes) : Action Simulated Nat := do
  submissionQueue.push queue payload
  return (← get).submissions.length queue

def drainSubmissions (queue : String) : Simulated (List Bytes) := fun w =>
  let (payloads, submissions) := w.submissions.drain queue
  (payloads, { w with submissions })

def drainServer (endpoint queue : String) : Simulated (List Bytes × Nat) := fun w =>
  let (payloads, broker) := w.broker.drain endpoint queue
  ((payloads, (broker.server endpoint).length queue), { w with broker })

def cutOff (endpoint : String) : Simulated Unit :=
  modify (fun w => { w with broker := w.broker.cutOff endpoint })

def breakPush (target : String) : Simulated Unit := modify (fun w => { w with broken := target :: w.broken })

def mendPush (target : String) : Simulated Unit :=
  modify (fun w => { w with broken := w.broken.filter (· ≠ target) })

def connect (d : Deployment) (id : BlockId) (destination : Destination) : Simulated (Outcome Unit × Nat) :=
  d.runBlock id (fun block memory => do
    let (outcome, connections) ← (block.router.dialer.connection destination).run memory.connections
    return ((outcome.map (fun _ => ()), connections.size), { memory with connections }))

def disconnect (d : Deployment) (id : BlockId) (destination : Destination) : Simulated Nat :=
  d.runBlock id (fun _ memory =>
    let connections := Dialer.drop destination memory.connections
    return (connections.size, { memory with connections }))

def forget (d : Deployment) (id : BlockId) (uri : VdagUri) : Simulated Nat :=
  d.runBlock id (fun _ memory =>
    let (count, policies) := PolicyBook.invalidate uri memory.policies
    return (count, { memory with policies }))

def policyFor (d : Deployment) (id : BlockId) (uri : VdagUri) (stage : Stage) : Action Simulated (Option Script) :=
  d.runStep id (fun block => Block.onPolicies (block.policies.policyFor uri stage))

def compiledGraph (d : Deployment) (uri : VdagUri) : Action Simulated CompiledGraph := do
  match ← d.registry.get uri with
  | none => Action.fail (.notFound (.reported uri.text))
  | some vdag => match vdag.compiled with
      | none => Action.fail (.notFound (.reported "no compiled graph"))
      | some compiled => return compiled

def ingest (d : Deployment) (entry : Entry) (sequence : Int64) : Simulated Entry := do
  let packet := { entry.packet with sequence }
  modify (fun w => { w with broker := w.broker.push (d.ownEndpoint entry.head) entry.queue packet.encode })
  return { entry with packet }

end Deployment

end Vdag
