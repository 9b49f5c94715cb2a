import Vdag.Proofs.Block.Isolation
import Vdag.Proofs.BlockGraph.Paths

/-! The blocks of a graph at work, served one at a time in any order. Whatever they have taken and whatever waits, every
block has got one packet for each that was taken by a block before it; so when nothing waits any more, each has taken as
many as there are ways to it. -/
namespace Vdag
open Vdag.Action

structure Crew (ω π : Type) where
  shop : BlockId → Workshop ω π
  limits : BlockId → MemoryLimits
  own : ∀ block, (shop block).block = block

structure Floor (ω π : Type) where
  plant : Plant ω
  memory : BlockId → BlockMemory String π
  taken : BlockId → Nat

inductive Move where
  | serve (block : BlockId)
  | file (registry : MemoryRegistry)

theorem BlockId.inputQueueInjective {a b : BlockId} (same : a.inputQueue = b.inputQueue) : a = b :=
  Id.textInjective (String.append_left_inj _ |>.mp same)

namespace Crew

variable {ω π : Type} (crew : Crew ω π)

def start (plant : Plant ω) : Floor ω π := ⟨plant, fun block => (crew.limits block).fresh, fun _ => 0⟩

def look (floor : Floor ω π) (block : BlockId) : Outcome Bool × Workshop.State ω π :=
  on (joined (crew.shop block).runtime.takeOne) (floor.plant, floor.memory block)

def took : Outcome Bool → Nat
  | .ok true => 1
  | _ => 0

def serve (floor : Floor ω π) (block : BlockId) : Floor ω π where
  plant := (crew.look floor block).2.1
  memory := Function.update floor.memory block (crew.look floor block).2.2
  taken other := floor.taken other + if other = block then took (crew.look floor block).1 else 0

def move (floor : Floor ω π) : Move → Floor ω π
  | .serve block => crew.serve floor block
  | .file registry => { floor with plant := (registry, floor.plant.2) }

def after (floor : Floor ω π) (schedule : Nat → Move) : Nat → Floor ω π
  | 0 => floor
  | time + 1 => crew.move (after floor schedule time) (schedule time)

def waiting (floor : Floor ω π) (block : BlockId) : List Bytes := (crew.shop block).waiting floor.plant

variable (graph : BlockGraph)

def Idle (floor : Floor ω π) : Prop := ∀ block ∈ graph.blocks, crew.waiting floor block = []

def Outer (endpoint queue : String) : Prop :=
  ∀ block ∈ graph.blocks, ¬ (endpoint = (crew.shop block).inbox ∧ queue = block.inputQueue)

def Proper (standing : Standing) : Move → Prop
  | .serve block => block ∈ graph.blocks
  | .file registry => ∀ uri, standing.governs uri → registry.stored? uri = standing.records uri

/- What blocks do with one payload: each passes it on along its edges, and those without any pass it out. -/
structure Routes (standing : Standing) (habits : Habits π) (payload : Bytes) (out : String → String → Nat) : Prop where
  relies : ∀ block ∈ graph.blocks, standing.Relies (crew.shop block) habits
  governed : standing.Governs payload
  passed : ∀ block ∈ graph.blocks, ∀ other ∈ graph.blocks,
    mail ((crew.shop block).handled habits standing.records standing.unreachable payload).letters
      (crew.shop other).inbox other.inputQueue = List.replicate (if block ∈ graph.parents other then 1 else 0) payload
  left : ∀ block ∈ graph.blocks, ∀ endpoint queue, crew.Outer graph endpoint queue →
    mail ((crew.shop block).handled habits standing.records standing.unreachable payload).letters endpoint queue =
      List.replicate (if block ∈ graph.tail.toFinset then out endpoint queue else 0) payload

/- Where a payload that entered at the head has got to. -/
structure Flowing (standing : Standing) (habits : Habits π) (payload : Bytes) (out : String → String → Nat)
    (before : String → String → List Bytes) (floor : Floor ω π) : Prop where
  found : standing.At floor.plant
  tidy : ∀ block ∈ graph.blocks, standing.Tidy habits block (floor.memory block)
  queued : ∀ block ∈ graph.blocks, ∃ count, crew.waiting floor block = List.replicate count payload ∧
    count + floor.taken block =
      (if block = graph.head then 1 else 0) + ∑ parent ∈ graph.parents block, floor.taken parent
  left : ∀ endpoint queue, crew.Outer graph endpoint queue → floor.plant.2.1.waiting endpoint queue =
    before endpoint queue ++
      List.replicate (out endpoint queue * ∑ block ∈ graph.tail.toFinset, floor.taken block) payload

variable {crew graph} {standing : Standing} {habits : Habits π} {payload : Bytes} {out : String → String → Nat}
  {before : String → String → List Bytes} {floor : Floor ω π}

theorem waitingAt (crew : Crew ω π) (floor : Floor ω π) (block : BlockId) :
    crew.waiting floor block = floor.plant.2.1.waiting (crew.shop block).inbox block.inputQueue := by
  rw [waiting, Workshop.waiting, Workshop.inputQueue, crew.own]

theorem sumTaken (blocks : Finset BlockId) (taken : BlockId → Nat) (block : BlockId) (count : Nat) :
    ∑ other ∈ blocks, (taken other + if other = block then count else 0) =
      ∑ other ∈ blocks, taken other + if block ∈ blocks then count else 0 := by
  rw [Finset.sum_add_distrib, Finset.sum_ite_eq']

theorem looksIdle {block : BlockId} (empty : crew.waiting floor block = []) :
    crew.look floor block = (.ok false, ((crew.shop block).popped floor.plant, floor.memory block)) :=
  Workshop.takesNone empty _

theorem Flowing.lookTakesOne (flowing : crew.Flowing graph standing habits payload out before floor)
    (routes : crew.Routes graph standing habits payload out) {block : BlockId} (member : block ∈ graph.blocks)
    {count : Nat} (queued : crew.waiting floor block = List.replicate (count + 1) payload) :
    ∃ plant memory, crew.look floor block = (.ok true, (plant, memory)) ∧
      Workshop.Went ((crew.shop block).handled habits standing.records standing.unreachable payload).letters
        ((crew.shop block).popped floor.plant) plant ∧ standing.Tidy habits block memory := by
  have tidy : standing.Tidy habits (crew.shop block).block (floor.memory block) := by
    rw [crew.own]
    exact flowing.tidy block member
  have taken := Workshop.takesNext (routes.relies block member) flowing.found tidy queued routes.governed
  rw [crew.own] at taken
  exact taken

theorem waitingPopped (crew : Crew ω π) (plant : Plant ω) (block : BlockId) (endpoint queue : String) :
    ((crew.shop block).popped plant).2.1.waiting endpoint queue =
      if endpoint = (crew.shop block).inbox ∧ queue = block.inputQueue then (plant.2.1.waiting endpoint queue).tail
      else plant.2.1.waiting endpoint queue := by
  rw [Workshop.waitingPopped, Workshop.inputQueue, crew.own]

theorem ownQueue (crew : Crew ω π) {other block : BlockId} :
    ((crew.shop other).inbox = (crew.shop block).inbox ∧ other.inputQueue = block.inputQueue) ↔ other = block :=
  ⟨fun same => BlockId.inputQueueInjective same.2, fun same => same ▸ ⟨rfl, rfl⟩⟩

def enter (crew : Crew ω π) (plant : Plant ω) (block : BlockId) (payload : Bytes) : Plant ω :=
  (plant.1, plant.2.1.push (crew.shop block).inbox block.inputQueue payload, plant.2.2)

theorem startFlowing {plant : Plant ω} (found : standing.At plant)
    (empty : ∀ block ∈ graph.blocks, (crew.shop block).waiting plant = []) (head : graph.head ∈ graph.blocks) :
    crew.Flowing graph standing habits payload out plant.2.1.waiting
    (crew.start (crew.enter plant graph.head payload)) where
  found := ⟨found.records, found.unreachable⟩
  tidy block _ := Workshop.freshTidy _ _
  queued block member := by
    have nothing := empty block member
    rw [Workshop.waiting, Workshop.inputQueue, crew.own] at nothing
    refine ⟨if block = graph.head then 1 else 0, ?_, by simp [start]⟩
    rw [waitingAt, start, enter]
    dsimp only
    rw [MemoryBroker.waitingPush, nothing, if_congr crew.ownQueue rfl rfl]
    split <;> rfl
  left endpoint queue outer := by
    rw [start, enter]
    dsimp only
    rw [MemoryBroker.waitingPush, if_neg (outer _ head)]
    simp

theorem Flowing.keptByFiling (flowing : crew.Flowing graph standing habits payload out before floor)
    {registry : MemoryRegistry} (stays : ∀ uri, standing.governs uri → registry.stored? uri = standing.records uri) :
    crew.Flowing graph standing habits payload out before (crew.move floor (.file registry)) where
  found := ⟨stays, flowing.found.unreachable⟩
  tidy := flowing.tidy
  queued := flowing.queued
  left := flowing.left

theorem Flowing.serveIdle (flowing : crew.Flowing graph standing habits payload out before floor) {block : BlockId}
    (empty : crew.waiting floor block = []) :
    crew.Flowing graph standing habits payload out before (crew.serve floor block) := by
  have looked := looksIdle empty
  have taken : (crew.serve floor block).taken = floor.taken := by
    funext other
    rw [serve, looked]
    dsimp only [took]
    rw [ite_self, Nat.add_zero]
  have plant : (crew.serve floor block).plant = (crew.shop block).popped floor.plant := by rw [serve, looked]
  have memory : (crew.serve floor block).memory = floor.memory := by
    rw [serve, looked]
    exact Function.update_eq_self block floor.memory
  have same : ∀ endpoint queue, (crew.serve floor block).plant.2.1.waiting endpoint queue =
      floor.plant.2.1.waiting endpoint queue := by
    intro endpoint queue
    rw [plant, crew.waitingPopped]
    split
    · rename_i own
      obtain ⟨rfl, rfl⟩ := own
      rw [waitingAt] at empty
      rw [empty]
      rfl
    · rfl
  refine ⟨plant ▸ Workshop.poppedAt flowing.found, memory ▸ flowing.tidy, fun other member => ?_,
    fun endpoint queue outer => ?_⟩
  · rw [taken, waitingAt, same, ← waitingAt]
    exact flowing.queued other member
  · rw [taken, same]
    exact flowing.left endpoint queue outer

theorem Flowing.serveNext (flowing : crew.Flowing graph standing habits payload out before floor)
    (routes : crew.Routes graph standing habits payload out) {block : BlockId} (member : block ∈ graph.blocks)
    {count : Nat} (next : crew.waiting floor block = List.replicate (count + 1) payload) :
    crew.Flowing graph standing habits payload out before (crew.serve floor block) := by
  obtain ⟨plant, memory, looked, went, tidy⟩ := flowing.lookTakesOne routes member next
  have served : crew.serve floor block = ⟨plant, Function.update floor.memory block memory,
      fun other => floor.taken other + if other = block then 1 else 0⟩ := by rw [serve, looked]; rfl
  rw [served]
  refine ⟨(Workshop.poppedAt flowing.found).stillAt went, fun other listed => ?_, fun other listed => ?_,
    fun endpoint queue outer => ?_⟩
  · dsimp only
    by_cases own : other = block
    · subst own
      rw [Function.update_self]
      exact tidy
    · rw [Function.update_of_ne own]
      exact flowing.tidy other listed
  · obtain ⟨waits, same, shared⟩ := flowing.queued other listed
    dsimp only
    rw [waitingAt, went.posted.waiting, crew.waitingPopped, routes.passed block member other listed, ← waitingAt,
      sumTaken, if_congr crew.ownQueue rfl rfl]
    -- One payload is gone from the queue of the block that was served, and from no other queue.
    by_cases own : other = block
    · subst own
      rw [if_pos rfl, if_pos rfl, next, List.replicate_succ, List.tail_cons, List.replicate_append_replicate]
      have waits : count + 1 = waits := by simpa using congrArg List.length (next.symm.trans same)
      exact ⟨_, rfl, by omega⟩
    · rw [if_neg own, if_neg own, same, List.replicate_append_replicate]
      exact ⟨_, rfl, by omega⟩
  · dsimp only
    rw [went.posted.waiting, crew.waitingPopped, if_neg (outer block member), flowing.left endpoint queue outer,
      routes.left block member endpoint queue outer, List.append_assoc, List.replicate_append_replicate, sumTaken,
        Nat.mul_add]
    split
    · rw [Nat.mul_one]
    · rw [Nat.mul_zero]

theorem Flowing.keptByMove (flowing : crew.Flowing graph standing habits payload out before floor)
    (routes : crew.Routes graph standing habits payload out) {move : Move} (proper : Proper graph standing move) :
    crew.Flowing graph standing habits payload out before (crew.move floor move) := by
  cases move with
  | file registry => exact flowing.keptByFiling proper
  | serve block =>
    obtain ⟨count, queued, _⟩ := flowing.queued block proper
    cases count with
    | zero => exact flowing.serveIdle queued
    | succ count => exact flowing.serveNext routes proper queued

theorem Flowing.keptAfter (flowing : crew.Flowing graph standing habits payload out before floor)
    (routes : crew.Routes graph standing habits payload out) {schedule : Nat → Move}
    (proper : ∀ time, Proper graph standing (schedule time)) (time : Nat) :
    crew.Flowing graph standing habits payload out before (crew.after floor schedule time) := by
  induction time with
  | zero => exact flowing
  | succ time ih => exact ih.keptByMove routes (proper time)

end Crew

end Vdag
