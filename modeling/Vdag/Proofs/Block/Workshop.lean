import Vdag.Block
import Vdag.Proofs.Block.Policies
import Vdag.Proofs.Broker

/-! Blocks in memory: their records in a registry, their queues at a broker. Work, policies and clocks are whatever a
block brings along; they keep a state of their own, and have no way to reach the registry or the broker. -/
namespace Vdag
open Vdag.Action

abbrev Plant (ω : Type) := MemoryRegistry × MemoryBroker × ω

abbrev Shop (ω : Type) := StateM (Plant ω)

structure Workshop (ω π : Type) where
  block : BlockId
  inbox : String
  outbox : String
  work : Packet → Action (StateM ω) Packet
  policies : PolicyService (StateM ω) π
  clock : StateM ω Nat

namespace MemoryBroker

def client (endpoint : String) : QueueClient (StateM MemoryBroker) where
  push := deliver endpoint
  pop queue _ := ExceptT.mk fun b =>
    let (payload, after) := b.pop endpoint queue
    (.ok payload, after)

end MemoryBroker

namespace Workshop

variable {ω π : Type}

def onBroker {α : Type} (op : StateM MemoryBroker α) : Shop ω α := fun plant =>
  let (answer, broker) := op plant.2.1
  (answer, (plant.1, broker, plant.2.2))

def onRest {α : Type} (op : StateM ω α) : StateM (MemoryBroker × ω) α := fun plant =>
  let (answer, rest) := op plant.2
  (answer, (plant.1, rest))

def queue (endpoint : String) : QueueClient (Shop ω) where
  push queue payload := ((MemoryBroker.client endpoint).push queue payload).hoist onBroker
  pop queue seconds := ((MemoryBroker.client endpoint).pop queue seconds).hoist onBroker

def connector : Connector (Shop ω) String where
  connect d := (MemoryBroker.connect d).hoist onBroker
  push endpoint queue payload := (MemoryBroker.deliver endpoint queue payload).hoist onBroker

variable (w : Workshop ω π)

def shelf : PolicyService (StateM (MemoryBroker × ω)) π where
  load rule := (w.policies.load rule).hoist onRest
  evaluate policy input := (w.policies.evaluate policy input).hoist onRest

def dialer : Dialer (Shop ω) String := ⟨connector, Surroundings.onOutside (onRest w.clock)⟩

def runtime : Block (Shop ω) String π where
  input := queue w.inbox
  work packet := ((w.work packet).hoist onRest).hoist Surroundings.onOutside
  policies := PolicyBook.hosted w.block w.shelf (onRest w.clock)
  router := ⟨w.block, queue w.outbox, w.dialer⟩

def inputQueue : String := w.block.inputQueue

/- What a run of a block may do to what blocks share: put letters into queues, and look records up. -/
structure Went (letters : List Letter) (before after : Plant ω) : Prop where
  records : ∀ uri, after.1.stored? uri = before.1.stored? uri
  posted : MemoryBroker.Posted letters before.2.1 after.2.1

theorem Went.refl (plant : Plant ω) : Went [] plant plant := ⟨fun _ => rfl, .refl _⟩

theorem Went.trans {first later : List Letter} {a b c : Plant ω} (went : Went first a b) (went' : Went later b c) :
    Went (first ++ later) a c :=
  ⟨fun uri => (went'.records uri).trans (went.records uri), went.posted.trans went'.posted⟩

end Workshop

structure Told (α : Type) where
  outcome : Outcome α
  letters : List Letter

namespace Told

variable {α β : Type}

def ofOutcome (outcome : Outcome α) : Told α := ⟨outcome, []⟩

def bind (told : Told α) (next : α → Told β) : Told β :=
  match told.outcome with
  | .ok a => ⟨(next a).outcome, told.letters ++ (next a).letters⟩
  | .error failure => ⟨.error failure, told.letters⟩

instance : Monad Told where
  pure a := ofOutcome (.ok a)
  bind := bind

theorem ofOutcomeBind (outcome : Outcome α) (next : α → Outcome β) :
    (ofOutcome outcome >>= fun a => ofOutcome (next a)) = ofOutcome (outcome >>= next) := by
  cases outcome <;> rfl

theorem ofOutcomeAssoc {γ : Type} (outcome : Outcome α) (next : α → Outcome β) (last : β → Told γ) :
    (ofOutcome (outcome >>= next) >>= last) = ofOutcome outcome >>= fun a => ofOutcome (next a) >>= last := by
  cases outcome <;> rfl

def caught (told : Told α) : Told (Outcome α) := ⟨.ok told.outcome, told.letters⟩

theorem caughtBind (told : Told α) (next : Outcome α → Told β) :
    (told.caught >>= next) = ⟨(next told.outcome).outcome, told.letters ++ (next told.outcome).letters⟩ := rfl

end Told

structure Habits (π : Type) where
  work : Packet → Outcome Packet
  load : PolicyRule → Outcome π
  evaluate : π → Json.Value → Outcome Json.Value

structure Workshop.Steady {ω π : Type} (w : Workshop ω π) (habits : Habits π) : Prop where
  work : ∀ packet s, (on (w.work packet) s).1 = habits.work packet
  load : ∀ rule s, (on (w.policies.load rule) s).1 = habits.load rule
  evaluate : ∀ policy input s, (on (w.policies.evaluate policy input) s).1 = habits.evaluate policy input

namespace Habits

variable {π : Type} (habits : Habits π)

def loadRule : Option PolicyRule → Outcome (Option π)
  | none => .ok none
  | some rule => (habits.load rule).map some

def loadNode (node : Node) : Outcome (Option π × Option π) := do
  let before ← habits.loadRule node.preprocessingRule
  let after ← habits.loadRule node.postprocessingRule
  .ok (before, after)

def rules (block : BlockId) (uri : VdagUri) (stored : Option Definition) : Outcome (Option π × Option π) := do
  match ← PolicyBook.nodeOf block uri stored with
  | none => .ok (none, none)
  | some node => habits.loadNode node

def apply (block : BlockId) (records : VdagUri → Option Definition) (session : Session) (stage : Stage)
    (packet : Packet) : Outcome Packet :=
  match session.uri? with
  | none => .ok packet
  | some uri => do
    match ← (habits.rules block uri (records uri)).map (PolicyBook.select stage) with
    | none => .ok packet
    | some policy => PolicyBook.packetOf stage uri (← habits.evaluate policy packet.wrapped)

def prepare (block : BlockId) (records : VdagUri → Option Definition) (payload : Bytes) : Outcome Packet := do
  let packet ← Packet.decode payload
  let session ← Session.parse packet.session
  let prepared ← habits.apply block records session .preprocessing packet
  let output ← habits.work prepared
  habits.apply block records session .postprocessing output

end Habits

namespace Destination

def reached (unreachable : List String) (payload : Bytes) (d : Destination) : Told Unit :=
  if d.port = 0 then .ofOutcome (.error (.transport (.unsupportedPort d.host)))
  else if d.endpoint ∈ unreachable then .ofOutcome (.error (.transport (.refused d.endpoint)))
  else ⟨.ok (), [⟨d.endpoint, d.queue, payload⟩]⟩

def allReached (unreachable : List String) (payload : Bytes) : List Destination → ForwardReport → Told ForwardReport
  | [], report => return report
  | d :: rest, report => do
      let outcome ← (d.reached unreachable payload).caught
      allReached unreachable payload rest (report.add d.label outcome)

def inReach (unreachable : List String) (d : Destination) : Bool := d.port ≠ 0 ∧ d.endpoint ∉ unreachable

def fault (d : Destination) : Failure :=
  if d.port = 0 then .transport (.unsupportedPort d.host) else .transport (.refused d.endpoint)

def letter (payload : Bytes) (d : Destination) : Letter := ⟨d.endpoint, d.queue, payload⟩

theorem reachedTells (unreachable : List String) (payload : Bytes) (d : Destination) :
    d.reached unreachable payload =
      if d.inReach unreachable then ⟨.ok (), [d.letter payload]⟩ else .ofOutcome (.error d.fault) := by
  rw [reached, inReach, fault, letter]
  by_cases port : d.port = 0
  · simp [port]
  · by_cases cut : d.endpoint ∈ unreachable
    · simp [port, cut]
    · simp [port, cut]

theorem allReachedTells (unreachable : List String) (payload : Bytes) (destinations : List Destination)
    (report : ForwardReport) :
    allReached unreachable payload destinations report =
      ⟨.ok ⟨report.delivered ++ (destinations.filter (inReach unreachable)).map label,
        report.failed ++ (destinations.filter (fun d => !d.inReach unreachable)).map (fun d => (d.label, d.fault))⟩,
        (destinations.filter (inReach unreachable)).map (letter payload)⟩ := by
  induction destinations generalizing report with
  | nil => simp only [List.filter_nil, List.map_nil, List.append_nil]; rfl
  | cons d rest ih =>
    rw [allReached, Told.caughtBind, reachedTells, ih]
    by_cases near : d.inReach unreachable
    · simp [near, ForwardReport.add]
    · simp [near, ForwardReport.add, Told.ofOutcome]

end Destination

namespace Workshop

variable {ω π : Type} (w : Workshop ω π)

def forwarded (unreachable : List String) (packet : Packet) : Told ForwardReport := do
  match ← Told.ofOutcome (nextHops w.block packet) with
  | none => ⟨.ok (ForwardReport.blank.add Destination.defaultQueue (.ok ())),
      [⟨w.outbox, Destination.defaultQueue, packet.encode⟩]⟩
  | some destinations => Destination.allReached unreachable packet.encode destinations .blank

def handled (habits : Habits π) (records : VdagUri → Option Definition) (unreachable : List String)
    (payload : Bytes) : Told ForwardReport := do
  w.forwarded unreachable (← Told.ofOutcome (habits.prepare w.block records payload))

end Workshop

end Vdag
