import Vdag.Proofs.Block.Connections
import Vdag.Proofs.Block.Workshop
import Vdag.Proofs.RecencyCache

/-! What a block remembers makes no difference: run with any memory that earlier packets left, it answers and sends
what one without a memory would. -/
namespace Vdag
open Vdag.Action

structure Standing where
  records : VdagUri → Option Definition
  governs : VdagUri → Prop
  unreachable : List String

namespace Standing

variable {ω : Type} {standing : Standing}

structure At (standing : Standing) (plant : Plant ω) : Prop where
  records : ∀ uri, standing.governs uri → plant.1.stored? uri = standing.records uri
  unreachable : plant.2.1.unreachable = standing.unreachable

theorem At.stillAt {before after : Plant ω} {letters : List Letter} (found : standing.At before)
    (went : Workshop.Went letters before after) : standing.At after :=
  ⟨fun uri governed => (went.records uri).trans (found.records uri governed),
    went.posted.unreachable.trans found.unreachable⟩

/- A run as it is told, wherever the memory is one that earlier runs may have left. -/
def Runs {κ α : Type} (standing : Standing) (holds : κ → Prop) (action : Action (StateT κ (Shop ω)) α)
    (told : Told α) : Prop :=
  ∀ plant memory, standing.At plant → holds memory → ∃ plant' memory',
    on (joined action) (plant, memory) = (told.outcome, (plant', memory')) ∧
      Workshop.Went told.letters plant plant' ∧ holds memory'

namespace Runs

variable {κ α β : Type} {holds : κ → Prop}

theorem outcomeRuns (outcome : Outcome α) :
    Runs standing holds (ofOutcome outcome : Action (StateT κ (Shop ω)) α) (.ofOutcome outcome) :=
  fun plant memory _ kept => ⟨plant, memory, rfl, .refl plant, kept⟩

theorem bind {action : Action (StateT κ (Shop ω)) α} {next : α → Action (StateT κ (Shop ω)) β} {told : Told α}
    {later : α → Told β} (first : Runs standing holds action told)
    (rest : ∀ a, told.outcome = .ok a → Runs standing holds (next a) (later a)) :
    Runs standing holds (action >>= next) (told >>= later) := by
  intro plant memory found kept
  obtain ⟨plant', memory', ran, went, kept⟩ := first plant memory found kept
  rw [onJoinedBind, ran]
  change ∃ _ _, _ = ((told.bind later).outcome, _) ∧ Workshop.Went (told.bind later).letters _ _ ∧ _
  rw [Told.bind]
  cases ended : told.outcome with
  | error failure => exact ⟨plant', memory', rfl, went, kept⟩
  | ok a =>
    obtain ⟨plant'', memory'', ran', went', kept⟩ := rest a ended plant' memory' (found.stillAt went) kept
    exact ⟨plant'', memory'', ran', went.trans went', kept⟩

theorem silentThen {action : Action (StateT κ (Shop ω)) α} {next : α → Action (StateT κ (Shop ω)) β}
    {answer : Outcome α} {later : α → Outcome β} (first : Runs standing holds action (.ofOutcome answer))
    (rest : ∀ a, Runs standing holds (next a) (.ofOutcome (later a))) :
    Runs standing holds (action >>= next) (.ofOutcome (answer >>= later)) := by
  rw [← Told.ofOutcomeBind]
  exact first.bind (fun a _ => rest a)

theorem caughtRuns {action : Action (StateT κ (Shop ω)) α} {told : Told α} (runs : Runs standing holds action told) :
    Runs standing holds (ExceptT.lift action.run) told.caught := by
  intro plant memory found kept
  obtain ⟨plant', memory', ran, went, kept⟩ := runs plant memory found kept
  refine ⟨plant', memory', ?_, went, kept⟩
  change ((.ok (on (joined action) (plant, memory)).1, (on (joined action) (plant, memory)).2) : Outcome _ × _) = _
  rw [ran]
  rfl

theorem restRuns {action : Action (StateM ω) α} {answer : Outcome α} (steady : ∀ s, (on action s).1 = answer) :
    Runs standing holds ((((action.hoist Workshop.onRest).hoist Surroundings.onOutside).hoist StateT.lift) :
      Action (StateT κ (Shop ω)) α) (.ofOutcome answer) := by
  intro plant memory _ kept
  obtain ⟨r, b, s⟩ := plant
  refine ⟨(r, b, (on action s).2), memory, ?_, ⟨fun _ => rfl, .refl b⟩, kept⟩
  change ((on action s).1, _) = _
  rw [steady]
  rfl

end Runs

section Connections

variable {π : Type} (w : Workshop ω π)

def Dialled (standing : Standing) (cache : ConnectionCache String) : Prop :=
  cache.Holds (fun endpoint connection => connection = endpoint ∧ endpoint ∉ standing.unreachable)

theorem runsConnection (d : Destination) :
    Runs standing standing.Dialled (w.dialer.connection d) (.ofOutcome
      (if d.port = 0 then .error (.transport (.unsupportedPort d.host))
      else if d.endpoint ∈ standing.unreachable then .error (.transport (.refused d.endpoint))
      else .ok d.endpoint)) := by
  intro plant cache found kept
  by_cases port : d.port = 0
  · rw [Dialer.onUnsupported w.dialer port, if_pos port]
    exact ⟨plant, cache, rfl, .refl plant, kept⟩
  · obtain ⟨r, b, s⟩ := plant
    have ticked : w.dialer.clock.run (r, b, s) = ((w.clock.run s).1, (r, b, (w.clock.run s).2)) := rfl
    have dialled : ∀ s, on (w.dialer.connector.connect d) (r, b, s) =
        (if d.endpoint ∈ standing.unreachable then .error (.transport (.refused d.endpoint)) else .ok d.endpoint,
          (r, { b with connects := b.connects + 1 }, s)) := fun _ => by rw [← found.unreachable]; rfl
    rw [Dialer.onConnection w.dialer port, if_neg port, ticked]
    obtain ⟨stays, known⟩ := kept.holdsGet (w.clock.run s).1 d.endpoint
    rcases looked : cache.get (w.clock.run s).1 d.endpoint with ⟨_ | connection, cache'⟩
    · rw [looked] at stays
      dsimp only
      rw [dialled]
      by_cases cut : d.endpoint ∈ standing.unreachable
      · rw [if_pos cut]
        exact ⟨_, _, rfl, ⟨fun _ => rfl, ⟨rfl, fun _ _ => (List.append_nil _).symm⟩⟩, stays⟩
      · rw [if_neg cut]
        exact ⟨_, _, rfl, ⟨fun _ => rfl, ⟨rfl, fun _ _ => (List.append_nil _).symm⟩⟩, stays.holdsInsert _ ⟨rfl, cut⟩⟩
    · rw [looked] at stays known
      obtain ⟨rfl, reachable⟩ := known connection rfl
      rw [if_neg reachable]
      exact ⟨_, _, rfl, ⟨fun _ => rfl, .refl b⟩, stays⟩

theorem runsDeliver (d : Destination) (payload : Bytes) :
    Runs standing standing.Dialled (w.dialer.deliver d payload) (d.reached standing.unreachable payload) := by
  intro plant cache found kept
  obtain ⟨⟨r, b, s⟩, cache', ran, went, kept⟩ := runsConnection w d plant cache found kept
  rw [Dialer.onDeliver, ran, Destination.reached]
  by_cases port : d.port = 0
  · rw [if_pos port, if_pos port]
    exact ⟨_, _, rfl, went, kept⟩
  · rw [if_neg port, if_neg port]
    by_cases cut : d.endpoint ∈ standing.unreachable
    · rw [if_pos cut, if_pos cut]
      exact ⟨_, _, rfl, went, kept⟩
    · rw [if_neg cut, if_neg cut]
      have pushed : on (w.dialer.connector.push d.endpoint d.queue payload) (r, b, s) =
          (.ok (), (r, b.push d.endpoint d.queue payload, s)) := rfl
      dsimp only [Told.ofOutcome]
      rw [pushed]
      refine ⟨_, _, rfl, went.trans ⟨fun _ => rfl, ?_⟩, kept⟩
      exact MemoryBroker.Posted.postedPush b ⟨d.endpoint, d.queue, payload⟩

theorem liftDeliverAll (payload : Bytes) (d : Destination) (rest : List Destination) (report : ForwardReport) :
    (ExceptT.lift (w.runtime.router.deliverAll payload (d :: rest) report) :
      Action (StateT (ConnectionCache String) (Shop ω)) ForwardReport) =
      ExceptT.lift (w.dialer.deliver d payload).run >>= fun outcome =>
        ExceptT.lift (w.runtime.router.deliverAll payload rest (report.add d.label outcome)) :=
  ExceptT.lift_bind _ _

theorem runsDeliverAll (payload : Bytes) (destinations : List Destination) (report : ForwardReport) :
    Runs standing standing.Dialled (ExceptT.lift (w.runtime.router.deliverAll payload destinations report))
      (Destination.allReached standing.unreachable payload destinations report) := by
  induction destinations generalizing report with
  | nil => exact Runs.outcomeRuns (.ok report)
  | cons d rest ih =>
    rw [liftDeliverAll, Destination.allReached]
    exact (runsDeliver w d payload).caughtRuns.bind (fun outcome _ => ih _)

theorem runsForward (packet : Packet) :
    Runs standing standing.Dialled (w.runtime.router.forward packet) (w.forwarded standing.unreachable packet) := by
  refine (Runs.outcomeRuns _).bind (fun hops _ => ?_)
  cases hops with
  | some destinations => exact runsDeliverAll w packet.encode destinations .blank
  | none =>
    intro plant cache _ kept
    obtain ⟨r, b, s⟩ := plant
    refine ⟨(r, b.push w.outbox Destination.defaultQueue packet.encode, s), cache, rfl, ⟨fun _ => rfl, ?_⟩, kept⟩
    exact MemoryBroker.Posted.postedPush b ⟨w.outbox, Destination.defaultQueue, packet.encode⟩

end Connections

section Policies

variable {π : Type} {w : Workshop ω π} {habits : Habits π}

def Quiet {α : Type} (action : Action (StateM (MemoryBroker × ω)) α) (answer : Outcome α) : Prop :=
  ∀ b s, ∃ s', on action (b, s) = (answer, (b, s'))

theorem Quiet.restQuiet {α : Type} {action : Action (StateM ω) α} {answer : Outcome α}
    (steady : ∀ s, (on action s).1 = answer) : Quiet (action.hoist Workshop.onRest) answer :=
  fun _ s => ⟨(on action s).2, Prod.ext (steady s) rfl⟩

theorem Quiet.bind {α β : Type} {action : Action (StateM (MemoryBroker × ω)) α}
    {next : α → Action (StateM (MemoryBroker × ω)) β} {answer : Outcome α} {later : α → Outcome β}
    (first : Quiet action answer) (rest : ∀ a, Quiet (next a) (later a)) :
    Quiet (action >>= next) (answer >>= later) := by
  intro b s
  obtain ⟨s', ran⟩ := first b s
  rw [onBind, ran]
  cases answer with
  | error failure => exact ⟨s', rfl⟩
  | ok a => exact rest a b s'

theorem quietRule (steady : w.Steady habits) (rule : Option PolicyRule) :
    Quiet (w.shelf.loadRule rule) (habits.loadRule rule) := by
  cases rule with
  | none => exact fun b s => ⟨s, rfl⟩
  | some rule => exact (Quiet.restQuiet (steady.load rule)).bind (fun _ _ s => ⟨s, rfl⟩)

theorem quietNode (steady : w.Steady habits) (node : Node) : Quiet (w.shelf.loadNode node) (habits.loadNode node) :=
  (quietRule steady _).bind (fun _ => (quietRule steady _).bind (fun _ _ s => ⟨s, rfl⟩))

/- What a standing block relies on: its own work, the rules that looking itself up comes to, and their answers. -/
structure Relies (standing : Standing) (w : Workshop ω π) (habits : Habits π) : Prop where
  work : ∀ packet s, (on (w.work packet) s).1 = habits.work packet
  load : ∀ {uri r}, standing.governs uri → r.stored? uri = standing.records uri → ∀ b s, ∃ s',
    on (w.runtime.policies.load uri) (r, b, s) =
      (habits.rules w.block uri (standing.records uri), ({ r with lookups := r.lookups + 1 }, b, s'))
  evaluate : ∀ {uri stage rules policy}, standing.governs uri →
    habits.rules w.block uri (standing.records uri) = .ok rules → PolicyBook.select stage rules = some policy →
      ∀ input s, (on (w.policies.evaluate policy input) s).1 = habits.evaluate policy input

theorem loadQuiet {uri : VdagUri} {r : MemoryRegistry}
    (quiet : ∀ node, PolicyBook.nodeOf w.block uri (r.stored? uri) = .ok (some node) →
      Quiet (w.shelf.loadNode node) (habits.loadNode node)) (b : MemoryBroker) (s : ω) :
    ∃ s', on (w.runtime.policies.load uri) (r, b, s) =
      (habits.rules w.block uri (r.stored? uri), ({ r with lookups := r.lookups + 1 }, b, s')) := by
  have loaded : on (w.runtime.policies.load uri) (r, b, s) = _ :=
    PolicyBook.onLoad w.block w.shelf (Workshop.onRest w.clock) uri r (b, s)
  rw [loaded, Habits.rules]
  cases found : PolicyBook.nodeOf w.block uri (r.stored? uri) with
  | error failure => exact ⟨s, rfl⟩
  | ok node =>
    cases node with
    | none => exact ⟨s, rfl⟩
    | some node =>
      obtain ⟨s', ran⟩ := quiet node found b s
      dsimp only
      rw [ran]
      exact ⟨s', rfl⟩

theorem steadyRelies (steady : w.Steady habits) : standing.Relies w habits where
  work := steady.work
  load _ record b s := record ▸ loadQuiet (fun node _ => quietNode steady node) b s
  evaluate _ _ _ := steady.evaluate _

def Remembered (standing : Standing) (habits : Habits π) (block : BlockId) (cache : PolicyCache π) : Prop :=
  cache.Holds (fun key policy => standing.governs key.1 →
    ∃ rules, habits.rules block key.1 (standing.records key.1) = .ok rules ∧ policy = PolicyBook.select key.2 rules)

theorem runsPolicyFor (relies : standing.Relies w habits) {uri : VdagUri} (governed : standing.governs uri)
    (stage : Stage) :
    Runs standing (standing.Remembered habits w.block) (w.runtime.policies.policyFor uri stage)
      (.ofOutcome ((habits.rules w.block uri (standing.records uri)).map (PolicyBook.select stage))) := by
  intro plant cache found kept
  obtain ⟨r, b, s⟩ := plant
  have ticked : ∀ r s, w.runtime.policies.clock.run (r, b, s) = ((w.clock.run s).1, (r, b, (w.clock.run s).2)) :=
    fun _ _ => rfl
  rw [PolicyBook.onPolicyFor, ticked]
  obtain ⟨stays, known⟩ := kept.holdsGet (w.clock.run s).1 (uri, stage)
  rcases looked : cache.get (w.clock.run s).1 (uri, stage) with ⟨_ | policy, cache'⟩
  · rw [looked] at stays
    obtain ⟨s', loaded⟩ := relies.load governed (found.records uri governed) b (w.clock.run s).2
    dsimp only
    rw [loaded]
    cases ended : habits.rules w.block uri (standing.records uri) with
    | error failure => exact ⟨_, _, rfl, ⟨fun _ => rfl, .refl b⟩, stays.invalidateWhere _⟩
    | ok rules =>
      dsimp only
      rw [ticked]
      refine ⟨_, _, rfl, ⟨fun _ => rfl, .refl b⟩, ?_⟩
      exact (stays.holdsInsert _ (fun _ => ⟨rules, ended, rfl⟩)).holdsInsert _ (fun _ => ⟨rules, ended, rfl⟩)
  · rw [looked] at stays known
    obtain ⟨rules, ended, rfl⟩ := known policy rfl governed
    rw [ended]
    exact ⟨_, _, rfl, ⟨fun _ => rfl, .refl b⟩, stays⟩

theorem runsApply (relies : standing.Relies w habits) {session : Session}
    (governed : ∀ uri, session.uri? = some uri → standing.governs uri) (stage : Stage) (packet : Packet) :
    Runs standing (standing.Remembered habits w.block) (w.runtime.policies.apply session stage packet)
      (.ofOutcome (habits.apply w.block standing.records session stage packet)) := by
  rw [PolicyBook.apply, Habits.apply]
  cases named : session.uri? with
  | none => exact Runs.outcomeRuns (.ok packet)
  | some uri =>
    dsimp only
    rw [← Told.ofOutcomeBind]
    refine (runsPolicyFor relies (governed uri named) stage).bind (fun policy selected => ?_)
    cases policy with
    | none => exact Runs.outcomeRuns (.ok packet)
    | some policy =>
      obtain ⟨rules, read, own⟩ := Outcome.mapOk.mp selected
      exact (Runs.restRuns (relies.evaluate (governed uri named) read own packet.wrapped)).silentThen
        (fun output => Runs.outcomeRuns _)

end Policies

section Handling

variable {π : Type} {w : Workshop ω π} {habits : Habits π}

structure Tidy (standing : Standing) (habits : Habits π) (block : BlockId) (memory : BlockMemory String π) : Prop where
  connections : standing.Dialled memory.connections
  policies : standing.Remembered habits block memory.policies

theorem Runs.onPolicies {α : Type} {block : BlockId} {action : Action (StateT (PolicyCache π) (Shop ω)) α}
    {told : Told α} (runs : Runs standing (standing.Remembered habits block) action told) :
    Runs standing (standing.Tidy habits block) (Block.onPolicies action) told := by
  intro plant memory found tidy
  obtain ⟨plant', policies, ran, went, kept⟩ := runs plant memory.policies found tidy.policies
  refine ⟨plant', { memory with policies }, ?_, went, tidy.connections, kept⟩
  have opened : on (joined (Block.onPolicies action)) (plant, memory) =
      ((on (joined action) (plant, memory.policies)).1, ((on (joined action) (plant, memory.policies)).2.1,
        { memory with policies := (on (joined action) (plant, memory.policies)).2.2 })) := rfl
  rw [opened, ran]

theorem Runs.onConnections {α : Type} {block : BlockId} {action : Action (StateT (ConnectionCache String) (Shop ω)) α}
    {told : Told α} (runs : Runs standing standing.Dialled action told) :
    Runs standing (standing.Tidy habits block) (Block.onConnections action) told := by
  intro plant memory found tidy
  obtain ⟨plant', connections, ran, went, kept⟩ := runs plant memory.connections found tidy.connections
  refine ⟨plant', { memory with connections }, ?_, went, kept, tidy.policies⟩
  have opened : on (joined (Block.onConnections action)) (plant, memory) =
      ((on (joined action) (plant, memory.connections)).1, ((on (joined action) (plant, memory.connections)).2.1,
        { memory with connections := (on (joined action) (plant, memory.connections)).2.2 })) := rfl
  rw [opened, ran]

def Governs (standing : Standing) (payload : Bytes) : Prop :=
  ∀ packet session uri, Packet.decode payload = .ok packet → Session.parse packet.session = .ok session →
    session.uri? = some uri → standing.governs uri

theorem runsHandle (relies : standing.Relies w habits) {payload : Bytes} (governed : standing.Governs payload) :
    Runs standing (standing.Tidy habits w.block) (w.runtime.handle payload)
      (w.handled habits standing.records standing.unreachable payload) := by
  rw [Workshop.handled, Habits.prepare, Told.ofOutcomeAssoc, Block.handle]
  refine (Runs.outcomeRuns _).bind (fun packet decoded => ?_)
  rw [Told.ofOutcomeAssoc]
  refine (Runs.outcomeRuns _).bind (fun session parsed => ?_)
  have known : ∀ uri, session.uri? = some uri → standing.governs uri :=
    fun uri => governed packet session uri decoded parsed
  rw [Told.ofOutcomeAssoc]
  refine (runsApply relies known .preprocessing packet).onPolicies.bind (fun prepared _ => ?_)
  rw [Told.ofOutcomeAssoc]
  refine (Runs.restRuns (relies.work prepared)).bind (fun output _ => ?_)
  refine (runsApply relies known .postprocessing output).onPolicies.bind (fun finished _ => ?_)
  exact (runsForward w finished).onConnections

end Handling

end Standing

end Vdag
