import Vdag.Proofs.Addressing.Mirroring
import Vdag.Proofs.Assignment.Inverse
import Vdag.Proofs.Registry.DryRun

/-! The dry runs, as what they come to step by step, and what they say of one vDAG when they are made under the same
circumstances: a whole plan is shown exactly where its parts are, every node has a target of its own, every block an
address, and nothing that runs stands under the name. -/
namespace Vdag
open Vdag.Action MemoryRegistry

def MemoryRegistry.Clear (r : MemoryRegistry) (vdag : Definition) : Prop :=
  ∀ uri stored, vdag.uri? = some uri → r.stored? uri = some stored → stored.status ≠ .assigned ∧ stored.status ≠ .active

theorem Assignment.distinctReverses {assignment : Assignment} (distinct : assignment.Distinct) :
    ∃ inverse, assignment.reverse = .ok inverse := by
  cases reversed : assignment.reverse with
  | ok inverse => exact ⟨inverse, rfl⟩
  | error failure =>
    obtain ⟨first, second, target, _, clash⟩ := reverseClash reversed
    exact absurd (distinct first second target clash.former clash.latter) clash.different

namespace Surroundings

variable {σ : Type} (outside : Surroundings σ)

def graphOf (vdag : Definition) (r : MemoryRegistry) (s : σ) (assignment : Assignment) : Outcome BlockGraph :=
  (on (BlockGraph.build outside.processor.registry vdag.uri? vdag.graph assignment) (r, s)).1

def compiledOf (vdag : Definition) (r : MemoryRegistry) (s : σ) (assignment : Assignment) : Outcome CompiledGraph := do
  let labels ← assignment.reverse
  let graph ← outside.graphOf vdag r s assignment
  let addresses ← (on (PhysicalGraph.locate outside.discovery graph) s).1
  return ⟨graph, addresses, labels⟩

section Parts
variable (vdag : Definition) (r : MemoryRegistry) (s : σ) (assignment : Assignment)

theorem graphOfLoads : ∃ uris index, r.Loads vdag.uri? assignment uris index ∧
    outside.graphOf vdag r s assignment = index >>= BlockGraph.compile vdag.uri? vdag.graph assignment := by
  obtain ⟨uris, index, collected, _, walk⟩ := collectWalks outside vdag.uri? assignment r s
  refine ⟨uris, index, walk.walkLoads, ?_⟩
  rw [graphOf, BlockGraph.build, onBind, collected]
  cases index <;> rfl

theorem onBuild (lookups : Nat) : ∃ looked,
    on (BlockGraph.build outside.processor.registry vdag.uri? vdag.graph assignment) ({ r with lookups }, s) =
      (outside.graphOf vdag r s assignment, ({ r with lookups := looked }, s)) := by
  obtain ⟨uris, index, collected, _, walk⟩ := collectWalks outside vdag.uri? assignment r s
  obtain ⟨_, _, collected', _, walk'⟩ := collectWalks outside vdag.uri? assignment { r with lookups } s
  obtain ⟨rfl, rfl⟩ := walk.walkUnique walk'
  refine ⟨lookups + uris.length, ?_⟩
  rw [graphOf, BlockGraph.build, onBind, onBind, collected, collected']
  cases index <;> rfl

theorem onCompiled (lookups : Nat) :
    (on (CompiledGraph.build outside.processor.registry outside.processor.discovery vdag.uri? vdag.graph assignment)
      ({ r with lookups }, s)).1 = outside.compiledOf vdag r s assignment := by
  rw [CompiledGraph.build, compiledOf, onBind, onOutcome]
  cases assignment.reverse with
  | error failure => rfl
  | ok labels =>
    obtain ⟨looked, built⟩ := onBuild outside vdag r s assignment lookups
    dsimp only
    rw [onBind, built]
    change _ = outside.graphOf vdag r s assignment >>= _
    cases outside.graphOf vdag r s assignment with
    | error failure => rfl
    | ok graph =>
      dsimp only
      rw [onBindPure, (consultsOutside outside).addressesRelated]
      rfl

theorem onResolve : on (Assignment.resolve outside.processor.search vdag) (r, s) =
    ((on (Assignment.resolve outside.search vdag) s).1, (r, (on (Assignment.resolve outside.search vdag) s).2)) :=
  (consultsOutside outside).nodesRelated vdag.uriText vdag.nodes .empty r s

def planOf : Outcome (Assignment × CompiledGraph) := do
  let assignment ← (on (Assignment.resolve outside.search vdag) s).1
  let compiled ← outside.compiledOf vdag r (on (Assignment.resolve outside.search vdag) s).2 assignment
  return (assignment, compiled)

theorem onPlan (lookups : Nat) :
    (on (outside.processor.plan vdag) ({ r with lookups }, s)).1 = outside.planOf vdag r s := by
  rw [Processor.plan, planOf, onBind, onResolve]
  cases (on (Assignment.resolve outside.search vdag) s).1 with
  | error failure => rfl
  | ok assignment =>
    dsimp only
    rw [onBindPure, onCompiled]
    rfl

theorem assignmentShown : (on (outside.processor.dryAssignment vdag) (r, s)).1 = (do
    vdag.validate
    (on (Assignment.resolve outside.search vdag) s).1) := by
  rw [Processor.dryAssignment, onBind, onOutcome]
  cases vdag.validate with
  | error failure => rfl
  | ok _ => exact congrArg Prod.fst (onResolve outside vdag r s)

theorem graphShown : (on (outside.processor.validateGraph vdag) (r, s)).1 = (do
    vdag.validate
    let assignment ← (on (Assignment.resolve outside.search vdag) s).1
    outside.graphOf vdag r (on (Assignment.resolve outside.search vdag) s).2 assignment) := by
  rw [Processor.validateGraph, onBind, onOutcome]
  cases vdag.validate with
  | error failure => rfl
  | ok _ =>
    dsimp only
    rw [onBind, onResolve]
    cases (on (Assignment.resolve outside.search vdag) s).1 <;> rfl

end Parts

def clearance (r : MemoryRegistry) (vdag : Definition) : Outcome Unit :=
  match vdag.uri? with
  | some uri => replaceable r uri
  | none => .ok ()

theorem replaceableOk {r : MemoryRegistry} {uri : VdagUri} : replaceable r uri = .ok () ↔
    ∀ stored, r.stored? uri = some stored → stored.status ≠ .assigned ∧ stored.status ≠ .active := by
  unfold replaceable Registry.refuseRunning
  cases r.stored? uri with
  | none => simp
  | some stored => cases status : stored.status <;> simp [VdagStatus.allowsResubmission, status]

theorem clearanceOk {r : MemoryRegistry} {vdag : Definition} : clearance r vdag = .ok () ↔ r.Clear vdag := by
  unfold clearance MemoryRegistry.Clear
  cases vdag.uri? with
  | none => simp
  | some uri =>
    refine replaceableOk.trans ⟨fun own other stored same => ?_, fun every stored => every uri stored rfl⟩
    cases same
    exact own stored

theorem planShown (vdag : Definition) (r : MemoryRegistry) (s : σ) :
    (on (outside.processor.dryEndToEnd vdag) (r, s)).1 = (do
      vdag.validate
      clearance r vdag
      outside.planOf vdag r s) := by
  rw [Processor.dryEndToEnd, onBind, onOutcome]
  cases vdag.validate with
  | error failure => rfl
  | ok _ =>
    dsimp only
    rw [clearance]
    cases vdag.uri? with
    | none => exact onPlan outside vdag r s r.lookups
    | some uri =>
      dsimp only
      rw [onBind, onCheck]
      cases replaceable r uri with
      | error failure => rfl
      | ok _ => exact onPlan outside vdag r s (r.lookups + 1)

theorem graphOfRooted {vdag : Definition} {r : MemoryRegistry} {s : σ} {assignment : Assignment} {graph : BlockGraph}
    (ok : outside.graphOf vdag r s assignment = .ok graph) : graph.RootedDag := by
  obtain ⟨_, _, _, built⟩ := graphOfLoads outside vdag r s assignment
  obtain ⟨_, _, compiled⟩ := Outcome.bindOk.mp (built.symm.trans ok)
  exact BlockGraph.withinRooted compiled

theorem planShownOk {vdag : Definition} {r : MemoryRegistry} {s : σ} {assignment : Assignment}
    {compiled : CompiledGraph} :
    (on (outside.processor.dryEndToEnd vdag) (r, s)).1 = .ok (assignment, compiled) ↔ r.Clear vdag ∧
      (on (outside.processor.dryAssignment vdag) (r, s)).1 = .ok assignment ∧
      assignment.reverse = .ok compiled.labels ∧
      (on (outside.processor.validateGraph vdag) (r, s)).1 = .ok compiled.blocks ∧
      (on (PhysicalGraph.locate outside.discovery compiled.blocks)
      (on (Assignment.resolve outside.search vdag) s).2).1 =
        .ok compiled.addresses := by
  rw [planShown, assignmentShown, graphShown]
  constructor
  · intro ok
    obtain ⟨_, valid, ok⟩ := Outcome.bindOk.mp ok
    obtain ⟨_, clear, ok⟩ := Outcome.bindOk.mp ok
    obtain ⟨found, resolved, ok⟩ := Outcome.bindOk.mp ok
    obtain ⟨built, ok, last⟩ := Outcome.bindOk.mp ok
    cases last
    obtain ⟨labels, reversed, ok⟩ := Outcome.bindOk.mp ok
    obtain ⟨graph, spliced, ok⟩ := Outcome.bindOk.mp ok
    obtain ⟨addresses, located, last⟩ := Outcome.bindOk.mp ok
    cases last
    exact ⟨clearanceOk.mp clear, Outcome.bindOk.mpr ⟨(), valid, resolved⟩, reversed,
      Outcome.bindOk.mpr ⟨(), valid, Outcome.bindOk.mpr ⟨assignment, resolved, spliced⟩⟩, located⟩
  · rintro ⟨clear, assigned, reversed, validated, located⟩
    obtain ⟨_, valid, resolved⟩ := Outcome.bindOk.mp assigned
    obtain ⟨_, _, validated⟩ := Outcome.bindOk.mp validated
    obtain ⟨_, again, spliced⟩ := Outcome.bindOk.mp validated
    cases again.symm.trans resolved
    have built : outside.compiledOf vdag r (on (Assignment.resolve outside.search vdag) s).2 assignment =
      .ok compiled :=
      Outcome.bindOk.mpr ⟨_, reversed, Outcome.bindOk.mpr ⟨_, spliced, Outcome.bindOk.mpr ⟨_, located, rfl⟩⟩⟩
    exact Outcome.bindOk.mpr ⟨(), valid, Outcome.bindOk.mpr ⟨(), clearanceOk.mpr clear,
      Outcome.bindOk.mpr ⟨assignment, resolved, Outcome.bindOk.mpr ⟨compiled, built, rfl⟩⟩⟩⟩

theorem validatedRooted {vdag : Definition} {r : MemoryRegistry} {s : σ} {graph : BlockGraph}
    (ok : (on (outside.processor.validateGraph vdag) (r, s)).1 = .ok graph) : graph.RootedDag := by
  rw [graphShown] at ok
  obtain ⟨_, _, ok⟩ := Outcome.bindOk.mp ok
  obtain ⟨_, _, spliced⟩ := Outcome.bindOk.mp ok
  exact graphOfRooted outside spliced

/- What the dry runs say of one vDAG. The whole plan is shown where its parts are and nothing stands in the way, and it
is the plan that the parts are of. -/
structure Agree (book : AddressBook) (r : MemoryRegistry) (vdag : Definition) (assigned : Outcome Assignment)
    (validated : Outcome BlockGraph) (planned : Outcome (Assignment × CompiledGraph)) : Prop where
  accepts : ∀ assignment, (∃ compiled, planned = .ok (assignment, compiled)) ↔ r.Clear vdag ∧
    assigned = .ok assignment ∧ assignment.Distinct ∧ ∃ graph, validated = .ok graph ∧ book.Covers graph
  same : ∀ assignment compiled, planned = .ok (assignment, compiled) → assigned = .ok assignment ∧
    validated = .ok compiled.blocks ∧ assignment.Inverse compiled.labels ∧
    book.Mirrors compiled.blocks compiled.addresses

theorem dryRunsAgree (search : SearchPolicy (StateM σ)) (book : AddressBook) (vdag : Definition) (r : MemoryRegistry)
    (s : σ) :
    let p := (Surroundings.mk search book.service).processor
    Agree book r vdag (on (p.dryAssignment vdag) (r, s)).1 (on (p.validateGraph vdag) (r, s)).1
      (on (p.dryEndToEnd vdag) (r, s)).1 := by
  intro p
  let outside : Surroundings σ := ⟨search, book.service⟩
  refine ⟨fun assignment => ⟨fun shown => ?_, fun parts => ?_⟩, fun assignment compiled shown => ?_⟩
  · obtain ⟨compiled, shown⟩ := shown
    obtain ⟨clear, assigned, reversed, validated, located⟩ := (planShownOk outside).mp shown
    have covers := (AddressBook.rootedLocated (validatedRooted outside validated) book _).accepts.mp ⟨_, located⟩
    exact ⟨clear, assigned, fun _ _ _ => Assignment.reverseInjective reversed, _, validated, covers⟩
  · obtain ⟨clear, assigned, distinct, graph, validated, covers⟩ := parts
    obtain ⟨labels, reversed⟩ := Assignment.distinctReverses distinct
    obtain ⟨addresses, located⟩ :=
      (AddressBook.rootedLocated (validatedRooted outside validated) book _).accepts.mpr covers
    exact ⟨⟨graph, addresses, labels⟩,
      (planShownOk outside).mpr ⟨clear, assigned, reversed, validated, located⟩⟩
  · obtain ⟨_, assigned, reversed, validated, located⟩ := (planShownOk outside).mp shown
    have mirrors := (AddressBook.rootedLocated (validatedRooted outside validated) book _).mirrors _ located
    exact ⟨assigned, validated, Assignment.reverseInverse reversed, mirrors⟩

def sampleUnaddressed : Surroundings Unit := ⟨sampleOutside.search, AddressBook.service ⟨.empty, none⟩⟩

example :
    (on (sampleUnaddressed.processor.validateGraph sampleTop) (sampleRecords, ())).1.toOption.isSome = true ∧
      (on (sampleUnaddressed.processor.dryEndToEnd sampleTop) (sampleRecords, ())).1 =
        .error (.notFound (.address ⟨"b1"⟩)) := by decide +kernel

end Surroundings

end Vdag
