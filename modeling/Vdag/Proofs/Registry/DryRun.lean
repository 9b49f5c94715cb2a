import Vdag.Memory.Discovery
import Vdag.Proofs.Registry.Mapping

/-! A dry run foretells what mapping will come to. The two plan over different records, since a claim drops the copy
that is stored; but no plan looks at the record of the vDAG it is for, wherever its embeddings lead. -/
namespace Vdag
open Vdag.Action MemoryRegistry

namespace Surroundings

variable {σ : Type} (outside : Surroundings σ)

section Planning

variable {vdag : Definition} {uri : VdagUri} {r r' : MemoryRegistry}

theorem graphAlike (alike : ∀ other, other ≠ uri → r'.stored? other = r.stored? other) (logical : LogicalGraph)
    (assignment : Assignment) (s : σ) :
    ∃ outcome looked looked',
      on (BlockGraph.build outside.processor.registry (some uri) logical assignment) (r, s) =
        (outcome, ({ r with lookups := looked }, s)) ∧
      on (BlockGraph.build outside.processor.registry (some uri) logical assignment) (r', s) =
        (outcome, ({ r' with lookups := looked' }, s)) := by
  obtain ⟨uris, index, collected, _, walk⟩ := collectWalks outside (some uri) assignment r s
  obtain ⟨_, index', collected', _, walk'⟩ := collectWalks outside (some uri) assignment r' s
  have offers : ∀ other, other ≠ uri → r'.offers other = r.offers other := by
    intro other ne
    rw [MemoryRegistry.offers, alike other ne, MemoryRegistry.offers]
  obtain ⟨rfl, rfl⟩ := (walk.walkElsewhere (Closure.startPast uri assignment) offers).walkUnique walk'
  refine ⟨index >>= BlockGraph.compile (some uri) logical assignment, r.lookups + uris.length,
    r'.lookups + uris.length, ?_, ?_⟩
  · rw [BlockGraph.build, onBind, collected]
    cases index <;> rfl
  · rw [BlockGraph.build, onBind, collected']
    cases index <;> rfl

theorem buildAlike (alike : ∀ other, other ≠ uri → r'.stored? other = r.stored? other) (logical : LogicalGraph)
    (assignment : Assignment) (s : σ) :
    (on (CompiledGraph.build outside.processor.registry outside.processor.discovery (some uri) logical assignment)
      (r', s)).1 =
    (on (CompiledGraph.build outside.processor.registry outside.processor.discovery (some uri) logical assignment)
      (r, s)).1 := by
  rw [CompiledGraph.build, onBind, onBind, onOutcome, onOutcome]
  cases assignment.reverse with
  | error failure => rfl
  | ok labels =>
    obtain ⟨outcome, looked, looked', built, built'⟩ := graphAlike outside alike logical assignment s
    dsimp only
    rw [onBind, onBind, built, built']
    cases outcome with
    | error failure => rfl
    | ok graph =>
      dsimp only
      rw [onBindPure, onBindPure, (consultsOutside outside).addressesRelated,
        (consultsOutside outside).addressesRelated]

theorem planAlike (named : vdag.uri? = some uri) (alike : ∀ other, other ≠ uri → r'.stored? other = r.stored? other)
    (s : σ) :
    (on (outside.processor.plan vdag) (r', s)).1 = (on (outside.processor.plan vdag) (r, s)).1 := by
  have resolved := fun r => (consultsOutside outside).nodesRelated vdag.uriText vdag.nodes .empty r s
  rw [Processor.plan, Assignment.resolve, onBind, onBind, resolved, resolved, named]
  cases (on (Assignment.resolveNodes outside.search vdag.uriText vdag.nodes .empty) s).1 with
  | error failure => rfl
  | ok assignment =>
    have same := buildAlike outside alike vdag.graph assignment
      (on (Assignment.resolveNodes outside.search vdag.uriText vdag.nodes .empty) s).2
    dsimp only
    rw [onBindPure, onBindPure, same]

end Planning

def replaceable (r : MemoryRegistry) (uri : VdagUri) : Outcome Unit :=
  match r.stored? uri with
  | some stored => Registry.refuseRunning uri stored
  | none => .ok ()

theorem onCheck (uri : VdagUri) (r : MemoryRegistry) (s : σ) :
    on (outside.processor.checkResubmission uri) (r, s) =
      (replaceable r uri, ({ r with lookups := r.lookups + 1 }, s)) := by
  have ran : on (outside.processor.checkResubmission uri) (r, s) =
      on (match r.stored? uri with
        | some stored => ofOutcome (Registry.refuseRunning uri stored)
        | none => pure ()) ({ r with lookups := r.lookups + 1 }, s) := rfl
  rw [ran, replaceable]
  cases r.stored? uri <;> rfl

def vacate (r : MemoryRegistry) (uri : VdagUri) : MemoryRegistry :=
  match r.stored? uri with
  | some _ => r.remove uri
  | none => r

theorem onFreeClaim {uri : VdagUri} {r : MemoryRegistry} (unclaimed : uri ∉ r.claimed) :
    on (claim uri) r = match replaceable r uri with
      | .ok () => (.ok (), (vacate r uri).mark uri)
      | .error failure => (.error failure, r) := by
  have records : r.vdags.find? uri = r.stored? uri := rfl
  simp only [on, claim, ExceptT.run_mk, StateT.run, records, if_neg unclaimed, replaceable, vacate]
  cases r.stored? uri with
  | none => rfl
  | some stored =>
    dsimp only
    cases Registry.refuseRunning uri stored <;> rfl

theorem claimAnswers {uri : VdagUri} {r : MemoryRegistry} (unclaimed : uri ∉ r.claimed) :
    (on (claim uri) r).1 = replaceable r uri := by
  rw [onFreeClaim unclaimed]
  cases replaceable r uri <;> rfl

theorem mapAnswers {vdag : Definition} {uri : VdagUri} {r : MemoryRegistry} (named : vdag.uri? = some uri)
    (unclaimed : uri ∉ r.claimed) (s : σ) :
    (on (outside.processor.mapToBlocks vdag) (r, s)).1 =
      (on (outside.processor.dryEndToEnd vdag) (r, s)).1.map (fun plan => Processor.recordOf vdag (.ok plan)) := by
  rw [Processor.dryEndToEnd, onBind, onOutcome]
  cases valid : vdag.validate with
  | error failure =>
    rw [Processor.mapToBlocksClaims, onBind, onOutcome, valid]
    rfl
  | ok _ =>
    have asked := claimAnswers unclaimed
    rw [onNamed outside valid named, onBind, onClaim]
    dsimp only
    rw [named, onBind, onCheck]
    rcases claimCases uri r with ⟨failure, refused⟩ | ⟨claimed, taken, granted⟩
    · rw [refused] at asked ⊢
      rw [← asked]
      rfl
    · rw [taken] at asked ⊢
      rw [← asked]
      dsimp only
      obtain ⟨mapped⟩ : Nonempty (outside.Mapped vdag (r, s) _ _) := claimedMaps outside valid named granted
      have same : mapped.uri = uri := Option.some.inj (mapped.named.symm.trans named)
      have planned := planAlike outside (r := { r with lookups := r.lookups + 1 }) named
        (fun other ne => (mapped.granted.records other).trans (if_neg (fun h => ne (h.trans same)))) s
      rw [mapped.plan] at planned
      rw [mapped.answered, ← planned]
      cases mapped.planned <;> rfl

theorem dryRunReads (vdag : Definition) : Reads (outside.processor.dryEndToEnd vdag) := (asksRead outside).dryRun vdag

/- The dry run and mapping agree on every vDAG with a name that is not being mapped by somebody else, and the dry run
leaves records and claims alone. -/
theorem dryRunForetells {vdag : Definition} {uri : VdagUri} {r : MemoryRegistry} (named : vdag.uri? = some uri)
    (unclaimed : uri ∉ r.claimed) (s : σ) :
    (∀ assignment compiled, (on (outside.processor.dryEndToEnd vdag) (r, s)).1 = .ok (assignment, compiled) ↔
      ∃ stored, (on (outside.processor.mapToBlocks vdag) (r, s)).1 = .ok stored ∧
        stored.assignment = assignment ∧ stored.compiled = some compiled) ∧
    (∀ failure, (on (outside.processor.dryEndToEnd vdag) (r, s)).1 = .error failure ↔
      (on (outside.processor.mapToBlocks vdag) (r, s)).1 = .error failure) ∧
    MemoryRegistry.Same r (on (outside.processor.dryEndToEnd vdag) (r, s)).2.1 := by
  rw [mapAnswers outside named unclaimed s]
  refine ⟨fun assignment compiled => ?_, fun failure => ?_, dryRunReads outside vdag (r, s)⟩
  · cases (on (outside.processor.dryEndToEnd vdag) (r, s)).1 with
    | error failure => simp [Except.map]
    | ok plan =>
      obtain ⟨found, built⟩ := plan
      simp [Except.map, Processor.recordOf]
  · cases (on (outside.processor.dryEndToEnd vdag) (r, s)).1 <;> simp [Except.map]

def sampleLeaf : Definition where
  name := "leaf"
  version := ⟨"1", "a"⟩
  discoveryTags := []
  controller := .null
  nodes := [⟨⟨"U"⟩, .block, none, none, none, none, some ⟨"b2"⟩, ⟨.empty, .empty, .empty, []⟩⟩]
  graph := .empty
  status := .assigned
  assignment := .ofList [(⟨"U"⟩, .block ⟨"b2"⟩)]
  compiled := none

def sampleTop : Definition where
  name := "top"
  version := ⟨"1", "a"⟩
  discoveryTags := []
  controller := .null
  nodes := [⟨⟨"A"⟩, .block, none, none, none, none, some ⟨"b1"⟩, ⟨.empty, .empty, .empty, []⟩⟩,
    ⟨⟨"S"⟩, .vdag, some ⟨"leaf:1-a"⟩, none, none, none, none, ⟨.empty, .empty, .empty, []⟩⟩]
  graph := ⟨[⟨⟨"S"⟩, [⟨"A"⟩]⟩], .empty⟩
  status := .failed
  assignment := .empty
  compiled := none

def sampleRecords : MemoryRegistry := (MemoryRegistry.empty.store sampleLeaf).store sampleTop

def sampleOutside : Surroundings Unit where
  search := ⟨fun _ => ofOutcome (.ok [])⟩
  discovery := AddressBook.service ⟨.empty, some ("host", 7000)⟩

theorem sampleForetold :
    sampleTop.uri? = some ⟨"top:1-a"⟩ ∧ (⟨"top:1-a"⟩ : VdagUri) ∉ sampleRecords.claimed ∧
      ∃ assignment compiled stored,
        (on (sampleOutside.processor.dryEndToEnd sampleTop) (sampleRecords, ())).1 = .ok (assignment, compiled) ∧
        (on (sampleOutside.processor.mapToBlocks sampleTop) (sampleRecords, ())).1 = .ok stored ∧
        stored.assignment = assignment ∧ stored.compiled = some compiled := by
  have named : sampleTop.uri? = some ⟨"top:1-a"⟩ := by decide +kernel
  have unclaimed : (⟨"top:1-a"⟩ : VdagUri) ∉ sampleRecords.claimed := by decide +kernel
  have plans : (on (sampleOutside.processor.dryEndToEnd sampleTop) (sampleRecords, ())).1.toOption.isSome = true := by
    decide +kernel
  cases shown : (on (sampleOutside.processor.dryEndToEnd sampleTop) (sampleRecords, ())).1 with
  | error failure =>
    rw [shown] at plans
    cases plans
  | ok plan =>
    obtain ⟨assignment, compiled⟩ := plan
    obtain ⟨stored, mapped, same⟩ :=
      ((dryRunForetells sampleOutside named unclaimed ()).1 assignment compiled).mp shown
    exact ⟨named, unclaimed, assignment, compiled, stored, rfl, mapped, same⟩

end Surroundings

end Vdag
