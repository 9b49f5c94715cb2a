import Vdag.Proofs.Assignment.Resolving
import Vdag.Proofs.BlockGraph.Refusals
import Vdag.Proofs.Registry.Atomicity
import Vdag.Proofs.Registry.Consistency
import Vdag.Proofs.Registry.Previews

/-! What validation rules out for good. A valid vDAG is resolved and compiled without ever coming upon a node that says
nothing of what stands behind it, a label without a target, or no block at all; nor does that happen inside the vDAGs it
embeds, since those were valid when they were mapped and are stored as they were planned. -/
namespace Vdag
open Vdag.Action MemoryRegistry

namespace Failure

/- The failures that validation is there to rule out, by what they say. -/
inductive Forestalled : Failure → Prop
  | noRule {node vdag : String} {fault : AssignmentFault}
      (told : fault.message = "no assignmentPolicyRule and no manualBlockId") :
      Forestalled (.assignment node vdag fault)
  | noEmbedded {fault : DefinitionFault} (label : NodeLabel)
      (told : fault.message = s!"node '{label}' is of type vdag but has no vdagURI") : Forestalled (.definition fault)
  | notInAssignment {fault : DefinitionFault} (label : NodeLabel)
      (told : fault.message = s!"node '{label}' has no entry in the assignment") : Forestalled (.definition fault)
  | emptyBlockGraph {fault : DefinitionFault} (told : fault.message = "vDAG compiles to an empty block graph") :
      Forestalled (.definition fault)

inductive Unforeseen : Failure → Prop
  | unheard (cause : TransportFault) : Unforeseen (.transport cause)
  | searchFailed (node vdag rule text : String) : Unforeseen (.assignment node vdag (.searchFailed rule text))
  | noMatch (node vdag rule : String) : Unforeseen (.assignment node vdag (.noMatch rule))
  | severalMatches (node vdag rule : String) (count : Nat) :
      Unforeseen (.assignment node vdag (.severalMatches rule count))
  | sharedTarget (first second : NodeLabel) (target : Target) :
      Unforeseen (.definition (.sharedTarget first second target))
  | compiling {failure : Failure} (refusal : BlockGraph.Refusal failure) : Unforeseen failure
  | unaddressed (block : BlockId) : Unforeseen (.notFound (.address block))
  | unnamed : Unforeseen (.definition .incompleteUri)
  | taken (vdag status : String) : Unforeseen (.conflict vdag status)

def opening (text : String) : List Char := text.toList.take 5

theorem openingAppend {front rest : String} {letters : List Char} (long : 5 ≤ front.toList.length)
    (begins : opening front = letters) : opening (front ++ rest) = letters := by
  rw [opening, String.toList_append, List.take_append_of_le_length long]
  exact begins

theorem Forestalled.definitionOpens {fault : DefinitionFault} (forestalled : Forestalled (.definition fault)) :
    opening fault.message ∈ [['n', 'o', 'd', 'e', ' '], ['v', 'D', 'A', 'G', ' ']] := by
  cases forestalled with
  | noEmbedded label told | notInAssignment label told =>
    rw [told, String.append_assoc]
    exact List.mem_cons.mpr (.inl (openingAppend (by decide) (by decide)))
  | emptyBlockGraph told =>
    have opens : opening fault.message = ['v', 'D', 'A', 'G', ' '] := told ▸ rfl
    exact List.mem_cons_of_mem _ (List.mem_singleton.mpr opens)

theorem Forestalled.assignmentOpens {node vdag : String} {fault : AssignmentFault}
    (forestalled : Forestalled (.assignment node vdag fault)) : opening fault.message = ['n', 'o', ' ', 'a', 's'] := by
  obtain ⟨told⟩ := forestalled
  exact told ▸ rfl

theorem definitionApart {fault : DefinitionFault} {letters : List Char} (opens : opening fault.message = letters)
    (apart : letters ∉ [['n', 'o', 'd', 'e', ' '], ['v', 'D', 'A', 'G', ' ']]) : ¬ Forestalled (.definition fault) :=
  fun forestalled => apart (opens ▸ forestalled.definitionOpens)

theorem assignmentApart {node vdag : String} {fault : AssignmentFault} {letters : List Char}
    (opens : opening fault.message = letters) (apart : letters ≠ ['n', 'o', ' ', 'a', 's']) :
    ¬ Forestalled (.assignment node vdag fault) :=
  fun forestalled => apart (opens.symm.trans forestalled.assignmentOpens)

theorem Unforeseen.notForestalled {failure : Failure} (unforeseen : failure.Unforeseen) : ¬ failure.Forestalled := by
  cases unforeseen with
  | unheard | unaddressed | taken => exact nofun
  | searchFailed node vdag rule text =>
    have opens : opening (s!"search policy {rule} failed: {text}") = ['s', 'e', 'a', 'r', 'c'] := by
      simp only [String.append_assoc]
      exact openingAppend (by decide) (by decide)
    exact assignmentApart opens (by decide)
  | noMatch node vdag rule =>
    have opens : opening (s!"policy {rule} matched no block") = ['p', 'o', 'l', 'i', 'c'] := by
      simp only [String.append_assoc]
      exact openingAppend (by decide) (by decide)
    exact assignmentApart opens (by decide)
  | severalMatches node vdag rule count =>
    have opens : opening (s!"policy {rule} matched {count} blocks, exactly one is required") =
        ['p', 'o', 'l', 'i', 'c'] := by
      simp only [String.append_assoc]
      exact openingAppend (by decide) (by decide)
    exact assignmentApart opens (by decide)
  | sharedTarget first second target =>
    have opens : opening (s!"nodes '{first}' and '{second}' are both assigned to {target.text}") =
        ['n', 'o', 'd', 'e', 's'] := by
      simp only [String.append_assoc]
      exact openingAppend (by decide) (by decide)
    exact definitionApart opens (by decide)
  | unnamed =>
    have opens : opening (DefinitionFault.message .incompleteUri) = ['v', 'd', 'a', 'g', '_'] := rfl
    exact definitionApart opens (by decide)
  | compiling refusal =>
    cases refusal with
    | composition fault => exact nofun
    | noHead =>
      have opens : opening (DefinitionFault.message .noHead) = ['b', 'l', 'o', 'c', 'k'] := rfl
      exact definitionApart opens (by decide)
    | severalHeads blocks =>
      have opens : opening (s!"ambiguous head, several source blocks: {Id.listed blocks}") =
          ['a', 'm', 'b', 'i', 'g'] := openingAppend (by decide) (by decide)
      exact definitionApart opens (by decide)
    | cycle blocks =>
      have opens : opening (s!"block graph contains a cycle through: {Id.listed blocks}") =
          ['b', 'l', 'o', 'c', 'k'] := openingAppend (by decide) (by decide)
      exact definitionApart opens (by decide)

end Failure

def MemoryRegistry.LeftByMapping (uri : VdagUri) (record : Definition) : Prop :=
  ∃ (σ : Type) (outside : Surroundings σ) (vdag : Definition) (before : MemoryRegistry) (s : σ),
    before.admits vdag = .ok uri ∧ (on (outside.processor.mapToBlocks vdag) (before, s)).2.1.stored? uri = some record

def MemoryRegistry.OnlyMapped (r : MemoryRegistry) : Prop :=
  ∀ uri record, r.stored? uri = some record → LeftByMapping uri record

theorem MemoryRegistry.LeftByMapping.leftConsistent {uri : VdagUri} {record : Definition}
    (left : LeftByMapping uri record) : record.Consistent uri := by
  obtain ⟨σ, outside, vdag, before, s, admitted, found⟩ := left
  obtain ⟨mapped, rfl⟩ := Surroundings.admittedMaps outside (s := s) admitted
  cases mapped.ownStored.symm.trans found
  exact mapped.consistentRecord

theorem Definition.Valid.assignmentServes {vdag : Definition} (valid : vdag.Valid) {assignment : Assignment}
    (labels : ∀ label, label ∈ assignment.keys ↔ label ∈ vdag.labels) : assignment.Serves vdag.graph where
  inhabited := by
    obtain ⟨node, member⟩ := List.exists_mem_of_ne_nil _ valid.inhabited
    exact List.ne_nil_of_mem ((labels node.label).mpr (List.mem_map.mpr ⟨node, member, rfl⟩))
  connected c member := by
    obtain ⟨own, inputs⟩ := valid.connected c member
    exact ⟨(labels _).mpr own, fun input listed => (labels _).mpr (inputs input listed)⟩

theorem Definition.Consistent.assignmentServes {uri : VdagUri} {record : Definition}
    (consistent : record.Consistent uri)
    (runs : record.status = .assigned ∨ record.status = .active) : record.assignment.Serves record.graph := by
  rcases consistent.planned with failed | assigned
  · rw [failed.status] at runs
    rcases runs with other | other <;> cases other
  · exact (Definition.validateOk.mp consistent.valid).assignmentServes assigned.labels

namespace MemoryRegistry

theorem OnlyMapped.indexServes {r : MemoryRegistry} (only : r.OnlyMapped) {root : Option VdagUri}
    {assignment : Assignment} {uris : List VdagUri} {index : EmbeddedIndex}
    (loads : r.Loads root assignment uris (.ok index)) :
    ∀ uri vdag, index.find? uri = some vdag → vdag.assignment.Serves vdag.graph := by
  intro uri vdag known
  obtain ⟨reached, record, stored, rfl⟩ := (loads.loads index rfl uri vdag).mp known
  obtain ⟨other, same, runs, _⟩ := loads.accepts.mp ⟨index, rfl⟩ uri reached
  cases stored.symm.trans same
  exact (only uri record stored).leftConsistent.assignmentServes runs

end MemoryRegistry

namespace Surroundings

variable {σ : Type} (outside : Surroundings σ) {vdag : Definition} {r : MemoryRegistry} {s : σ} {failure : Failure}

theorem replaceableFails {uri : VdagUri} (failed : replaceable r uri = .error failure) : failure.Unforeseen := by
  unfold replaceable at failed
  split at failed
  · unfold Registry.refuseRunning at failed
    split at failed
    · cases failed
    · cases failed
      exact .taken _ _
  · cases failed

theorem refusesUnforeseen (valid : vdag.validate = .ok ())
    (failed : r.admits vdag = .error failure) : failure.Unforeseen := by
  rcases admitsFails failed with invalid | ⟨_, unnamed | ⟨uri, _, refused⟩⟩
  · cases valid.symm.trans invalid
  · unfold Definition.requireUri at unnamed
    split at unnamed
    · cases unnamed
    · cases unnamed
      exact .unnamed
  · by_cases claimed : uri ∈ r.claimed
    · simp only [on, claim, ExceptT.run_mk, StateT.run, if_pos claimed] at refused
      cases refused
      exact .taken _ _
    · have asked := claimAnswers claimed
      rw [refused] at asked
      exact replaceableFails asked.symm

theorem clearanceFails (failed : clearance r vdag = .error failure) : failure.Unforeseen := by
  unfold clearance at failed
  split at failed
  · exact replaceableFails failed
  · cases failed

theorem resolveServes (valid : vdag.Valid) {assignment : Assignment}
    (ok : (on (Assignment.resolve outside.search vdag) s).1 = .ok assignment) : assignment.Serves vdag.graph := by
  refine valid.assignmentServes (fun label => SortedMap.memKeys.trans ((Assignment.resolvedLabels ok label).trans ?_))
  simp [Definition.labels]

theorem resolveFails (valid : vdag.Valid)
    (failed : (on (Assignment.resolve outside.search vdag) s).1 = .error failure) : failure.Unforeseen := by
  have resolved := (Assignment.nodesInTurn outside valid.resolvable valid.distinct .empty .empty s).courseResolved valid
  obtain ⟨_, q, _, _, _, _, refused, _⟩ := resolved.refuses failure failed
  cases refused with
  | lost _ => exact .unheard _
  | failed _ _ => exact .searchFailed _ _ _ _
  | nothing _ => exact .noMatch _ _ _
  | several _ _ => exact .severalMatches _ _ _ _

theorem graphOfFails (only : r.OnlyMapped) {assignment : Assignment} (serves : assignment.Serves vdag.graph)
    (failed : outside.graphOf vdag r s assignment = .error failure) : failure.Unforeseen := by
  obtain ⟨uris, index, loads, built⟩ := graphOfLoads outside vdag r s assignment
  rw [built] at failed
  rcases Outcome.bindFails.mp failed with unloaded | ⟨loaded, rfl, refused⟩
  · obtain ⟨_, _, _, ⟨_, rfl⟩ | ⟨_, _, rfl⟩⟩ := loads.refuses failure unloaded
    · exact .compiling (.composition _)
    · exact .compiling (.composition _)
  · exact .compiling (BlockGraph.withinRefuses (only.indexServes loads) serves refused)

theorem locateFails {graph : BlockGraph}
    (failed : (on (PhysicalGraph.locate outside.discovery graph) s).1 = .error failure) :
    failure.Unforeseen ∨ (on (outside.discovery.resolve graph.adjacency) s).1 = .error failure := by
  rw [PhysicalGraph.locate, onBind] at failed
  rcases ran : on (outside.discovery.resolve graph.adjacency) s with ⟨other | addresses, after⟩
  · rw [ran] at failed
    cases failed
    exact .inr rfl
  · rw [ran] at failed
    dsimp only at failed
    rw [onBindPure, onOutcome] at failed
    obtain ⟨block, _, _, rfl⟩ := AddressBook.coversFails (Outcome.mapFails.mp failed)
    exact .inl (.unaddressed block)

theorem compiledOfFails (only : r.OnlyMapped) {assignment : Assignment} (serves : assignment.Serves vdag.graph)
    (failed : outside.compiledOf vdag r s assignment = .error failure) :
    failure.Unforeseen ∨ ∃ graph, outside.graphOf vdag r s assignment = .ok graph ∧
      (on (outside.discovery.resolve graph.adjacency) s).1 = .error failure := by
  rcases Outcome.bindFails.mp failed with irreversible | ⟨labels, _, failed⟩
  · obtain ⟨_, _, _, rfl, _⟩ := Assignment.reverseClash irreversible
    exact .inl (.sharedTarget _ _ _)
  · rcases Outcome.bindFails.mp failed with refused | ⟨graph, built, failed⟩
    · exact .inl (graphOfFails outside only serves refused)
    · rcases Outcome.bindFails.mp failed with unlocated | ⟨_, _, last⟩
      · exact (locateFails outside unlocated).imp_right (fun told => ⟨graph, built, told⟩)
      · cases last

/- Everything was compiled, and discovery itself says so when it is asked for the addresses. -/
def Relayed (vdag : Definition) (r : MemoryRegistry) (s : σ) (failure : Failure) : Prop :=
  ∃ graph, (on (outside.processor.validateGraph vdag) (r, s)).1 = .ok graph ∧
    (on (outside.discovery.resolve graph.adjacency) (on (Assignment.resolve outside.search vdag) s).2).1 =
      .error failure

section Runs
variable (valid : vdag.validate = .ok ()) (only : r.OnlyMapped)
include valid

theorem assignmentFails (failed : (on (outside.processor.dryAssignment vdag) (r, s)).1 = .error failure) :
    failure.Unforeseen := by
  rw [assignmentShown, valid, Outcome.okBind] at failed
  exact resolveFails outside (Definition.validateOk.mp valid) failed

include only

theorem graphFails (failed : (on (outside.processor.validateGraph vdag) (r, s)).1 = .error failure) :
    failure.Unforeseen := by
  have valid' := Definition.validateOk.mp valid
  rw [graphShown, valid, Outcome.okBind] at failed
  rcases Outcome.bindFails.mp failed with unresolved | ⟨assignment, resolved, refused⟩
  · exact resolveFails outside valid' unresolved
  · exact graphOfFails outside only (resolveServes outside valid' resolved) refused

theorem planFails (failed : (on (outside.processor.dryEndToEnd vdag) (r, s)).1 = .error failure) :
    failure.Unforeseen ∨ outside.Relayed vdag r s failure := by
  have valid' := Definition.validateOk.mp valid
  rw [planShown, valid, Outcome.okBind] at failed
  rcases Outcome.bindFails.mp failed with unclear | ⟨_, _, failed⟩
  · exact .inl (clearanceFails unclear)
  · rcases Outcome.bindFails.mp failed with unresolved | ⟨assignment, resolved, failed⟩
    · exact .inl (resolveFails outside valid' unresolved)
    · rcases Outcome.bindFails.mp failed with uncompiled | ⟨_, _, last⟩
      · refine (compiledOfFails outside only (resolveServes outside valid' resolved) uncompiled).imp_right ?_
        rintro ⟨graph, built, told⟩
        refine ⟨graph, ?_, told⟩
        rw [graphShown, valid, Outcome.okBind]
        exact Outcome.bindOk.mpr ⟨assignment, resolved, built⟩
      · cases last

theorem mapFails (failed : (on (outside.processor.mapToBlocks vdag) (r, s)).1 = .error failure) :
    failure.Unforeseen ∨ outside.Relayed vdag r s failure := by
  cases admitted : r.admits vdag with
  | error refusal =>
    rw [refusedMaps outside admitted] at failed
    cases failed
    exact .inl (refusesUnforeseen valid admitted)
  | ok uri =>
    obtain ⟨_, named, _, _, granted⟩ := admitsOk admitted
    rw [mapAnswers outside named granted.unclaimed] at failed
    exact planFails outside valid only (Outcome.mapFails.mp failed)

end Runs

structure Forestalls (vdag : Definition) (r : MemoryRegistry) (s : σ) : Prop where
  assigns : ∀ failure, (on (outside.processor.dryAssignment vdag) (r, s)).1 = .error failure → ¬ failure.Forestalled
  validates : ∀ failure, (on (outside.processor.validateGraph vdag) (r, s)).1 = .error failure → ¬ failure.Forestalled
  plans : ∀ failure, (on (outside.processor.dryEndToEnd vdag) (r, s)).1 = .error failure →
    ¬ failure.Forestalled ∨ outside.Relayed vdag r s failure
  maps : ∀ failure, (on (outside.processor.mapToBlocks vdag) (r, s)).1 = .error failure →
    ¬ failure.Forestalled ∨ outside.Relayed vdag r s failure

theorem validForestalls (valid : vdag.validate = .ok ()) (only : r.OnlyMapped) (s : σ) :
    outside.Forestalls vdag r s where
  assigns _ failed := (assignmentFails outside valid failed).notForestalled
  validates _ failed := (graphFails outside valid only failed).notForestalled
  plans _ failed := (planFails outside valid only failed).imp_left Failure.Unforeseen.notForestalled
  maps _ failed := (mapFails outside valid only failed).imp_left Failure.Unforeseen.notForestalled

/- Every mapping that is not refused leaves its record, so a registry that was filled by mapping holds nothing else. -/
theorem Mapped.leftRecord {outside : Surroundings σ} {before after : MemoryRegistry × σ} {answer : Outcome Definition}
    (mapped : outside.Mapped vdag before answer after) :
    LeftByMapping mapped.uri (Processor.recordOf vdag mapped.planned) := by
  obtain ⟨r, s⟩ := before
  have taken : (on (claim mapped.uri) r).1 = .ok () := by
    rw [claimAnswers mapped.granted.unclaimed, replaceable]
    cases stored : r.stored? mapped.uri with
    | none => rfl
    | some record => exact if_pos (mapped.granted.replaceable record stored)
  have admitted : r.admits vdag = .ok mapped.uri := Outcome.bindOk.mpr ⟨(), mapped.valid,
    Outcome.bindOk.mpr ⟨mapped.uri, requireUriOk.mpr mapped.named, Outcome.bindOk.mpr ⟨(), taken, rfl⟩⟩⟩
  obtain ⟨again, same⟩ := admittedMaps outside (s := s) admitted
  have record := (mapped.comesTo rfl).1.symm.trans mapped.ownStored
  exact ⟨σ, outside, vdag, r, s, admitted, same ▸ (again.comesTo rfl).1.trans record⟩

theorem historyOnly (s : σ) (calls : List Call) : (outside.history (.empty, s) calls).1.OnlyMapped :=
  historyEvery outside Mapped.leftRecord (w := (.empty, s)) (fun _ _ found => nomatch found) calls

def sampleStored : MemoryRegistry := (sampleOutside.history (.empty, ()) [.map sampleLeaf]).1

theorem sampleForestalled : sampleTop.validate = .ok () ∧ sampleStored.OnlyMapped ∧
    sampleUnaddressed.Forestalls sampleTop sampleStored () ∧
    (on (sampleUnaddressed.processor.mapToBlocks sampleTop) (sampleStored, ())).1 =
      .error (.notFound (.address ⟨"b1"⟩)) := by
  have valid : sampleTop.validate = .ok () := by decide +kernel
  have only : sampleStored.OnlyMapped := historyOnly sampleOutside () [.map sampleLeaf]
  exact ⟨valid, only, validForestalls sampleUnaddressed valid only (), by decide +kernel⟩

end Surroundings

end Vdag
