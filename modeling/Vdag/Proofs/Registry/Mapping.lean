import Vdag.Proofs.Registry.Hoisting
import Vdag.Proofs.Registry.Reaching

/-! What mapping a vDAG to blocks does to the registry: nothing when it is refused, and otherwise exactly one record
written, whose graph was compiled from the records that were there. -/
namespace Vdag
open Vdag.Action MemoryRegistry

def EmbeddedIndex.Agrees (index : EmbeddedIndex) (r : MemoryRegistry) : Prop :=
  ∀ uri vdag, index.find? uri = some vdag →
    ∃ stored, r.stored? uri = some stored ∧ stored.status.isRunnable = true ∧
      vdag = ⟨stored.assignment, stored.graph⟩

structure Processor.Steps {σ : Type} (p : Processor (StateM σ)) (vdag : Definition) (before : σ)
    (assignment : Assignment) (compiled : CompiledGraph) (resolved built after : σ) : Prop where
  assigned : on (Assignment.resolve p.search vdag) before = (.ok assignment, resolved)
  reversed : assignment.reverse = .ok compiled.labels
  blocks : on (BlockGraph.build p.registry vdag.uri? vdag.graph assignment) resolved = (.ok compiled.blocks, built)
  addresses : on (PhysicalGraph.locate p.discovery compiled.blocks) built = (.ok compiled.addresses, after)

theorem Processor.planSteps {σ : Type} {p : Processor (StateM σ)} {vdag : Definition} {before after : σ}
    {assignment : Assignment} {compiled : CompiledGraph}
    (ok : on (p.plan vdag) before = (.ok (assignment, compiled), after)) :
    ∃ resolved built, p.Steps vdag before assignment compiled resolved built after := by
  obtain ⟨found, resolved, assigned, ok⟩ := onBindOk.mp ok
  obtain ⟨_, _, ok, last⟩ := onBindOk.mp ok
  cases last
  obtain ⟨labels, _, inverted, ok⟩ := onBindOk.mp ok
  obtain ⟨reversed, rfl⟩ := Prod.mk.inj inverted
  obtain ⟨blocks, built, spliced, ok⟩ := onBindOk.mp ok
  obtain ⟨addresses, _, located, last⟩ := onBindOk.mp ok
  cases last
  exact ⟨resolved, built, assigned, reversed, spliced, located⟩

namespace Surroundings

variable {σ : Type} (outside : Surroundings σ)

theorem collectAgrees {root : Option VdagUri} {assignment : Assignment} {r : MemoryRegistry} {s : σ}
    {index : EmbeddedIndex} {after : MemoryRegistry × σ}
    (ok : on (EmbeddedIndex.collect outside.processor.registry root assignment) (r, s) = (.ok index, after)) :
    index.Agrees r := by
  obtain ⟨_, _, ran, _, walk⟩ := collectWalks outside root assignment r s
  cases ran.symm.trans ok
  intro uri vdag known
  obtain ⟨reached, stored, record, rfl⟩ := (walk.walkLoads.loads index rfl uri vdag).mp known
  obtain ⟨other, same, runs, _⟩ := walk.walkLoads.accepts.mp ⟨index, rfl⟩ uri reached
  cases record.symm.trans same
  exact ⟨stored, record, runnableIff.mpr runs, rfl⟩

structure Planned (vdag : Definition) (r : MemoryRegistry) (s : σ) (assignment : Assignment)
    (compiled : CompiledGraph) : Prop where
  resolved : (on (Assignment.resolve outside.search vdag) s).1 = .ok assignment
  reversed : assignment.reverse = .ok compiled.labels
  blocks : ∃ index : EmbeddedIndex, index.Agrees r ∧
    BlockGraph.compile vdag.uri? vdag.graph assignment index = .ok compiled.blocks
  located : ∃ s', (on (PhysicalGraph.locate outside.discovery compiled.blocks) s').1 = .ok compiled.addresses

theorem planParts {vdag : Definition} {r : MemoryRegistry} {s : σ} {assignment : Assignment} {compiled : CompiledGraph}
    {after : MemoryRegistry × σ}
    (ok : on (outside.processor.plan vdag) (r, s) = (.ok (assignment, compiled), after)) :
    outside.Planned vdag r s assignment compiled := by
  have consults := consultsOutside outside
  obtain ⟨resolved, built, steps⟩ := Processor.planSteps ok
  have found := (consults.nodesRelated _ _ _ r s).symm.trans steps.assigned
  obtain ⟨index, _, collected, spliced⟩ := onBindOk.mp steps.blocks
  have located := (consults.addressesRelated _ built.1 built.2).symm.trans steps.addresses
  obtain ⟨_, rfl⟩ := Prod.mk.inj found
  exact ⟨congrArg Prod.fst found, steps.reversed, ⟨index, collectAgrees outside collected, congrArg Prod.fst spliced⟩,
    built.2, congrArg Prod.fst located⟩

theorem planOk {vdag : Definition} {r : MemoryRegistry} {s : σ} {assignment : Assignment} {compiled : CompiledGraph}
    {after : MemoryRegistry × σ}
    (ok : on (outside.processor.plan vdag) (r, s) = (.ok (assignment, compiled), after)) :
    ∃ index : EmbeddedIndex, index.Agrees r ∧
      BlockGraph.compile vdag.uri? vdag.graph assignment index = .ok compiled.blocks :=
  (planParts outside ok).blocks

theorem onPersist (uri : VdagUri) {vdag : Definition} {r after : MemoryRegistry} (s : σ)
    (created : on (create vdag) r = (.ok (), after)) :
    on (outside.processor.persist uri vdag) (r, s) = (.ok (), (after, s)) := by
  have hosted : on (outside.processor.registry.create vdag) (r, s) = (.ok (), (after, s)) := by
    change on ((create vdag).hoist onRegistry) (r, s) = _
    rw [onRegistryOp, created]
  rw [Processor.onPersistCases, hosted]

/- One mapping that was not refused, from the claim to the record it leaves. -/
structure Mapped (vdag : Definition) (before : MemoryRegistry × σ) (answer : Outcome Definition)
    (after : MemoryRegistry × σ) where
  uri : VdagUri
  claimed : MemoryRegistry
  planned : Outcome (Assignment × CompiledGraph)
  read : MemoryRegistry × σ
  valid : vdag.validate = .ok ()
  named : vdag.uri? = some uri
  granted : Granted uri before.1 claimed
  plan : on (outside.processor.plan vdag) (claimed, before.2) = (planned, read)
  stored : Stored uri (Processor.recordOf vdag planned) read.1 after.1
  answered : answer = planned.map (fun _ => Processor.recordOf vdag planned)

theorem onNamed {vdag : Definition} {uri : VdagUri} (valid : vdag.validate = .ok ()) (named : vdag.uri? = some uri)
    (w : MemoryRegistry × σ) :
    on (outside.processor.mapToBlocks vdag) w =
      on (outside.processor.registry.claim uri >>= fun _ => outside.processor.afterClaim uri vdag) w := by
  rw [Processor.mapToBlocksClaims, onBind, onOutcome, valid]
  dsimp only
  rw [onBind, onOutcome, requireUriOk.mpr named]

theorem claimedMaps {vdag : Definition} {uri : VdagUri} {before : MemoryRegistry × σ} {claimed : MemoryRegistry}
    (valid : vdag.validate = .ok ()) (named : vdag.uri? = some uri) (granted : Granted uri before.1 claimed) :
    Nonempty (outside.Mapped vdag before (on (outside.processor.afterClaim uri vdag) (claimed, before.2)).1
      (on (outside.processor.afterClaim uri vdag) (claimed, before.2)).2) := by
  obtain ⟨planned, ⟨read, s⟩, plan⟩ : ∃ planned read,
      on (outside.processor.plan vdag) (claimed, before.2) = (planned, read) := ⟨_, _, rfl⟩
  have same : read.vdags = claimed.vdags := (readsSame ((asksRead outside).planRelated vdag) plan).1
  have vacant : read.stored? uri = none := by
    rw [stored?, same]
    exact (granted.records uri).trans (if_pos rfl)
  have recorded : (Processor.recordOf vdag planned).uri? = some uri := (Processor.recordUri vdag planned).trans named
  rcases createCases recorded read with ⟨_, _, present⟩ | ⟨after, created, stored⟩
  · exact absurd vacant present
  · have persisted := onPersist outside uri s created
    have ended : on (outside.processor.afterClaim uri vdag) (claimed, before.2) =
        (planned.map (fun _ => Processor.recordOf vdag planned), (after, s)) := by
      rw [Processor.afterClaim, onBind, onLift, plan]
      dsimp only
      rw [onBind, onLift, persisted]
      cases planned <;> rfl
    rw [ended]
    exact ⟨⟨uri, claimed, planned, (read, s), valid, named, granted, plan, stored, rfl⟩⟩

theorem refusedMaps {vdag : Definition} {r : MemoryRegistry} {s : σ} {failure : Failure}
    (refused : r.admits vdag = .error failure) :
    on (outside.processor.mapToBlocks vdag) (r, s) = (.error failure, (r, s)) := by
  rw [Processor.mapToBlocksClaims]
  rcases admitsFails refused with invalid | ⟨valid, unnamed | ⟨uri, named, claimed⟩⟩
  · rw [invalid]
    rfl
  · rw [valid, unnamed]
    rfl
  · rw [valid, named]
    change on (outside.processor.registry.claim uri >>= _) (r, s) = _
    rw [onBind, onClaim, claimed]

theorem admittedMaps {vdag : Definition} {r : MemoryRegistry} {s : σ} {uri : VdagUri}
    (admitted : r.admits vdag = .ok uri) :
    ∃ mapped : outside.Mapped vdag (r, s) (on (outside.processor.mapToBlocks vdag) (r, s)).1
      (on (outside.processor.mapToBlocks vdag) (r, s)).2, mapped.uri = uri := by
  obtain ⟨valid, named, claimed, taken, granted⟩ := admitsOk admitted
  rw [onNamed outside valid named, onBind, onClaim, taken]
  obtain ⟨mapped⟩ : Nonempty (outside.Mapped vdag (r, s) _ _) := claimedMaps outside valid named granted
  exact ⟨mapped, Option.some.inj (mapped.named.symm.trans named)⟩

theorem mapCases (vdag : Definition) (r : MemoryRegistry) (s : σ) :
    (∃ failure, on (outside.processor.mapToBlocks vdag) (r, s) = (.error failure, (r, s))) ∨
      Nonempty (outside.Mapped vdag (r, s) (on (outside.processor.mapToBlocks vdag) (r, s)).1
        (on (outside.processor.mapToBlocks vdag) (r, s)).2) := by
  cases admitted : r.admits vdag with
  | error failure => exact .inl ⟨failure, refusedMaps outside admitted⟩
  | ok uri =>
    obtain ⟨mapped, _⟩ := admittedMaps outside (s := s) admitted
    exact .inr ⟨mapped⟩

end Surroundings

end Vdag
