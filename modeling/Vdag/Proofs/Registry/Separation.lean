import Vdag.Proofs.BlockGraph.Chains
import Vdag.Proofs.Definition.Faults
import Vdag.Proofs.Naming
import Vdag.Proofs.Registry.DryRun
import Vdag.Proofs.Registry.EmbeddingOrder

/-! What mapping one vDAG means for the record of another: nothing, as long as the two have different URIs. A conflict
that mapping answers is about the vDAG itself, or is told by discovery; planning finds none. -/
namespace Vdag
open Vdag.Action MemoryRegistry

def Failure.isConflict : Failure → Bool
  | .conflict .. => true
  | _ => false

def MemoryRegistry.Holds (r : MemoryRegistry) (uri : VdagUri) (failure : Failure) : Prop :=
  uri ∈ r.claimed ∧ failure = .conflict uri.text compiling ∨
    ∃ stored, r.stored? uri = some stored ∧ stored.status.allowsResubmission = false ∧
      failure = .conflict uri.text stored.status.text

theorem MemoryRegistry.claimRefused {uri : VdagUri} {r : MemoryRegistry} {failure : Failure}
    (refused : (on (claim uri) r).1 = .error failure) : r.Holds uri failure := by
  have records : r.vdags.find? uri = r.stored? uri := rfl
  simp only [on, claim, ExceptT.run_mk, StateT.run, records] at refused
  split at refused
  · rename_i claimed
    cases refused
    exact .inl ⟨claimed, rfl⟩
  · cases found : r.stored? uri with
    | none =>
      rw [found] at refused
      cases refused
    | some stored =>
      cases allowed : stored.status.allowsResubmission with
      | false =>
        simp only [found, Registry.refuseRunning, allowed] at refused
        cases refused
        exact .inr ⟨stored, found, allowed, rfl⟩
      | true => simp [found, Registry.refuseRunning, allowed] at refused

namespace Surroundings

variable {σ : Type} (outside : Surroundings σ)

def Discovers (failure : Failure) : Prop :=
  ∃ adjacency s, (on (outside.discovery.resolve adjacency) s).1 = .error failure

def Told (failure : Failure) : Prop := failure.isConflict = true → outside.Discovers failure

theorem toldOther {failure : Failure} (other : failure.isConflict = false) : outside.Told failure := by
  intro conflict
  rw [other] at conflict
  cases conflict

theorem failTold {ρ α : Type} {failure : Failure} (other : failure.isConflict = false) :
    Fails outside.Told (fail failure : Action (StateM ρ) α) := by
  intro _ _ failed
  cases failed
  exact toldOther outside other

theorem targetTold (vdag : String) (node : Node) :
    Fails outside.Told (Assignment.target outside.processor.search vdag node) := by
  have searched : ∀ rule, Fails outside.Told (Assignment.search outside.processor.search vdag node rule) := by
    intro rule
    refine (Fails.adaptFails (fun failure => toldOther outside ?_) _).bind
      (fun found => .outcomeFails (fun failure failed => ?_))
    · cases failure <;> rfl
    · obtain ⟨fault, _, rfl⟩ := Outcome.mapErrorFails.mp failed
      exact toldOther outside rfl
  unfold Assignment.target
  cases node.manualBlock with
  | some block => exact .answerFails _
  | none =>
    cases node.kind.isBlock with
    | true =>
      cases node.searchRule? with
      | some rule => exact (searched rule).bind (fun _ => .answerFails _)
      | none => exact failTold outside rfl
    | false =>
      cases node.embedded with
      | some uri => exact .answerFails _
      | none => exact failTold outside rfl

theorem nodesTold (vdag : String) (nodes : List Node) (found : Assignment) :
    Fails outside.Told (Assignment.resolveNodes outside.processor.search vdag nodes found) := by
  induction nodes generalizing found with
  | nil => exact .answerFails found
  | cons node rest ih => exact (targetTold outside vdag node).bind (fun _ => ih _)

theorem fetchTold (uri : VdagUri) : Fails outside.Told (Closure.fetch outside.processor.registry uri) := by
  refine (Fails.adaptFails (fun _ => toldOther outside rfl) _).bind (fun stored? => ?_)
  cases stored? with
  | none => exact failTold outside rfl
  | some stored =>
    refine .outcomeFails (fun failure failed => ?_)
    unfold Closure.embeddable at failed
    split at failed
    · cases failed
    · cases failed
      exact toldOther outside rfl

theorem loadTold (steps : Nat) (c : Closure) : Fails outside.Told
    (Closure.load outside.processor.registry steps c) := by
  induction steps generalizing c with
  | zero => exact .answerFails c.loaded
  | succ steps ih =>
    unfold Closure.load
    cases c.pending with
    | nil => exact .answerFails c.loaded
    | cons uri rest => exact (fetchTold outside uri).bind (fun _ => ih _)

theorem locateTold (graph : BlockGraph) :
    Fails outside.Told (PhysicalGraph.locate outside.processor.discovery graph) := by
  refine Fails.bind (fun w failure failed _ => ⟨graph.adjacency, w.2, failed⟩) (fun addresses => ?_)
  refine Fails.bind (.outcomeFails (fun failure failed => ?_)) (fun _ => .answerFails _)
  unfold PhysicalGraph.checkCovers at failed
  split at failed
  · cases failed
    exact toldOther outside rfl
  · cases failed

theorem planTold (vdag : Definition) : Fails outside.Told (outside.processor.plan vdag) := by
  refine (nodesTold outside _ _ _).bind (fun assignment => Fails.bind ?_ (fun _ => .answerFails _))
  refine Fails.bind (.outcomeFails (fun failure failed => ?_)) (fun labels => ?_)
  · obtain ⟨entry, _, found, failed⟩ := Outcome.foldlMFails failed
    unfold Assignment.reverseEntry at failed
    split at failed
    · cases failed
      exact toldOther outside rfl
    · cases failed
  · refine Fails.bind (Fails.bind ?_ (fun index => .outcomeFails (fun failure failed => ?_))) (fun graph => ?_)
    · exact Fails.bind (fun _ _ failed => by cases failed) (fun _ => loadTold outside _ _)
    · rcases BlockGraph.withinFaults failed with ⟨fault, rfl⟩ | ⟨fault, rfl⟩ <;> exact toldOther outside rfl
    · exact (locateTold outside graph).bind (fun _ => .answerFails _)

theorem conflictOwn {vdag : Definition} {uri : VdagUri} (named : vdag.uri? = some uri) {r : MemoryRegistry} {s : σ}
    {failure : Failure} (conflict : failure.isConflict = true)
    (failed : (on (outside.processor.mapToBlocks vdag) (r, s)).1 = .error failure) :
    r.Holds uri failure ∨ outside.Discovers failure := by
  cases admitted : r.admits vdag with
  | error refusal =>
    rw [refusedMaps outside admitted] at failed
    cases failed
    rcases admitsFails admitted with invalid | ⟨_, unnamed | ⟨own, required, refused⟩⟩
    · obtain ⟨_, rfl⟩ := Definition.validateFails invalid
      cases conflict
    · cases (requireUriOk.mpr named).symm.trans unnamed
    · cases (requireUriOk.mpr named).symm.trans required
      exact .inl (claimRefused (congrArg Prod.fst refused))
  | ok own =>
    obtain ⟨mapped, _⟩ := admittedMaps outside (s := s) admitted
    rw [mapped.answered] at failed
    have planned := Outcome.mapFails.mp failed
    have plan := congrArg Prod.fst mapped.plan
    exact .inr (planTold outside vdag _ _ (plan.trans planned) conflict)

/- Two vDAGs that differ in name, version or release tag share a URI exactly where one is mistaken for the other. If
neither is, mapping the one leaves the record of the other as it is, and meets no conflict over it. -/
theorem vdagsSeparate {vdag other : Definition} {uri otherUri : VdagUri} (named : vdag.uri? = some uri)
    (otherNamed : other.uri? = some otherUri) (different : ¬ (vdag.name = other.name ∧ vdag.version = other.version)) :
    (uri = otherUri ↔ vdag.MistakenFor other ∨ other.MistakenFor vdag) ∧
      (¬ vdag.MistakenFor other → ¬ other.MistakenFor vdag → uri ≠ otherUri ∧ ∀ r s,
        (on (outside.processor.mapToBlocks vdag) (r, s)).2.1.stored? otherUri = r.stored? otherUri ∧
        ∀ failure, (on (outside.processor.mapToBlocks vdag) (r, s)).1 = .error failure → failure.isConflict = true →
          r.Holds uri failure ∨ outside.Discovers failure) := by
  have shared := Definition.uriShared named otherNamed different
  refine ⟨shared, fun first second => ?_⟩
  have apart : uri ≠ otherUri := fun same => (shared.mp same).elim first second
  refine ⟨apart, fun r s => ⟨?_, fun failure failed conflict => conflictOwn outside named conflict failed⟩⟩
  rcases mapCases outside vdag r s with ⟨failure, refused⟩ | ⟨⟨mapped⟩⟩
  · rw [refused]
  · have own : mapped.uri = uri := Option.some.inj (mapped.named.symm.trans named)
    exact mapped.othersKept (own ▸ apart.symm)

theorem sampleSeparate : sampleTop.uri? = some ⟨"top:1-a"⟩ ∧ sampleLeaf.uri? = some ⟨"leaf:1-a"⟩ ∧
    ¬ (sampleTop.name = sampleLeaf.name ∧ sampleTop.version = sampleLeaf.version) ∧
    ¬ sampleTop.MistakenFor sampleLeaf ∧ ¬ sampleLeaf.MistakenFor sampleTop ∧
    (on (sampleOutside.processor.mapToBlocks sampleTop) (sampleRecords, ())).2.1.stored? ⟨"leaf:1-a"⟩ =
      sampleRecords.stored? ⟨"leaf:1-a"⟩ := by
  have named : sampleTop.uri? = some ⟨"top:1-a"⟩ := by decide +kernel
  have otherNamed : sampleLeaf.uri? = some ⟨"leaf:1-a"⟩ := by decide +kernel
  have different : ¬ (sampleTop.name = sampleLeaf.name ∧ sampleTop.version = sampleLeaf.version) := by decide
  have first : ¬ sampleTop.MistakenFor sampleLeaf := Definition.plainNotMistaken (by decide) (by decide)
  have second : ¬ sampleLeaf.MistakenFor sampleTop := Definition.plainNotMistaken (by decide) (by decide)
  have kept := ((vdagsSeparate sampleOutside named otherNamed different).2 first second).2 sampleRecords ()
  exact ⟨named, otherNamed, different, first, second, kept.1⟩

def sampleVersion : Definition := { sampleLeaf with name := "flow", version := ⟨"x:1", "a"⟩, status := .pending }

def sampleName (status : VdagStatus) : Definition := { sampleLeaf with name := "flow:x", status }

/- The one is refused while the other runs, and takes the place of the other when that has failed. -/
theorem colonShared : (∀ status, sampleVersion.name ≠ (sampleName status).name) ∧
    (∀ status, (sampleName status).uri? = some ⟨"flow:x:1-a"⟩) ∧ sampleVersion.uri? = some ⟨"flow:x:1-a"⟩ ∧
    (on (sampleOutside.processor.mapToBlocks sampleVersion) (MemoryRegistry.empty.store (sampleName .assigned), ())).1 =
      .error (.conflict "flow:x:1-a" "assigned") ∧
    (MemoryRegistry.empty.store (sampleName .failed)).stored? ⟨"flow:x:1-a"⟩ = some (sampleName .failed) ∧
    ∃ record ∈ (on (sampleOutside.processor.mapToBlocks sampleVersion)
        (MemoryRegistry.empty.store (sampleName .failed), ())).2.1.stored? ⟨"flow:x:1-a"⟩,
      record.name = "flow" ∧ record.status = .assigned := by
  refine ⟨fun status => by cases status <;> decide, fun status => by cases status <;> decide +kernel, ?_⟩
  decide +kernel

end Surroundings

end Vdag
