import Vdag.Proofs.Registry.DryRun
import Vdag.Proofs.Registry.EmbeddingOrder

/-! One submission to a registry. It is refused before anything is asked outside, and then nothing has changed; or it
changes the record under its own name and no other, whatever planning comes to. -/
namespace Vdag
open Vdag.Action

namespace Surroundings

variable {σ : Type} {outside : Surroundings σ} {vdag : Definition} {r : MemoryRegistry} {s : σ}

theorem Mapped.claimsKept {before after : MemoryRegistry × σ} {answer : Outcome Definition}
    (mapped : outside.Mapped vdag before answer after) : after.1.claimed = before.1.claimed := by
  have kept : mapped.read.1.claimed = mapped.claimed.claimed :=
    (readsSame ((asksRead outside).planRelated vdag) mapped.plan).2.1
  rw [mapped.stored.claimed, kept, mapped.granted.claimed, List.filter_cons_of_neg (by simp)]
  refine List.filter_eq_self.mpr (fun other member => ?_)
  have apart : other ≠ mapped.uri := fun same => mapped.granted.unclaimed (same ▸ member)
  exact decide_eq_true apart

theorem Mapped.comesTo {answer : Outcome Definition} {after : MemoryRegistry × σ}
    (mapped : outside.Mapped vdag (r, s) answer after) {planned : Outcome (Assignment × CompiledGraph)}
    (plan : (on (outside.processor.plan vdag) (r, s)).1 = planned) :
    after.1.stored? mapped.uri = some (Processor.recordOf vdag planned) ∧
      answer = planned.map (fun _ => Processor.recordOf vdag planned) := by
  have alike := planAlike outside mapped.named
    (fun other ne => (mapped.granted.records other).trans (if_neg ne)) s
  rw [mapped.plan, plan] at alike
  rw [← alike]
  exact ⟨mapped.ownStored, mapped.answered⟩

variable (outside)

theorem refusedAsks {failure : Failure} (refused : r.admits vdag = .error failure) :
    ∀ request ∈ (Paused.mapping vdag).asked outside (r, s), ∃ uri, request = .claim uri := by
  suffices (Paused.mapping vdag).asked outside (r, s) = [] ∨
      ∃ uri, (Paused.mapping vdag).asked outside (r, s) = [.claim uri] by
    rcases this with none | ⟨uri, claim⟩
    · rw [none]
      exact fun _ member => absurd member List.not_mem_nil
    · rw [claim]
      exact fun request member => ⟨uri, List.mem_singleton.mp member⟩
  rw [Paused.mapping, Processor.mapToBlocksClaims]
  rcases MemoryRegistry.admitsFails refused with invalid | ⟨valid, unnamed | ⟨uri, named, claimed⟩⟩
  · rw [invalid]
    exact .inl rfl
  · rw [valid, unnamed]
    exact .inl rfl
  · have performed : (Paused.processor.registry.claim uri).run.perform outside =
        (outside.processor.registry.claim uri).run := Paused.performCall outside (.claim uri)
    rw [valid, named]
    change (_ ∨ ∃ own, (Paused.processor.registry.claim uri >>= _).run.asked outside (r, s) = _)
    rw [Paused.askedThen outside performed, onClaim, claimed]
    exact .inr ⟨uri, rfl⟩

/- What a submission leaves that was not refused: the record under its name is what was submitted with what planning
comes to, and nothing else has changed. -/
structure Settled (outside : Surroundings σ) (uri : VdagUri) (vdag : Definition) (r : MemoryRegistry) (s : σ)
    (answer : Outcome Definition) (after : MemoryRegistry) : Prop where
  named : vdag.uri? = some uri
  claims : after.claimed = r.claimed
  others : ∀ other, other ≠ uri → after.stored? other = r.stored? other
  assigned : ∀ assignment compiled, (on (outside.processor.plan vdag) (r, s)).1 = .ok (assignment, compiled) →
    after.stored? uri = some { vdag with assignment, compiled := some compiled, status := .assigned } ∧
      answer = .ok { vdag with assignment, compiled := some compiled, status := .assigned }
  failed : ∀ failure, (on (outside.processor.plan vdag) (r, s)).1 = .error failure →
    after.stored? uri = some { vdag with assignment := .empty, compiled := none, status := .failed } ∧
      answer = .error failure

/- One that is refused changes nothing, and a claim is all that it asks for. What a vDAG carries of a plan from before
makes no difference to either. -/
structure Atomic (outside : Surroundings σ) (vdag : Definition) (r : MemoryRegistry) (s : σ)
    (answer : Outcome Definition) (after : MemoryRegistry × σ) : Prop where
  refused : ∀ failure, r.admits vdag = .error failure → answer = .error failure ∧ after = (r, s) ∧
    ∀ request ∈ (Paused.mapping vdag).asked outside (r, s), ∃ uri, request = .claim uri
  settled : ∀ uri, r.admits vdag = .ok uri → outside.Settled uri vdag r s answer after.1
  disregards : ∀ status assignment compiled,
    on (outside.processor.mapToBlocks { vdag with status, assignment, compiled }) (r, s) = (answer, after)

variable {outside}

theorem Mapped.settledMapped {answer : Outcome Definition} {after : MemoryRegistry × σ}
    (mapped : outside.Mapped vdag (r, s) answer after) : outside.Settled mapped.uri vdag r s answer after.1 where
  named := mapped.named
  claims := mapped.claimsKept
  others _ := mapped.othersKept
  assigned _ _ plan := mapped.comesTo plan
  failed _ plan := mapped.comesTo plan

theorem mapsAtomically (outside : Surroundings σ) (vdag : Definition) (r : MemoryRegistry) (s : σ) :
    outside.Atomic vdag r s (on (outside.processor.mapToBlocks vdag) (r, s)).1
      (on (outside.processor.mapToBlocks vdag) (r, s)).2 where
  refused failure refused := by
    rw [refusedMaps outside refused]
    exact ⟨rfl, rfl, refusedAsks outside refused⟩
  settled uri admitted := by
    obtain ⟨mapped, rfl⟩ := admittedMaps outside (s := s) admitted
    exact mapped.settledMapped
  disregards _ _ _ := rfl

example : ((on (sampleOutside.processor.mapToBlocks { sampleTop with status := .active })
    (sampleRecords, ())).2.1.stored? ⟨"top:1-a"⟩).map Definition.status = some .assigned := by decide +kernel

end Surroundings

end Vdag
