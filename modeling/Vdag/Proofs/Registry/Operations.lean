import Vdag.Memory.Registry
import Vdag.Proofs.Effects
import Vdag.Proofs.Outcome
import Vdag.Proofs.SortedMap

/-! What the operations of a registry in memory do to its records and claims. -/
namespace Vdag.MemoryRegistry
open Vdag.Action

def stored? (r : MemoryRegistry) (uri : VdagUri) : Option Definition := r.vdags.find? uri

def Same (before after : MemoryRegistry) : Prop :=
  after.vdags = before.vdags ∧ after.claimed = before.claimed ∧ after.deletes = before.deletes

theorem Same.refl (r : MemoryRegistry) : Same r r := ⟨rfl, rfl, rfl⟩

theorem Same.trans {a b c : MemoryRegistry} (first : Same a b) (last : Same b c) : Same a c :=
  ⟨last.1.trans first.1, last.2.1.trans first.2.1, last.2.2.trans first.2.2⟩

theorem requireUriOk {vdag : Definition} {uri : VdagUri} : vdag.requireUri = .ok uri ↔ vdag.uri? = some uri := by
  unfold Definition.requireUri
  cases vdag.uri? <;> simp

structure Granted (uri : VdagUri) (before after : MemoryRegistry) : Prop where
  unclaimed : uri ∉ before.claimed
  replaceable : ∀ stored, before.stored? uri = some stored → stored.status.allowsResubmission = true
  claimed : after.claimed = uri :: before.claimed
  records : ∀ other, after.stored? other = if other = uri then none else before.stored? other

theorem storedRemove (r : MemoryRegistry) (uri other : VdagUri) :
    (r.remove uri).stored? other = if other = uri then none else r.stored? other :=
  SortedMap.findErase r.vdags uri other

theorem claimCases (uri : VdagUri) (r : MemoryRegistry) :
    (∃ failure, on (claim uri) r = (.error failure, r)) ∨
      ∃ after, on (claim uri) r = (.ok (), after) ∧ Granted uri r after := by
  have records : r.vdags.find? uri = r.stored? uri := rfl
  simp only [on, claim, ExceptT.run_mk, StateT.run, records]
  split
  · exact .inl ⟨_, rfl⟩
  · rename_i unclaimed
    cases found : r.stored? uri with
    | none =>
      refine .inr ⟨r.mark uri, rfl, unclaimed, fun stored h => ?_, rfl, fun other => ?_⟩
      · rw [found] at h
        cases h
      · split
        · subst other; exact found
        · rfl
    | some stored =>
      cases allowed : stored.status.allowsResubmission with
      | false => exact .inl ⟨_, by simp [Registry.refuseRunning, allowed]; rfl⟩
      | true =>
        refine .inr ⟨(r.remove uri).mark uri, by simp [Registry.refuseRunning, allowed], unclaimed, fun other h => ?_,
          rfl, storedRemove r uri⟩
        rw [found] at h
        cases h
        exact allowed

/- What decides whether a vDAG is planned at all: its own checks, its name, and the claim. -/
def admits (r : MemoryRegistry) (vdag : Definition) : Outcome VdagUri := do
  vdag.validate
  let uri ← vdag.requireUri
  (on (claim uri) r).1
  return uri

theorem admitsOk {r : MemoryRegistry} {vdag : Definition} {uri : VdagUri} (ok : r.admits vdag = .ok uri) :
    vdag.validate = .ok () ∧ vdag.uri? = some uri ∧
      ∃ claimed, on (claim uri) r = (.ok (), claimed) ∧ Granted uri r claimed := by
  obtain ⟨_, valid, ok⟩ := Outcome.bindOk.mp ok
  obtain ⟨named, required, ok⟩ := Outcome.bindOk.mp ok
  obtain ⟨_, granted, last⟩ := Outcome.bindOk.mp ok
  cases last
  rcases claimCases uri r with ⟨failure, refused⟩ | taken
  · rw [refused] at granted
    cases granted
  · exact ⟨valid, requireUriOk.mp required, taken⟩

theorem admitsFails {r : MemoryRegistry} {vdag : Definition} {failure : Failure}
    (failed : r.admits vdag = .error failure) :
    vdag.validate = .error failure ∨ vdag.validate = .ok () ∧ (vdag.requireUri = .error failure ∨
      ∃ uri, vdag.requireUri = .ok uri ∧ on (claim uri) r = (.error failure, r)) := by
  rcases Outcome.bindFails.mp failed with invalid | ⟨_, valid, failed⟩
  · exact .inl invalid
  · refine .inr ⟨valid, ?_⟩
    rcases Outcome.bindFails.mp failed with unnamed | ⟨uri, named, failed⟩
    · exact .inl unnamed
    · rcases Outcome.bindFails.mp failed with refused | ⟨_, _, last⟩
      · rcases claimCases uri r with ⟨other, ran⟩ | ⟨_, ran, _⟩
        · rw [ran] at refused
          cases refused
          exact .inr ⟨uri, named, ran⟩
        · rw [ran] at refused
          cases refused
      · cases last

structure Stored (uri : VdagUri) (vdag : Definition) (before after : MemoryRegistry) : Prop where
  vacant : before.stored? uri = none
  claimed : after.claimed = before.claimed.filter (· ≠ uri)
  records : ∀ other, after.stored? other = if other = uri then some vdag else before.stored? other

theorem createCases {vdag : Definition} {uri : VdagUri} (named : vdag.uri? = some uri) (r : MemoryRegistry) :
    (∃ failure, on (create vdag) r = (.error failure, r) ∧ r.stored? uri ≠ none) ∨
      ∃ after, on (create vdag) r = (.ok (), after) ∧ Stored uri vdag r after := by
  simp only [on, create, ExceptT.run_mk, StateT.run, requireUriOk.mpr named]
  split
  · rename_i present
    refine .inl ⟨_, rfl, fun vacant => ?_⟩
    rw [SortedMap.contains, show r.vdags.find? uri = none from vacant] at present
    cases present
  · rename_i absent
    refine .inr ⟨_, rfl, by simpa [SortedMap.contains, stored?] using absent, rfl, ?_⟩
    exact fun other => SortedMap.findInsert r.vdags uri other vdag

theorem deleteCases (uri : VdagUri) (r : MemoryRegistry) :
    (on (delete uri) r = (.ok (), r.remove uri) ∧ r.stored? uri ≠ none) ∨
      ∃ failure, on (delete uri) r = (.error failure, r) := by
  simp only [on, delete, ExceptT.run_mk, StateT.run]
  split
  · rename_i present
    refine .inl ⟨rfl, fun vacant => ?_⟩
    rw [SortedMap.contains, show r.vdags.find? uri = none from vacant] at present
    cases present
  · exact .inr ⟨_, rfl⟩

end Vdag.MemoryRegistry
