import Vdag.Proofs.Outcome
import Vdag.Proofs.Registry.Hosting
import Vdag.StagePolicy

/-! The policies of a block, run: what it asks the registry, which rules it then loads, and what it remembers of
them. -/
namespace Vdag
open Vdag.Action

namespace PolicyBook

variable {σ π : Type}

theorem onPolicyFor (book : PolicyBook (StateM σ) π) (uri : VdagUri) (stage : Stage) (s : σ) (cache : PolicyCache π) :
    on (joined (book.policyFor uri stage)) (s, cache) =
      match cache.get (book.clock.run s).1 (uri, stage) with
      | (some policy, cache) => (.ok policy, ((book.clock.run s).2, cache))
      | (none, cache) => match on (book.load uri) (book.clock.run s).2 with
        | (.error failure, s) => (.error failure, (s, (invalidate uri cache).2))
        | (.ok loaded, s) =>
          (.ok (select stage loaded), ((book.clock.run s).2, remember (book.clock.run s).1 uri loaded cache)) := by
  rcases ticked : book.clock s with ⟨now, s'⟩
  rcases found : cache.get now (uri, stage) with ⟨_ | policy, cache'⟩
  · simp only [on, joined, policyFor, ExceptT.run_mk, StateT.run, bind, StateT.bind, ticked, found]
    rcases ran : ExceptT.run (book.load uri) s' with ⟨_ | loaded, s''⟩
    all_goals rfl
  · simp only [on, joined, policyFor, ExceptT.run_mk, StateT.run, bind, StateT.bind, ticked, found]
    rfl

theorem policyForFails {book : PolicyBook (StateM σ) π} {uri : VdagUri} {stage : Stage} {s : σ} {cache : PolicyCache π}
    {failure : Failure} (fails : (on (joined (book.policyFor uri stage)) (s, cache)).1 = .error failure) :
    (on (book.load uri) (book.clock.run s).2).1 = .error failure := by
  rw [onPolicyFor] at fails
  rcases found : cache.get (book.clock.run s).1 (uri, stage) with ⟨_ | policy, cache'⟩
  · rcases loaded : on (book.load uri) (book.clock.run s).2 with ⟨other | rules, s'⟩
    · simp only [found, loaded] at fails
      cases fails
      rfl
    · simp [found, loaded] at fails
  · simp [found] at fails

end PolicyBook

namespace PolicyService

variable {m : Type → Type} [Monad m] {π : Type}

def loadRule (policies : PolicyService m π) : Option PolicyRule → Action m (Option π)
  | none => return none
  | some rule => return some (← policies.load rule)

def loadNode (policies : PolicyService m π) (node : Node) : Action m (Option π × Option π) := do
  let before ← policies.loadRule node.preprocessingRule
  let after ← policies.loadRule node.postprocessingRule
  return (before, after)

variable {τ : Type} {policies : PolicyService (StateM τ) π} {s : τ} {failure : Failure}

theorem loadRuleFails {rule? : Option PolicyRule} (fails : (on (policies.loadRule rule?) s).1 = .error failure) :
    ∃ rule, rule? = some rule ∧ (on (policies.load rule) s).1 = .error failure := by
  cases rule? with
  | none => cases fails
  | some rule =>
    rw [loadRule, onBindPure] at fails
    exact ⟨rule, rfl, Outcome.mapFails.mp fails⟩

theorem loadNodeFails {node : Node} (fails : (on (policies.loadNode node) s).1 = .error failure) :
    ∃ rule s', (node.preprocessingRule = some rule ∨ node.postprocessingRule = some rule) ∧
      (on (policies.load rule) s').1 = .error failure := by
  rw [loadNode, onBind] at fails
  rcases first : on (policies.loadRule node.preprocessingRule) s with ⟨other | before, s'⟩
  · simp only [first] at fails
    cases fails
    obtain ⟨rule, named, failed⟩ := loadRuleFails (congrArg Prod.fst first)
    exact ⟨rule, s, .inl named, failed⟩
  · simp only [first] at fails
    rw [onBindPure] at fails
    obtain ⟨rule, named, failed⟩ := loadRuleFails (Outcome.mapFails.mp fails)
    exact ⟨rule, s', .inr named, failed⟩

end PolicyService

namespace PolicyBook

variable {τ π : Type} (block : BlockId) (policies : PolicyService (StateM τ) π) (clock : StateM τ Nat)

def hosted : PolicyBook (Hosted τ) π where
  block
  registry := MemoryRegistry.service.hoist Surroundings.onRegistry
  policies := ⟨fun rule => (policies.load rule).hoist Surroundings.onOutside,
    fun policy input => (policies.evaluate policy input).hoist Surroundings.onOutside⟩
  clock := Surroundings.onOutside clock

theorem onLoadRule (rule : Option PolicyRule) :
    Surroundings.Outside (policies.loadRule rule) ((hosted block policies clock).loadRule rule) := by
  intro r s
  cases rule with
  | none => rfl
  | some rule =>
    rw [PolicyService.loadRule, loadRule, onBindPure, onBindPure]
    rfl

theorem onLoad (uri : VdagUri) (r : MemoryRegistry) (s : τ) :
    on ((hosted block policies clock).load uri) (r, s) =
      match nodeOf block uri (r.stored? uri) with
      | .error failure => (.error failure, ({ r with lookups := r.lookups + 1 }, s))
      | .ok none => (.ok (none, none), ({ r with lookups := r.lookups + 1 }, s))
      | .ok (some node) => ((on (policies.loadNode node) s).1,
          ({ r with lookups := r.lookups + 1 }, (on (policies.loadNode node) s).2)) := by
  have looked : on ((hosted block policies clock).registry.get uri) (r, s) =
      (.ok (r.stored? uri), ({ r with lookups := r.lookups + 1 }, s)) := rfl
  rw [load, onBind, looked]
  dsimp only
  rw [onBind, onOutcome]
  have same : (hosted block policies clock).block = block := rfl
  rw [same]
  cases nodeOf block uri (r.stored? uri) with
  | error failure => rfl
  | ok node =>
    cases node with
    | none => rfl
    | some node =>
      dsimp only
      rw [PolicyService.loadNode, onBind, onBind, onLoadRule]
      rcases on (policies.loadRule node.preprocessingRule) s with ⟨_ | before, s'⟩
      · rfl
      · dsimp only
        rw [onBindPure, onBindPure, onLoadRule]

end PolicyBook

end Vdag
