import Vdag.Proofs.Planning
import Vdag.Proofs.Registry.Operations

/-! A processor whose registry is in memory. Searches and discovery are whatever surrounds it: they keep a state of
their own, answer or fail as they like, and have no way to reach the registry. -/
namespace Vdag
open Vdag.Action

structure Surroundings (σ : Type) where
  search : SearchPolicy (StateM σ)
  discovery : Discovery (StateM σ)

abbrev Hosted (σ : Type) := StateM (MemoryRegistry × σ)

namespace Surroundings

variable {σ α : Type}

def onRegistry {α : Type} (op : StateM MemoryRegistry α) : Hosted σ α := fun w =>
  let (answer, registry) := op w.1
  (answer, (registry, w.2))

def onOutside {α : Type} (op : StateM σ α) : Hosted σ α := fun w =>
  let (answer, outside) := op w.2
  (answer, (w.1, outside))

def processor (outside : Surroundings σ) : Processor (Hosted σ) where
  registry := MemoryRegistry.service.hoist onRegistry
  search := ⟨fun rule => (outside.search.search rule).hoist onOutside⟩
  discovery := ⟨fun adjacency => (outside.discovery.resolve adjacency).hoist onOutside⟩

theorem onRegistryOp (op : MemoryRegistry.Op α) (r : MemoryRegistry) (s : σ) :
    on (op.hoist onRegistry) (r, s) = ((on op r).1, ((on op r).2, s)) := rfl

theorem onClaim (outside : Surroundings σ) (uri : VdagUri) (r : MemoryRegistry) (s : σ) :
    on (outside.processor.registry.claim uri) (r, s) =
      ((on (MemoryRegistry.claim uri) r).1, ((on (MemoryRegistry.claim uri) r).2, s)) := rfl

def Outside {α : Type} (x : Action (StateM σ) α) (y : Action (Hosted σ) α) : Prop :=
  ∀ r s, on y (r, s) = ((on x s).1, (r, (on x s).2))

theorem consultsOutside (outside : Surroundings σ) :
    Consults outside.search outside.processor.search outside.discovery outside.processor.discovery Outside where
  outcome _ _ _ := rfl
  bind {_ _ x _ _ _} first later r s := by
    rw [onBind, onBind, first]
    rcases on x s with ⟨_ | a, s'⟩
    · rfl
    · exact later a r s'
  adapt f same r s := by rw [onAdapt, onAdapt, same]
  search _ _ _ := rfl
  resolve _ _ _ := rfl

def Untouched (before after : MemoryRegistry × σ) : Prop := MemoryRegistry.Same before.1 after.1

def Reads {α : Type} (action : Action (Hosted σ) α) : Prop := Keeps Untouched action

theorem Reads.bind {β : Type} {action : Action (Hosted σ) α} {next : α → Action (Hosted σ) β} (first : Reads action)
    (later : ∀ a, Reads (next a)) : Reads (action >>= next) :=
  Keeps.bind (fun ab bc => MemoryRegistry.Same.trans ab bc) first later

theorem asksRead (outside : Surroundings σ) :
    outside.processor.Asks outside.processor (fun action _ => Reads action) where
  outcome outcome := Keeps.outcomeKeeps (fun w => .refl w.1) outcome
  bind first later := first.bind later
  adapt _ reads := reads
  get _ _ := ⟨rfl, rfl, rfl⟩
  reach w := .refl w.1
  search _ w := .refl w.1
  resolve _ w := .refl w.1

theorem readsSame {action : Action (Hosted σ) α} (reads : Reads action) {before after : MemoryRegistry × σ}
    {answer : Outcome α} (ran : on action before = (answer, after)) : MemoryRegistry.Same before.1 after.1 := by
  have same := reads before
  rw [ran] at same
  exact same

end Surroundings

end Vdag
