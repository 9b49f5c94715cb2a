import Vdag.Proofs.Effects
import Vdag.Proofs.Planning

/-! A processor that works in one part of a larger state. What it does there is what it does alone, and the rest of the
state stays as it is. -/
namespace Vdag
open Vdag.Action

structure Part (τ σ : Type) where
  get : τ → σ
  put : τ → σ → τ
  getPut : ∀ state part, get (put state part) = part
  putGet : ∀ state, put state (get state) = state
  putPut : ∀ state first second, put (put state first) second = put state second

namespace Part

variable {τ σ α : Type} (part : Part τ σ)

def lift {α : Type} (op : StateM σ α) : StateM τ α := fun state =>
  let (answer, after) := op (part.get state)
  (answer, part.put state after)

/- An action on the part, and one on the whole that does the same. -/
def Same {α : Type} (x : Action (StateM σ) α) (y : Action (StateM τ) α) : Prop :=
  ∀ state, on y state = ((on x (part.get state)).1, part.put state (on x (part.get state)).2)

theorem sameHoist (action : Action (StateM σ) α) : part.Same action (action.hoist part.lift) := fun _ => rfl

theorem sameOutcome (outcome : Outcome α) : part.Same (ofOutcome outcome) (ofOutcome outcome) := by
  intro state
  rw [onOutcome, onOutcome, part.putGet]

theorem sameBind {β : Type} {x : Action (StateM σ) α} {y : Action (StateM τ) α} {f : α → Action (StateM σ) β}
    {g : α → Action (StateM τ) β} (first : part.Same x y) (later : ∀ a, part.Same (f a) (g a)) :
    part.Same (x >>= f) (y >>= g) := by
  intro state
  rw [onBind, onBind, first]
  rcases on x (part.get state) with ⟨_ | a, after⟩
  · rfl
  · dsimp only
    rw [later, part.getPut, part.putPut]

theorem sameLift {x : Action (StateM σ) α} {y : Action (StateM τ) α} (same : part.Same x y) :
    part.Same (ExceptT.lift x.run) (ExceptT.lift y.run) := by
  intro state
  rw [onLift, onLift, same]

end Part

namespace Processor

variable {τ σ : Type}

def hoist {m n : Type → Type} [Monad m] (lift : {β : Type} → m β → n β) (p : Processor m) : Processor n where
  registry := p.registry.hoist lift
  search := ⟨fun rule => (p.search.search rule).hoist lift⟩
  discovery := ⟨fun adjacency => (p.discovery.resolve adjacency).hoist lift⟩

variable (part : Part τ σ) (p : Processor (StateM σ))

theorem asksPart : p.Asks (p.hoist part.lift) part.Same where
  outcome := part.sameOutcome
  bind := part.sameBind
  adapt f same state := by rw [onAdapt, onAdapt, same]
  search rule := part.sameHoist (p.search.search rule)
  resolve adjacency := part.sameHoist (p.discovery.resolve adjacency)
  get uri := part.sameHoist (p.registry.get uri)
  reach _ := rfl

theorem onPersistCases (uri : VdagUri) (vdag : Definition) (state : σ) :
    on (p.persist uri vdag) state = match on (p.registry.create vdag) state with
      | (.ok (), after) => (.ok (), after)
      | (.error failure, after) => (.error failure, (p.registry.release uri after).2) := by
  rcases created : on (p.registry.create vdag) state with ⟨failure | _, after⟩
  all_goals
    have created : (p.registry.create vdag).run state = _ := created
    change (ExceptT.run (p.persist uri vdag)) state = _
    simp only [Processor.persist, ExceptT.run_mk, bind, StateT.bind]
    rw [created]
    rfl

theorem samePersist (uri : VdagUri) (vdag : Definition) :
    part.Same (p.persist uri vdag) ((p.hoist part.lift).persist uri vdag) := by
  intro state
  have created : on ((p.hoist part.lift).registry.create vdag) state = _ :=
    part.sameHoist (p.registry.create vdag) state
  rw [onPersistCases, onPersistCases, created]
  rcases on (p.registry.create vdag) (part.get state) with ⟨failure | _, after⟩
  · dsimp only
    change (_, part.put (part.put state after) (p.registry.release uri (part.get (part.put state after))).2) = _
    rw [part.getPut, part.putPut]
  · rfl

theorem sameMapping (vdag : Definition) :
    part.Same (p.mapToBlocks vdag) ((p.hoist part.lift).mapToBlocks vdag) :=
  (p.asksPart part).mappingRelated part.sameLift (fun _ => part.sameHoist _) (p.samePersist part) vdag

end Processor

end Vdag
