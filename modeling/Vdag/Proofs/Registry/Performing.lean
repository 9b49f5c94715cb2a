import Vdag.Proofs.Registry.Hosting
import Vdag.Proofs.Registry.Running

/-! A run with nobody in between is the processor itself: performing its calls one after the other does what mapping
a vDAG does, with the same answer and the same effects. -/
namespace Vdag
open Vdag.Action

variable {σ α β : Type} (outside : Surroundings σ)

def Request.perform : (request : Request) → Hosted σ request.Answer
  | .get uri => (outside.processor.registry.get uri).run
  | .create vdag => (outside.processor.registry.create vdag).run
  | .update uri vdag => (outside.processor.registry.update uri vdag).run
  | .delete uri => (outside.processor.registry.delete uri).run
  | .query filter => (outside.processor.registry.query filter).run
  | .claim uri => (outside.processor.registry.claim uri).run
  | .release uri => outside.processor.registry.release uri
  | .reach => outside.processor.registry.reach
  | .search rule => (outside.processor.search.search rule).run
  | .resolve adjacency => (outside.processor.discovery.resolve adjacency).run

namespace Paused

def perform : Paused α → Hosted σ α
  | .done a => pure a
  | .ask request next => do perform (next (← request.perform outside))

theorem performBind (run : Paused α) (f : α → Paused β) :
    (run >>= f).perform outside = run.perform outside >>= fun a => (f a).perform outside := by
  induction run with
  | done a => rfl
  | ask request next ih =>
    change (request.perform outside >>= fun answer => (next answer >>= f).perform outside) = _
    simp only [ih]
    exact (bind_assoc _ _ _).symm

theorem performCall (request : Request) : (call request).perform outside = request.perform outside := bind_pure _

theorem performMap (f : α → β) (run : Paused α) : (f <$> run).perform outside = f <$> run.perform outside :=
  (performBind outside run (fun a => .done (f a))).trans (bind_pure_comp f _)

theorem asksPerform : processor.Asks outside.processor (fun x y => x.run.perform outside = y.run) where
  outcome _ := rfl
  bind {_ _ x y f g} first later := by
    rw [ExceptT.run_bind, ExceptT.run_bind, performBind, first]
    refine bind_congr (fun outcome => ?_)
    cases outcome with
    | ok a => exact later a
    | error failure => rfl
  adapt f same := (performMap outside _ _).trans (congrArg _ same)
  get _ := performCall outside _
  reach := (performMap outside _ _).trans (congrArg _ (performCall outside .reach))
  search _ := performCall outside _
  resolve _ := performCall outside _

theorem performPersist (uri : VdagUri) (vdag : Definition) :
    (processor.persist uri vdag).run.perform outside = (outside.processor.persist uri vdag).run := by
  refine (performBind outside (call (.create vdag)) _).trans ?_
  rw [performCall]
  refine bind_congr (fun outcome => ?_)
  cases outcome with
  | ok _ => rfl
  | error failure =>
    refine (performBind outside (call (.release uri)) _).trans ?_
    rw [performCall]
    rfl

theorem performMapping (vdag : Definition) :
    (mapping vdag).perform outside = (outside.processor.mapToBlocks vdag).run :=
  (asksPerform outside).mappingRelated (fun same => (performMap outside _ _).trans (congrArg _ same))
    (fun uri => performCall outside (.claim uri)) (performPersist outside) vdag

end Paused

theorem Request.performServed (request : Request) (r : MemoryRegistry) (s : σ) :
    ∃ answers s', request.perform outside (r, s) =
      ((request.serve answers r).1, ((request.serve answers r).2, s')) := by
  cases request with
  | get | create | update | delete | query | claim | release => exact ⟨⟨.ok [], .ok .empty, 0⟩, s, rfl⟩
  | reach => exact ⟨⟨.ok [], .ok .empty, r.vdags.size⟩, s, rfl⟩
  | search rule => exact ⟨⟨(on (outside.search.search rule) s).1, .ok .empty, 0⟩, _, rfl⟩
  | resolve adjacency => exact ⟨⟨.ok [], (on (outside.discovery.resolve adjacency) s).1, 0⟩, _, rfl⟩

def Run.calls (run : Run) (r : MemoryRegistry) : List Answers → Run × MemoryRegistry
  | [] => (run, r)
  | outside :: rest => calls (run.call outside r).1 (run.call outside r).2 rest

theorem Run.callsPerform (rest : Paused (Outcome Definition)) (held : Option VdagUri) (r : MemoryRegistry) (s : σ) :
    ∃ order left, Run.calls ⟨held, rest⟩ r order =
      (⟨left, .done (rest.perform outside (r, s)).1⟩, (rest.perform outside (r, s)).2.1) := by
  induction rest generalizing held r s with
  | done outcome => exact ⟨[], held, rfl⟩
  | ask request next ih =>
    obtain ⟨answers, s', served⟩ := request.performServed outside r s
    obtain ⟨order, left, ran⟩ := ih (request.serve answers r).1
      (request.holding (request.serve answers r).1 held) (request.serve answers r).2 s'
    refine ⟨answers :: order, left, ran.trans ?_⟩
    have step : (Paused.ask request next).perform outside (r, s) =
        (next (request.serve answers r).1).perform outside ((request.serve answers r).2, s') := by
      change (request.perform outside >>= fun answer => (next answer).perform outside) (r, s) = _
      change (next (request.perform outside (r, s)).1).perform outside (request.perform outside (r, s)).2 = _
      rw [served]
    rw [step]

theorem Run.aloneMaps (vdag : Definition) (r : MemoryRegistry) (s : σ) :
    ∃ order, (Run.calls (.start vdag) r order).1.returned? = some (on (outside.processor.mapToBlocks vdag) (r, s)).1 ∧
      (Run.calls (.start vdag) r order).2 = (on (outside.processor.mapToBlocks vdag) (r, s)).2.1 := by
  obtain ⟨order, left, ran⟩ := Run.callsPerform outside (.mapping vdag) none r s
  rw [Paused.performMapping] at ran
  refine ⟨order, ?_⟩
  rw [Run.start, ran]
  exact ⟨rfl, rfl⟩

end Vdag
