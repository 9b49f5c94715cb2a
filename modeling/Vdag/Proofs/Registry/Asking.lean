import Vdag.Proofs.Registry.Performing

/-! What a run asks, call after call, when all its calls are performed with nobody in between. -/
namespace Vdag
open Vdag.Action

variable {σ α β : Type} (outside : Surroundings σ)

namespace Paused

def asked : Paused α → MemoryRegistry × σ → List Request
  | .done _, _ => []
  | .ask request next, w =>
      request :: (next (request.perform outside w).1).asked (request.perform outside w).2

theorem askedBind (run : Paused α) (f : α → Paused β) (w : MemoryRegistry × σ) :
    (run >>= f).asked outside w =
      run.asked outside w ++ (f (run.perform outside w).1).asked outside (run.perform outside w).2 := by
  induction run generalizing w with
  | done a => rfl
  | ask request next ih => exact congrArg (request :: ·) (ih _ _)

theorem askedThen {x : Action Paused α} {y : Action (Hosted σ) α} (same : x.run.perform outside = y.run)
    (f : α → Action Paused β) (w : MemoryRegistry × σ) :
    (x >>= f).run.asked outside w = x.run.asked outside w ++ match on y w with
      | (.ok a, after) => (f a).run.asked outside after
      | (.error _, _) => [] := by
  have ran : y.run w = on y w := rfl
  rw [ExceptT.run_bind, askedBind, same, ran]
  rcases on y w with ⟨_ | a, after⟩
  · rfl
  · rfl

theorem askedLast {x : Action Paused α} {y : Action (Hosted σ) α} (same : x.run.perform outside = y.run)
    (f : α → Action Paused β) (silent : ∀ a w, (f a).run.asked outside w = []) (w : MemoryRegistry × σ) :
    (x >>= f).run.asked outside w = x.run.asked outside w := by
  rw [askedThen outside same]
  rcases on y w with ⟨_ | a, after⟩
  · exact List.append_nil _
  · exact (congrArg _ (silent a after)).trans (List.append_nil _)

end Paused

end Vdag
