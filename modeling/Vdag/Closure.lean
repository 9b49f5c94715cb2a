import Vdag.BlockGraph.Splicing
import Vdag.Service

/-! Loading everything a vDAG embeds, directly or through others, before its block graph is built. -/
namespace Vdag

variable {m : Type → Type} [Monad m]

structure Closure where
  pending : List VdagUri
  met : List VdagUri
  loaded : EmbeddedIndex

namespace Closure

def meet (c : Closure) (uri : VdagUri) : Closure :=
  if uri ∈ c.met then c else { c with pending := c.pending ++ [uri], met := uri :: c.met }

def meetAll (c : Closure) (assignment : Assignment) : Closure := assignment.embeddings.foldl meet c

def embeddable (uri : VdagUri) (stored : Definition) : Outcome EmbeddedVdag :=
  if stored.status.isRunnable ∧ !stored.assignment.isEmpty then .ok ⟨stored.assignment, stored.graph⟩
  else .error (.composition (.notAssigned uri stored.status))

def fetch (registry : Registry m) (uri : VdagUri) : Action m EmbeddedVdag := do
  let answer ← (registry.get uri).adapt (fun failure => .composition (.notFetched uri failure.message))
  match answer with
  | some stored => Action.ofOutcome (embeddable uri stored)
  | none => Action.fail (.composition (.missing uri))

def load (registry : Registry m) : (steps : Nat) → Closure → Action m EmbeddedIndex
  | 0, c => return c.loaded
  | steps + 1, c =>
      match c.pending with
      | [] => return c.loaded
      | uri :: rest => do
          let vdag ← fetch registry uri
          load registry steps
            (({ c with pending := rest, loaded := c.loaded.insert uri vdag } : Closure).meetAll vdag.assignment)

end Closure

/-- Everything that an assignment embeds. `root` counts as met, so a vDAG that embeds itself is left to the
graph compiler. -/
def EmbeddedIndex.collect (registry : Registry m) (root : Option VdagUri) (assignment : Assignment) :
    Action m EmbeddedIndex := do
  let reach ← registry.reach
  Closure.load registry (reach + 1) ((Closure.mk [] root.toList .empty).meetAll assignment)

end Vdag
