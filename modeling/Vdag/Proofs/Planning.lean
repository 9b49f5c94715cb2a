import Vdag.Processing

/-! Planning only asks: for records, for searches, for addresses and for how far a walk may go. What two processors
have in common in every such question, and keep when actions are put in sequence, they have in common in a whole
plan. -/
namespace Vdag
open Vdag.Action

structure Consults {m n : Type → Type} [Monad m] [Monad n] (policy : SearchPolicy m) (policy' : SearchPolicy n)
    (discovery : Discovery m) (discovery' : Discovery n) (Q : {α : Type} → Action m α → Action n α → Prop) :
    Prop where
  outcome : ∀ {α : Type} (outcome : Outcome α), Q (ofOutcome outcome) (ofOutcome outcome)
  bind : ∀ {α β : Type} {x : Action m α} {y : Action n α} {f : α → Action m β} {g : α → Action n β}, Q x y →
    (∀ a, Q (f a) (g a)) → Q (x >>= f) (y >>= g)
  adapt : ∀ {α : Type} {x : Action m α} {y : Action n α} (f : Failure → Failure), Q x y → Q (x.adapt f) (y.adapt f)
  search : ∀ rule, Q (policy.search rule) (policy'.search rule)
  resolve : ∀ adjacency, Q (discovery.resolve adjacency) (discovery'.resolve adjacency)

namespace Consults

variable {m n : Type → Type} [Monad m] [Monad n] {policy : SearchPolicy m} {policy' : SearchPolicy n}
  {discovery : Discovery m} {discovery' : Discovery n} {Q : {α : Type} → Action m α → Action n α → Prop}
  (asks : Consults policy policy' discovery discovery' Q)
include asks

theorem answerRelated {α : Type} (a : α) : Q (pure a) (pure a) := asks.outcome (.ok a)

theorem targetRelated (vdag : String) (node : Node) :
    Q (Assignment.target policy vdag node) (Assignment.target policy' vdag node) := by
  unfold Assignment.target
  cases node.manualBlock with
  | some block => exact asks.answerRelated _
  | none =>
    cases node.kind.isBlock with
    | true =>
      cases node.searchRule? with
      | some rule =>
        have found : Q (Assignment.search policy vdag node rule) (Assignment.search policy' vdag node rule) :=
          asks.bind (asks.adapt _ (asks.search rule)) (fun _ => asks.outcome _)
        exact asks.bind found (fun _ => asks.answerRelated _)
      | none => exact asks.outcome _
    | false =>
      cases node.embedded with
      | some uri => exact asks.answerRelated _
      | none => exact asks.outcome _

theorem nodesRelated (vdag : String) (nodes : List Node) (found : Assignment) :
    Q (Assignment.resolveNodes policy vdag nodes found) (Assignment.resolveNodes policy' vdag nodes found) := by
  induction nodes generalizing found with
  | nil => exact asks.answerRelated found
  | cons node rest ih => exact asks.bind (asks.targetRelated vdag node) (fun _ => ih _)

theorem addressesRelated (graph : BlockGraph) :
    Q (PhysicalGraph.locate discovery graph) (PhysicalGraph.locate discovery' graph) :=
  asks.bind (asks.resolve _) (fun _ => asks.bind (asks.outcome _) (fun _ => asks.answerRelated _))

end Consults

structure Processor.Asks {m n : Type → Type} [Monad m] [Monad n] (p : Processor m) (q : Processor n)
    (Q : {α : Type} → Action m α → Action n α → Prop) : Prop
    extends Consults p.search q.search p.discovery q.discovery Q where
  get : ∀ uri, Q (p.registry.get uri) (q.registry.get uri)
  reach : Q (ExceptT.lift p.registry.reach) (ExceptT.lift q.registry.reach)

namespace Processor.Asks

variable {m n : Type → Type} [Monad m] [Monad n] {p : Processor m} {q : Processor n}
  {Q : {α : Type} → Action m α → Action n α → Prop} (asks : p.Asks q Q)
include asks

theorem fetchRelated (uri : VdagUri) : Q (Closure.fetch p.registry uri) (Closure.fetch q.registry uri) := by
  refine asks.bind (asks.adapt _ (asks.get uri)) (fun answer => ?_)
  cases answer with
  | none => exact asks.outcome _
  | some stored => exact asks.outcome _

theorem loadRelated (steps : Nat) (c : Closure) : Q (Closure.load p.registry steps c)
    (Closure.load q.registry steps c) := by
  induction steps generalizing c with
  | zero => exact asks.answerRelated c.loaded
  | succ steps ih =>
    unfold Closure.load
    cases c.pending with
    | nil => exact asks.answerRelated c.loaded
    | cons uri rest => exact asks.bind (asks.fetchRelated uri) (fun _ => ih _)

theorem blocksRelated (root : Option VdagUri) (logical : LogicalGraph) (assignment : Assignment) :
    Q (BlockGraph.build p.registry root logical assignment)
      (BlockGraph.build q.registry root logical assignment) := by
  refine asks.bind ?_ (fun _ => asks.outcome _)
  exact asks.bind asks.reach (fun _ => asks.loadRelated _ _)

theorem planRelated (vdag : Definition) : Q (p.plan vdag) (q.plan vdag) := by
  refine asks.bind (asks.nodesRelated _ _ _) (fun assignment => asks.bind ?_ (fun _ => asks.answerRelated _))
  refine asks.bind (asks.outcome _) (fun _ => asks.bind (asks.blocksRelated _ _ _) (fun _ => ?_))
  exact asks.bind (asks.addressesRelated _) (fun _ => asks.answerRelated _)

theorem dryRun (vdag : Definition) : Q (p.dryEndToEnd vdag) (q.dryEndToEnd vdag) := by
  refine asks.bind (asks.outcome _) (fun _ => ?_)
  cases vdag.uri? with
  | none => exact asks.planRelated vdag
  | some uri =>
    refine asks.bind (asks.bind (asks.get uri) (fun answer => ?_)) (fun _ => asks.planRelated vdag)
    cases answer with
    | none => exact asks.answerRelated ()
    | some stored => exact asks.outcome _

end Processor.Asks

def Processor.afterClaim {m : Type → Type} [Monad m] (p : Processor m) (uri : VdagUri) (vdag : Definition) :
    Action m Definition := do
  let planned ← ExceptT.lift (p.plan vdag).run
  let persisted ← ExceptT.lift (p.persist uri (recordOf vdag planned)).run
  let _ ← Action.ofOutcome planned
  Action.ofOutcome persisted
  return recordOf vdag planned

theorem Processor.mapToBlocksClaims {m : Type → Type} [Monad m] (p : Processor m) (vdag : Definition) :
    p.mapToBlocks vdag = (do
      ofOutcome vdag.validate
      let uri ← ofOutcome vdag.requireUri
      p.registry.claim uri
      p.afterClaim uri vdag) := rfl

theorem Processor.Asks.mappingRelated {m n : Type → Type} [Monad m] [Monad n] {p : Processor m} {q : Processor n}
    {Q : {α : Type} → Action m α → Action n α → Prop} (asks : p.Asks q Q)
    (lift : ∀ {α : Type} {x : Action m α} {y : Action n α}, Q x y → Q (ExceptT.lift x.run) (ExceptT.lift y.run))
    (claim : ∀ uri, Q (p.registry.claim uri) (q.registry.claim uri))
    (persist : ∀ uri vdag, Q (p.persist uri vdag) (q.persist uri vdag)) (vdag : Definition) :
    Q (p.mapToBlocks vdag) (q.mapToBlocks vdag) := by
  rw [mapToBlocksClaims, mapToBlocksClaims]
  refine asks.bind (asks.outcome _) (fun _ => asks.bind (asks.outcome _) (fun uri => ?_))
  refine asks.bind (claim uri) (fun _ => asks.bind (lift (asks.planRelated vdag)) (fun planned => ?_))
  refine asks.bind (lift (persist uri _)) (fun persisted => ?_)
  exact asks.bind (asks.outcome _) (fun _ => asks.bind (asks.outcome _) (fun _ => asks.answerRelated _))

theorem Processor.recordUri (vdag : Definition) (planned : Outcome (Assignment × CompiledGraph)) :
    (recordOf vdag planned).uri? = vdag.uri? := by
  cases planned <;> rfl

end Vdag
