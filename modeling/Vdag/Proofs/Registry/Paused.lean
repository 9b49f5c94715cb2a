import Vdag.Proofs.Planning
import Vdag.Proofs.Registry.Operations

/-! The processor stopped before each of its calls. A run is what is left of it: the next call, and how it goes on
from any answer. What stands between two calls is the processor as it is, in a monad that waits. -/
namespace Vdag
open Vdag.Action

inductive Request where
  | get (uri : VdagUri)
  | create (vdag : Definition)
  | update (uri : VdagUri) (vdag : Definition)
  | delete (uri : VdagUri)
  | query (filter : Json.Value)
  | claim (uri : VdagUri)
  | release (uri : VdagUri)
  | reach
  | search (rule : PolicyRule)
  | resolve (adjacency : Adjacency)

/- What searches and discovery answer. How far a walk may go is left open too: while it goes on, others store records
that it may come upon. -/
structure Answers where
  search : Outcome (List SearchMatch)
  resolve : Outcome PhysicalGraph
  reach : Nat

namespace Request

abbrev Answer : Request → Type
  | .get _ => Outcome (Option Definition)
  | .query _ => Outcome (List Definition)
  | .create _ | .update _ _ | .delete _ | .claim _ => Outcome Unit
  | .release _ => Unit
  | .reach => Nat
  | .search _ => Outcome (List SearchMatch)
  | .resolve _ => Outcome PhysicalGraph

def serve (outside : Answers) : (request : Request) → MemoryRegistry → request.Answer × MemoryRegistry
  | .get uri, r => on (MemoryRegistry.get uri) r
  | .create vdag, r => on (MemoryRegistry.create vdag) r
  | .update uri vdag, r => on (MemoryRegistry.update uri vdag) r
  | .delete uri, r => on (MemoryRegistry.delete uri) r
  | .query filter, r => on (MemoryRegistry.query filter) r
  | .claim uri, r => on (MemoryRegistry.claim uri) r
  | .release uri, r => (MemoryRegistry.release uri).run r
  | .reach, r => (outside.reach, r)
  | .search _, r => (outside.search, r)
  | .resolve _, r => (outside.resolve, r)

def Reads : Request → Prop
  | .get _ | .query _ | .reach | .search _ | .resolve _ => True
  | .create _ | .update _ _ | .delete _ | .claim _ | .release _ => False

theorem serveReads {request : Request} (reads : request.Reads) (outside : Answers) (r : MemoryRegistry) :
    MemoryRegistry.Same r (request.serve outside r).2 := by
  cases request with
  | get | query => exact ⟨rfl, rfl, rfl⟩
  | reach | search | resolve => exact .refl r
  | create | update | delete | claim | release => exact reads.elim

end Request

inductive Paused (α : Type) where
  | done (a : α)
  | ask (request : Request) (next : request.Answer → Paused α)

namespace Paused

variable {α β : Type}

def bind : Paused α → (α → Paused β) → Paused β
  | .done a, f => f a
  | .ask request next, f => .ask request fun answer => (next answer).bind f

instance : Monad Paused where
  pure := .done
  bind := bind

def answer? : Paused α → Option α
  | .done a => some a
  | .ask _ _ => none

def request? : Paused α → Option Request
  | .done _ => none
  | .ask request _ => some request

def call (request : Request) : Paused request.Answer := .ask request .done

def processor : Processor Paused where
  registry :=
    { get := fun uri => ExceptT.mk (call (.get uri))
      create := fun vdag => ExceptT.mk (call (.create vdag))
      update := fun uri vdag => ExceptT.mk (call (.update uri vdag))
      delete := fun uri => ExceptT.mk (call (.delete uri))
      query := fun filter => ExceptT.mk (call (.query filter))
      claim := fun uri => ExceptT.mk (call (.claim uri))
      release := fun uri => call (.release uri)
      reach := call .reach }
  search := ⟨fun rule => ExceptT.mk (call (.search rule))⟩
  discovery := ⟨fun adjacency => ExceptT.mk (call (.resolve adjacency))⟩

def mapping (vdag : Definition) : Paused (Outcome Definition) := (processor.mapToBlocks vdag).run

inductive Reading : Paused α → Prop
  | done (a : α) : Reading (.done a)
  | ask {request : Request} {next : request.Answer → Paused α} (reads : request.Reads)
      (later : ∀ answer, Reading (next answer)) : Reading (.ask request next)

theorem Reading.callReads {request : Request} (reads : request.Reads) : Reading (call request) := .ask reads .done

theorem Reading.bind {run : Paused α} {f : α → Paused β} (reading : Reading run) (later : ∀ a, Reading (f a)) :
    Reading (run >>= f) := by
  induction reading with
  | done a => exact later a
  | ask reads _ ih => exact .ask reads ih

theorem liftBind (run : Paused α) (f : α → Action Paused β) :
    (ExceptT.lift run >>= f).run = run >>= fun a => (f a).run := by
  induction run with
  | done a => rfl
  | ask request next ih => exact congrArg (Paused.ask request) (funext ih)

theorem asksReading : processor.Asks processor (fun action _ => Reading action.run) where
  outcome outcome := .done outcome
  bind first later := first.bind (fun outcome => by
    cases outcome with
    | ok a => exact later a
    | error failure => exact .done _)
  adapt _ reading := reading.bind (fun _ => .done _)
  get _ := .callReads trivial
  reach := (@Reading.callReads .reach trivial).bind (fun _ => .done _)
  search _ := .callReads trivial
  resolve _ := .callReads trivial

/- What is left of a run that holds a claim: planning, and then one record stored under the claimed URI. -/
inductive Holding (uri : VdagUri) : Paused (Outcome Definition) → Prop
  | plan {request : Request} {next : request.Answer → Paused (Outcome Definition)} (reads : request.Reads)
      (later : ∀ answer, Holding uri (next answer)) : Holding uri (.ask request next)
  | store {record : Definition} {outcome : Outcome Definition}
      {next : (Request.create record).Answer → Paused (Outcome Definition)} (named : record.uri? = some uri)
      (ended : next (.ok ()) = .done outcome)
      (answered : ∀ {vdag}, outcome = .ok vdag → vdag = record ∧ record.status = .assigned) :
      Holding uri (.ask (.create record) next)

theorem Holding.bind {uri : VdagUri} {run : Paused α} {f : α → Paused (Outcome Definition)} (reading : Reading run)
    (later : ∀ a, Holding uri (f a)) : Holding uri (run >>= f) := by
  induction reading with
  | done a => exact later a
  | ask reads _ ih => exact .plan reads ih

inductive Stage (vdag : Definition) : Option VdagUri → Paused (Outcome Definition) → Prop
  | waiting {uri : VdagUri} {next : (Request.claim uri).Answer → Paused (Outcome Definition)}
      (named : vdag.uri? = some uri) (refused : ∀ failure, next (.error failure) = .done (.error failure))
      (granted : Holding uri (next (.ok ()))) : Stage vdag none (.ask (.claim uri) next)
  | working {uri : VdagUri} {rest : Paused (Outcome Definition)} (named : vdag.uri? = some uri)
      (holding : Holding uri rest) : Stage vdag (some uri) rest
  | ended (outcome : Outcome Definition) : Stage vdag none (.done outcome)

theorem afterClaimHolds {vdag : Definition} {uri : VdagUri} (named : vdag.uri? = some uri) :
    Holding uri (processor.afterClaim uri vdag).run := by
  rw [Processor.afterClaim, liftBind]
  refine .bind (asksReading.planRelated vdag) (fun planned => ?_)
  have recorded : (Processor.recordOf vdag planned).uri? = some uri := (Processor.recordUri vdag planned).trans named
  cases planned with
  | ok found =>
    refine .store recorded rfl (fun ok => ?_)
    cases ok
    exact ⟨rfl, rfl⟩
  | error failure => exact .store recorded rfl nofun

theorem mappingCases (vdag : Definition) :
    (∃ failure, mapping vdag = .done (.error failure)) ∨
      ∃ uri next, mapping vdag = .ask (.claim uri) next ∧ vdag.uri? = some uri ∧
        (∀ failure, next (.error failure) = .done (.error failure)) ∧ Holding uri (next (.ok ())) := by
  rw [mapping, Processor.mapToBlocksClaims]
  cases vdag.validate with
  | error failure => exact .inl ⟨failure, rfl⟩
  | ok _ =>
    cases named : vdag.uri? with
    | none =>
      rw [Definition.requireUri, named]
      exact .inl ⟨_, rfl⟩
    | some uri =>
      rw [Definition.requireUri, named]
      exact .inr ⟨uri, _, rfl, rfl, fun _ => rfl, afterClaimHolds named⟩

theorem mappingStage (vdag : Definition) : Stage vdag none (mapping vdag) := by
  rcases mappingCases vdag with ⟨failure, refused⟩ | ⟨uri, next, asks, named, refused, granted⟩
  · rw [refused]
    exact .ended _
  · rw [asks]
    exact .waiting named refused granted

theorem mappingUnanswered (vdag answer : Definition) : (mapping vdag).answer? ≠ some (.ok answer) := by
  rcases mappingCases vdag with ⟨failure, refused⟩ | ⟨uri, next, asks, _⟩
  · rw [refused]
    exact nofun
  · rw [asks]
    exact nofun

end Paused

end Vdag
