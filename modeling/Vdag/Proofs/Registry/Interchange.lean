import Vdag.Proofs.Registry.DryRun

/-! Two ways to claim. A registry in memory checks, deletes and marks in one step; the plain claim reads, checks and
deletes, and marks nothing. While every call comes to its end before the next one begins nobody can tell them apart,
because no call ends before its mark is gone again. -/
namespace Vdag
open Vdag.Action MemoryRegistry

namespace Processor

variable {m : Type → Type} [Monad m]

def withPlainClaim (p : Processor m) : Processor m := { p with registry := p.registry.withPlainClaim }

inductive Call where
  | map (vdag : Definition)
  | dryRun (vdag : Definition)
  | delete (uri : VdagUri)
  deriving DecidableEq, Repr

inductive Answer where
  | mapped (stored : Definition)
  | planned (assignment : Assignment) (compiled : CompiledGraph)
  | deleted
  deriving DecidableEq, Repr

def serve (p : Processor m) : Call → Action m Answer
  | .map vdag => do return .mapped (← p.mapToBlocks vdag)
  | .dryRun vdag => do
      let (assignment, compiled) ← p.dryEndToEnd vdag
      return .planned assignment compiled
  | .delete uri => do
      p.registry.delete uri
      return .deleted

end Processor

namespace MemoryRegistry

def looked (r : MemoryRegistry) : MemoryRegistry := { r with lookups := r.lookups + 1 }

/- Two registries that only differ in the claims that the first one holds. How often records were looked up is not
compared: the plain claim looks once more. -/
structure Twins (held : List VdagUri) (own plain : MemoryRegistry) : Prop where
  records : plain.vdags = own.vdags
  deletes : plain.deletes = own.deletes
  held : own.claimed = held
  free : plain.claimed = []

namespace Twins

section

variable {held : List VdagUri} {own plain : MemoryRegistry} (twins : Twins held own plain)
include twins

theorem storedAlike (uri : VdagUri) : plain.stored? uri = own.stored? uri :=
  congrArg (SortedMap.find? · uri) twins.records

theorem containsAlike (uri : VdagUri) : plain.vdags.contains uri = own.vdags.contains uri :=
  congrArg Option.isSome (twins.storedAlike uri)

theorem twinsLooked : Twins held own plain.looked := ⟨twins.records, twins.deletes, twins.held, twins.free⟩

theorem lookedBoth : Twins held own.looked plain.looked := ⟨twins.records, twins.deletes, twins.held, twins.free⟩

theorem twinsMarked (uri : VdagUri) : Twins (uri :: held) (own.mark uri) plain :=
  ⟨twins.records, twins.deletes, congrArg (uri :: ·) twins.held, twins.free⟩

theorem twinsRemoved (uri : VdagUri) : Twins held (own.remove uri) (plain.remove uri) :=
  ⟨congrArg (SortedMap.erase · uri) twins.records, congrArg (· + 1) twins.deletes, twins.held, twins.free⟩

end

theorem twinsUnmarked {uri : VdagUri} {own plain : MemoryRegistry} (twins : Twins [uri] own plain) :
    Twins [] (own.unmark uri) plain := by
  refine ⟨twins.records, twins.deletes, ?_, twins.free⟩
  rw [MemoryRegistry.unmark, twins.held]
  simp

end Twins

end MemoryRegistry

namespace Surroundings

variable {σ α β : Type}

def heldAfter {α : Type} (granted refused : List VdagUri) : Outcome α → List VdagUri
  | .ok _ => granted
  | .error _ => refused

theorem heldAfterSame (held : List VdagUri) (outcome : Outcome α) : heldAfter held held outcome = held := by
  cases outcome <;> rfl

/- On twins both come to the same, and leave twins. Which claims are held is told for before, after a success and after
a failure. -/
def Matches {α : Type} (before granted refused : List VdagUri) (own plain : Action (Hosted σ) α) : Prop :=
  ∀ r r' s, Twins before r r' → ∃ outcome after after' s',
    on own (r, s) = (outcome, (after, s')) ∧ on plain (r', s) = (outcome, (after', s')) ∧
      Twins (heldAfter granted refused outcome) after after'

namespace Matches

variable {before middle granted refused : List VdagUri} {x y : Action (Hosted σ) α}

theorem outcomeMatches (outcome : Outcome α) :
    Matches (σ := σ) before before before (ofOutcome outcome) (ofOutcome outcome) := by
  intro r r' s twins
  refine ⟨outcome, r, r', s, rfl, rfl, ?_⟩
  rwa [heldAfterSame]

theorem bind {f g : α → Action (Hosted σ) β} (first : Matches before middle refused x y)
    (later : ∀ a, Matches middle granted refused (f a) (g a)) :
    Matches before granted refused (x >>= f) (y >>= g) := by
  intro r r' s twins
  obtain ⟨outcome, after, after', s', own, plain, left⟩ := first r r' s twins
  rw [onBind, onBind, own, plain]
  cases outcome with
  | ok a => exact later a after after' s' left
  | error failure => exact ⟨.error failure, after, after', s', rfl, rfl, left⟩

theorem givenMatches {outcome : Outcome α} {f g : α → Action (Hosted σ) β}
    (later : ∀ a, outcome = .ok a → Matches before granted before (f a) (g a)) :
    Matches before granted before (ofOutcome outcome >>= f) (ofOutcome outcome >>= g) := by
  cases outcome with
  | ok a => exact later a rfl
  | error failure => exact fun r r' s twins => ⟨.error failure, r, r', s, rfl, rfl, twins⟩

theorem liftMatches (same : Matches before granted granted x y) :
    Matches before granted refused (ExceptT.lift x.run) (ExceptT.lift y.run) := by
  intro r r' s twins
  obtain ⟨outcome, after, after', s', own, plain, left⟩ := same r r' s twins
  refine ⟨.ok outcome, after, after', s', ?_, ?_, ?_⟩
  · rw [onLift, own]
  · rw [onLift, plain]
  · rwa [heldAfterSame] at left

theorem hostedMatches (op : MemoryRegistry.Op α)
    (alike : ∀ {r r'}, Twins before r r' → ∃ outcome after after', on op r = (outcome, after) ∧
      on op r' = (outcome, after') ∧ Twins (heldAfter granted refused outcome) after after') :
    Matches (σ := σ) before granted refused (op.hoist onRegistry) (op.hoist onRegistry) := by
  intro r r' s twins
  obtain ⟨outcome, after, after', own, plain, left⟩ := alike twins
  refine ⟨outcome, after, after', s, ?_, ?_, left⟩
  · rw [onRegistryOp, own]
  · rw [onRegistryOp, plain]

theorem outsideMatches (action : Action (StateM σ) α) :
    Matches before before before (action.hoist onOutside) (action.hoist onOutside) := by
  intro r r' s twins
  refine ⟨(on action s).1, r, r', (on action s).2, rfl, rfl, ?_⟩
  rwa [heldAfterSame]

end Matches

variable (outside : Surroundings σ)

theorem asksMatch (held : List VdagUri) :
    outside.processor.Asks outside.processor.withPlainClaim (Matches held held held) where
  outcome outcome := .outcomeMatches outcome
  bind first later := first.bind later
  adapt f same r r' s twins := by
    obtain ⟨outcome, after, after', s', own, plain, left⟩ := same r r' s twins
    refine ⟨outcome.mapError f, after, after', s', ?_, ?_, ?_⟩
    · rw [onAdapt, own]
    · rw [onAdapt, plain]
    · rwa [heldAfterSame] at left ⊢
  search rule := .outsideMatches (outside.search.search rule)
  resolve adjacency := .outsideMatches (outside.discovery.resolve adjacency)
  get uri := .hostedMatches (MemoryRegistry.get uri) (fun {r r'} twins => by
    refine ⟨.ok (r.stored? uri), r.looked, r'.looked, rfl, ?_, twins.lookedBoth⟩
    rw [← twins.storedAlike]
    rfl)
  reach r r' s twins := by
    refine ⟨.ok r.vdags.size, r, r', s, rfl, ?_, twins⟩
    rw [← twins.records]
    rfl

theorem onPlainClaim (uri : VdagUri) (r : MemoryRegistry) (s : σ) :
    on (outside.processor.withPlainClaim.registry.claim uri) (r, s) = match replaceable r uri with
      | .ok () => (.ok (), (vacate r.looked uri, s))
      | .error failure => (.error failure, (r.looked, s)) := by
  have plain : outside.processor.withPlainClaim.registry.claim uri = outside.processor.registry.plainClaim uri := rfl
  have read : on (outside.processor.registry.get uri) (r, s) = (.ok (r.stored? uri), (r.looked, s)) := rfl
  have same : r.looked.stored? uri = r.stored? uri := rfl
  rw [plain, Registry.plainClaim, onBind, read, replaceable, vacate, same]
  cases found : r.stored? uri with
  | none => rfl
  | some stored =>
    have present : r.looked.vdags.contains uri = true := congrArg Option.isSome found
    have deleted : on (delete uri) r.looked = (.ok (), r.looked.remove uri) := if_pos present
    dsimp only
    rw [onBind, onOutcome]
    cases Registry.refuseRunning uri stored with
    | error failure => rfl
    | ok _ => exact congrArg (fun seen => (seen.1, (seen.2, s))) deleted

theorem vacateTwins {held : List VdagUri} {r r' : MemoryRegistry} (twins : Twins held r r') (uri : VdagUri) :
    Twins held (vacate r uri) (vacate r' uri) := by
  rw [vacate, vacate, twins.storedAlike]
  cases r.stored? uri with
  | none => exact twins
  | some stored => exact twins.twinsRemoved uri

theorem claimMatches (uri : VdagUri) :
    Matches [] [uri] [] (outside.processor.registry.claim uri)
      (outside.processor.withPlainClaim.registry.claim uri) := by
  intro r r' s twins
  have unclaimed : uri ∉ r.claimed := by simp [twins.held]
  have alike : replaceable r' uri = replaceable r uri := by rw [replaceable, replaceable, twins.storedAlike]
  rw [onClaim, onFreeClaim unclaimed, onPlainClaim, alike]
  cases replaceable r uri with
  | error failure => exact ⟨.error failure, r, r'.looked, s, rfl, rfl, twins.twinsLooked⟩
  | ok _ => exact ⟨.ok (), _, _, s, rfl, rfl, (vacateTwins twins.twinsLooked uri).twinsMarked uri⟩

theorem deleteMatches (uri : VdagUri) :
    Matches [] [] [] (outside.processor.registry.delete uri)
      (outside.processor.withPlainClaim.registry.delete uri) := by
  refine .hostedMatches (delete uri) (fun {r r'} twins => ?_)
  simp only [on, delete, ExceptT.run_mk, StateT.run, twins.containsAlike]
  by_cases present : r.vdags.contains uri = true
  · rw [if_pos present, if_pos present]
    exact ⟨.ok (), _, _, rfl, rfl, twins.twinsRemoved uri⟩
  · rw [if_neg present, if_neg present]
    exact ⟨.error _, _, _, rfl, rfl, twins⟩

theorem createMatches {vdag : Definition} {uri : VdagUri} (named : vdag.uri? = some uri) :
    Matches [uri] [] [uri] (outside.processor.registry.create vdag)
      (outside.processor.withPlainClaim.registry.create vdag) := by
  refine .hostedMatches (create vdag) (fun {r r'} twins => ?_)
  simp only [on, create, ExceptT.run_mk, StateT.run, requireUriOk.mpr named, twins.containsAlike]
  by_cases present : r.vdags.contains uri = true
  · rw [if_pos present, if_pos present]
    exact ⟨.error _, _, _, rfl, rfl, twins⟩
  · have free : (r'.unmark uri).claimed = [] := by simp [unmark, twins.free]
    rw [if_neg present, if_neg present]
    exact ⟨.ok (), _, _, rfl, rfl, congrArg (SortedMap.insert · uri vdag) twins.records, twins.deletes,
      twins.twinsUnmarked.held, free⟩

theorem persistMatches {vdag : Definition} {uri : VdagUri} (named : vdag.uri? = some uri) :
    Matches [uri] [] [] (outside.processor.persist uri vdag) (outside.processor.withPlainClaim.persist uri vdag) := by
  intro r r' s twins
  obtain ⟨outcome, after, after', s', own, plain, left⟩ := createMatches outside named r r' s twins
  rw [Processor.onPersistCases, Processor.onPersistCases, own, plain]
  cases outcome with
  | ok _ => exact ⟨.ok (), after, after', s', rfl, rfl, left⟩
  | error failure => exact ⟨.error failure, after.unmark uri, after', s', rfl, rfl, left.twinsUnmarked⟩

theorem mapMatches (vdag : Definition) :
    Matches [] [] [] (outside.processor.mapToBlocks vdag) (outside.processor.withPlainClaim.mapToBlocks vdag) := by
  rw [Processor.mapToBlocksClaims, Processor.mapToBlocksClaims]
  refine .givenMatches (fun _ _ => .givenMatches (fun uri required => ?_))
  refine .bind (claimMatches outside uri) (fun _ => ?_)
  refine .bind (.liftMatches ((asksMatch outside [uri]).planRelated vdag)) (fun planned => ?_)
  have named := (Processor.recordUri vdag planned).trans (requireUriOk.mp required)
  refine .bind (.liftMatches (persistMatches outside named)) (fun persisted => ?_)
  exact .bind (.outcomeMatches _) (fun _ => .bind (.outcomeMatches _) (fun _ => .outcomeMatches (.ok _)))

theorem serveMatches (call : Processor.Call) :
    Matches [] [] [] (outside.processor.serve call) (outside.processor.withPlainClaim.serve call) := by
  cases call with
  | map vdag =>
    exact (mapMatches outside vdag).bind (fun stored => .outcomeMatches (.ok (Processor.Answer.mapped stored)))
  | dryRun vdag =>
    have planned := (asksMatch outside []).dryRun vdag
    exact planned.bind (fun plan => .outcomeMatches (.ok (Processor.Answer.planned plan.1 plan.2)))
  | delete uri => exact (deleteMatches outside uri).bind (fun _ => .outcomeMatches (.ok Processor.Answer.deleted))

end Surroundings

structure Sighting (σ : Type) where
  answer : Outcome Processor.Answer
  records : SortedMap VdagUri Definition
  claimed : List VdagUri
  deletes : Nat
  outside : σ

def Processor.sightings {σ : Type} (p : Processor (Hosted σ)) (w : MemoryRegistry × σ) : List Call → List (Sighting σ)
  | [] => []
  | call :: rest =>
      let (answer, after) := on (p.serve call) w
      ⟨answer, after.1.vdags, after.1.claimed, after.1.deletes, after.2⟩ :: p.sightings after rest

namespace Surroundings

variable {σ : Type} (outside : Surroundings σ)

theorem sightingsAlike (calls : List Processor.Call) {r r' : MemoryRegistry} (twins : Twins [] r r') (s : σ) :
    outside.processor.sightings (r, s) calls = outside.processor.withPlainClaim.sightings (r', s) calls ∧
      ∀ seen ∈ outside.processor.sightings (r, s) calls, seen.claimed = [] := by
  induction calls generalizing r r' s with
  | nil => exact ⟨rfl, fun seen member => nomatch member⟩
  | cons call rest ih =>
    obtain ⟨outcome, after, after', s', own, plain, left⟩ := serveMatches outside call r r' s twins
    rw [heldAfterSame] at left
    obtain ⟨same, vacant⟩ := ih left s'
    rw [Processor.sightings, Processor.sightings, own, plain]
    refine ⟨?_, fun seen member => ?_⟩
    · dsimp only
      rw [same, left.records, left.deletes, left.held, left.free]
    · rcases List.mem_cons.mp member with rfl | later
      · exact left.held
      · exact vacant seen later

/- A registry that claims in one step, and one that only reads, checks and deletes, are the same to whoever waits for
every call to end: they answer alike, store alike, delete alike and have the surroundings asked alike. Between calls
nothing is claimed. -/
theorem claimsInterchange (calls : List Processor.Call) {r : MemoryRegistry} (vacant : r.claimed = []) (s : σ) :
    outside.processor.sightings (r, s) calls = outside.processor.withPlainClaim.sightings (r, s) calls ∧
      ∀ seen ∈ outside.processor.sightings (r, s) calls, seen.claimed = [] :=
  sightingsAlike outside calls ⟨rfl, rfl, vacant, vacant⟩ s

def sampleSequence : List Processor.Call :=
  [.dryRun sampleTop, .map sampleTop, .map sampleTop, .delete ⟨"top:1-a"⟩, .delete ⟨"top:1-a"⟩]

theorem sampleInterchanged :
    sampleRecords.claimed = [] ∧
      sampleOutside.processor.sightings (sampleRecords, ()) sampleSequence =
        sampleOutside.processor.withPlainClaim.sightings (sampleRecords, ()) sampleSequence ∧
      (sampleOutside.processor.withPlainClaim.sightings (sampleRecords, ()) sampleSequence).map
        (fun seen => (seen.answer.toOption.isSome, seen.records.size, seen.deletes)) =
          [(true, 2, 0), (true, 2, 1), (false, 2, 1), (true, 1, 2), (false, 1, 2)] := by
  have vacant : sampleRecords.claimed = [] := by decide +kernel
  exact ⟨vacant, (claimsInterchange sampleOutside sampleSequence vacant ()).1, by decide +kernel⟩

end Surroundings

end Vdag
