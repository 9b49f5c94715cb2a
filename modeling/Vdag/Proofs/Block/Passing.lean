import Vdag.Proofs.Block.Agreement

/-! Blocks that only pass packets on. Where they run no rules and their work changes nothing, a packet leaves them as
it came, once for every hop that it has there. -/
namespace Vdag
open Vdag.Action

def PolicyBook.Ruleless (block : BlockId) (uri : VdagUri) (stored : Option Definition) : Prop :=
  ∃ found, nodeOf block uri stored = .ok found ∧
    ∀ node, found = some node → node.preprocessingRule = none ∧ node.postprocessingRule = none

namespace Habits

variable {π : Type}

def passing : Habits π := ⟨.ok, fun _ => .error .unreadable, fun _ => .ok⟩

theorem loadsNothing (habits : Habits π) {node : Node}
    (none : node.preprocessingRule = none ∧ node.postprocessingRule = none) :
    habits.loadNode node = .ok (Option.none, Option.none) := by
  rw [loadNode, none.1, none.2]
  rfl

theorem rulelessRules (habits : Habits π) {block : BlockId} {uri : VdagUri} {stored : Option Definition}
    (ruleless : PolicyBook.Ruleless block uri stored) : habits.rules block uri stored = .ok (none, none) := by
  obtain ⟨found, known, bare⟩ := ruleless
  rw [rules, known]
  cases found with
  | none => rfl
  | some node => exact habits.loadsNothing (bare node rfl)

theorem rulelessApplies (habits : Habits π) {block : BlockId} {records : VdagUri → Option Definition} {uri : VdagUri}
    (ruleless : PolicyBook.Ruleless block uri (records uri)) (session : String) (stage : Stage) (packet : Packet) :
    habits.apply block records (.governed uri session) stage packet = .ok packet := by
  rw [apply, Session.uri?]
  dsimp only
  rw [habits.rulelessRules ruleless]
  cases stage <;> rfl

theorem passingPrepares {block : BlockId} {records : VdagUri → Option Definition} {packet : Packet} {payload : Bytes}
    {uri : VdagUri} {session : String} (decoded : Packet.decode payload = .ok packet)
    (parsed : Session.parse packet.session = .ok (.governed uri session))
    (ruleless : PolicyBook.Ruleless block uri (records uri)) :
    (passing : Habits π).prepare block records payload = .ok packet := by
  have applied := (passing : Habits π).rulelessApplies ruleless session
  rw [prepare, decoded]
  change (Session.parse packet.session >>= _) = _
  rw [parsed]
  change ((passing : Habits π).apply block records (.governed uri session) .preprocessing packet >>= _) = _
  rw [applied]
  exact applied .postprocessing packet

end Habits

theorem Standing.passingRelies {ω π : Type} {standing : Standing} {w : Workshop ω π} (echoes : w.work = echo)
    (ruleless : ∀ uri, standing.governs uri → PolicyBook.Ruleless w.block uri (standing.records uri)) :
    standing.Relies w Habits.passing where
  work := fun _ _ => by rw [echoes]; rfl
  load := by
    intro uri r governed record b s
    rw [← record]
    refine loadQuiet (fun node found => ?_) b s
    obtain ⟨other, known, bare⟩ := ruleless uri governed
    rw [record, known] at found
    have none := bare node (Except.ok.inj found)
    rw [Habits.passing.loadsNothing none, PolicyService.loadNode, none.1, none.2]
    exact fun _ s => ⟨s, rfl⟩
  evaluate := by
    intro uri stage rules policy governed read selected
    rw [Habits.rulelessRules _ (ruleless uri governed)] at read
    cases read
    cases stage <;> cases selected

namespace Destination

def leading (destinations : List Destination) (endpoint queue : String) : Nat :=
  destinations.countP (fun d => d.endpoint = endpoint ∧ d.queue = queue)

theorem mailLetters (payload : Bytes) (destinations : List Destination) (endpoint queue : String) :
    mail (destinations.map (letter payload)) endpoint queue =
      List.replicate (leading destinations endpoint queue) payload := by
  induction destinations with
  | nil => rfl
  | cons d rest ih =>
    rw [leading, mail] at *
    rw [List.map_cons, List.filter_cons, List.countP_cons]
    by_cases own : d.endpoint = endpoint ∧ d.queue = queue
    · simp only [letter, own, and_self, decide_true, if_true, List.map_cons]
      rw [List.replicate_succ]
      exact congrArg _ ih
    · simp only [letter, own, decide_false, if_false, Bool.false_eq_true, Nat.add_zero]
      exact ih

theorem allReachedLetters {unreachable : List String} {payload : Bytes} {destinations : List Destination}
    (reach : ∀ d ∈ destinations, d.port ≠ 0 ∧ d.endpoint ∉ unreachable) (report : ForwardReport) :
    (allReached unreachable payload destinations report).letters = destinations.map (letter payload) := by
  have near : destinations.filter (inReach unreachable) = destinations :=
    List.filter_eq_self.mpr (fun d member => decide_eq_true (reach d member))
  rw [allReachedTells, near]

end Destination

namespace Workshop

variable {ω π : Type} {w : Workshop ω π}

theorem passesUnruled {records : VdagUri → Option Definition} {unreachable : List String} {packet : Packet}
    {payload : Bytes}
    {uri : VdagUri} {session : String} {destinations : List Destination} (decoded : Packet.decode payload = .ok packet)
    (parsed : Session.parse packet.session = .ok (.governed uri session))
    (ruleless : PolicyBook.Ruleless w.block uri (records uri))
    (hops : nextHops w.block packet = .ok (some destinations))
    (reach : ∀ d ∈ destinations, d.port ≠ 0 ∧ d.endpoint ∉ unreachable) :
    (w.handled Habits.passing records unreachable payload).letters =
      destinations.map (Destination.letter packet.encode) := by
  have prepared : (Habits.passing : Habits π).prepare w.block records payload = .ok packet :=
    Habits.passingPrepares decoded parsed ruleless
  rw [handled, prepared]
  change [] ++ (w.forwarded unreachable packet).letters = _
  rw [forwarded, hops]
  exact Destination.allReachedLetters reach .blank

end Workshop

end Vdag
