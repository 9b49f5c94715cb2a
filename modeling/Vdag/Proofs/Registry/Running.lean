import Vdag.Proofs.Registry.Paused

/-! One run among others: what it holds, and all that its next call can come to, in whatever state it finds the
registry, as long as nothing is stored where the run holds a claim. -/
namespace Vdag
open Vdag.Action

structure Run where
  holding : Option VdagUri
  rest : Paused (Outcome Definition)

def Request.holding : (request : Request) → request.Answer → Option VdagUri → Option VdagUri
  | .claim uri, .ok (), _ => some uri
  | .create _, _, _ => none
  | _, _, before => before

namespace Run

def start (vdag : Definition) : Run := ⟨none, .mapping vdag⟩

def request? (run : Run) : Option Request := run.rest.request?

def returned? (run : Run) : Option (Outcome Definition) := run.rest.answer?

def call (run : Run) (outside : Answers) (r : MemoryRegistry) : Run × MemoryRegistry :=
  match run.rest with
  | .done _ => (run, r)
  | .ask request next =>
      let (answer, after) := request.serve outside r
      (⟨request.holding answer run.holding, next answer⟩, after)

inductive Called (vdag : Definition) (before after : MemoryRegistry) : Run → Run → Prop
  | idle (outcome : Outcome Definition) (same : after = before) :
      Called vdag before after ⟨none, .done outcome⟩ ⟨none, .done outcome⟩
  | refused {rest : Paused (Outcome Definition)} (failure : Failure) (same : after = before) :
      Called vdag before after ⟨none, rest⟩ ⟨none, .done (.error failure)⟩
  | granted {uri : VdagUri} {rest next : Paused (Outcome Definition)} (named : vdag.uri? = some uri)
      (granted : MemoryRegistry.Granted uri before after) (holding : Paused.Holding uri next) :
      Called vdag before after ⟨none, rest⟩ ⟨some uri, next⟩
  | planned {uri : VdagUri} {rest next : Paused (Outcome Definition)} (named : vdag.uri? = some uri)
      (same : MemoryRegistry.Same before after) (holding : Paused.Holding uri next) :
      Called vdag before after ⟨some uri, rest⟩ ⟨some uri, next⟩
  | stored {uri : VdagUri} {rest : Paused (Outcome Definition)} {record : Definition} {outcome : Outcome Definition}
      (named : vdag.uri? = some uri) (stored : MemoryRegistry.Stored uri record before after)
      (answered : ∀ {answer}, outcome = .ok answer → answer = record ∧ record.status = .assigned) :
      Called vdag before after ⟨some uri, rest⟩ ⟨none, .done outcome⟩

theorem Called.stageAfter {vdag : Definition} {before after : MemoryRegistry} {run run' : Run}
    (called : Called vdag before after run run') : Paused.Stage vdag run'.holding run'.rest := by
  cases called with
  | idle outcome _ => exact .ended outcome
  | refused failure _ => exact .ended _
  | granted named _ holding => exact .working named holding
  | planned named _ holding => exact .working named holding
  | stored _ _ _ => exact .ended _

theorem createsRecord {vdag record : Definition} {run : Run} {r : MemoryRegistry}
    (stage : Paused.Stage vdag run.holding run.rest) (vacant : ∀ {uri}, run.holding = some uri → r.stored? uri = none)
    (next : run.request? = some (.create record)) :
    ∃ uri after, record.uri? = some uri ∧ run.holding = some uri ∧
      on (MemoryRegistry.create record) r = (.ok (), after) ∧ MemoryRegistry.Stored uri record r after := by
  obtain ⟨held, rest⟩ := run
  cases stage with
  | waiting | ended => cases next
  | @working uri _ _ holding =>
    cases holding with
    | plan reads _ =>
      cases next
      exact reads.elim
    | store named _ _ =>
      cases next
      rcases MemoryRegistry.createCases named r with ⟨_, _, present⟩ | ⟨after, created, stored⟩
      · exact absurd (vacant rfl) present
      · exact ⟨uri, after, named, rfl, created, stored⟩

theorem calledByCall {vdag : Definition} {run : Run} {r : MemoryRegistry}
    (stage : Paused.Stage vdag run.holding run.rest) (vacant : ∀ {uri}, run.holding = some uri → r.stored? uri = none)
    (outside : Answers) : Called vdag r (run.call outside r).2 run (run.call outside r).1 := by
  obtain ⟨held, rest⟩ := run
  cases stage with
  | ended outcome => exact .idle outcome rfl
  | @waiting uri next named refused granted =>
    rcases MemoryRegistry.claimCases uri r with ⟨failure, ran⟩ | ⟨marked, ran, grant⟩
    · have came : call ⟨none, .ask (.claim uri) next⟩ outside r = (⟨none, .done (.error failure)⟩, r) := by
        simp only [call, Request.serve, ran, Request.holding, refused]
      rw [came]
      exact .refused failure rfl
    · have came : call ⟨none, .ask (.claim uri) next⟩ outside r = (⟨some uri, next (.ok ())⟩, marked) := by
        simp only [call, Request.serve, ran, Request.holding]
      rw [came]
      exact .granted named grant granted
  | @working uri _ named holding =>
    cases holding with
    | @plan request next reads later =>
      have kept : ∀ answer, request.holding answer (some uri) = some uri := by
        intro answer
        cases request with
        | create | update | delete | claim | release => exact reads.elim
        | get | query | reach | search | resolve => rfl
      simp only [call, kept]
      exact .planned named (Request.serveReads reads outside r) (later _)
    | @store record outcome next recorded ended answered =>
      obtain ⟨_, after, again, held, created, stored⟩ :=
        createsRecord (.working named (.store recorded ended answered)) vacant rfl
      cases held
      have came : call ⟨some uri, .ask (.create record) next⟩ outside r = (⟨none, .done outcome⟩, after) := by
        simp only [call, Request.serve, created, Request.holding, ended]
      rw [came]
      exact .stored named stored answered

end Run

end Vdag
