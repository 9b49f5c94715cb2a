import Mathlib.Logic.Function.Basic
import Vdag.Proofs.Registry.Guarding
import Vdag.Proofs.Registry.Running

/-! Any number of runs over one registry, a call at a time and in any order, with deletions by others in between.
What keeps them apart is that a claim is marked exactly while one run works on it, with nothing stored there. -/
namespace Vdag
open Vdag.Action

structure Interleaving (ι : Type) where
  registry : MemoryRegistry
  runs : ι → Run

inductive Turn (ι : Type) where
  | call (i : ι) (outside : Answers)
  | delete (uri : VdagUri)

namespace Interleaving

variable {ι : Type} {vdags : ι → Definition} {c : Interleaving ι}

def start (registry : MemoryRegistry) (vdags : ι → Definition) : Interleaving ι :=
  ⟨registry, fun i => .start (vdags i)⟩

def turn [DecidableEq ι] (c : Interleaving ι) : Turn ι → Interleaving ι
  | .call i outside =>
      let (run, registry) := (c.runs i).call outside c.registry
      ⟨registry, Function.update c.runs i run⟩
  | .delete uri => { c with registry := (on (MemoryRegistry.delete uri) c.registry).2 }

def turns [DecidableEq ι] (c : Interleaving ι) (order : List (Turn ι)) : Interleaving ι := order.foldl turn c

def Holds (c : Interleaving ι) (i : ι) (uri : VdagUri) : Prop := (c.runs i).holding = some uri

structure Sound (vdags : ι → Definition) (c : Interleaving ι) : Prop where
  stage : ∀ i, Paused.Stage (vdags i) (c.runs i).holding (c.runs i).rest
  guarded : c.registry.Guarded c.Holds

theorem startSound {registry : MemoryRegistry} (unclaimed : registry.claimed = []) (vdags : ι → Definition) :
    Sound vdags (start registry vdags) := by
  refine ⟨fun i => Paused.mappingStage (vdags i), fun held => ?_, fun uri => ?_, fun marked => ?_⟩
  · cases held
  · simp [start, Run.start, Holds, unclaimed]
  · simp [start, unclaimed] at marked

namespace Sound

theorem heldVacant (sound : Sound vdags c) {i : ι} {uri : VdagUri} (held : c.Holds i uri) :
    c.registry.stored? uri = none :=
  sound.guarded.vacant ((sound.guarded.claimed uri).mpr ⟨i, held⟩)

theorem heldOwn (sound : Sound vdags c) {i : ι} {uri : VdagUri} (held : c.Holds i uri) : (vdags i).uri? = some uri := by
  have stage := sound.stage i
  rw [show (c.runs i).holding = some uri from held] at stage
  cases stage with
  | working named _ => exact named

theorem returnedIdle (sound : Sound vdags c) {i : ι} {uri : VdagUri} (returned : (c.runs i).returned? ≠ none) :
    ¬ c.Holds i uri := by
  intro held
  have stage := sound.stage i
  rw [show (c.runs i).holding = some uri from held] at stage
  rw [Run.returned?] at returned
  generalize (c.runs i).rest = rest at stage returned
  cases stage with
  | working _ holding => cases holding <;> exact returned rfl

theorem calledSound (sound : Sound vdags c) (i : ι) (outside : Answers) :
    Run.Called (vdags i) c.registry ((c.runs i).call outside c.registry).2 (c.runs i)
      ((c.runs i).call outside c.registry).1 :=
  Run.calledByCall (sound.stage i) (fun held => sound.heldVacant held) outside

end Sound

/- While nobody deletes, what a run returned is stored, and no other run returns under that URI. -/
structure Kept (vdags : ι → Definition) (c : Interleaving ι) : Prop where
  sound : Sound vdags c
  running : ∀ {i answer}, (c.runs i).returned? = some (.ok answer) →
    ∃ uri record, (vdags i).uri? = some uri ∧ c.registry.stored? uri = some record ∧ record.status.isRunnable = true
  single : ∀ {i j a b}, (c.runs i).returned? = some (.ok a) → (c.runs j).returned? = some (.ok b) →
    (vdags i).uri? = (vdags j).uri? → i = j

theorem startKept {registry : MemoryRegistry} (unclaimed : registry.claimed = []) (vdags : ι → Definition) :
    Kept vdags (start registry vdags) where
  sound := startSound unclaimed vdags
  running := fun {i answer} returned => absurd returned (Paused.mappingUnanswered (vdags i) answer)
  single := fun {i _ a _} returned => absurd returned (Paused.mappingUnanswered (vdags i) a)

theorem Kept.returnedOccupied (kept : Kept vdags c) {i : ι} {answer : Definition} {uri : VdagUri}
    (returned : (c.runs i).returned? = some (.ok answer)) (named : (vdags i).uri? = some uri) :
    c.registry.stored? uri ≠ none := by
  obtain ⟨_, record, named', found, _⟩ := kept.running returned
  cases named.symm.trans named'
  rw [found]
  exact nofun

variable [DecidableEq ι]

theorem runsCall (c : Interleaving ι) (i j : ι) (outside : Answers) :
    (c.turn (.call i outside)).runs j =
      if j = i then ((c.runs i).call outside c.registry).1 else c.runs j := by
  simp only [turn, Function.update_apply]

theorem holdsCall (c : Interleaving ι) (i j : ι) (outside : Answers) (uri : VdagUri) :
    (c.turn (.call i outside)).Holds j uri ↔
      j = i ∧ ((c.runs i).call outside c.registry).1.holding = some uri ∨ j ≠ i ∧ c.Holds j uri := by
  rw [Holds, runsCall]
  by_cases same : j = i
  · simp [same]
  · simp [same, Holds]

theorem Sound.guardedCall (sound : Sound vdags c) (i : ι) (outside : Answers) :
    (c.turn (.call i outside)).registry.Guarded (c.turn (.call i outside)).Holds := by
  have alike := fun j => holdsCall c i j outside
  have called := sound.calledSound i outside
  have own : ∀ other, c.Holds i other ↔ (c.runs i).holding = some other := fun _ => Iff.rfl
  have registry : (c.turn (.call i outside)).registry = ((c.runs i).call outside c.registry).2 := rfl
  rw [registry]
  generalize (c.runs i).call outside c.registry = came at called alike
  generalize c.runs i = run at called own
  obtain ⟨run', after⟩ := came
  dsimp only at called alike ⊢
  have still : run'.holding = run.holding → ∀ j other, (c.turn (.call i outside)).Holds j other ↔ c.Holds j other := by
    intro unmoved j other
    rw [alike]
    by_cases here : j = i
    · simp [here, own, unmoved]
    · simp [here]
  cases called with
  | idle _ same | refused _ same => exact sound.guarded.guardedSame (same ▸ .refl _) (still rfl)
  | planned _ same _ => exact sound.guarded.guardedSame same (still rfl)
  | granted named granted _ =>
    refine sound.guarded.guardedGrant (i := i) granted (fun other => ?_) (fun j other => ?_)
    · simp [own]
    · rw [alike]
      simp [eq_comm]
  | stored named stored _ =>
    refine sound.guarded.guardedSpend (i := i) stored ((own _).mpr rfl) (fun other => ?_) (fun j other => ?_)
    · simp [own, eq_comm]
    · rw [alike]
      simp

theorem Sound.soundTurn (sound : Sound vdags c) (turn : Turn ι) : Sound vdags (c.turn turn) := by
  cases turn with
  | call i outside =>
    refine ⟨fun j => ?_, sound.guardedCall i outside⟩
    rw [runsCall]
    split
    · rename_i here
      subst j
      exact (sound.calledSound i outside).stageAfter
    · exact sound.stage j
  | delete uri => exact ⟨sound.stage, sound.guarded.guardedDelete uri⟩

theorem Sound.soundTurns (sound : Sound vdags c) (order : List (Turn ι)) : Sound vdags (c.turns order) := by
  induction order generalizing c with
  | nil => exact sound
  | cons turn rest ih => exact ih (sound.soundTurn turn)

theorem Sound.sparesRunning (sound : Sound vdags c) (i : ι) (outside : Answers) {uri : VdagUri} {record : Definition}
    (found : c.registry.stored? uri = some record) (running : record.status.isRunnable = true) :
    (c.turn (.call i outside)).registry.stored? uri = some record := by
  have called := sound.calledSound i outside
  change ((c.runs i).call outside c.registry).2.stored? uri = some record
  generalize (c.runs i).call outside c.registry = came at called
  generalize c.runs i = run at called
  obtain ⟨run', after⟩ := came
  dsimp only at called ⊢
  -- Only a claim that is granted removes a record, and only one whose status allows to submit it again.
  cases called with
  | idle _ same | refused _ same =>
    rw [same]
    exact found
  | granted _ granted _ =>
    rw [granted.records]
    split
    · rename_i here
      subst uri
      have replaceable := granted.replaceable record found
      cases h : record.status <;>
        simp [h, VdagStatus.isRunnable, VdagStatus.allowsResubmission] at running replaceable
    · exact found
  | planned _ same _ =>
    rw [MemoryRegistry.stored?, same.1]
    exact found
  | stored _ stored _ =>
    rw [stored.records]
    split
    · rename_i here
      subst uri
      cases stored.vacant.symm.trans found
    · exact found

theorem Sound.returnedOrStored (sound : Sound vdags c) {i j : ι} {outside : Answers} {answer : Definition}
    (returned : ((c.turn (.call i outside)).runs j).returned? = some (.ok answer)) :
    (c.runs j).returned? = some (.ok answer) ∨
      j = i ∧ ∃ uri record, (vdags i).uri? = some uri ∧ c.registry.stored? uri = none ∧
        record.status.isRunnable = true ∧ (c.turn (.call i outside)).registry.stored? uri = some record := by
  rw [runsCall] at returned
  split at returned
  · rename_i here
    subst j
    have called := sound.calledSound i outside
    change _ ∨ i = i ∧ ∃ uri record, _ ∧ _ ∧ _ ∧ ((c.runs i).call outside c.registry).2.stored? uri = some record
    generalize (c.runs i).call outside c.registry = came at called returned
    generalize c.runs i = run at called
    obtain ⟨run', after⟩ := came
    dsimp only at called returned ⊢
    cases called with
    | idle _ _ => exact .inl returned
    | refused _ _ => cases returned
    | granted _ _ holding | planned _ _ holding => cases holding <;> cases returned
    | @stored uri _ record _ named stored answered =>
      refine .inr ⟨rfl, uri, record, named, stored.vacant, ?_, (stored.records uri).trans (if_pos rfl)⟩
      rw [(answered (Option.some.inj returned)).2]
      rfl
  · exact .inl returned

theorem Kept.keptByCall (kept : Kept vdags c) (i : ι) (outside : Answers) : Kept vdags (c.turn (.call i outside)) := by
  refine ⟨kept.sound.soundTurn _, fun {j answer} returned => ?_, fun {a b _ _} first second alike => ?_⟩
  · rcases kept.sound.returnedOrStored returned with before | ⟨rfl, uri, record, named, _, running, stored⟩
    · obtain ⟨uri, record, named, found, running⟩ := kept.running before
      exact ⟨uri, record, named, kept.sound.sparesRunning i outside found running, running⟩
    · exact ⟨uri, record, named, stored, running⟩
  · rcases kept.sound.returnedOrStored first with before | ⟨here, uri, _, named, vacant, _⟩
    · rcases kept.sound.returnedOrStored second with before' | ⟨rfl, uri, _, named, vacant, _⟩
      · exact kept.single before before' alike
      · exact absurd vacant (kept.returnedOccupied before (alike.trans named))
    · rcases kept.sound.returnedOrStored second with before' | ⟨here', _⟩
      · subst here
        exact absurd vacant (kept.returnedOccupied before' (alike.symm.trans named))
      · exact here.trans here'.symm

theorem Kept.keptByCalls (kept : Kept vdags c) {order : List (Turn ι)} (undeleted : ∀ uri, .delete uri ∉ order) :
    Kept vdags (c.turns order) := by
  induction order generalizing c with
  | nil => exact kept
  | cons turn rest ih =>
    have later : ∀ uri, .delete uri ∉ rest := fun uri member => undeleted uri (List.mem_cons_of_mem _ member)
    cases turn with
    | call i outside => exact ih (kept.keptByCall i outside) later
    | delete uri => exact absurd List.mem_cons_self (undeleted uri)

structure Exclusive (vdags : ι → Definition) (c : Interleaving ι) : Prop where
  own : ∀ {i uri}, c.Holds i uri → (vdags i).uri? = some uri
  once : ∀ {i j uri}, c.Holds i uri → c.Holds j uri → i = j
  claimed : ∀ uri, uri ∈ c.registry.claimed ↔ ∃ i, c.Holds i uri
  vacant : ∀ {uri}, uri ∈ c.registry.claimed → c.registry.stored? uri = none
  creates : ∀ {i record}, (c.runs i).request? = some (.create record) → ∃ uri after, record.uri? = some uri ∧
    c.Holds i uri ∧ on (MemoryRegistry.create record) c.registry = (.ok (), after)
  spares : ∀ {i outside uri record}, c.registry.stored? uri = some record → record.status.isRunnable = true →
    (c.turn (.call i outside)).registry.stored? uri = some record
  released : (∀ i, (c.runs i).returned? ≠ none) → c.registry.claimed = []

theorem Sound.exclusiveSound (sound : Sound vdags c) : Exclusive vdags c where
  own := sound.heldOwn
  once := sound.guarded.once
  claimed := sound.guarded.claimed
  vacant := sound.guarded.vacant
  creates := by
    intro i record next
    obtain ⟨uri, after, named, held, created, _⟩ :=
      Run.createsRecord (sound.stage i) (fun held => sound.heldVacant held) next
    exact ⟨uri, after, named, held, created⟩
  spares := fun found running => sound.sparesRunning _ _ found running
  released := by
    intro returned
    refine List.eq_nil_iff_forall_not_mem.mpr (fun uri marked => ?_)
    obtain ⟨i, held⟩ := (sound.guarded.claimed uri).mp marked
    exact sound.returnedIdle (returned i) held

theorem claimsExclusive {registry : MemoryRegistry} (unclaimed : registry.claimed = []) (vdags : ι → Definition)
    (order : List (Turn ι)) :
    Exclusive vdags ((start registry vdags).turns order) ∧
      ((∀ uri, .delete uri ∉ order) → ∀ {i j a b},
        (((start registry vdags).turns order).runs i).returned? = some (.ok a) →
        (((start registry vdags).turns order).runs j).returned? = some (.ok b) →
        (vdags i).uri? = (vdags j).uri? → i = j) := by
  have sound := startSound unclaimed vdags
  exact ⟨(sound.soundTurns order).exclusiveSound, fun undeleted =>
    ((startKept unclaimed vdags).keptByCalls undeleted).single⟩

def sampleVdag : Definition where
  name := "v"
  version := ⟨"1", "a"⟩
  discoveryTags := []
  controller := .null
  nodes := [⟨⟨"n"⟩, .block, none, none, none, none, some ⟨"x"⟩, ⟨.empty, .empty, .empty, []⟩⟩]
  graph := .empty
  status := .pending
  assignment := .empty
  compiled := none

def sampleAnswers : Answers where
  search := .ok []
  resolve := .ok ⟨.ofList [("x", [])]⟩
  reach := 0

def sampleOrder : List (Turn (Fin 2)) :=
  [.call 0 sampleAnswers, .call 1 sampleAnswers, .call 0 sampleAnswers, .call 0 sampleAnswers, .call 0 sampleAnswers]

def sampleRuns : Interleaving (Fin 2) := (start .empty fun _ => sampleVdag).turns sampleOrder

theorem sampleReturns : ∃ answer, (sampleRuns.runs 0).returned? = some (.ok answer) := by
  have well : ((sampleRuns.runs 0).returned?.bind Except.toOption).isSome = true := by decide +kernel
  obtain ⟨answer, taken⟩ := Option.isSome_iff_exists.mp well
  obtain ⟨outcome, returned, ok⟩ := Option.bind_eq_some_iff.mp taken
  cases outcome with
  | ok a => exact ⟨a, returned⟩
  | error failure => cases ok

theorem sampleExclusive :
    MemoryRegistry.empty.claimed = [] ∧ (∀ uri, .delete uri ∉ sampleOrder) ∧ sampleVdag.uri? = some ⟨"v:1-a"⟩ ∧
      (∃ answer, (sampleRuns.runs 0).returned? = some (.ok answer)) ∧
      Exclusive (fun _ => sampleVdag) sampleRuns ∧
      ∀ i answer, (sampleRuns.runs i).returned? = some (.ok answer) → 0 = i := by
  obtain ⟨first, returned⟩ := sampleReturns
  have undeleted : ∀ uri, .delete uri ∉ sampleOrder := by simp [sampleOrder]
  have exclusive := @claimsExclusive (Fin 2) _ .empty rfl (fun _ => sampleVdag) sampleOrder
  exact ⟨rfl, undeleted, by decide +kernel, ⟨first, returned⟩, exclusive.1,
    fun i answer second => exclusive.2 undeleted returned second rfl⟩

end Interleaving

end Vdag
