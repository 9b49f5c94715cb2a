import Vdag.Proofs.BlockGraph.Chains
import Vdag.Proofs.Registry.Walking

/-! What loading comes to: the vDAGs that an assignment leads to, each asked for once, and no other. -/
namespace Vdag
open Vdag.Action

namespace MemoryRegistry

/- Every vDAG that the assignment embeds, and every one that a stored vDAG on the way embeds. What the root embeds is
in the assignment, whatever is stored for it, so no way leads through the root. -/
inductive Reached (r : MemoryRegistry) (root : Option VdagUri) (assignment : Assignment) : VdagUri → Prop
  | direct {uri : VdagUri} (embedded : uri ∈ assignment.embeddings) (other : root ≠ some uri) :
      Reached r root assignment uri
  | through {via uri : VdagUri} {stored : Definition} (reached : Reached r root assignment via)
      (found : r.stored? via = some stored) (embedded : uri ∈ stored.assignment.embeddings)
      (other : root ≠ some uri) : Reached r root assignment uri

def Embeddable (r : MemoryRegistry) (uri : VdagUri) : Prop :=
  ∃ stored, r.stored? uri = some stored ∧ (stored.status = .assigned ∨ stored.status = .active) ∧
    stored.assignment.entries ≠ []

variable {r : MemoryRegistry} {root : Option VdagUri} {assignment : Assignment} {uri : VdagUri}

theorem Reached.notRoot (reached : r.Reached root assignment uri) : root ≠ some uri := by
  cases reached with
  | direct _ other | through _ _ _ other => exact other

theorem runnableIff {status : VdagStatus} : status.isRunnable = true ↔ status = .assigned ∨ status = .active := by
  cases status <;> decide

theorem offersOk {vdag : EmbeddedVdag} :
    r.offers uri = .ok vdag ↔
      r.Embeddable uri ∧ ∃ stored, r.stored? uri = some stored ∧ vdag = ⟨stored.assignment, stored.graph⟩ := by
  unfold offers Embeddable
  cases r.stored? uri with
  | none => simp
  | some stored =>
    simp only [Option.some.injEq, exists_eq_left', Closure.embeddable, runnableIff, SortedMap.isEmpty,
      Bool.not_eq_true', List.isEmpty_eq_false_iff]
    split
    · rename_i fit
      rw [Except.ok.injEq, eq_comm, and_iff_right fit]
    · rename_i unfit
      exact ⟨fun same => (by cases same), fun given => absurd given.1 unfit⟩

theorem offersFails {failure : Failure} :
    r.offers uri = .error failure ↔
      ¬ r.Embeddable uri ∧ (r.stored? uri = none ∧ failure = .composition (.missing uri) ∨
        ∃ stored, r.stored? uri = some stored ∧ failure = .composition (.notAssigned uri stored.status)) := by
  unfold offers Embeddable
  cases r.stored? uri with
  | none => simp [eq_comm]
  | some stored =>
    simp only [Option.some.injEq, exists_eq_left', Closure.embeddable, runnableIff, SortedMap.isEmpty,
      Bool.not_eq_true', List.isEmpty_eq_false_iff]
    split
    · rename_i fit
      exact ⟨fun same => (by cases same), fun given => absurd fit given.1⟩
    · rename_i unfit
      rw [Except.error.injEq, eq_comm, and_iff_right unfit]
      simp

end MemoryRegistry

open MemoryRegistry

namespace Closure

variable {c : Closure} {uri other : VdagUri} {rest : List VdagUri} {vdag : EmbeddedVdag}

theorem memMet (assignment : Assignment) :
    uri ∈ (c.meetAll assignment).met ↔ uri ∈ c.met ∨ uri ∈ assignment.embeddings := by
  unfold meetAll
  induction assignment.embeddings generalizing c with
  | nil => simp
  | cons next rest ih =>
    rw [List.foldl_cons, ih, meet, List.mem_cons]
    split
    · rename_i known
      simp only [or_left_comm (b := uri = next)]
      exact ⟨.inr, fun h => h.elim (fun same => .inl (same ▸ known)) id⟩
    · rw [List.mem_cons, or_assoc, or_left_comm]

theorem memPending (assignment : Assignment) :
    uri ∈ (c.meetAll assignment).pending ↔ uri ∈ c.pending ∨ uri ∈ assignment.embeddings ∧ uri ∉ c.met := by
  unfold meetAll
  induction assignment.embeddings generalizing c with
  | nil => simp
  | cons next rest ih =>
    rw [List.foldl_cons, ih, meet]
    by_cases same : uri = next <;> split <;> simp_all

/- What holds between two steps: all that was met is waiting or loaded, and nothing was met but what is reached. -/
structure Spanning (r : MemoryRegistry) (root : Option VdagUri) (assignment : Assignment) (c : Closure) : Prop where
  met : ∀ uri, uri ∈ c.met ↔ root = some uri ∨ uri ∈ c.pending ∨ uri ∈ c.loaded.keys
  waiting : ∀ uri ∈ c.pending, r.Reached root assignment uri
  loaded : ∀ uri vdag, c.loaded.find? uri = some vdag → r.Reached root assignment uri ∧ r.offers uri = .ok vdag
  direct : ∀ uri ∈ assignment.embeddings, uri ∈ c.met
  through : ∀ uri vdag, c.loaded.find? uri = some vdag → ∀ next ∈ vdag.assignment.embeddings, next ∈ c.met

variable {r : MemoryRegistry} {root : Option VdagUri} {assignment : Assignment} {uris : List VdagUri}
  {outcome : Outcome EmbeddedIndex}

theorem startSpanning (r : MemoryRegistry) (root : Option VdagUri) (assignment : Assignment) :
    (start root assignment).Spanning r root assignment := by
  have loaded : (start root assignment).loaded = .empty := meetAllLoaded _ _
  have met : ∀ uri, uri ∈ (start root assignment).met ↔ root = some uri ∨ uri ∈ assignment.embeddings := by
    intro uri
    rw [start, memMet, Option.mem_toList]
  have pending : ∀ uri, uri ∈ (start root assignment).pending ↔ uri ∈ assignment.embeddings ∧ root ≠ some uri := by
    intro uri
    rw [start, memPending, Option.mem_toList]
    simp
  refine ⟨fun uri => ?_, fun uri waiting => ?_, by rw [loaded]; nofun, fun uri => (met uri).mpr ∘ .inr,
    by rw [loaded]; nofun⟩
  · rw [met, pending, loaded]
    by_cases same : root = some uri <;> simp [same, SortedMap.memKeys]
  · obtain ⟨embedded, other⟩ := (pending uri).mp waiting
    exact .direct embedded other

theorem Spanning.spanningTake (spanning : c.Spanning r root assignment) (next : c.pending = uri :: rest)
    (found : r.offers uri = .ok vdag) : (c.take uri rest vdag).Spanning r root assignment := by
  have reached : r.Reached root assignment uri := spanning.waiting uri (next ▸ List.mem_cons_self)
  obtain ⟨_, stored, record, rfl⟩ := offersOk.mp found
  have met : ∀ other, other ∈ (c.take uri rest ⟨stored.assignment, stored.graph⟩).met ↔
      other ∈ c.met ∨ other ∈ stored.assignment.embeddings := fun _ => memMet _
  have pending : ∀ other, other ∈ (c.take uri rest ⟨stored.assignment, stored.graph⟩).pending ↔
      other ∈ rest ∨ other ∈ stored.assignment.embeddings ∧ other ∉ c.met := fun _ => memPending _
  refine ⟨fun other => ?_, fun other waiting => ?_, fun other vdag known => ?_, fun other embedded => ?_,
    fun other vdag known last embedded => ?_⟩
  · have before := spanning.met other
    rw [next, List.mem_cons] at before
    rw [met, pending, takeLoaded, SortedMap.keysInsert]
    tauto
  · rcases (pending other).mp waiting with waiting | ⟨embedded, unmet⟩
    · exact spanning.waiting other (next ▸ List.mem_cons_of_mem _ waiting)
    · exact reached.through record embedded (fun same => unmet ((spanning.met other).mpr (.inl same)))
  · rw [takeLoaded, SortedMap.findInsert] at known
    split at known
    · cases known
      subst other
      exact ⟨reached, found⟩
    · exact spanning.loaded other vdag known
  · exact (met other).mpr (.inl (spanning.direct other embedded))
  · rw [takeLoaded, SortedMap.findInsert] at known
    split at known
    · cases known
      exact (met last).mpr (.inr embedded)
    · exact (met last).mpr (.inl (spanning.through other vdag known last embedded))

theorem Spanning.recordedStored (spanning : c.Spanning r root assignment) (key : uri ∈ c.loaded.keys)
    {stored : Definition}
    (record : r.stored? uri = some stored) : c.loaded.find? uri = some ⟨stored.assignment, stored.graph⟩ := by
  obtain ⟨vdag, known⟩ := SortedMap.keyFound.mp key
  obtain ⟨_, other, same, rfl⟩ := offersOk.mp (spanning.loaded uri vdag known).2
  cases record.symm.trans same
  exact known

theorem Spanning.keysReached (spanning : c.Spanning r root assignment) (idle : c.pending = []) :
    uri ∈ c.loaded.keys ↔ r.Reached root assignment uri := by
  have loads : ∀ uri, uri ∈ c.met → root ≠ some uri → uri ∈ c.loaded.keys := by
    intro uri met other
    have stands := (spanning.met uri).mp met
    rw [idle] at stands
    exact (stands.resolve_left other).resolve_left List.not_mem_nil
  constructor
  · intro key
    obtain ⟨vdag, known⟩ := SortedMap.keyFound.mp key
    exact (spanning.loaded uri vdag known).1
  · intro reached
    induction reached with
    | direct embedded other => exact loads _ (spanning.direct _ embedded) other
    | through _ record embedded other ih =>
      exact loads _ (spanning.through _ _ (spanning.recordedStored ih record) _ embedded) other

namespace Walk

theorem apartFromPast {offers : VdagUri → Outcome EmbeddedVdag} (walk : Walk offers c uris outcome)
    (past : c.Past uri) : uri ∉ uris := by
  induction walk with
  | finished => exact List.not_mem_nil
  | refused next _ => exact fun same => past.nextNotPast next (List.mem_singleton.mp same).symm
  | onward next _ _ ih =>
    rw [List.mem_cons, not_or]
    exact ⟨(past.nextNotPast next).symm, ih (past.pastTake next _)⟩

theorem asksOnce {offers : VdagUri → Outcome EmbeddedVdag} (walk : Walk offers c uris outcome) (orderly : c.Orderly) :
    uris.Nodup := by
  induction walk with
  | finished => exact List.nodup_nil
  | refused => exact List.nodup_singleton _
  | @onward _ _ _ _ vdag _ next found later ih =>
    have orderly := orderly.orderlyTake next vdag
    have loaded := orderly.loaded _ (by rw [takeLoaded, SortedMap.keysInsert]; exact .inl rfl)
    exact List.nodup_cons.mpr ⟨later.apartFromPast loaded, ih orderly⟩

theorem asksReached (walk : Walk r.offers c uris outcome) (spanning : c.Spanning r root assignment) :
    ∀ uri ∈ uris, r.Reached root assignment uri := by
  have first : ∀ {c : Closure} {uri rest}, c.Spanning r root assignment → c.pending = uri :: rest →
      r.Reached root assignment uri := fun spanning next => spanning.waiting _ (next ▸ List.mem_cons_self)
  induction walk with
  | finished => exact nofun
  | refused next _ => exact List.forall_mem_singleton.mpr (first spanning next)
  | onward next found _ ih =>
    exact List.forall_mem_cons.mpr ⟨first spanning next, ih (spanning.spanningTake next found)⟩

theorem endsOrFails (walk : Walk r.offers c uris outcome) (spanning : c.Spanning r root assignment) :
    (∃ last : Closure, last.Spanning r root assignment ∧ last.pending = [] ∧ outcome = .ok last.loaded ∧
        ∀ uri ∈ last.loaded.keys, uri ∈ c.loaded.keys ∨ uri ∈ uris) ∨
      ∃ uri failure, r.Reached root assignment uri ∧ r.offers uri = .error failure ∧ outcome = .error failure := by
  induction walk with
  | @finished c idle => exact .inl ⟨c, spanning, idle, rfl, fun _ => .inl⟩
  | @refused _ uri _ failure next refusal =>
    exact .inr ⟨uri, failure, spanning.waiting uri (next ▸ List.mem_cons_self), refusal, rfl⟩
  | onward next found _ ih =>
    rcases ih (spanning.spanningTake next found) with ⟨last, spans, idle, same, keys⟩ | refusal
    · refine .inl ⟨last, spans, idle, same, fun uri key => ?_⟩
      have before := keys uri key
      rw [takeLoaded, SortedMap.keysInsert] at before
      rw [List.mem_cons]
      tauto
    · exact .inr refusal

end Walk

end Closure

/- What loading comes to, and what it asks for on its way. It goes well where all that is reached can be embedded, and
has then loaded what is reached and nothing else. It asks for nothing twice and never for the root. -/
structure MemoryRegistry.Loads (r : MemoryRegistry) (root : Option VdagUri) (assignment : Assignment)
    (uris : List VdagUri) (outcome : Outcome EmbeddedIndex) : Prop where
  accepts : (∃ index, outcome = .ok index) ↔ ∀ uri, r.Reached root assignment uri → r.Embeddable uri
  loads : ∀ index, outcome = .ok index → ∀ uri vdag, index.find? uri = some vdag ↔
    r.Reached root assignment uri ∧ ∃ stored, r.stored? uri = some stored ∧ vdag = ⟨stored.assignment, stored.graph⟩
  refuses : ∀ failure, outcome = .error failure → ∃ uri, r.Reached root assignment uri ∧ ¬ r.Embeddable uri ∧
    (r.stored? uri = none ∧ failure = .composition (.missing uri) ∨
      ∃ stored, r.stored? uri = some stored ∧ failure = .composition (.notAssigned uri stored.status))
  once : uris.Nodup
  only : ∀ uri ∈ uris, r.Reached root assignment uri ∧ root ≠ some uri
  every : ∀ index, outcome = .ok index → ∀ uri, r.Reached root assignment uri → uri ∈ uris

section
variable {r : MemoryRegistry} {root : Option VdagUri} {assignment : Assignment}

theorem Closure.Spanning.indexesReached {c : Closure} (spanning : c.Spanning r root assignment) (idle : c.pending = [])
    (uri : VdagUri) (vdag : EmbeddedVdag) : c.loaded.find? uri = some vdag ↔
      r.Reached root assignment uri ∧
        ∃ stored, r.stored? uri = some stored ∧ vdag = ⟨stored.assignment, stored.graph⟩ := by
  constructor
  · intro known
    obtain ⟨reached, offered⟩ := spanning.loaded uri vdag known
    exact ⟨reached, (offersOk.mp offered).2⟩
  · intro given
    obtain ⟨reached, stored, record, rfl⟩ := given
    exact spanning.recordedStored ((spanning.keysReached idle).mpr reached) record

theorem Closure.Walk.walkLoads {uris : List VdagUri} {outcome : Outcome EmbeddedIndex}
    (walk : Closure.Walk r.offers (.start root assignment) uris outcome) : r.Loads root assignment uris outcome := by
  have spanning := startSpanning r root assignment
  have once := walk.asksOnce (startOrderly root assignment)
  have only : ∀ uri ∈ uris, r.Reached root assignment uri ∧ root ≠ some uri := by
    intro uri member
    have reached := walk.asksReached spanning uri member
    exact ⟨reached, reached.notRoot⟩
  rcases walk.endsOrFails spanning with ⟨last, spans, idle, rfl, keys⟩ | ⟨uri, failure, reached, refusal, rfl⟩
  · refine ⟨⟨fun _ uri reached => ?_, fun _ => ⟨_, rfl⟩⟩, fun index same => ?_, nofun, once, only,
      fun _ _ uri reached => ?_⟩
    · obtain ⟨vdag, known⟩ := SortedMap.keyFound.mp ((spans.keysReached idle).mpr reached)
      exact (offersOk.mp (spans.loaded uri vdag known).2).1
    · cases same
      exact spans.indexesReached idle
    · refine (keys uri ((spans.keysReached idle).mpr reached)).resolve_left ?_
      rw [start, meetAllLoaded]
      exact List.not_mem_nil
  · obtain ⟨unfit, found⟩ := offersFails.mp refusal
    refine ⟨⟨nofun, fun fit => absurd (fit uri reached) unfit⟩, nofun, fun other same => ?_, once, only, nofun⟩
    cases same
    exact ⟨uri, reached, unfit, found⟩

theorem MemoryRegistry.Loads.keysLoaded {uris : List VdagUri} {index : EmbeddedIndex} {uri : VdagUri}
    (loads : r.Loads root assignment uris (.ok index)) : uri ∈ index.keys ↔ r.Reached root assignment uri := by
  rw [SortedMap.keyFound]
  constructor
  · intro given
    obtain ⟨vdag, known⟩ := given
    exact ((loads.loads index rfl uri vdag).mp known).1
  · intro reached
    obtain ⟨stored, record, _⟩ := loads.accepts.mp ⟨index, rfl⟩ uri reached
    exact ⟨_, (loads.loads index rfl uri _).mpr ⟨reached, stored, record, rfl⟩⟩

end

namespace Surroundings

variable {σ : Type} (outside : Surroundings σ)

/- What is loaded is enough to compile: what it lacks is the root, and that is open already. -/
theorem buildLoaded (root : Option VdagUri) (logical : LogicalGraph) (assignment : Assignment) (r : MemoryRegistry)
    (s : σ) (uri : VdagUri) (label : NodeLabel) :
    (on (BlockGraph.build outside.processor.registry root logical assignment) (r, s)).1 ≠
      .error (.composition (.notLoaded uri label)) := by
  obtain ⟨uris, outcome, ran, _, walk⟩ := collectWalks outside root assignment r s
  have loads := walk.walkLoads
  rw [BlockGraph.build, onBind, ran]
  cases outcome with
  | error failure =>
    intro failed
    obtain ⟨_, _, _, ⟨_, same⟩ | ⟨_, _, same⟩⟩ := loads.refuses failure rfl
    · cases same.symm.trans (Except.error.inj failed)
    · cases same.symm.trans (Except.error.inj failed)
  | ok index =>
    refine BlockGraph.withinLoaded (fun next embedded => ?_) (fun other vdag known next embedded => ?_)
    · by_cases same : root = some next
      · exact .inl (Option.mem_toList.mpr same)
      · exact .inr (loads.keysLoaded.mpr (.direct embedded same))
    · obtain ⟨reached, stored, record, rfl⟩ := (loads.loads index rfl other vdag).mp known
      by_cases same : root = some next
      · exact .inl (Option.mem_toList.mpr same)
      · exact .inr (loads.keysLoaded.mpr (reached.through record embedded same))

theorem loadsReached (root : Option VdagUri) (assignment : Assignment) (r : MemoryRegistry) (s : σ) :
    ∃ uris outcome, r.Loads root assignment uris outcome ∧
      on (EmbeddedIndex.collect outside.processor.registry root assignment) (r, s) =
        (outcome, ({ r with lookups := r.lookups + uris.length }, s)) ∧
      (EmbeddedIndex.collect Paused.processor.registry root assignment).run.asked outside (r, s) =
        .reach :: uris.map .get ∧
      (∀ steps, r.vdags.size < steps →
        on (Closure.load outside.processor.registry steps (.start root assignment)) (r, s) =
          (outcome, ({ r with lookups := r.lookups + uris.length }, s))) ∧
      ∀ logical uri label, (on (BlockGraph.build outside.processor.registry root logical assignment) (r, s)).1 ≠
        .error (.composition (.notLoaded uri label)) := by
  obtain ⟨uris, outcome, ran, asked, walk⟩ := collectWalks outside root assignment r s
  refine ⟨uris, outcome, walk.walkLoads, ran, asked, fun steps enough => ?_,
    fun logical => buildLoaded outside root logical assignment r s⟩
  obtain ⟨uris', outcome', ran', _, walk'⟩ := startWalks outside root assignment s enough
  obtain ⟨rfl, rfl⟩ := walk.walkUnique walk'
  exact ran'

end Surroundings

end Vdag
