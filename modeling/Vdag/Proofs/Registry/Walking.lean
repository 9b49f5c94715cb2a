import Vdag.Proofs.Registry.Asking

/-! Loading what a vDAG embeds, as a walk from record to record. A walk meets every vDAG once, so one step for each
record and one more are always enough, and it never asks for the vDAG it started from. -/
namespace Vdag
open Vdag.Action MemoryRegistry

namespace MemoryRegistry

def offers (r : MemoryRegistry) (uri : VdagUri) : Outcome EmbeddedVdag :=
  match r.stored? uri with
  | some stored => Closure.embeddable uri stored
  | none => .error (.composition (.missing uri))

theorem offersStored {r : MemoryRegistry} {uri : VdagUri} {vdag : EmbeddedVdag} (ok : r.offers uri = .ok vdag) :
    uri ∈ r.vdags.keys := by
  unfold offers at ok
  split at ok
  · rename_i stored found
    exact SortedMap.memOfFind found
  · cases ok

def unloaded (r : MemoryRegistry) (index : EmbeddedIndex) : List VdagUri := r.vdags.keys.filter (· ∉ index.keys)

theorem unloadedInsert {r : MemoryRegistry} {index : EmbeddedIndex} {uri : VdagUri} (vdag : EmbeddedVdag)
    (stored : uri ∈ r.vdags.keys) (fresh : uri ∉ index.keys) :
    (r.unloaded (index.insert uri vdag)).length < (r.unloaded index).length := by
  have narrower : r.unloaded (index.insert uri vdag) = (r.unloaded index).filter (· ≠ uri) := by
    rw [unloaded, unloaded, List.filter_filter]
    refine List.filter_congr (fun other _ => ?_)
    simp [SortedMap.keysInsert]
  rw [narrower]
  exact List.length_filter_lt_length_iff_exists.mpr
    ⟨uri, List.mem_filter.mpr ⟨stored, by simpa using fresh⟩, by simp⟩

end MemoryRegistry

namespace Closure

def start (root : Option VdagUri) (assignment : Assignment) : Closure := (mk [] root.toList .empty).meetAll assignment

def take (c : Closure) (uri : VdagUri) (rest : List VdagUri) (vdag : EmbeddedVdag) : Closure :=
  ({ c with pending := rest, loaded := c.loaded.insert uri vdag } : Closure).meetAll vdag.assignment

theorem meetAllKeeps {P : Closure → Prop} (step : ∀ {c uri}, P c → P (c.meet uri)) {c : Closure} (holds : P c)
    (assignment : Assignment) : P (c.meetAll assignment) :=
  List.foldlRecOn assignment.embeddings meet holds (fun _ held _ _ => step held)

theorem meetAllLoaded (c : Closure) (assignment : Assignment) : (c.meetAll assignment).loaded = c.loaded := by
  refine meetAllKeeps (P := fun met => met.loaded = c.loaded) (fun {met uri} same => ?_) rfl assignment
  rw [meet]
  split
  · exact same
  · exact same

theorem takeLoaded (c : Closure) (uri : VdagUri) (rest : List VdagUri) (vdag : EmbeddedVdag) :
    (c.take uri rest vdag).loaded = c.loaded.insert uri vdag := meetAllLoaded _ _

/- The walk without a bound on its steps, and what it asks for on its way. -/
inductive Walk (offers : VdagUri → Outcome EmbeddedVdag) : Closure → List VdagUri → Outcome EmbeddedIndex → Prop
  | finished {c : Closure} (idle : c.pending = []) : Walk offers c [] (.ok c.loaded)
  | refused {c : Closure} {uri : VdagUri} {rest : List VdagUri} {failure : Failure} (next : c.pending = uri :: rest)
      (refusal : offers uri = .error failure) : Walk offers c [uri] (.error failure)
  | onward {c : Closure} {uri : VdagUri} {rest uris : List VdagUri} {vdag : EmbeddedVdag}
      {outcome : Outcome EmbeddedIndex} (next : c.pending = uri :: rest) (found : offers uri = .ok vdag)
      (later : Walk offers (c.take uri rest vdag) uris outcome) : Walk offers c (uri :: uris) outcome

/- Met, and not waiting any more: the walk will not come back to it. -/
def Past (c : Closure) (uri : VdagUri) : Prop := uri ∈ c.met ∧ uri ∉ c.pending

structure Orderly (c : Closure) : Prop where
  distinct : c.pending.Nodup
  met : ∀ uri ∈ c.pending, uri ∈ c.met
  loaded : ∀ uri ∈ c.loaded.keys, c.Past uri

variable {c : Closure} {uri other : VdagUri} {rest : List VdagUri} {vdag : EmbeddedVdag}

theorem Past.pastMeet (past : c.Past uri) (other : VdagUri) : (c.meet other).Past uri := by
  unfold Closure.meet
  split
  · exact past
  · rename_i fresh
    have apart : uri ≠ other := fun same => fresh (same ▸ past.1)
    exact ⟨List.mem_cons_of_mem _ past.1, by simpa [apart] using past.2⟩

theorem Past.meetAll (past : c.Past uri) (assignment : Assignment) : (c.meetAll assignment).Past uri :=
  meetAllKeeps (P := (Past · uri)) (fun past => past.pastMeet _) past assignment

theorem Past.pastTake (past : c.Past uri) (next : c.pending = other :: rest) (vdag : EmbeddedVdag) :
    (c.take other rest vdag).Past uri := by
  have left : (⟨rest, c.met, c.loaded.insert other vdag⟩ : Closure).Past uri :=
    ⟨past.1, fun waiting => past.2 (next ▸ List.mem_cons_of_mem _ waiting)⟩
  exact left.meetAll vdag.assignment

theorem Past.nextNotPast (past : c.Past uri) (next : c.pending = other :: rest) : other ≠ uri := by
  rintro rfl
  exact past.2 (next ▸ List.mem_cons_self)

theorem Orderly.orderlyMeet (orderly : c.Orderly) (uri : VdagUri) : (c.meet uri).Orderly := by
  unfold Closure.meet
  split
  · exact orderly
  · rename_i fresh
    refine ⟨?_, fun other waiting => ?_, fun other key => ?_⟩
    · refine List.nodup_append.mpr ⟨orderly.distinct, List.nodup_singleton uri, fun a waiting b last same => ?_⟩
      exact fresh (List.mem_singleton.mp last ▸ same ▸ orderly.met a waiting)
    · rcases List.mem_append.mp waiting with waiting | last
      · exact List.mem_cons_of_mem _ (orderly.met other waiting)
      · exact List.mem_singleton.mp last ▸ List.mem_cons_self
    · have past := (orderly.loaded other key).pastMeet uri
      rwa [Closure.meet, if_neg fresh] at past

theorem Orderly.meetAll (orderly : c.Orderly) (assignment : Assignment) : (c.meetAll assignment).Orderly :=
  meetAllKeeps (P := Orderly) (fun orderly => orderly.orderlyMeet _) orderly assignment

theorem Orderly.nextFresh (orderly : c.Orderly) (next : c.pending = uri :: rest) : uri ∉ c.loaded.keys :=
  fun key => (orderly.loaded uri key).nextNotPast next rfl

theorem Orderly.orderlyTake (orderly : c.Orderly) (next : c.pending = uri :: rest) (vdag : EmbeddedVdag) :
    (c.take uri rest vdag).Orderly := by
  obtain ⟨distinct, met, loaded⟩ := orderly
  rw [next] at distinct met
  obtain ⟨absent, distinct⟩ := List.nodup_cons.mp distinct
  suffices (⟨rest, c.met, c.loaded.insert uri vdag⟩ : Closure).Orderly from this.meetAll vdag.assignment
  refine ⟨distinct, fun other waiting => met other (List.mem_cons_of_mem _ waiting), fun other key => ?_⟩
  rcases SortedMap.keysInsert.mp key with rfl | key
  · exact ⟨met other List.mem_cons_self, absent⟩
  · have past := loaded other key
    exact ⟨past.1, fun waiting => past.2 (next ▸ List.mem_cons_of_mem _ waiting)⟩

theorem startOrderly (root : Option VdagUri) (assignment : Assignment) : (start root assignment).Orderly := by
  suffices (⟨[], root.toList, .empty⟩ : Closure).Orderly from this.meetAll assignment
  exact ⟨List.nodup_nil, fun _ waiting => absurd waiting List.not_mem_nil,
    fun _ key => absurd key (by simp [SortedMap.memKeys])⟩

theorem startPast (root : VdagUri) (assignment : Assignment) : (start (some root) assignment).Past root := by
  suffices (⟨[], [root], .empty⟩ : Closure).Past root from this.meetAll assignment
  exact ⟨List.mem_singleton.mpr rfl, List.not_mem_nil⟩

namespace Walk

variable {offers offers' : VdagUri → Outcome EmbeddedVdag} {uris uris' : List VdagUri}
  {outcome outcome' : Outcome EmbeddedIndex}

theorem walkUnique (walk : Walk offers c uris outcome) (walk' : Walk offers c uris' outcome') :
    uris = uris' ∧ outcome = outcome' := by
  induction walk generalizing uris' with
  | finished idle =>
    cases walk' with
    | finished _ => exact ⟨rfl, rfl⟩
    | refused next _ | onward next _ _ => cases idle.symm.trans next
  | refused next refusal =>
    cases walk' with
    | finished idle => cases idle.symm.trans next
    | refused next' refusal' =>
      cases next.symm.trans next'
      cases refusal.symm.trans refusal'
      exact ⟨rfl, rfl⟩
    | onward next' found _ =>
      cases next.symm.trans next'
      cases refusal.symm.trans found
  | onward next found _ ih =>
    cases walk' with
    | finished idle => cases idle.symm.trans next
    | refused next' refusal =>
      cases next.symm.trans next'
      cases found.symm.trans refusal
    | onward next' found' later' =>
      cases next.symm.trans next'
      cases found.symm.trans found'
      obtain ⟨rfl, same⟩ := ih later'
      exact ⟨rfl, same⟩

theorem walkElsewhere (walk : Walk offers c uris outcome) (past : c.Past uri)
    (alike : ∀ other, other ≠ uri → offers' other = offers other) : Walk offers' c uris outcome := by
  induction walk with
  | finished idle => exact .finished idle
  | refused next refusal => exact .refused next ((alike _ (past.nextNotPast next)).trans refusal)
  | onward next found _ ih =>
    exact .onward next ((alike _ (past.nextNotPast next)).trans found) (ih (past.pastTake next _))

end Walk

end Closure

namespace Surroundings

variable {σ : Type} (outside : Surroundings σ)

theorem onFetch (uri : VdagUri) (r : MemoryRegistry) (s : σ) :
    on (Closure.fetch outside.processor.registry uri) (r, s) =
      (r.offers uri, ({ r with lookups := r.lookups + 1 }, s)) := by
  have run : on (Closure.fetch outside.processor.registry uri) (r, s) =
      on (match r.stored? uri with
        | some stored => ofOutcome (Closure.embeddable uri stored)
        | none => fail (.composition (.missing uri))) ({ r with lookups := r.lookups + 1 }, s) := rfl
  rw [run, offers]
  cases r.stored? uri <;> rfl

theorem fetchAsks (uri : VdagUri) (r : MemoryRegistry) (s : σ) :
    (Closure.fetch Paused.processor.registry uri).run.asked outside (r, s) = [.get uri] := by
  have asked : (Closure.fetch Paused.processor.registry uri).run.asked outside (r, s) =
      .get uri :: (match r.stored? uri with
        | some stored => (ofOutcome (Closure.embeddable uri stored) : Action Paused EmbeddedVdag)
        | none => fail (.composition (.missing uri))).run.asked outside ({ r with lookups := r.lookups + 1 }, s) := rfl
  rw [asked]
  cases r.stored? uri <;> rfl

theorem loadWalks {steps : Nat} {c : Closure} {r : MemoryRegistry} (s : σ) (orderly : c.Orderly)
    (enough : (r.unloaded c.loaded).length < steps) :
    ∃ uris outcome, on (Closure.load outside.processor.registry steps c) (r, s) =
        (outcome, ({ r with lookups := r.lookups + uris.length }, s)) ∧
      (Closure.load Paused.processor.registry steps c).run.asked outside (r, s) = uris.map .get ∧
      Closure.Walk r.offers c uris outcome := by
  -- Every step loads one more of the stored records, so those not loaded yet bound the steps that are left.
  induction steps generalizing c r with
  | zero => exact absurd enough (Nat.not_lt_zero _)
  | succ steps ih =>
    unfold Closure.load
    split
    · rename_i idle
      exact ⟨[], .ok c.loaded, rfl, rfl, .finished idle⟩
    · rename_i uri rest next
      rw [onBind, onFetch, Paused.askedThen outside ((Paused.asksPerform outside).fetchRelated uri), onFetch, fetchAsks]
      cases found : r.offers uri with
      | error failure => exact ⟨[uri], .error failure, rfl, rfl, .refused next found⟩
      | ok vdag =>
        have fewer := unloadedInsert vdag (offersStored found) (orderly.nextFresh next)
        have left : (r.unloaded (c.take uri rest vdag).loaded).length < steps := by
          rw [Closure.takeLoaded]
          omega
        obtain ⟨uris, outcome, ran, asked, walk⟩ :=
          ih (r := { r with lookups := r.lookups + 1 }) (orderly.orderlyTake next vdag) left
        refine ⟨uri :: uris, outcome, ran.trans ?_, congrArg (Request.get uri :: ·) asked, .onward next found walk⟩
        rw [List.length_cons, Nat.add_assoc, Nat.add_comm 1]

theorem startWalks {steps : Nat} {r : MemoryRegistry} (root : Option VdagUri) (assignment : Assignment) (s : σ)
    (enough : r.vdags.size < steps) :
    ∃ uris outcome, on (Closure.load outside.processor.registry steps (.start root assignment)) (r, s) =
        (outcome, ({ r with lookups := r.lookups + uris.length }, s)) ∧
      (Closure.load Paused.processor.registry steps (.start root assignment)).run.asked outside (r, s) =
        uris.map .get ∧
      Closure.Walk r.offers (.start root assignment) uris outcome := by
  have fewer : (r.unloaded (Closure.start root assignment).loaded).length ≤ r.vdags.size := by
    rw [SortedMap.sizeKeys]
    exact List.length_filter_le _ _
  exact loadWalks outside s (Closure.startOrderly root assignment) (Nat.lt_of_le_of_lt fewer enough)

theorem collectWalks (root : Option VdagUri) (assignment : Assignment) (r : MemoryRegistry) (s : σ) :
    ∃ uris outcome, on (EmbeddedIndex.collect outside.processor.registry root assignment) (r, s) =
        (outcome, ({ r with lookups := r.lookups + uris.length }, s)) ∧
      (EmbeddedIndex.collect Paused.processor.registry root assignment).run.asked outside (r, s) =
        .reach :: uris.map .get ∧
      Closure.Walk r.offers (.start root assignment) uris outcome := by
  obtain ⟨uris, outcome, ran, asked, walk⟩ := startWalks outside root assignment s (Nat.lt_succ_self r.vdags.size)
  exact ⟨uris, outcome, ran, congrArg (Request.reach :: ·) asked, walk⟩

end Surroundings

end Vdag
