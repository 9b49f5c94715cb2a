import Mathlib.Logic.Relation
import Vdag.Proofs.Registry.Mapping

/-! Stored vDAGs never embed each other in a circle, whatever is mapped, fails, is deleted and comes back. A new
record can only close a circle through itself, and compiling it followed every way on from it. -/
namespace Vdag
open Vdag.Action Relation

namespace MemoryRegistry

def Embeds (r : MemoryRegistry) (uri embedded : VdagUri) : Prop :=
  ∃ record, r.stored? uri = some record ∧ ∃ label, record.assignment.find? label = some (.embedded embedded)

def Acyclic (r : MemoryRegistry) : Prop := ∀ uri, ¬ TransGen r.Embeds uri uri

theorem Acyclic.acyclicFewer {before after : MemoryRegistry} (acyclic : before.Acyclic)
    (fewer : ∀ {a b}, after.Embeds a b → before.Embeds a b) : after.Acyclic :=
  fun uri cycle => acyclic uri (cycle.lift id (fun _ _ => fewer))

/- A way that uses new edges passes the one place where they begin. -/
theorem waySplits {α : Type} {r r' : α → α → Prop} {u x y : α} (step : ∀ {a b}, r' a b → a = u ∨ r a b)
    (way : TransGen r' x y) : TransGen r x y ∨ ReflTransGen r' x u ∧ TransGen r' u y := by
  induction way with
  | single edge =>
    rcases step edge with rfl | old
    · exact .inr ⟨.refl, .single edge⟩
    · exact .inl (.single old)
  | tail way edge ih =>
    rcases ih with old | ⟨there, back⟩
    · rcases step edge with rfl | last
      · exact .inr ⟨way.to_reflTransGen, .single edge⟩
      · exact .inl (old.tail last)
    · exact .inr ⟨there, back.tail edge⟩

theorem Acyclic.acyclicExtended {before after : MemoryRegistry} {uri : VdagUri} (acyclic : before.Acyclic)
    (step : ∀ {a b}, after.Embeds a b → a = uri ∨ before.Embeds a b)
    (noReturn : ∀ {first}, after.Embeds uri first → ¬ ReflTransGen after.Embeds first uri) : after.Acyclic := by
  intro other cycle
  rcases waySplits step cycle with old | ⟨there, back⟩
  · exact acyclic other old
  · obtain ⟨first, edge, way⟩ := TransGen.head'_iff.mp (back.trans_left there)
    exact noReturn edge way

end MemoryRegistry

open MemoryRegistry

theorem compiledNoReturn {index : EmbeddedIndex} {opened : List VdagUri} {logical : LogicalGraph}
    {assignment : Assignment} {graph : BlockGraph} {root first last : VdagUri} {r : VdagUri → VdagUri → Prop}
    (follows : ∀ {a b vdag}, r a b → a ≠ root → index.find? a = some vdag → b ∈ vdag.assignment.embeddings)
    (ok : BlockGraph.compileWithin index opened logical assignment = .ok graph) (atRoot : root ∈ opened)
    (embedded : first ∈ assignment.embeddings) (way : ReflTransGen r first last) : last ≠ root := by
  suffices ∃ opened vdag inner, root ∈ opened ∧ last ∉ opened ∧ index.find? last = some vdag ∧
      BlockGraph.compileWithin index (opened ++ [last]) vdag.graph vdag.assignment = .ok inner by
    obtain ⟨opened, _, _, atRoot, fresh, _⟩ := this
    exact fun same => fresh (same ▸ atRoot)
  induction way with
  | refl =>
    obtain ⟨fresh, vdag, inner, known, ok⟩ := BlockGraph.withinEmbeds ok embedded
    exact ⟨opened, vdag, inner, atRoot, fresh, known, ok⟩
  | tail _ edge ih =>
    obtain ⟨opened, vdag, inner, atRoot, fresh, known, ok⟩ := ih
    have next := follows edge (fun same => fresh (same ▸ atRoot)) known
    obtain ⟨fresh', vdag', inner', known', ok'⟩ := BlockGraph.withinEmbeds ok next
    exact ⟨_, vdag', inner', List.mem_append_left _ atRoot, fresh', known', ok'⟩

namespace Surroundings

variable {σ : Type} (outside : Surroundings σ)

theorem Mapped.othersKept {outside : Surroundings σ} {vdag : Definition} {before after : MemoryRegistry × σ}
    {answer : Outcome Definition} (mapped : outside.Mapped vdag before answer after) {other : VdagUri}
    (ne : other ≠ mapped.uri) : after.1.stored? other = before.1.stored? other := by
  have same : mapped.read.1.vdags = mapped.claimed.vdags :=
    (readsSame ((asksRead outside).planRelated vdag) mapped.plan).1
  rw [mapped.stored.records, if_neg ne, stored?, same]
  exact (mapped.granted.records other).trans (if_neg ne)

theorem Mapped.ownStored {outside : Surroundings σ} {vdag : Definition} {before after : MemoryRegistry × σ}
    {answer : Outcome Definition} (mapped : outside.Mapped vdag before answer after) :
    after.1.stored? mapped.uri = some (Processor.recordOf vdag mapped.planned) :=
  (mapped.stored.records mapped.uri).trans (if_pos rfl)

theorem Mapped.acyclicMapped {outside : Surroundings σ} {vdag : Definition} {before after : MemoryRegistry × σ}
    {answer : Outcome Definition} (mapped : outside.Mapped vdag before answer after)
    (acyclic : before.1.Acyclic) : after.1.Acyclic := by
  have step : ∀ {a b}, after.1.Embeds a b → a = mapped.uri ∨ before.1.Embeds a b := by
    intro a b given
    obtain ⟨record, stored, entry⟩ := given
    by_cases same : a = mapped.uri
    · exact .inl same
    · exact .inr ⟨record, (mapped.othersKept same).symm.trans stored, entry⟩
  -- A cycle would run through an edge of the new record, and such an edge leads to a vDAG that was compiled into it.
  refine acyclic.acyclicExtended step (fun {first} edge way => ?_)
  obtain ⟨record, stored, label, entry⟩ := edge
  cases mapped.ownStored.symm.trans stored
  have plan := mapped.plan
  cases planned : mapped.planned with
  | error failure =>
    rw [planned] at entry
    cases entry
  | ok found =>
    obtain ⟨assignment, compiled⟩ := found
    rw [planned] at entry plan
    obtain ⟨index, agrees, ok⟩ := planOk outside plan
    rw [mapped.named] at ok
    have embedded : first ∈ assignment.embeddings :=
      BlockGraph.memEmbeddings.mpr ⟨label, (SortedMap.findSomeIff assignment).mp entry⟩
    refine compiledNoReturn ?_ ok (List.mem_singleton.mpr rfl) embedded way rfl
    intro a b vdag given ne known
    obtain ⟨record, stored, label, entry⟩ := given
    obtain ⟨loaded, found, _, rfl⟩ := agrees a vdag known
    rw [mapped.othersKept ne] at stored
    rw [mapped.granted.records, if_neg ne, stored] at found
    cases found
    exact BlockGraph.memEmbeddings.mpr ⟨label, (SortedMap.findSomeIff _).mp entry⟩

inductive Call where
  | map (vdag : Definition)
  | delete (uri : VdagUri)
  deriving DecidableEq, Repr

def after (w : MemoryRegistry × σ) : Call → MemoryRegistry × σ
  | .map vdag => (on (outside.processor.mapToBlocks vdag) w).2
  | .delete uri => (on (outside.processor.registry.delete uri) w).2

def history (w : MemoryRegistry × σ) (calls : List Call) : MemoryRegistry × σ := calls.foldl outside.after w

theorem afterAcyclic {w : MemoryRegistry × σ} (acyclic : w.1.Acyclic) (call : Call) :
    (outside.after w call).1.Acyclic := by
  obtain ⟨r, s⟩ := w
  cases call with
  | map vdag =>
    rcases mapCases outside vdag r s with ⟨failure, refused⟩ | ⟨⟨mapped⟩⟩
    · simp only [after, refused]
      exact acyclic
    · exact mapped.acyclicMapped acyclic
  | delete uri =>
    have hosted : outside.after (r, s) (.delete uri) = ((on (delete uri) r).2, s) := rfl
    rw [hosted]
    rcases deleteCases uri r with ⟨deleted, _⟩ | ⟨failure, refused⟩
    · rw [deleted]
      refine acyclic.acyclicFewer ?_
      intro a b given
      obtain ⟨record, stored, entry⟩ := given
      rw [storedRemove] at stored
      split at stored
      · cases stored
      · exact ⟨record, stored, entry⟩
    · rw [refused]
      exact acyclic

theorem historyAcyclic {w : MemoryRegistry × σ} (acyclic : w.1.Acyclic) (calls : List Call) :
    (outside.history w calls).1.Acyclic := by
  induction calls generalizing w with
  | nil => exact acyclic
  | cons call rest ih => exact ih (afterAcyclic outside acyclic call)

theorem emptyAcyclic : MemoryRegistry.empty.Acyclic := by
  intro uri cycle
  obtain ⟨_, ⟨record, stored, _⟩, _⟩ := TransGen.head'_iff.mp cycle
  cases stored

theorem storedEmbeddingAcyclic (s : σ) (calls : List Call) :
    (∀ uri, ¬ TransGen (outside.history (.empty, s) calls).1.Embeds uri uri) ∧
      ∀ uri, ¬ (outside.history (.empty, s) calls).1.Embeds uri uri := by
  have acyclic := historyAcyclic outside (w := (.empty, s)) emptyAcyclic calls
  exact ⟨acyclic, fun uri edge => acyclic uri (.single edge)⟩

end Surroundings

end Vdag
