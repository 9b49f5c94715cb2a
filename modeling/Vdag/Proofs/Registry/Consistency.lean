import Vdag.Proofs.Assignment
import Vdag.Proofs.Block.Policies
import Vdag.Proofs.BlockGraph.Flattening
import Vdag.Proofs.Definition
import Vdag.Proofs.Registry.DryRun
import Vdag.Proofs.Registry.EmbeddingOrder

/-! Records that mapping has stored, whatever was mapped and deleted before: a plan that fits the vDAG, or nothing at
all. Blocks rely on that when they look for the node they are. -/
namespace Vdag
open Vdag.Action MemoryRegistry

namespace Definition

structure Failed (record : Definition) : Prop where
  status : record.status = .failed
  assignment : record.assignment = .empty
  compiled : record.compiled = none

structure Assigned (record : Definition) : Prop where
  status : record.status = .assigned
  labels : ∀ label, label ∈ record.assignment.keys ↔ label ∈ record.labels
  connected : ∀ c ∈ record.graph.connections, c.Within record.assignment.keys
  apart : ∀ {a b target}, record.assignment.find? a = some target → record.assignment.find? b = some target → a = b
  compiled : ∃ compiled, record.compiled = some compiled ∧
    (∀ target label, compiled.labels.find? target = some label ↔ record.assignment.find? label = some target) ∧
    ∀ label block, record.assignment.find? label = some (.block block) → block ∈ compiled.blocks.blocks

structure Consistent (uri : VdagUri) (record : Definition) : Prop where
  named : record.uri? = some uri
  valid : record.validate = .ok ()
  planned : record.Failed ∨ record.Assigned

def Places (record : Definition) (block : BlockId) (node : Node) : Prop :=
  node ∈ record.nodes ∧ record.assignment.find? node.label = some (.block block)

namespace Consistent

variable {uri : VdagUri} {record : Definition} {block : BlockId}

theorem failedNowhere (failed : record.Failed) (node : Node) : ¬ record.Places block node := by
  intro placed
  have found := placed.2
  rw [failed.assignment] at found
  cases found

theorem nodeFailed (failed : record.Failed) :
    PolicyBook.nodeOf block uri (some record) = .error (.notFound (.compilation uri)) := by
  rw [PolicyBook.nodeOf, failed.compiled]

theorem placedOnce (consistent : record.Consistent uri) {a b : Node} (first : record.Places block a)
    (second : record.Places block b) : a = b := by
  rcases consistent.planned with failed | assigned
  · exact absurd first (failedNowhere failed a)
  · exact List.inj_on_of_nodup_map (validateOk.mp consistent.valid).distinct first.1 second.1
      (assigned.apart first.2 second.2)

theorem nodeAssigned (consistent : record.Consistent uri) (assigned : record.Assigned) (block : BlockId) :
    (∃ node, record.Places block node ∧ PolicyBook.nodeOf block uri (some record) = .ok (some node)) ∨
      (∀ node, ¬ record.Places block node) ∧ PolicyBook.nodeOf block uri (some record) = .ok none := by
  obtain ⟨compiled, known, inverse, _⟩ := assigned.compiled
  have inverse := inverse (.block block)
  cases found : compiled.labelOf? block with
  | none =>
    refine .inr ⟨fun node placed => ?_, by simp only [PolicyBook.nodeOf, known, found]⟩
    exact absurd ((inverse node.label).mpr placed.2) (by simp [show compiled.labels.find? _ = none from found])
  | some label =>
    have entry : record.assignment.find? label = some (.block block) := (inverse label).mp found
    have named : label ∈ record.labels := (assigned.labels label).mp (SortedMap.memOfFind entry)
    obtain ⟨node, member, rfl⟩ := List.mem_map.mp named
    have node := (nodeIff (validateOk.mp consistent.valid).distinct).mpr ⟨member, rfl⟩
    exact .inl ⟨_, ⟨member, entry⟩, by simp only [PolicyBook.nodeOf, known, found, node]⟩

theorem nodeFound (consistent : record.Consistent uri) (block : BlockId) :
    (record.status = .failed ∧ (∀ node, ¬ record.Places block node) ∧
      PolicyBook.nodeOf block uri (some record) = .error (.notFound (.compilation uri))) ∨
    (∃ node, record.Places block node ∧ PolicyBook.nodeOf block uri (some record) = .ok (some node)) ∨
    (record.status = .assigned ∧ (∀ node, ¬ record.Places block node) ∧
      PolicyBook.nodeOf block uri (some record) = .ok none) := by
  rcases consistent.planned with failed | assigned
  · exact .inl ⟨failed.status, failedNowhere failed, nodeFailed failed⟩
  · rcases consistent.nodeAssigned assigned block with placed | ⟨none, found⟩
    · exact .inr (.inl placed)
    · exact .inr (.inr ⟨assigned.status, none, found⟩)

end Consistent

end Definition

/- What a block makes of a record. Of the node it is it runs the rules, where it is none packets pass, and nothing
fails but the loading of those rules, unless the vDAG was never compiled. -/
structure PolicyBook.Follows {τ π : Type} (policies : PolicyService (StateM τ) π) (clock : StateM τ Nat)
    (block : BlockId) (uri : VdagUri) (record : Definition) (r : MemoryRegistry) : Prop where
  once : ∀ {a b}, record.Places block a → record.Places block b → a = b
  placed : ∀ {node}, record.Places block node → ∀ s, on ((hosted block policies clock).load uri) (r, s) =
    ((on (policies.loadNode node) s).1, ({ r with lookups := r.lookups + 1 }, (on (policies.loadNode node) s).2))
  absent : record.status = .assigned → (∀ node, ¬ record.Places block node) →
    ∀ s, (on ((hosted block policies clock).load uri) (r, s)).1 = .ok (none, none)
  failed : record.status = .failed →
    ∀ s, (on ((hosted block policies clock).load uri) (r, s)).1 = .error (.notFound (.compilation uri))
  fails : ∀ {stage s cache failure},
    (on (joined ((hosted block policies clock).policyFor uri stage)) ((r, s), cache)).1 = .error failure →
      (record.status = .failed ∧ failure = .notFound (.compilation uri)) ∨
        ∃ node rule s', record.Places block node ∧ (node.preprocessingRule = some rule ∨
          node.postprocessingRule = some rule) ∧ (on (policies.load rule) s').1 = .error failure

namespace Surroundings

variable {σ : Type} (outside : Surroundings σ)

theorem planConsistent {vdag : Definition} {r : MemoryRegistry} {s : σ} {assignment : Assignment}
    {compiled : CompiledGraph} (valid : vdag.Valid) (planned : outside.Planned vdag r s assignment compiled) :
    (Processor.recordOf vdag (.ok (assignment, compiled))).Assigned where
  status := rfl
  labels label := by
    refine SortedMap.memKeys.trans ((Assignment.resolvedLabels planned.resolved label).trans ?_)
    simp [Definition.labels, Processor.recordOf]
  connected := by
    have labels : ∀ label, label ∈ vdag.labels → label ∈ assignment.keys := by
      intro label named
      exact SortedMap.memKeys.mpr ((Assignment.resolvedLabels planned.resolved label).mpr (.inr named))
    intro c member
    obtain ⟨own, inputs⟩ := valid.connected c member
    exact ⟨labels _ own, fun input listed => labels _ (inputs input listed)⟩
  apart := Assignment.reverseInjective planned.reversed
  compiled := by
    refine ⟨compiled, rfl, Assignment.reverseOk planned.reversed, fun label block entry => ?_⟩
    obtain ⟨index, _, ok⟩ := planned.blocks
    obtain ⟨inner, _, flat⟩ := BlockGraph.withinFlattens ok
    refine (flat.blocks block).mpr (.inl ⟨label, ?_⟩)
    change assignment.find? label = some (.block block) at entry
    rw [Assignment.standIn?, entry]
    rfl

theorem Mapped.consistentRecord {outside : Surroundings σ} {vdag : Definition} {before after : MemoryRegistry × σ}
    {answer : Outcome Definition} (mapped : outside.Mapped vdag before answer after) :
    (Processor.recordOf vdag mapped.planned).Consistent mapped.uri := by
  refine ⟨(Processor.recordUri vdag mapped.planned).trans mapped.named, ?_, ?_⟩
  · have valid := mapped.valid
    cases mapped.planned <;> exact valid
  · have plan := mapped.plan
    cases planned : mapped.planned with
    | error failure => exact .inl ⟨rfl, rfl, rfl⟩
    | ok found =>
      rw [planned] at plan
      exact .inr (planConsistent outside (Definition.validateOk.mp mapped.valid)
        (planParts outside plan))

theorem afterEvery {P : VdagUri → Definition → Prop}
    (maps : ∀ {vdag before answer after} (mapped : outside.Mapped vdag before answer after),
      P mapped.uri (Processor.recordOf vdag mapped.planned))
    {w : MemoryRegistry × σ} (every : ∀ uri record, w.1.stored? uri = some record → P uri record) (call : Call) :
    ∀ uri record, (outside.after w call).1.stored? uri = some record → P uri record := by
  obtain ⟨r, s⟩ := w
  intro uri record found
  cases call with
  | map vdag =>
    rcases mapCases outside vdag r s with ⟨failure, refused⟩ | ⟨⟨mapped⟩⟩
    · simp only [after, refused] at found
      exact every uri record found
    · by_cases same : uri = mapped.uri
      · subst uri
        cases mapped.ownStored.symm.trans found
        exact maps mapped
      · exact every uri record ((mapped.othersKept same).symm.trans found)
  | delete gone =>
    have hosted : outside.after (r, s) (.delete gone) = ((on (delete gone) r).2, s) := rfl
    rw [hosted] at found
    rcases deleteCases gone r with ⟨deleted, _⟩ | ⟨failure, refused⟩
    · rw [deleted, storedRemove] at found
      split at found
      · cases found
      · exact every uri record found
    · rw [refused] at found
      exact every uri record found

theorem historyEvery {P : VdagUri → Definition → Prop}
    (maps : ∀ {vdag before answer after} (mapped : outside.Mapped vdag before answer after),
      P mapped.uri (Processor.recordOf vdag mapped.planned))
    {w : MemoryRegistry × σ} (every : ∀ uri record, w.1.stored? uri = some record → P uri record) (calls : List Call) :
    ∀ uri record, (outside.history w calls).1.stored? uri = some record → P uri record := by
  induction calls generalizing w with
  | nil => exact every
  | cons call rest ih => exact ih (afterEvery outside maps every call)

theorem storedFits (s : σ) (calls : List Call) {uri : VdagUri} {record : Definition}
    (stored : (outside.history (.empty, s) calls).1.stored? uri = some record) : record.Consistent uri :=
  historyEvery outside Mapped.consistentRecord (w := (.empty, s)) (fun _ _ found => nomatch found) calls uri record
    stored

end Surroundings

theorem Definition.Consistent.followsConsistent {τ π : Type} {uri : VdagUri} {record : Definition}
    (consistent : record.Consistent uri) {r : MemoryRegistry} (stored : r.stored? uri = some record)
    (policies : PolicyService (StateM τ) π) (clock : StateM τ Nat) (block : BlockId) :
    PolicyBook.Follows policies clock block uri record r where
  once := consistent.placedOnce
  placed := by
    intro node placed s
    rw [PolicyBook.onLoad, stored]
    rcases consistent.nodeFound block with ⟨_, nowhere, _⟩ | ⟨other, placed', found⟩ | ⟨_, nowhere, _⟩
    · exact absurd placed (nowhere node)
    · rw [found, consistent.placedOnce placed placed']
    · exact absurd placed (nowhere node)
  absent := by
    intro status nowhere s
    rw [PolicyBook.onLoad, stored]
    rcases consistent.nodeFound block with ⟨failed, _, _⟩ | ⟨node, placed, _⟩ | ⟨_, _, found⟩
    · cases status.symm.trans failed
    · exact absurd placed (nowhere node)
    · rw [found]
  failed := by
    intro status s
    rw [PolicyBook.onLoad, stored]
    rcases consistent.planned with failed | assigned
    · rw [Definition.Consistent.nodeFailed failed]
    · cases status.symm.trans assigned.status
  fails := by
    intro stage s cache failure fails
    have loading := PolicyBook.policyForFails fails
    have ticked : (PolicyBook.hosted block policies clock).clock.run (r, s) =
        ((clock.run s).1, (r, (clock.run s).2)) := rfl
    rw [ticked, PolicyBook.onLoad, stored] at loading
    rcases consistent.nodeFound block with ⟨status, _, found⟩ | ⟨node, placed, found⟩ | ⟨_, _, found⟩
    · rw [found] at loading
      cases loading
      exact .inl ⟨status, rfl⟩
    · rw [found] at loading
      obtain ⟨rule, s', named, refused⟩ := PolicyService.loadNodeFails loading
      exact .inr ⟨node, rule, s', placed, named, refused⟩
    · rw [found] at loading
      cases loading

namespace Surroundings

variable {σ : Type} (outside : Surroundings σ)

theorem storedConsistent (s : σ) (calls : List Call) {uri : VdagUri} {record : Definition}
    (stored : (outside.history (.empty, s) calls).1.stored? uri = some record) :
    record.Consistent uri ∧
      ∀ {τ π : Type} (policies : PolicyService (StateM τ) π) (clock : StateM τ Nat) (block : BlockId),
        PolicyBook.Follows policies clock block uri record (outside.history (.empty, s) calls).1 := by
  have consistent := storedFits outside s calls stored
  exact ⟨consistent, fun policies clock block => consistent.followsConsistent stored policies clock block⟩

def sampleCalls : List Call := [.map sampleLeaf, .map sampleTop]

def samplePolicies : PolicyService (StateM Unit) Unit := ⟨fun _ => return (), fun _ input => return input⟩

theorem sampleConsistent :
    ∃ record, (sampleOutside.history (.empty, ()) sampleCalls).1.stored? ⟨"top:1-a"⟩ = some record ∧
      record.Consistent ⟨"top:1-a"⟩ ∧
      PolicyBook.Follows samplePolicies (pure 0) ⟨"b1"⟩ ⟨"top:1-a"⟩ record
        (sampleOutside.history (.empty, ()) sampleCalls).1 := by
  have known : ((sampleOutside.history (.empty, ()) sampleCalls).1.stored? ⟨"top:1-a"⟩).isSome = true := by
    decide +kernel
  obtain ⟨record, stored⟩ := Option.isSome_iff_exists.mp known
  obtain ⟨consistent, follows⟩ := storedConsistent sampleOutside () sampleCalls stored
  exact ⟨record, stored, consistent, follows samplePolicies (pure 0) ⟨"b1"⟩⟩

end Surroundings

end Vdag
