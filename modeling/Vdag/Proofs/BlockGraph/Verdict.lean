import Vdag.Proofs.BlockGraph.Rooted

/-! What is decided about an adjacency map, exactly. Where every target has a list of its own, a map is accepted that
has one entrance and no cycle, and all others are told what they lack or have too much of. Targets without a list are
counted as well, and can stand in for blocks of a cycle. -/
namespace Vdag

namespace Adjacency
open Relation

def Entrance (adjacency : Adjacency) (block : BlockId) : Prop :=
  block ∈ adjacency.keys ∧ ∀ source, ¬ adjacency.Edge source block

variable {adjacency other : Adjacency} {block : BlockId}

theorem closedIff : adjacency.Closed ↔ ∀ entry ∈ adjacency.entries, ∀ sink ∈ entry.2, sink ∈ adjacency.keys := by
  constructor
  · intro closed entry member sink listed
    exact closed entry.1 sink (edgeIff.mpr ⟨entry.2, member, listed⟩)
  · intro each source sink edge
    obtain ⟨sinks, entry, listed⟩ := edgeIff.mp edge
    exact each _ entry sink listed

instance (adjacency : Adjacency) : Decidable adjacency.Closed := decidable_of_iff _ closedIff.symm

theorem memSources : block ∈ (Indegrees.ofAdjacency adjacency).sources ↔ adjacency.Entrance block := by
  rw [Indegrees.memSources, openEdgesZero]
  constructor
  · intro given
    obtain ⟨listed, none⟩ := given
    have bare : ∀ source, ¬ adjacency.Edge source block := fun source edge => List.not_mem_nil (none source edge)
    exact ⟨listed.resolve_right (fun target => (memFlatten.mp target).elim bare), bare⟩
  · intro given
    obtain ⟨key, bare⟩ := given
    exact ⟨.inl key, fun source edge => absurd edge (bare source)⟩

theorem soleSource (sole : ∃! head, adjacency.Entrance head) :
    ∃ head, (Indegrees.ofAdjacency adjacency).sources = [head] := by
  obtain ⟨head, entrance, only⟩ := sole
  refine ⟨head, SortedMap.ascendingSame (Indegrees.sourcesAscending _) (List.pairwise_singleton _ _) (fun block => ?_)⟩
  rw [memSources, List.mem_singleton]
  exact ⟨only block, fun same => same ▸ entrance⟩

theorem memStuck : block ∈ (Peeling.peel adjacency).2.waiting ↔ adjacency.Stuck block := by
  rw [Peeling.waitsPeel, groundedIff, not_not]
  refine and_iff_right_of_imp (fun stuck => ?_)
  obtain ⟨source, edge⟩ := stuck.stuckEntered
  exact (edgeListed edge).2

structure SameEdges (adjacency other : Adjacency) : Prop where
  keys : other.keys = adjacency.keys
  edges : ∀ source sink, other.Edge source sink ↔ adjacency.Edge source sink

namespace SameEdges

variable (same : adjacency.SameEdges other)
include same

theorem edgeSame : other.Edge = adjacency.Edge :=
  funext (fun source => funext (fun sink => propext (same.edges source sink)))

theorem listedSame : other.Listed block ↔ adjacency.Listed block := by
  rw [Listed, Listed, memFlatten, memFlatten, same.keys, same.edgeSame]

theorem emptySame : other.isEmpty = adjacency.isEmpty := by
  rw [Bool.eq_iff_iff, SortedMap.emptyKeys, SortedMap.emptyKeys, same.keys]

theorem sourcesSame : (Indegrees.ofAdjacency other).sources = (Indegrees.ofAdjacency adjacency).sources := by
  refine SortedMap.ascendingSame (Indegrees.sourcesAscending _) (Indegrees.sourcesAscending _) (fun block => ?_)
  rw [memSources, memSources, Entrance, Entrance, same.keys, same.edgeSame]

theorem takenSame : (Peeling.peel other).1.length = (Peeling.peel adjacency).1.length := by
  refine ((List.perm_ext_iff_of_nodup (Peeling.peelDistinct _) (Peeling.peelDistinct _)).mpr
    (fun block => ?_)).length_eq
  rw [Peeling.memPeel, Peeling.memPeel, same.listedSame, same.edgeSame]

theorem waitingSame : (Peeling.peel other).2.waiting = (Peeling.peel adjacency).2.waiting := by
  refine SortedMap.ascendingSame (Indegrees.waitingAscending _) (Indegrees.waitingAscending _) (fun block => ?_)
  rw [memStuck, memStuck, Stuck, Stuck, same.edgeSame]

theorem sinksSame : other.sinks = adjacency.sinks := by
  have bare : ∀ (found : Adjacency) block, found.targets block = [] ↔ ∀ sink, ¬ found.Edge block sink :=
    fun found block => List.eq_nil_iff_forall_not_mem
  refine SortedMap.ascendingSame (BlockGraph.sinksAscending _) (BlockGraph.sinksAscending _) (fun block => ?_)
  rw [BlockGraph.memSinks, BlockGraph.memSinks, bare, bare, same.keys, same.edgeSame]

end SameEdges

end Adjacency

namespace BlockGraph
open Adjacency Relation

variable {adjacency : Adjacency}

theorem ofAdjacencyPeels (adjacency : Adjacency) : ofAdjacency adjacency =
    if adjacency.isEmpty then .error (.definition .emptyBlockGraph)
    else match (Indegrees.ofAdjacency adjacency).sources with
      | [] => .error (.definition .noHead)
      | [head] =>
          if (Peeling.peel adjacency).1.length = adjacency.size then .ok ⟨head, adjacency.sinks, adjacency⟩
          else .error (.definition (.cycle (Peeling.peel adjacency).2.waiting))
      | several => .error (.definition (.severalHeads several)) := by
  unfold ofAdjacency
  split
  · rfl
  · simp only [checkedPeel]
    rcases (Indegrees.ofAdjacency adjacency).sources with _ | ⟨head, _ | ⟨second, rest⟩⟩
    · rfl
    · dsimp only
      split <;> rfl
    · rfl

theorem ofSameEdges {other : Adjacency} (same : adjacency.SameEdges other) :
    ofAdjacency other = (ofAdjacency adjacency).map (fun graph => { graph with adjacency := other }) := by
  rw [ofAdjacencyPeels, ofAdjacencyPeels, same.emptySame, same.sourcesSame, same.takenSame, same.waitingSame,
    same.sinksSame, SortedMap.sizeKeys, SortedMap.sizeKeys, same.keys]
  split
  · rfl
  · split
    · rfl
    · split <;> rfl
    · rfl

structure Decided (adjacency : Adjacency) (verdict : Outcome BlockGraph) : Prop where
  accepted : (∃ graph, verdict = .ok graph) ↔
    adjacency.keys ≠ [] ∧ (∃! head, adjacency.Entrance head) ∧ ∀ block, ¬ TransGen adjacency.Edge block block
  empty : adjacency.keys = [] → verdict = .error (.definition .emptyBlockGraph)
  headless : adjacency.keys ≠ [] → (∀ block, ¬ adjacency.Entrance block) → verdict = .error (.definition .noHead)
  ambiguous : ∀ first second, adjacency.Entrance first → adjacency.Entrance second → first ≠ second →
    ∃ heads, heads.Pairwise KeyOrder.Before ∧ (∀ block, block ∈ heads ↔ adjacency.Entrance block) ∧
      verdict = .error (.definition (.severalHeads heads))
  cyclic : (∃! head, adjacency.Entrance head) → (∃ block, TransGen adjacency.Edge block block) →
    ∃ stuck, stuck.Pairwise KeyOrder.Before ∧ (∀ block, block ∈ stuck ↔ adjacency.Stuck block) ∧
      verdict = .error (.definition (.cycle stuck))
  repeated : ∀ other, adjacency.SameEdges other →
    ofAdjacency other = verdict.map (fun graph => { graph with adjacency := other })

theorem acceptedIff (closed : adjacency.Closed) : (∃ graph, ofAdjacency adjacency = .ok graph) ↔
    adjacency.keys ≠ [] ∧ (∃! head, adjacency.Entrance head) ∧ ∀ block, ¬ TransGen adjacency.Edge block block := by
  have covers := (peelCovers closed).trans groundedIffAcyclic
  constructor
  · intro given
    obtain ⟨graph, ok⟩ := given
    obtain ⟨filled, sources, checked, _, _⟩ := ofAdjacencyOk ok
    have head : ∀ block, adjacency.Entrance block ↔ block = graph.head := by
      intro block
      rw [← memSources, sources, List.mem_singleton]
    refine ⟨fun none => ?_, ⟨graph.head, (head _).mpr rfl, fun block => (head block).mp⟩, ?_⟩
    · rw [SortedMap.emptyKeys.mpr none] at filled
      cases filled
    · exact groundedIffAcyclic.mp (checkedGrounded closed checked)
  · intro given
    obtain ⟨filled, sole, acyclic⟩ := given
    obtain ⟨head, sources⟩ := soleSource sole
    rw [ofAdjacencyPeels, if_neg (mt SortedMap.emptyKeys.mp filled), sources]
    exact ⟨_, if_pos (covers.mpr acyclic)⟩

theorem decidesExactly (closed : adjacency.Closed) : Decided adjacency (ofAdjacency adjacency) where
  accepted := acceptedIff closed
  empty none := by rw [ofAdjacencyPeels, if_pos (SortedMap.emptyKeys.mpr none)]
  headless filled none := by
    have sources : (Indegrees.ofAdjacency adjacency).sources = [] :=
      List.eq_nil_iff_forall_not_mem.mpr (fun block member => none block (memSources.mp member))
    rw [ofAdjacencyPeels, if_neg (mt SortedMap.emptyKeys.mp filled), sources]
  ambiguous first second entrance entrance' apart := by
    have filled : adjacency.keys ≠ [] := List.ne_nil_of_mem entrance.1
    refine ⟨_, Indegrees.sourcesAscending _, fun block => memSources, ?_⟩
    have member := memSources.mpr entrance
    have member' := memSources.mpr entrance'
    rw [ofAdjacencyPeels, if_neg (mt SortedMap.emptyKeys.mp filled)]
    generalize (Indegrees.ofAdjacency adjacency).sources = heads at member member' ⊢
    rcases heads with _ | ⟨head, _ | ⟨next, rest⟩⟩
    · cases member
    · exact absurd ((List.mem_singleton.mp member).trans (List.mem_singleton.mp member').symm) apart
    · rfl
  cyclic sole cycle := by
    obtain ⟨head, sources⟩ := soleSource sole
    have filled : adjacency.keys ≠ [] := sole.elim (fun _ given _ => List.ne_nil_of_mem given.1)
    have short : (Peeling.peel adjacency).1.length ≠ adjacency.size := fun all =>
      cycle.elim (fun block way => groundedIffAcyclic.mp ((peelCovers closed).mp all) block way)
    refine ⟨_, Indegrees.waitingAscending _, fun block => memStuck, ?_⟩
    rw [ofAdjacencyPeels, if_neg (mt SortedMap.emptyKeys.mp filled), sources]
    exact if_neg short
  repeated _ same := ofSameEdges same

def sampleCyclic : Adjacency := .ofList
  [(⟨"a"⟩, [⟨"b"⟩]), (⟨"b"⟩, [⟨"a"⟩, ⟨"t"⟩, ⟨"a"⟩]), (⟨"h"⟩, [⟨"a"⟩, ⟨"a"⟩, ⟨"u"⟩]), (⟨"t"⟩, []), (⟨"u"⟩, [])]

theorem sampleDecided : sampleCyclic.Closed ∧ Decided sampleCyclic (ofAdjacency sampleCyclic) ∧
    ofAdjacency sampleCyclic = .error (.definition (.cycle [⟨"a"⟩, ⟨"b"⟩, ⟨"t"⟩])) := by
  have closed : sampleCyclic.Closed := by decide +kernel
  exact ⟨closed, decidesExactly closed, by decide +kernel⟩

/- Whatever the map, what is accepted is acyclic exactly where every target has a list of its own. For a target without
one is taken and counted too; where the count is right all the same, as many blocks were left behind a cycle. -/
theorem acceptedAcyclic {graph : BlockGraph} (ok : ofAdjacency adjacency = .ok graph) :
    (∀ block, ¬ TransGen adjacency.Edge block block) ↔ adjacency.Closed := by
  obtain ⟨_, _, checked, _, _⟩ := ofAdjacencyOk ok
  constructor
  · intro acyclic source sink edge
    have counted : (Peeling.peel adjacency).1.length = adjacency.keys.length := by
      rw [checkedPeel] at checked
      split at checked
      · rename_i all
        exact all.trans (SortedMap.sizeKeys adjacency)
      · cases checked
    have taken : ∀ block, adjacency.Listed block → block ∈ (Peeling.peel adjacency).1 :=
      fun block listed => Peeling.memPeel.mpr ⟨listed, acyclicGrounded acyclic block⟩
    have same := ((SortedMap.keysNodup adjacency).subperm (fun block key => taken block (.inl key))).perm_of_length_le
      (Nat.le_of_eq counted)
    exact same.mem_iff.mpr (taken sink (edgeListed edge).2)
  · intro closed
    exact ((acceptedIff closed).mp ⟨graph, ok⟩).2.2

theorem sampleAcyclic : ofAdjacency sampleGraph.adjacency = .ok sampleGraph ∧ sampleGraph.adjacency.Closed ∧
    ∀ block, ¬ TransGen sampleGraph.adjacency.Edge block block := by
  have ok : ofAdjacency sampleGraph.adjacency = .ok sampleGraph := by decide +kernel
  have closed : sampleGraph.adjacency.Closed := by decide +kernel
  exact ⟨ok, closed, (acceptedAcyclic ok).mpr closed⟩

/- The target `x` has no list, and is counted in place of `b`, which leads to itself. -/
def sampleDangling : Adjacency := .ofList [(⟨"a"⟩, [⟨"b"⟩, ⟨"x"⟩]), (⟨"b"⟩, [⟨"b"⟩])]

theorem danglingHidesCycle : ofAdjacency sampleDangling = .ok ⟨⟨"a"⟩, [], sampleDangling⟩ ∧
    TransGen sampleDangling.Edge ⟨"b"⟩ ⟨"b"⟩ := by
  have returns : ⟨"b"⟩ ∈ sampleDangling.targets ⟨"b"⟩ := by decide +kernel
  exact ⟨by decide +kernel, .single returns⟩

end BlockGraph

end Vdag
