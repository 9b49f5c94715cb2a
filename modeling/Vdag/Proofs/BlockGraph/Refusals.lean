import Vdag.Proofs.BlockGraph.Flattening
import Vdag.Proofs.BlockGraph.Verdict
import Vdag.Proofs.Definition

/-! How compiling fails where an assignment serves the graph it is for: over what is embedded, or over the shape that
the blocks come to have. That holds of every level when it holds of all that is loaded. -/
namespace Vdag

structure Assignment.Serves (assignment : Assignment) (logical : LogicalGraph) : Prop where
  inhabited : assignment.keys ≠ []
  connected : ∀ c ∈ logical.connections, c.Within assignment.keys

theorem Assignment.Serves.edgesServed {assignment : Assignment} {logical : LogicalGraph}
    (serves : assignment.Serves logical) :
    ∀ edge ∈ logical.edges, edge.1 ∈ assignment.keys ∧ edge.2 ∈ assignment.keys := by
  intro edge member
  obtain ⟨c, declared, listed⟩ := List.mem_flatMap.mp member
  obtain ⟨input, named, rfl⟩ := List.mem_map.mp listed
  obtain ⟨own, inputs⟩ := serves.connected c declared
  exact ⟨inputs input named, own⟩

namespace BlockGraph

/- What only compiling can find out about a vDAG. -/
inductive Refusal : Failure → Prop
  | composition (fault : CompositionFault) : Refusal (.composition fault)
  | noHead : Refusal (.definition .noHead)
  | severalHeads (blocks : List BlockId) : Refusal (.definition (.severalHeads blocks))
  | cycle (blocks : List BlockId) : Refusal (.definition (.cycle blocks))

theorem ofAdjacencyRefuses {adjacency : Adjacency} {failure : Failure} (filled : adjacency.keys ≠ [])
    (failed : ofAdjacency adjacency = .error failure) : Refusal failure := by
  rw [ofAdjacencyPeels, if_neg (mt SortedMap.emptyKeys.mp filled)] at failed
  split at failed
  · cases failed
    exact .noHead
  · split at failed
    · cases failed
    · cases failed
      exact .cycle _
  · cases failed
    exact .severalHeads _

namespace Placement

def Filled (p : Placement) : Prop := p.blocks.keys ≠ [] → p.adjacency.keys ≠ []

variable {before after : Placement}

theorem addNodeOk {embed : NodeLabel → VdagUri → Outcome BlockGraph} {entry : NodeLabel × Target}
    (added : before.addNode embed entry = .ok after) :
    ∃ (adjacency : Adjacency) (block : BlockId),
      after = ⟨adjacency.addBlock block, before.blocks.insert entry.1 block⟩ := by
  unfold addNode at added
  split at added
  · cases added
    exact ⟨_, _, rfl⟩
  · obtain ⟨inner, _, last⟩ := Outcome.bindOk.mp added
    cases last
    exact ⟨_, _, rfl⟩

theorem addNodeFills {embed : NodeLabel → VdagUri → Outcome BlockGraph} {entry : NodeLabel × Target}
    (added : before.addNode embed entry = .ok after) : after.Filled := by
  obtain ⟨adjacency, block, rfl⟩ := addNodeOk added
  exact fun _ => List.ne_nil_of_mem (Adjacency.keysAddBlock.mpr (.inr rfl))

theorem addEdgeFills {edge : NodeLabel × NodeLabel} (added : before.addEdge edge = .ok after) : after.Filled := by
  obtain ⟨source, sink, _, _, rfl⟩ := placementEdge added
  exact fun _ => List.ne_nil_of_mem (Adjacency.keysAddEdge.mpr (.inr (.inl rfl)))

theorem nodesPlace {embed : NodeLabel → VdagUri → Outcome BlockGraph} {list : List (NodeLabel × Target)}
    (added : list.foldlM (addNode embed) before = .ok after) {label : NodeLabel}
    (named : label ∈ before.blocks.keys ∨ label ∈ list.map Prod.fst) : label ∈ after.blocks.keys := by
  induction list generalizing before with
  | nil =>
    cases added
    exact named.resolve_right List.not_mem_nil
  | cons entry rest ih =>
    obtain ⟨next, first, later⟩ := Outcome.foldlMConsOk.mp added
    obtain ⟨adjacency, block, rfl⟩ := addNodeOk first
    refine ih later ?_
    rw [List.map_cons, List.mem_cons] at named
    rw [SortedMap.keysInsert, or_assoc]
    exact or_left_comm.mp named

/- Edges do not give blocks to labels, so the edge that fails finds those that there were at first. -/
theorem edgesPlace {list : List (NodeLabel × NodeLabel)} {failure : Failure}
    (known : ∀ edge ∈ list, edge.1 ∈ before.blocks.keys ∧ edge.2 ∈ before.blocks.keys) :
    list.foldlM addEdge before ≠ .error failure := by
  intro failed
  obtain ⟨earlier, edge, later, reached, rfl, added, stopped⟩ := Outcome.foldlMStops failed
  obtain ⟨source, sink⟩ := known edge (List.mem_append_right earlier List.mem_cons_self)
  rw [← (edgesAdded added).labels, SortedMap.keyFound] at source sink
  obtain ⟨_, atSource⟩ := source
  obtain ⟨_, atSink⟩ := sink
  simp only [addEdge, blockOfOk.mpr atSource, blockOfOk.mpr atSink] at stopped
  cases stopped

end Placement

theorem spliceRefuses {embed : NodeLabel → VdagUri → Outcome BlockGraph} {logical : LogicalGraph}
    {assignment : Assignment} {failure : Failure} (serves : assignment.Serves logical)
    (failed : splice embed logical assignment = .error failure) :
    Refusal failure ∨ ∃ label uri, (label, .embedded uri) ∈ assignment.entries ∧ embed label uri = .error failure := by
  rcases Outcome.bindFails.mp failed with unplaced | ⟨nodes, placed, failed⟩
  · obtain ⟨⟨label, target⟩, entry, before, added⟩ := Outcome.foldlMFails unplaced
    cases target with
    | block id => cases added
    | embedded uri =>
      rcases Outcome.bindFails.mp added with inner | ⟨_, _, last⟩
      · exact .inr ⟨label, uri, entry, inner⟩
      · cases last
  · have known : ∀ label ∈ assignment.keys, label ∈ nodes.blocks.keys :=
      fun label named => Placement.nodesPlace placed (.inr named)
    rcases Outcome.bindFails.mp failed with unjoined | ⟨joined, added, refused⟩
    · refine absurd unjoined (Placement.edgesPlace (fun edge member => ?_))
      exact (serves.edgesServed edge member).imp (known _) (known _)
    · have filled : joined.Filled := Outcome.foldlMKeeps (fun _ => Placement.addEdgeFills)
        (Outcome.foldlMKeeps (fun _ => Placement.addNodeFills) (fun none => absurd rfl none) placed) added
      obtain ⟨label, named⟩ := List.exists_mem_of_ne_nil _ serves.inhabited
      have kept : label ∈ joined.blocks.keys := (edgesAdded added).labels ▸ known label named
      exact .inl (ofAdjacencyRefuses (filled (List.ne_nil_of_mem kept)) refused)

theorem withinRefuses {index : EmbeddedIndex} {opened : List VdagUri} {logical : LogicalGraph} {assignment : Assignment}
    {failure : Failure} (indexed : ∀ uri vdag, index.find? uri = some vdag → vdag.assignment.Serves vdag.graph)
    (serves : assignment.Serves logical) (failed : compileWithin index opened logical assignment = .error failure) :
    Refusal failure := by
  induction opened, logical, assignment using compileWithin.induct index with
  | case1 opened logical assignment ih =>
    rw [compileWithinStep] at failed
    rcases spliceRefuses serves failed with refusal | ⟨label, uri, _, failed⟩
    · exact refusal
    · unfold embedWithin at failed
      split at failed
      · cases failed
        exact .composition _
      · rename_i fresh
        cases known : index.find? uri with
        | none =>
          rw [known] at failed
          cases failed
          exact .composition _
        | some vdag =>
          rw [known] at failed
          exact ih uri fresh vdag known (indexed uri vdag known) failed

end BlockGraph

end Vdag
