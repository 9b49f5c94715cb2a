import Vdag.Proofs.BlockGraph.Nesting

/-! What compiling computes: the blocks and edges of a vDAG are those its own labels stand for, together with those
of the vDAGs it embeds. -/
namespace Vdag

def Target.standIn (inner : VdagUri → BlockGraph) : Target → BlockId
  | .block id => id
  | .embedded uri => (inner uri).head

def Assignment.standIn? (inner : VdagUri → BlockGraph) (assignment : Assignment) (label : NodeLabel) :
    Option BlockId := (assignment.find? label).map (Target.standIn inner)

namespace BlockGraph
open Adjacency

structure Flattens (inner : VdagUri → BlockGraph) (logical : LogicalGraph) (assignment : Assignment)
    (graph : BlockGraph) : Prop where
  blocks : ∀ block, block ∈ graph.blocks ↔
    (∃ label, assignment.standIn? inner label = some block) ∨
      ∃ uri ∈ assignment.embeddings, block ∈ (inner uri).blocks
  edges : ∀ source sink, graph.adjacency.Edge source sink ↔
    (∃ edge ∈ logical.edges, assignment.standIn? inner edge.1 = some source ∧
      assignment.standIn? inner edge.2 = some sink) ∨
      ∃ uri ∈ assignment.embeddings, (inner uri).adjacency.Edge source sink
  resolved : ∀ edge ∈ logical.edges, (assignment.standIn? inner edge.1).isSome ∧
    (assignment.standIn? inner edge.2).isSome

def innerEdge (inner : VdagUri → BlockGraph) (target : Target) (source sink : BlockId) : Prop :=
  ∃ uri, target = .embedded uri ∧ (inner uri).adjacency.Edge source sink

def innerBlock (inner : VdagUri → BlockGraph) (target : Target) (block : BlockId) : Prop :=
  ∃ uri, target = .embedded uri ∧ block ∈ (inner uri).blocks

structure NodeAdded (inner : VdagUri → BlockGraph) (label : NodeLabel) (target : Target)
    (before after : Placement) : Prop where
  labels : after.blocks = before.blocks.insert label (target.standIn inner)
  edges : ∀ source sink, after.adjacency.Edge source sink ↔
    before.adjacency.Edge source sink ∨ innerEdge inner target source sink
  blocks : ∀ block, block ∈ after.adjacency.keys ↔
    block ∈ before.adjacency.keys ∨ target.standIn inner = block ∨ innerBlock inner target block

theorem nodeAdded {embed : NodeLabel → VdagUri → Outcome BlockGraph} {inner : VdagUri → BlockGraph}
    {before after : Placement} {label : NodeLabel} {target : Target}
    (agrees : ∀ uri graph, target = .embedded uri → embed label uri = .ok graph →
      inner uri = graph ∧ graph.adjacency.WellFormed)
    (added : before.addNode embed (label, target) = .ok after) : NodeAdded inner label target before after := by
  cases target with
  | block id =>
    cases added
    refine ⟨rfl, fun source sink => ?_, fun block => ?_⟩
    · simp [edgeAddBlock, innerEdge]
    · simp [keysAddBlock, innerBlock, Target.standIn, eq_comm]
  | embedded uri =>
    obtain ⟨graph, ok, last⟩ := Outcome.bindOk.mp added
    obtain ⟨rfl, wellFormed⟩ := agrees uri graph rfl ok
    cases last
    refine ⟨rfl, fun source sink => ?_, fun block => ?_⟩
    · simp [edgeAddBlock, edgeAbsorb, innerEdge]
    · rw [keysAddBlock, keysAbsorb wellFormed, or_assoc]
      simp [innerBlock, BlockGraph.blocks, Target.standIn, eq_comm, or_comm (b := block = (inner uri).head)]

structure NodesAdded (inner : VdagUri → BlockGraph) (list : List (NodeLabel × Target))
    (before after : Placement) : Prop where
  placed : ∀ label target, (label, target) ∈ list → after.blocks.find? label = some (target.standIn inner)
  kept : ∀ label, label ∉ list.map Prod.fst → after.blocks.find? label = before.blocks.find? label
  edges : ∀ source sink, after.adjacency.Edge source sink ↔
    before.adjacency.Edge source sink ∨ ∃ entry ∈ list, innerEdge inner entry.2 source sink
  blocks : ∀ block, block ∈ after.adjacency.keys ↔
    block ∈ before.adjacency.keys ∨ ∃ entry ∈ list, entry.2.standIn inner = block ∨ innerBlock inner entry.2 block

theorem nodesAdded {embed : NodeLabel → VdagUri → Outcome BlockGraph} {inner : VdagUri → BlockGraph}
    {list : List (NodeLabel × Target)} {before after : Placement} (unique : (list.map Prod.fst).Nodup)
    (agrees : ∀ label uri graph, (label, .embedded uri) ∈ list → embed label uri = .ok graph →
      inner uri = graph ∧ graph.adjacency.WellFormed)
    (added : list.foldlM (Placement.addNode embed) before = .ok after) : NodesAdded inner list before after := by
  induction list generalizing before with
  | nil => cases added; exact ⟨by simp, by simp, by simp, by simp⟩
  | cons head rest ih =>
    obtain ⟨label, target⟩ := head
    obtain ⟨next, first, later⟩ := Outcome.foldlMConsOk.mp added
    obtain ⟨absent, unique⟩ := List.nodup_cons.mp unique
    have one : NodeAdded inner label target before next :=
      nodeAdded (fun uri graph same ok => agrees label uri graph (same ▸ List.mem_cons_self) ok) first
    have more : NodesAdded inner rest next after :=
      ih unique (fun label uri graph member => agrees label uri graph (List.mem_cons_of_mem _ member)) later
    refine ⟨fun other target' member => ?_, fun other apart => ?_, fun source sink => ?_, fun block => ?_⟩
    · rcases List.mem_cons.mp member with same | member
      · cases same
        rw [more.kept label absent, one.labels, SortedMap.findInsertSelf]
      · exact more.placed other target' member
    · obtain ⟨different, apart⟩ := not_or.mp (fun h => apart (List.mem_cons.mpr h))
      rw [more.kept other apart, one.labels, SortedMap.findInsertOther _ _ different]
    · rw [more.edges, one.edges, or_assoc, List.exists_mem_cons_iff]
    · rw [more.blocks, one.blocks, or_assoc, List.exists_mem_cons_iff]

structure EdgesAdded (list : List (NodeLabel × NodeLabel)) (before after : Placement) : Prop where
  labels : after.blocks = before.blocks
  ends : ∀ edge ∈ list, (before.blocks.find? edge.1).isSome ∧ (before.blocks.find? edge.2).isSome
  edges : ∀ source sink, after.adjacency.Edge source sink ↔ before.adjacency.Edge source sink ∨
    ∃ edge ∈ list, before.blocks.find? edge.1 = some source ∧ before.blocks.find? edge.2 = some sink
  blocks : ∀ block, block ∈ after.adjacency.keys ↔ block ∈ before.adjacency.keys ∨
    ∃ edge ∈ list, before.blocks.find? edge.1 = some block ∨ before.blocks.find? edge.2 = some block

theorem blockOfOk {p : Placement} {label : NodeLabel} {block : BlockId} :
    p.blockOf label = .ok block ↔ p.blocks.find? label = some block := by
  unfold Placement.blockOf
  cases p.blocks.find? label <;> simp

theorem edgesAdded {list : List (NodeLabel × NodeLabel)} {before after : Placement}
    (added : list.foldlM Placement.addEdge before = .ok after) : EdgesAdded list before after := by
  induction list generalizing before with
  | nil => cases added; exact ⟨rfl, by simp, by simp, by simp⟩
  | cons head rest ih =>
    obtain ⟨next, first, later⟩ := Outcome.foldlMConsOk.mp added
    obtain ⟨source, sink, atSource, atSink, rfl⟩ := placementEdge first
    have atSource := blockOfOk.mp atSource
    have atSink := blockOfOk.mp atSink
    have more := ih later
    refine ⟨more.labels, List.forall_mem_cons.mpr ⟨by simp [atSource, atSink], more.ends⟩, fun a b => ?_,
      fun block => ?_⟩
    · rw [more.edges, edgeAddEdge, or_assoc]
      simp only [List.exists_mem_cons_iff, atSource, atSink, Option.some.injEq, eq_comm]
    · rw [more.blocks, keysAddEdge, or_assoc]
      simp only [List.exists_mem_cons_iff, atSource, atSink, Option.some.injEq, eq_comm]

theorem someStandIn {inner : VdagUri → BlockGraph} {assignment : Assignment} {block : BlockId} :
    (∃ label, assignment.standIn? inner label = some block) ↔
      ∃ entry ∈ assignment.entries, entry.2.standIn inner = block := by
  constructor
  · intro given
    obtain ⟨label, found⟩ := given
    obtain ⟨target, known, same⟩ := Option.map_eq_some_iff.mp found
    exact ⟨(label, target), (SortedMap.findSomeIff assignment).mp known, same⟩
  · intro given
    obtain ⟨entry, member, same⟩ := given
    have known := (SortedMap.findSomeIff assignment).mpr member
    exact ⟨entry.1, Option.map_eq_some_iff.mpr ⟨entry.2, known, same⟩⟩

theorem existsEmbedded {assignment : Assignment} {P : VdagUri → Prop} :
    (∃ entry ∈ assignment.entries, ∃ uri, entry.2 = .embedded uri ∧ P uri) ↔ ∃ uri ∈ assignment.embeddings, P uri := by
  constructor
  · intro given
    obtain ⟨⟨label, target⟩, member, uri, rfl, holds⟩ := given
    exact ⟨uri, memEmbeddings.mpr ⟨label, member⟩, holds⟩
  · intro given
    obtain ⟨uri, embedded, holds⟩ := given
    obtain ⟨label, member⟩ := memEmbeddings.mp embedded
    exact ⟨_, member, uri, rfl, holds⟩

theorem splicedFlattens {embed : NodeLabel → VdagUri → Outcome BlockGraph} {inner : VdagUri → BlockGraph}
    {logical : LogicalGraph} {assignment : Assignment} {graph : BlockGraph}
    (agrees : ∀ label uri graph, (label, .embedded uri) ∈ assignment.entries → embed label uri = .ok graph →
      inner uri = graph ∧ graph.adjacency.WellFormed)
    (ok : splice embed logical assignment = .ok graph) : Flattens inner logical assignment graph := by
  obtain ⟨nodes, placed, first, second, last⟩ := spliceOk ok
  have adjacency := (ofAdjacencyOk last).2.2.2.2
  have atNodes := nodesAdded (SortedMap.keysNodup assignment) agrees first
  have atEdges := edgesAdded second
  have standIn : ∀ label, nodes.blocks.find? label = assignment.standIn? inner label := by
    intro label
    rw [Assignment.standIn?]
    cases found : assignment.find? label with
    | none =>
      have absent : label ∉ assignment.keys := by rw [SortedMap.memKeys, found]; simp
      exact atNodes.kept label absent
    | some target => exact atNodes.placed label target ((SortedMap.findSomeIff assignment).mp found)
  refine ⟨fun block => ?_, fun source sink => ?_, fun edge member => ?_⟩
  · have nothing : block ∉ (SortedMap.empty : Adjacency).keys := by simp [SortedMap.memKeys]
    have inside : (∃ edge ∈ logical.edges, assignment.standIn? inner edge.1 = some block ∨
        assignment.standIn? inner edge.2 = some block) → ∃ label, assignment.standIn? inner label = some block := by
      intro given
      obtain ⟨edge, _, ends⟩ := given
      rcases ends with here | here
      · exact ⟨edge.1, here⟩
      · exact ⟨edge.2, here⟩
    have nodeBlocks : block ∈ nodes.adjacency.keys ↔ (∃ label, assignment.standIn? inner label = some block) ∨
        ∃ uri ∈ assignment.embeddings, block ∈ (inner uri).blocks := by
      rw [atNodes.blocks, ← existsEmbedded, someStandIn]
      simp only [nothing, false_or, and_or_left, exists_or, innerBlock]
    rw [BlockGraph.blocks, adjacency, atEdges.blocks, nodeBlocks]
    simp only [standIn]
    exact or_iff_left_of_imp (fun h => .inl (inside h))
  · rw [adjacency, atEdges.edges, atNodes.edges, ← existsEmbedded]
    simp only [standIn, emptyEdge, false_or, innerEdge]
    exact or_comm
  · simpa only [standIn] using atEdges.ends edge member

theorem withinFlattens {index : EmbeddedIndex} {opened : List VdagUri} {logical : LogicalGraph}
    {assignment : Assignment} {graph : BlockGraph}
    (ok : compileWithin index opened logical assignment = .ok graph) :
    ∃ inner : VdagUri → BlockGraph,
      (∀ uri ∈ assignment.embeddings, uri ∉ opened ∧ ∃ vdag, index.find? uri = some vdag ∧
        compileWithin index (opened ++ [uri]) vdag.graph vdag.assignment = .ok (inner uri)) ∧
      Flattens inner logical assignment graph := by
  have each : ∀ uri, ∃ inner, uri ∈ assignment.embeddings → uri ∉ opened ∧ ∃ vdag, index.find? uri = some vdag ∧
      compileWithin index (opened ++ [uri]) vdag.graph vdag.assignment = .ok inner := by
    intro uri
    by_cases embedded : uri ∈ assignment.embeddings
    · obtain ⟨fresh, vdag, inner, known, ok⟩ := withinEmbeds ok embedded
      exact ⟨inner, fun _ => ⟨fresh, vdag, known, ok⟩⟩
    · exact ⟨graph, fun h => absurd h embedded⟩
  choose inner compiled using each
  refine ⟨inner, compiled, ?_⟩
  rw [compileWithinStep] at ok
  refine splicedFlattens (fun label uri other member ok => ?_) ok
  obtain ⟨_, vdag, known, ok⟩ := embedOk.mp ok
  obtain ⟨_, vdag', known', ok'⟩ := compiled uri (memEmbeddings.mpr ⟨label, member⟩)
  cases known.symm.trans known'
  cases ok.symm.trans ok'
  exact ⟨rfl, (withinRooted ok).wellFormed⟩

/- The meaning of nesting by itself: what a graph must be at every level, without a word on how it is found. Blocks,
edges and the head are settled by it, only the order within a list is not. -/
inductive Flattening (index : EmbeddedIndex) : LogicalGraph → Assignment → BlockGraph → Prop where
  | level {logical assignment graph} (inner : VdagUri → BlockGraph)
      (known : ∀ uri ∈ assignment.embeddings, (index.find? uri).isSome)
      (nested : ∀ uri ∈ assignment.embeddings, ∀ vdag, index.find? uri = some vdag →
        Flattening index vdag.graph vdag.assignment (inner uri))
      (flat : Flattens inner logical assignment graph)
      (head : ∀ block, block = graph.head ↔
        block ∈ graph.blocks ∧ ∀ source, ¬ graph.adjacency.Edge source block) :
      Flattening index logical assignment graph

theorem withinFlattening {index : EmbeddedIndex} {opened : List VdagUri} {logical : LogicalGraph}
    {assignment : Assignment} {graph : BlockGraph}
    (ok : compileWithin index opened logical assignment = .ok graph) : Flattening index logical assignment graph := by
  induction opened, logical, assignment using compileWithin.induct index generalizing graph with
  | case1 opened logical assignment ih =>
    obtain ⟨inner, compiled, flat⟩ := withinFlattens ok
    refine .level inner (fun uri embedded => ?_) (fun uri embedded vdag known => ?_) flat (withinRooted ok).head
    · obtain ⟨_, vdag, known, _⟩ := compiled uri embedded
      rw [known]; rfl
    · obtain ⟨fresh, vdag', known', ok'⟩ := compiled uri embedded
      cases known.symm.trans known'
      exact ih uri fresh vdag known ok'

theorem compiledFlattens {root : Option VdagUri} {logical : LogicalGraph} {assignment : Assignment}
    {index : EmbeddedIndex} {graph : BlockGraph} (ok : compile root logical assignment index = .ok graph) :
    Flattening index logical assignment graph ∧
      ∃ inner : VdagUri → BlockGraph,
        (∀ uri ∈ assignment.embeddings, ∃ vdag, index.find? uri = some vdag ∧
          compileWithin index (root.toList ++ [uri]) vdag.graph vdag.assignment = .ok (inner uri) ∧
          compile (some uri) vdag.graph vdag.assignment index = .ok (inner uri)) ∧
        Flattens inner logical assignment graph := by
  rw [compile] at ok
  obtain ⟨inner, compiled, flat⟩ := withinFlattens ok
  refine ⟨withinFlattening ok, inner, fun uri embedded => ?_, flat⟩
  obtain ⟨_, vdag, known, ok⟩ := compiled uri embedded
  exact ⟨vdag, known, ok, withinFewer (List.subset_append_right _ _) ok⟩

theorem sampleFlattens :
    compile (some ⟨"top:1-a"⟩) sampleLogical sampleAssignment sampleIndex = .ok sampleGraph ∧
      Flattening sampleIndex sampleLogical sampleAssignment sampleGraph :=
  ⟨sampleCompiles, (compiledFlattens sampleCompiles).1⟩

end BlockGraph
end Vdag
