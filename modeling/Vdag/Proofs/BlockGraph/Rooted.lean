import Mathlib.Data.List.Perm.Subperm
import Vdag.BlockGraph.Splicing
import Vdag.Proofs.BlockGraph.Cycles
import Vdag.Proofs.BlockGraph.Peeling
import Vdag.Proofs.Outcome

/-! A compiled block graph has one way in, no cycle, and a way out from everywhere, however deep its vDAGs are
nested and whatever blocks they share. -/
namespace Vdag.BlockGraph
open Adjacency Relation

structure RootedDag (graph : BlockGraph) : Prop where
  nonempty : graph.blocks ≠ []
  wellFormed : graph.adjacency.WellFormed
  acyclic : ∀ block, ¬ TransGen graph.adjacency.Edge block block
  head : ∀ block, block = graph.head ↔ block ∈ graph.blocks ∧ ∀ source, ¬ graph.adjacency.Edge source block
  tail : ∀ block, block ∈ graph.tail ↔ block ∈ graph.blocks ∧ graph.adjacency.targets block = []
  tailAscending : graph.tail.Pairwise KeyOrder.Before
  tailNonempty : graph.tail ≠ []
  entered : ∀ block ∈ graph.blocks, ReflTransGen graph.adjacency.Edge graph.head block
  drained : ∀ block ∈ graph.blocks, ∃ last ∈ graph.tail, ReflTransGen graph.adjacency.Edge block last

theorem checkedPeel (adjacency : Adjacency) : adjacency.checkAcyclic (Indegrees.ofAdjacency adjacency) =
    if (Peeling.peel adjacency).1.length = adjacency.size then .ok ()
    else .error (.definition (.cycle (Peeling.peel adjacency).2.waiting)) := rfl

theorem peelCovers {adjacency : Adjacency} (closed : adjacency.Closed) :
    (Peeling.peel adjacency).1.length = adjacency.size ↔ ∀ block ∈ adjacency.keys, Acc adjacency.Edge block := by
  have inside : (Peeling.peel adjacency).1 ⊆ adjacency.keys :=
    fun block member => closed.listedIffKey.mp (Peeling.memPeel.mp member).1
  rw [SortedMap.sizeKeys]
  constructor
  · intro all block key
    have same := ((Peeling.peelDistinct adjacency).subperm inside).perm_of_length_le (Nat.le_of_eq all.symm)
    exact (Peeling.memPeel.mp (same.mem_iff.mpr key)).2
  · intro grounded
    refine ((List.perm_ext_iff_of_nodup (Peeling.peelDistinct adjacency) (SortedMap.keysNodup adjacency)).mpr
      (fun block => ⟨fun member => inside member, fun key => ?_⟩)).length_eq
    exact Peeling.memPeel.mpr ⟨.inl key, grounded block key⟩

theorem checkedGrounded {adjacency : Adjacency} (closed : adjacency.Closed)
    (checked : adjacency.checkAcyclic (Indegrees.ofAdjacency adjacency) = .ok ()) :
    ∀ block ∈ adjacency.keys, Acc adjacency.Edge block := by
  rw [checkedPeel] at checked
  split at checked
  · rename_i all
    exact (peelCovers closed).mp all
  · cases checked

theorem ofAdjacencyOk {adjacency : Adjacency} {graph : BlockGraph} (ok : ofAdjacency adjacency = .ok graph) :
    adjacency.isEmpty = false ∧ (Indegrees.ofAdjacency adjacency).sources = [graph.head] ∧
      adjacency.checkAcyclic (Indegrees.ofAdjacency adjacency) = .ok () ∧
      graph.tail = adjacency.sinks ∧ graph.adjacency = adjacency := by
  unfold ofAdjacency at ok
  split at ok
  · cases ok
  · rename_i filled
    dsimp only at ok
    split at ok
    · cases ok
    · rename_i head sources
      obtain ⟨_, checked, last⟩ := Outcome.bindOk.mp ok
      cases last
      exact ⟨by simpa using filled, sources, checked, rfl, rfl⟩
    · cases ok

theorem memSinks {adjacency : Adjacency} {block : BlockId} :
    block ∈ adjacency.sinks ↔ block ∈ adjacency.keys ∧ adjacency.targets block = [] := by
  rw [sinks, List.mem_map]
  constructor
  · intro given
    obtain ⟨⟨block, sinks⟩, member, rfl⟩ := given
    obtain ⟨entry, empty⟩ := List.mem_filter.mp member
    exact ⟨List.mem_map.mpr ⟨_, entry, rfl⟩, (edgeOfEntry entry).trans (by simpa using empty)⟩
  · intro given
    obtain ⟨key, empty⟩ := given
    obtain ⟨⟨block, sinks⟩, entry, rfl⟩ := List.mem_map.mp key
    rw [edgeOfEntry entry] at empty
    exact ⟨(block, sinks), List.mem_filter.mpr ⟨entry, by simp [empty]⟩, rfl⟩

theorem sinksAscending (adjacency : Adjacency) : adjacency.sinks.Pairwise KeyOrder.Before :=
  SortedMap.pickedAscending adjacency _

/- Ways forward end because there are finitely many blocks; ways backwards end because peeling took every block. -/
theorem drainedOfAcyclic {adjacency : Adjacency} (ok : adjacency.WellFormed)
    (acyclic : ∀ block, ¬ TransGen adjacency.Edge block block) {block : BlockId} (key : block ∈ adjacency.keys) :
    ∃ last ∈ adjacency.sinks, ReflTransGen adjacency.Edge block last := by
  let Later (a b : {block // block ∈ adjacency.keys}) : Prop := TransGen adjacency.Edge b.1 a.1
  have : IsTrans _ Later := ⟨fun a b c ab bc => bc.trans ab⟩
  have : Std.Irrefl Later := ⟨fun a => acyclic a.1⟩
  have ends : WellFounded Later := Finite.wellFounded_of_trans_of_irrefl Later
  suffices ∀ block : {block // block ∈ adjacency.keys},
      ∃ last ∈ adjacency.sinks, ReflTransGen adjacency.Edge block.1 last from this ⟨block, key⟩
  intro block
  induction block using ends.induction with
  | _ block ih =>
    cases targets : adjacency.targets block.1 with
    | nil => exact ⟨block.1, memSinks.mpr ⟨block.2, targets⟩, .refl⟩
    | cons next rest =>
      have edge : adjacency.Edge block.1 next := by rw [Edge, targets]; exact List.mem_cons_self
      obtain ⟨last, sink, way⟩ := ih ⟨next, ok.closed edge⟩ (.single edge)
      exact ⟨last, sink, .head edge way⟩

theorem rootedOfAdjacency {adjacency : Adjacency} {graph : BlockGraph} (ok : adjacency.WellFormed)
    (found : ofAdjacency adjacency = .ok graph) : RootedDag graph := by
  obtain ⟨filled, sources, checked, tail, rfl⟩ := ofAdjacencyOk found
  have grounded := checkedGrounded ok.isClosed checked
  have acyclic : ∀ block, ¬ TransGen graph.adjacency.Edge block block := groundedIffAcyclic.mp grounded
  have head : ∀ block, block = graph.head ↔
      block ∈ graph.adjacency.keys ∧ ∀ source, ¬ graph.adjacency.Edge source block := by
    intro block
    have source := @Indegrees.memSources graph.adjacency block
    rw [sources, List.mem_singleton, ok.isClosed.listedIffKey, openEdgesZero] at source
    simpa using source
  have blocks : graph.adjacency.keys ≠ [] := List.ne_nil_of_mem ((head graph.head).mp rfl).1
  have drained : ∀ block ∈ graph.adjacency.keys, ∃ last ∈ graph.tail, ReflTransGen graph.adjacency.Edge block last :=
    fun block key => tail ▸ drainedOfAcyclic ok acyclic key
  refine ⟨blocks, ok, acyclic, head, fun block => ?_, ?_, ?_, fun block key => ?_, drained⟩
  · rw [tail]; exact memSinks
  · rw [tail]; exact sinksAscending graph.adjacency
  · obtain ⟨last, member, _⟩ := drained graph.head ((head graph.head).mp rfl).1
    exact List.ne_nil_of_mem member
  · induction grounded block key with
    | intro block _ ih =>
      by_cases start : ∃ source, graph.adjacency.Edge source block
      · obtain ⟨source, edge⟩ := start
        exact (ih source edge (edgeSource edge)).tail edge
      · rw [(head block).mpr ⟨key, not_exists.mp start⟩]

theorem addNodeWellFormed {embed : NodeLabel → VdagUri → Outcome BlockGraph} {before after : Placement}
    {entry : NodeLabel × Target} (ok : before.adjacency.WellFormed)
    (added : before.addNode embed entry = .ok after) : after.adjacency.WellFormed := by
  unfold Placement.addNode at added
  split at added
  · cases added
    exact ok.addBlock _
  · obtain ⟨inner, _, last⟩ := Outcome.bindOk.mp added
    cases last
    exact (ok.wellFormedAbsorb inner.adjacency).addBlock inner.head

theorem placementEdge {before after : Placement} {edge : NodeLabel × NodeLabel}
    (added : before.addEdge edge = .ok after) :
    ∃ source sink, before.blockOf edge.1 = .ok source ∧ before.blockOf edge.2 = .ok sink ∧
      after = { before with adjacency := before.adjacency.addEdge source sink } := by
  obtain ⟨source, found, added⟩ := Outcome.bindOk.mp added
  obtain ⟨sink, found', last⟩ := Outcome.bindOk.mp added
  cases last
  exact ⟨source, sink, found, found', rfl⟩

theorem spliceOk {embed : NodeLabel → VdagUri → Outcome BlockGraph} {logical : LogicalGraph} {assignment : Assignment}
    {graph : BlockGraph} (ok : splice embed logical assignment = .ok graph) :
    ∃ nodes placed, assignment.entries.foldlM (Placement.addNode embed) ⟨.empty, .empty⟩ = .ok nodes ∧
      logical.edges.foldlM Placement.addEdge nodes = .ok placed ∧ ofAdjacency placed.adjacency = .ok graph := by
  obtain ⟨nodes, first, ok⟩ := Outcome.bindOk.mp ok
  obtain ⟨placed, second, last⟩ := Outcome.bindOk.mp ok
  exact ⟨nodes, placed, first, second, last⟩

theorem splicedRooted {embed : NodeLabel → VdagUri → Outcome BlockGraph} {logical : LogicalGraph}
    {assignment : Assignment} {graph : BlockGraph} (ok : splice embed logical assignment = .ok graph) :
    RootedDag graph := by
  obtain ⟨nodes, placed, first, second, last⟩ := spliceOk ok
  have atNodes : nodes.adjacency.WellFormed := Outcome.foldlMKeeps addNodeWellFormed wellFormedEmpty first
  have atEnd : placed.adjacency.WellFormed := by
    refine Outcome.foldlMKeeps (P := fun p : Placement => p.adjacency.WellFormed) ?_ atNodes second
    intro before edge after ok added
    obtain ⟨source, sink, _, _, rfl⟩ := placementEdge added
    exact ok.addEdge source sink
  exact rootedOfAdjacency atEnd last

theorem compiledRooted {root : Option VdagUri} {logical : LogicalGraph} {assignment : Assignment}
    {index : EmbeddedIndex} {graph : BlockGraph} (ok : compile root logical assignment index = .ok graph) :
    RootedDag graph := by
  rw [compile, compileWithin] at ok
  exact splicedRooted ok

def sampleIndex : EmbeddedIndex := .ofList
  [(⟨"leaf:1-a"⟩, ⟨.ofList [(⟨"U"⟩, .block ⟨"b2"⟩), (⟨"V"⟩, .block ⟨"b3"⟩)], ⟨[⟨⟨"V"⟩, [⟨"U"⟩]⟩], .empty⟩⟩),
   (⟨"middle:1-a"⟩, ⟨.ofList [(⟨"X"⟩, .block ⟨"b1"⟩), (⟨"Y"⟩, .embedded ⟨"leaf:1-a"⟩)],
     ⟨[⟨⟨"Y"⟩, [⟨"X"⟩]⟩], .empty⟩⟩)]

def sampleAssignment : Assignment := .ofList
  [(⟨"A"⟩, .block ⟨"b0"⟩), (⟨"S"⟩, .embedded ⟨"middle:1-a"⟩), (⟨"T"⟩, .embedded ⟨"leaf:1-a"⟩),
   (⟨"Z"⟩, .block ⟨"b3"⟩)]

def sampleLogical : LogicalGraph :=
  ⟨[⟨⟨"S"⟩, [⟨"A"⟩]⟩, ⟨⟨"T"⟩, [⟨"A"⟩, ⟨"S"⟩]⟩, ⟨⟨"Z"⟩, [⟨"T"⟩]⟩], .empty⟩

def sampleGraph : BlockGraph :=
  ⟨⟨"b0"⟩, [⟨"b3"⟩],
    .ofList [(⟨"b0"⟩, [⟨"b1"⟩, ⟨"b2"⟩]), (⟨"b1"⟩, [⟨"b2"⟩]), (⟨"b2"⟩, [⟨"b3"⟩]), (⟨"b3"⟩, [])]⟩

theorem sampleCompiles :
    compile (some ⟨"top:1-a"⟩) sampleLogical sampleAssignment sampleIndex = .ok sampleGraph := by decide +kernel

theorem sampleRooted :
    compile (some ⟨"top:1-a"⟩) sampleLogical sampleAssignment sampleIndex = .ok sampleGraph ∧
      RootedDag sampleGraph :=
  ⟨sampleCompiles, compiledRooted sampleCompiles⟩

end Vdag.BlockGraph
