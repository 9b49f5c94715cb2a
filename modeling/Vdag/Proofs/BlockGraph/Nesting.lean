import Vdag.Proofs.BlockGraph.Rooted

/-! One level of nesting: what a vDAG that takes the place of a node must be for the compilation to succeed, and
that its graph does not depend on where it is embedded. -/
namespace Vdag.BlockGraph

def embedWithin (index : EmbeddedIndex) (opened : List VdagUri) (label : NodeLabel) (uri : VdagUri) :
    Outcome BlockGraph :=
  if uri ∈ opened then .error (.composition (.cycle opened uri))
  else match index.find? uri with
    | none => .error (.composition (.notLoaded uri label))
    | some vdag => compileWithin index (opened ++ [uri]) vdag.graph vdag.assignment

theorem compileWithinStep (index : EmbeddedIndex) (opened : List VdagUri) (logical : LogicalGraph)
    (assignment : Assignment) :
    compileWithin index opened logical assignment = splice (embedWithin index opened) logical assignment := by
  rw [compileWithin]
  congr 1
  funext label uri
  unfold embedWithin
  split
  · rfl
  · split <;> simp [*]

theorem embedOk {index : EmbeddedIndex} {opened : List VdagUri} {label : NodeLabel} {uri : VdagUri}
    {graph : BlockGraph} : embedWithin index opened label uri = .ok graph ↔
      uri ∉ opened ∧ ∃ vdag, index.find? uri = some vdag ∧
        compileWithin index (opened ++ [uri]) vdag.graph vdag.assignment = .ok graph := by
  unfold embedWithin
  split
  · rename_i cycle
    exact ⟨nofun, fun h => absurd cycle h.1⟩
  · rename_i fresh
    cases index.find? uri with
    | none => simp
    | some vdag => simp [fresh]

theorem withinRooted {index : EmbeddedIndex} {opened : List VdagUri} {logical : LogicalGraph}
    {assignment : Assignment} {graph : BlockGraph}
    (ok : compileWithin index opened logical assignment = .ok graph) : RootedDag graph := by
  rw [compileWithinStep] at ok
  exact splicedRooted ok

theorem memEmbeddings {assignment : Assignment} {uri : VdagUri} :
    uri ∈ assignment.embeddings ↔ ∃ label, (label, .embedded uri) ∈ assignment.entries := by
  rw [Assignment.embeddings, List.mem_filterMap, SortedMap.values]
  constructor
  · intro given
    obtain ⟨target, member, same⟩ := given
    obtain ⟨⟨label, target⟩, entry, rfl⟩ := List.mem_map.mp member
    cases target with
    | block id => cases same
    | embedded other => cases same; exact ⟨label, entry⟩
  · intro given
    obtain ⟨label, entry⟩ := given
    exact ⟨.embedded uri, List.mem_map.mpr ⟨_, entry, rfl⟩, rfl⟩

theorem addNodeEmbeds {embed : NodeLabel → VdagUri → Outcome BlockGraph} {before after : Placement}
    {label : NodeLabel} {uri : VdagUri} (added : before.addNode embed (label, .embedded uri) = .ok after) :
    ∃ inner, embed label uri = .ok inner := by
  obtain ⟨inner, ok, _⟩ := Outcome.bindOk.mp added
  exact ⟨inner, ok⟩

theorem withinEmbeds {index : EmbeddedIndex} {opened : List VdagUri} {logical : LogicalGraph}
    {assignment : Assignment} {graph : BlockGraph}
    (ok : compileWithin index opened logical assignment = .ok graph) {uri : VdagUri}
    (embedded : uri ∈ assignment.embeddings) :
    uri ∉ opened ∧ ∃ vdag inner, index.find? uri = some vdag ∧
      compileWithin index (opened ++ [uri]) vdag.graph vdag.assignment = .ok inner := by
  rw [compileWithinStep] at ok
  obtain ⟨nodes, _, first, _⟩ := spliceOk ok
  obtain ⟨label, entry⟩ := memEmbeddings.mp embedded
  obtain ⟨_, _, added⟩ := Outcome.foldlMEach first _ entry
  obtain ⟨inner, ok⟩ := addNodeEmbeds added
  obtain ⟨fresh, vdag, known, ok⟩ := embedOk.mp ok
  exact ⟨fresh, vdag, inner, known, ok⟩

theorem spliceAgrees {embed other : NodeLabel → VdagUri → Outcome BlockGraph} {logical : LogicalGraph}
    {assignment : Assignment} {graph : BlockGraph}
    (agrees : ∀ label uri inner, embed label uri = .ok inner → other label uri = .ok inner)
    (ok : splice embed logical assignment = .ok graph) : splice other logical assignment = .ok graph := by
  obtain ⟨nodes, placed, first, second, last⟩ := spliceOk ok
  have first' : assignment.entries.foldlM (Placement.addNode other) ⟨.empty, .empty⟩ = .ok nodes := by
    refine Outcome.foldlMAgrees (fun entry _ before after added => ?_) first
    obtain ⟨label, target⟩ := entry
    cases target with
    | block id => exact added
    | embedded uri =>
      obtain ⟨inner, ok, last⟩ := Outcome.bindOk.mp added
      exact Outcome.bindOk.mpr ⟨inner, agrees label uri inner ok, last⟩
  exact Outcome.bindOk.mpr ⟨nodes, first', Outcome.bindOk.mpr ⟨placed, second, last⟩⟩

theorem withinFewer {index : EmbeddedIndex} {opened fewer : List VdagUri} {logical : LogicalGraph}
    {assignment : Assignment} {graph : BlockGraph} (subset : fewer ⊆ opened)
    (ok : compileWithin index opened logical assignment = .ok graph) :
    compileWithin index fewer logical assignment = .ok graph := by
  induction opened, logical, assignment using compileWithin.induct index generalizing fewer graph with
  | case1 opened logical assignment ih =>
    rw [compileWithinStep] at ok ⊢
    refine spliceAgrees (fun label uri inner ok => ?_) ok
    obtain ⟨fresh, vdag, known, ok⟩ := embedOk.mp ok
    refine embedOk.mpr ⟨fun member => fresh (subset member), vdag, known, ?_⟩
    exact ih uri fresh vdag known (List.append_subset.mpr
      ⟨fun other member => List.mem_append_left _ (subset member), List.subset_append_right _ _⟩) ok

end Vdag.BlockGraph
