import Mathlib.Data.List.Chain
import Mathlib.Logic.Relation
import Vdag.Proofs.BlockGraph.Nesting

/-! Chains of vDAGs, each embedded by the one before it. Compiling opens them one inside the other, never deeper than
there are vDAGs to open, and whatever it refuses about a chain is true of one. -/
namespace Vdag.BlockGraph
open Relation

/- The root is the vDAG being compiled, so what it embeds is in the assignment and not in the index. -/
def Refers (root : Option VdagUri) (index : EmbeddedIndex) (assignment : Assignment) (uri next : VdagUri) : Prop :=
  if root = some uri then next ∈ assignment.embeddings
  else ∃ vdag, index.find? uri = some vdag ∧ next ∈ vdag.assignment.embeddings

structure Chain (root : Option VdagUri) (index : EmbeddedIndex) (assignment : Assignment) (chain : List VdagUri) :
    Prop where
  first : ∀ uri ∈ chain.head?, uri ∈ assignment.embeddings
  linked : chain.IsChain (Refers root index assignment)

def Broken (root : Option VdagUri) (index : EmbeddedIndex) (chain : List VdagUri) : Prop :=
  ¬ chain.Nodup ∨ (∃ uri ∈ chain, root = some uri) ∨ ∃ uri ∈ chain, index.find? uri = none

structure Circle (root : Option VdagUri) (index : EmbeddedIndex) (assignment : Assignment) (printed : List VdagUri) :
    Prop where
  first : ∃ uri, printed.head? = some uri ∧ (root = some uri ∨ root = none ∧ uri ∈ assignment.embeddings)
  linked : printed.IsChain (Refers root index assignment)
  returns : ∃ before uri, printed = before ++ [uri] ∧ uri ∈ before

/- Compiling with room for so many calls inside each other. A call for which there is no room answers as `beyond`
likes, so where the answer is the same whatever `beyond` is, even a failure, there was no such call. -/
def compileRoomy (index : EmbeddedIndex) (beyond : List VdagUri → LogicalGraph → Assignment → Outcome BlockGraph) :
    (room : Nat) → List VdagUri → LogicalGraph → Assignment → Outcome BlockGraph
  | 0, opened, logical, assignment => beyond opened logical assignment
  | room + 1, opened, logical, assignment =>
      splice
        (fun label uri =>
          if uri ∈ opened then .error (.composition (.cycle opened uri))
          else match index.find? uri with
            | none => .error (.composition (.notLoaded uri label))
            | some vdag => compileRoomy index beyond room (opened ++ [uri]) vdag.graph vdag.assignment)
        logical assignment

theorem roomSuffices {index : EmbeddedIndex} {room : Nat} {opened : List VdagUri}
    (enough : (unopened index opened).length < room)
    (beyond : List VdagUri → LogicalGraph → Assignment → Outcome BlockGraph) (logical : LogicalGraph)
    (assignment : Assignment) :
    compileRoomy index beyond room opened logical assignment = compileWithin index opened logical assignment := by
  induction room generalizing opened logical assignment with
  | zero => cases enough
  | succ room ih =>
    rw [compileRoomy, compileWithinStep]
    congr 1
    funext label uri
    unfold embedWithin
    split
    · rfl
    · rename_i fresh
      cases known : index.find? uri with
      | none => rfl
      | some vdag => exact ih (Nat.lt_of_lt_of_le (unopenedShrinks known fresh) (Nat.le_of_lt_succ enough)) _ _

theorem ofAdjacencyFails {adjacency : Adjacency} {failure : Failure} (failed : ofAdjacency adjacency = .error failure) :
    ∃ fault, failure = .definition fault := by
  unfold ofAdjacency at failed
  split at failed
  · cases failed; exact ⟨_, rfl⟩
  · dsimp only at failed
    split at failed
    · cases failed; exact ⟨_, rfl⟩
    · rcases Outcome.bindFails.mp failed with cyclic | ⟨_, _, last⟩
      · unfold Adjacency.checkAcyclic at cyclic
        dsimp only at cyclic
        split at cyclic
        · cases cyclic
        · cases cyclic; exact ⟨_, rfl⟩
      · cases last
    · cases failed; exact ⟨_, rfl⟩

theorem placementEdgeFails {p : Placement} {edge : NodeLabel × NodeLabel} {failure : Failure}
    (failed : p.addEdge edge = .error failure) : ∃ fault, failure = .definition fault := by
  have blockOf : ∀ label, p.blockOf label = .error failure → ∃ fault, failure = .definition fault := by
    intro label failed
    unfold Placement.blockOf at failed
    split at failed
    · cases failed
    · cases failed; exact ⟨_, rfl⟩
  rcases Outcome.bindFails.mp failed with first | ⟨source, _, failed⟩
  · exact blockOf _ first
  · rcases Outcome.bindFails.mp failed with second | ⟨sink, _, last⟩
    · exact blockOf _ second
    · cases last

theorem spliceFaults {embed : NodeLabel → VdagUri → Outcome BlockGraph} {logical : LogicalGraph}
    {assignment : Assignment} {failure : Failure} (failed : splice embed logical assignment = .error failure) :
    (∃ fault, failure = .definition fault) ∨
      ∃ label uri, (label, .embedded uri) ∈ assignment.entries ∧ embed label uri = .error failure := by
  rcases Outcome.bindFails.mp failed with nodes | ⟨nodes, _, failed⟩
  · obtain ⟨⟨label, target⟩, entry, before, added⟩ := Outcome.foldlMFails nodes
    cases target with
    | block id => cases added
    | embedded uri =>
      rcases Outcome.bindFails.mp added with inner | ⟨inner, _, last⟩
      · exact .inr ⟨label, uri, entry, inner⟩
      · cases last
  · rcases Outcome.bindFails.mp failed with edges | ⟨placed, _, last⟩
    · obtain ⟨edge, _, before, added⟩ := Outcome.foldlMFails edges
      exact .inl (placementEdgeFails added)
    · exact .inl (ofAdjacencyFails last)

theorem spliceFails {embed : NodeLabel → VdagUri → Outcome BlockGraph} {logical : LogicalGraph}
    {assignment : Assignment} {fault : CompositionFault}
    (failed : splice embed logical assignment = .error (.composition fault)) :
    ∃ label uri, (label, .embedded uri) ∈ assignment.entries ∧ embed label uri = .error (.composition fault) := by
  rcases spliceFaults failed with ⟨_, other⟩ | inner
  · cases other
  · exact inner

theorem withinFaults {index : EmbeddedIndex} {opened : List VdagUri} {logical : LogicalGraph} {assignment : Assignment}
    {failure : Failure} (failed : compileWithin index opened logical assignment = .error failure) :
    (∃ fault, failure = .definition fault) ∨ ∃ fault, failure = .composition fault := by
  induction opened, logical, assignment using compileWithin.induct index with
  | case1 opened logical assignment ih =>
    rw [compileWithinStep] at failed
    rcases spliceFaults failed with definition | ⟨label, uri, _, failed⟩
    · exact .inl definition
    · unfold embedWithin at failed
      split at failed
      · cases failed
        exact .inr ⟨_, rfl⟩
      · rename_i fresh
        cases known : index.find? uri with
        | none =>
          rw [known] at failed
          cases failed
          exact .inr ⟨_, rfl⟩
        | some vdag =>
          rw [known] at failed
          exact ih uri fresh vdag known failed

/- Where all that is embedded is loaded or already open, compiling comes upon nothing that is not loaded: what is open
it refuses as a cycle, before it looks for it. -/
theorem withinLoaded {index : EmbeddedIndex} {opened : List VdagUri} {logical : LogicalGraph} {assignment : Assignment}
    {uri : VdagUri} {label : NodeLabel} (direct : ∀ next ∈ assignment.embeddings, next ∈ opened ∨ next ∈ index.keys)
    (closed : ∀ other vdag, index.find? other = some vdag →
      ∀ next ∈ vdag.assignment.embeddings, next ∈ opened ∨ next ∈ index.keys) :
    compileWithin index opened logical assignment ≠ .error (.composition (.notLoaded uri label)) := by
  intro failed
  induction opened, logical, assignment using compileWithin.induct index with
  | case1 opened logical assignment ih =>
    rw [compileWithinStep] at failed
    obtain ⟨_, next, entry, failed⟩ := spliceFails failed
    unfold embedWithin at failed
    split at failed
    · cases failed
    · rename_i fresh
      have loaded := (direct next (memEmbeddings.mpr ⟨_, entry⟩)).resolve_left fresh
      obtain ⟨vdag, known⟩ := SortedMap.keyFound.mp loaded
      rw [known] at failed
      have wider : ∀ other vdag, index.find? other = some vdag →
          ∀ last ∈ vdag.assignment.embeddings, last ∈ opened ++ [next] ∨ last ∈ index.keys :=
        fun other vdag known last embedded => (closed other vdag known last embedded).imp_left (List.mem_append_left _)
      exact ih next fresh vdag known (wider next vdag known) wider failed

section
variable {root : Option VdagUri} {index : EmbeddedIndex} {assignment : Assignment}

theorem refersRoot {uri next : VdagUri} :
    Refers (some uri) index assignment uri next ↔ next ∈ assignment.embeddings := by
  rw [Refers, if_pos rfl]

theorem refersIndexed {uri next : VdagUri} {vdag : EmbeddedVdag} (inner : root ≠ some uri)
    (known : index.find? uri = some vdag) :
    Refers root index assignment uri next ↔ next ∈ vdag.assignment.embeddings := by
  rw [Refers, if_neg inner, known]
  simp

theorem Chain.chainExtended {path : List VdagUri} {uri next : VdagUri} {vdag : EmbeddedVdag}
    (chain : Chain root index assignment (path ++ [uri])) (inner : root ≠ some uri)
    (known : index.find? uri = some vdag) (embedded : next ∈ vdag.assignment.embeddings) :
    Chain root index assignment (path ++ [uri] ++ [next]) where
  first other head := chain.first other (by cases path <;> exact head)
  linked := by
    refine chain.linked.append (.singleton next) (fun last atEnd other head => ?_)
    rw [List.getLast?_concat] at atEnd
    cases atEnd
    cases head
    exact (refersIndexed inner known).mpr embedded

theorem Chain.fromRoot {chain : List VdagUri} (ok : Chain root index assignment chain) :
    (root.toList ++ chain).IsChain (Refers root index assignment) := by
  cases root with
  | none => exact ok.linked
  | some uri => exact ok.linked.cons (fun next head => refersRoot.mpr (ok.first next head))

theorem Chain.circleOfChain {path : List VdagUri} {uri : VdagUri} (chain : Chain root index assignment (path ++ [uri]))
    (again : uri ∈ root.toList ++ path) : Circle root index assignment (root.toList ++ path ++ [uri]) where
  first := by
    cases root with
    | some top => exact ⟨top, rfl, .inl rfl⟩
    | none =>
      cases path with
      | nil => cases again
      | cons head rest => exact ⟨head, rfl, .inr ⟨rfl, chain.first head rfl⟩⟩
  linked := by
    rw [List.append_assoc]
    exact chain.fromRoot
  returns := ⟨_, uri, rfl, again⟩

theorem brokenReturn {path : List VdagUri} {uri : VdagUri} (again : uri ∈ root.toList ++ path) :
    Broken root index (path ++ [uri]) := by
  rcases List.mem_append.mp again with top | member
  · exact .inr (.inl ⟨uri, List.mem_append_right _ (List.mem_singleton.mpr rfl), Option.mem_toList.mp top⟩)
  · exact .inl (fun unique => (List.nodup_append.mp unique).2.2 uri member uri (List.mem_singleton.mpr rfl) rfl)

theorem Circle.cycleOfCircle {before : List VdagUri} {uri : VdagUri}
    (circle : Circle root index assignment (before ++ [uri])) (again : uri ∈ before) :
    TransGen (Refers root index assignment) uri uri := by
  have further := (circle.linked.imp (fun _ _ => TransGen.single)).pairwise
  exact (List.pairwise_append.mp further).2.2 uri again uri (List.mem_singleton.mpr rfl)

theorem withinFails {path : List VdagUri} {logical : LogicalGraph} {inner : Assignment} {fault : CompositionFault}
    (leads : ∀ uri ∈ inner.embeddings, Chain root index assignment (path ++ [uri]))
    (failed : compileWithin index (root.toList ++ path) logical inner = .error (.composition fault)) :
    ∃ path uri, Chain root index assignment (path ++ [uri]) ∧
      (fault = .cycle (root.toList ++ path) uri ∧ uri ∈ root.toList ++ path ∨
        ∃ label, fault = .notLoaded uri label ∧ index.find? uri = none) := by
  generalize same : root.toList ++ path = opened at failed
  -- Along the recursion into the embedded vDAGs, with the chain of references that leads to each of them.
  induction opened, logical, inner using compileWithin.induct index generalizing path with
  | case1 opened logical inner ih =>
    subst same
    rw [compileWithinStep] at failed
    obtain ⟨label, uri, entry, failed⟩ := spliceFails failed
    have chain := leads uri (memEmbeddings.mpr ⟨label, entry⟩)
    unfold embedWithin at failed
    split at failed
    · rename_i again
      cases failed
      exact ⟨path, uri, chain, .inl ⟨rfl, again⟩⟩
    · rename_i fresh
      cases known : index.find? uri with
      | none =>
        rw [known] at failed
        cases failed
        exact ⟨path, uri, chain, .inr ⟨label, rfl, known⟩⟩
      | some vdag =>
        rw [known] at failed
        have inside : root ≠ some uri := fun top =>
          fresh (List.mem_append_left _ (Option.mem_toList.mpr top))
        exact ih uri fresh vdag known (fun next embedded => chain.chainExtended inside known embedded)
          (List.append_assoc ..).symm failed

theorem withinOpens {opened chain : List VdagUri} {logical : LogicalGraph} {inner : Assignment} {graph : BlockGraph}
    (ok : compileWithin index opened logical inner = .ok graph) (top : ∀ uri, root = some uri → uri ∈ opened)
    (first : ∀ uri ∈ chain.head?, uri ∈ inner.embeddings) (linked : chain.IsChain (Refers root index assignment)) :
    chain.Nodup ∧ ∀ uri ∈ chain, uri ∉ opened ∧ index.find? uri ≠ none := by
  -- On the chain: its first vDAG is opened in its turn, and what is opened stays open for the rest of it.
  induction chain generalizing opened logical inner graph with
  | nil => exact ⟨List.nodup_nil, nofun⟩
  | cons uri rest ih =>
    obtain ⟨fresh, vdag, nested, known, ok⟩ := withinEmbeds ok (first uri rfl)
    obtain ⟨next, linked⟩ := List.isChain_cons.mp linked
    have inside : root ≠ some uri := fun same => fresh (top uri same)
    obtain ⟨unique, later⟩ := ih ok (fun other same => List.mem_append_left _ (top other same))
      (fun other head => (refersIndexed inside known).mp (next other head)) linked
    have apart : ∀ other ∈ rest, other ∉ opened ∧ other ≠ uri := fun other member =>
      ⟨fun old => (later other member).1 (List.mem_append_left _ old),
        fun same => (later other member).1 (List.mem_append_right _ (List.mem_singleton.mpr same))⟩
    refine ⟨List.nodup_cons.mpr ⟨fun member => (apart uri member).2 rfl, unique⟩,
      List.forall_mem_cons.mpr ⟨⟨fresh, by simp [known]⟩, fun other member => ?_⟩⟩
    exact ⟨(apart other member).1, (later other member).2⟩

theorem compileFails {logical : LogicalGraph} {fault : CompositionFault}
    (failed : compile root logical assignment index = .error (.composition fault)) :
    ∃ path uri, Chain root index assignment (path ++ [uri]) ∧
      (fault = .cycle (root.toList ++ path) uri ∧ uri ∈ root.toList ++ path ∨
        ∃ label, fault = .notLoaded uri label ∧ index.find? uri = none) := by
  have leads : ∀ uri ∈ assignment.embeddings, Chain root index assignment ([] ++ [uri]) := by
    intro uri embedded
    refine ⟨fun other head => ?_, .singleton uri⟩
    cases head
    exact embedded
  exact withinFails leads (by rwa [List.append_nil])

theorem compileCycle {logical : LogicalGraph} {opened : List VdagUri} {uri : VdagUri}
    (failed : compile root logical assignment index = .error (.composition (.cycle opened uri))) :
    Circle root index assignment (opened ++ [uri]) ∧ uri ∈ opened := by
  obtain ⟨path, other, chain, ⟨same, again⟩ | ⟨_, same, _⟩⟩ := compileFails failed
  · cases same
    exact ⟨chain.circleOfChain again, again⟩
  · cases same

end

/- The guard against cycles, exactly. Compiling goes no deeper than there are vDAGs to open. A broken chain is always
refused, and a failure of the composition always means one. A cycle is printed as it is, and a vDAG that no chain
brings back to itself is in none, however often it is embedded. -/
structure Guarded (root : Option VdagUri) (logical : LogicalGraph) (assignment : Assignment) (index : EmbeddedIndex) :
    Prop where
  shallow : ∀ beyond, compileRoomy index beyond (index.size + 1) root.toList logical assignment =
    compile root logical assignment index
  refused : ∀ chain, Chain root index assignment chain → Broken root index chain →
    ∃ failure, compile root logical assignment index = .error failure
  founded : ∀ fault, compile root logical assignment index = .error (.composition fault) →
    ∃ chain, Chain root index assignment chain ∧ Broken root index chain
  printed : ∀ opened uri, compile root logical assignment index = .error (.composition (.cycle opened uri)) →
    (Failure.composition (.cycle opened uri)).message = "Sub-vDAG composition failed: cyclic sub-vDAG reference: " ++
      Text.joined " -> " ((opened ++ [uri]).map Id.text) ∧ Circle root index assignment (opened ++ [uri])
  spared : ∀ uri, ¬ TransGen (Refers root index assignment) uri uri →
    ∀ opened, compile root logical assignment index ≠ .error (.composition (.cycle opened uri))

theorem compileGuarded (root : Option VdagUri) (logical : LogicalGraph) (assignment : Assignment)
    (index : EmbeddedIndex) : Guarded root logical assignment index where
  shallow beyond := by
    have fewer : (unopened index root.toList).length ≤ index.size := by
      rw [SortedMap.size, ← List.length_map (f := Prod.fst)]
      exact List.length_filter_le _ _
    exact roomSuffices (Nat.lt_succ_of_le fewer) beyond logical assignment
  refused chain ok broken := by
    cases compiled : compile root logical assignment index with
    | error failure => exact ⟨failure, rfl⟩
    | ok graph =>
      obtain ⟨unique, each⟩ := withinOpens compiled (fun uri top => Option.mem_toList.mpr top) ok.first ok.linked
      rcases broken with twice | ⟨uri, member, top⟩ | ⟨uri, member, missing⟩
      · exact absurd unique twice
      · exact absurd (Option.mem_toList.mpr top) (each uri member).1
      · exact absurd missing (each uri member).2
  founded fault failed := by
    obtain ⟨path, uri, chain, ⟨_, again⟩ | ⟨_, _, missing⟩⟩ := compileFails failed
    · exact ⟨_, chain, brokenReturn again⟩
    · exact ⟨_, chain, .inr (.inr ⟨uri, List.mem_append_right _ (List.mem_singleton.mpr rfl), missing⟩)⟩
  printed opened uri failed := ⟨rfl, (compileCycle failed).1⟩
  spared uri apart opened failed := by
    obtain ⟨circle, again⟩ := compileCycle failed
    exact apart (circle.cycleOfCircle again)

end Vdag.BlockGraph
