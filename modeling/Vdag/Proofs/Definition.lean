import Mathlib.Data.List.Nodup
import Vdag.Definition
import Vdag.Proofs.Outcome

/-! What validation makes sure of, and what it does for finding a node by its label. -/
namespace Vdag

def Connection.Within (known : List NodeLabel) (c : Connection) : Prop :=
  c.node ∈ known ∧ ∀ input ∈ c.inputs, input ∈ known

theorem Connection.checkOk {known : List NodeLabel} {c : Connection} : c.check known = .ok () ↔ c.Within known := by
  unfold Connection.check
  split
  · rename_i unknown
    exact ⟨nofun, fun within => absurd within.1 unknown⟩
  · rename_i own
    cases missing : c.inputs.find? (· ∉ known) with
    | some input =>
      have absent : input ∉ known := by simpa using List.find?_some missing
      exact ⟨nofun, fun within => absurd (within.2 input (List.mem_of_find?_eq_some missing)) absent⟩
    | none =>
      have inputs : ∀ input ∈ c.inputs, input ∈ known := by simpa using missing
      exact ⟨fun _ => ⟨not_not.mp own, inputs⟩, fun _ => rfl⟩

theorem LogicalGraph.checkOk {known : List NodeLabel} {graph : LogicalGraph} :
    graph.check known = .ok () ↔ ∀ c ∈ graph.connections, c.Within known := by
  unfold LogicalGraph.check
  induction graph.connections with
  | nil => simp [pure, Except.pure]
  | cons c rest ih =>
    rw [List.forM_eq_forM, List.forM_cons, Outcome.bindOk, List.forall_mem_cons, ← Connection.checkOk, ← ih]
    exact ⟨fun ⟨_, first, later⟩ => ⟨first, later⟩, fun ⟨first, later⟩ => ⟨(), first, later⟩⟩

namespace Definition

def labels (vdag : Definition) : List NodeLabel := vdag.nodes.map (·.label)

structure Valid (vdag : Definition) : Prop where
  inhabited : vdag.nodes ≠ []
  labelled : ∀ node ∈ vdag.nodes, node.label.isEmpty = false
  distinct : vdag.labels.Nodup
  resolvable : ∀ node ∈ vdag.nodes, node.check = .ok ()
  connected : ∀ c ∈ vdag.graph.connections, c.Within vdag.labels

theorem checkNodesOk {nodes : List Node} {seen : List NodeLabel} :
    checkNodes nodes seen = .ok () ↔
      (∀ node ∈ nodes, node.label.isEmpty = false ∧ node.label ∉ seen ∧ node.check = .ok ()) ∧
        (nodes.map (·.label)).Nodup := by
  induction nodes generalizing seen with
  | nil => simp [checkNodes]
  | cons node rest ih =>
    unfold checkNodes
    split
    · rename_i empty
      exact ⟨nofun, fun ok => absurd empty (by simp [(ok.1 node List.mem_cons_self).1])⟩
    · rename_i labelled
      split
      · rename_i twice
        exact ⟨nofun, fun ok => absurd twice (ok.1 node List.mem_cons_self).2.1⟩
      · rename_i fresh
        rw [Outcome.bindOk, List.forall_mem_cons, List.map_cons, List.nodup_cons]
        constructor
        · intro given
          obtain ⟨_, own, later⟩ := given
          obtain ⟨others, distinct⟩ := ih.mp later
          refine ⟨⟨⟨by simpa using labelled, fresh, own⟩, fun other member => ?_⟩, fun again => ?_, distinct⟩
          · obtain ⟨named, unseen, checked⟩ := others other member
            exact ⟨named, fun h => unseen (List.mem_cons_of_mem _ h), checked⟩
          · obtain ⟨other, member, same⟩ := List.mem_map.mp again
            exact (others other member).2.1 (same ▸ List.mem_cons_self)
        · intro given
          obtain ⟨⟨⟨_, _, own⟩, others⟩, apart, distinct⟩ := given
          refine ⟨(), own, ih.mpr ⟨fun other member => ?_, distinct⟩⟩
          obtain ⟨named, unseen, checked⟩ := others other member
          refine ⟨named, fun h => ?_, checked⟩
          rcases List.mem_cons.mp h with same | h
          · exact apart (List.mem_map.mpr ⟨other, member, same⟩)
          · exact unseen h

theorem validateOk {vdag : Definition} : vdag.validate = .ok () ↔ vdag.Valid := by
  unfold validate
  split
  · rename_i empty
    exact ⟨nofun, fun valid => absurd (List.isEmpty_iff.mp empty) valid.inhabited⟩
  · rename_i inhabited
    rw [Outcome.bindOk]
    constructor
    · intro given
      obtain ⟨_, nodes, graph⟩ := given
      obtain ⟨each, distinct⟩ := checkNodesOk.mp nodes
      exact ⟨fun empty => inhabited (List.isEmpty_iff.mpr empty), fun node member => (each node member).1, distinct,
        fun node member => (each node member).2.2, LogicalGraph.checkOk.mp graph⟩
    · intro valid
      refine ⟨(), checkNodesOk.mpr ⟨fun node member => ?_, valid.distinct⟩, LogicalGraph.checkOk.mpr valid.connected⟩
      exact ⟨valid.labelled node member, List.not_mem_nil, valid.resolvable node member⟩

theorem nodeIff {vdag : Definition} (distinct : vdag.labels.Nodup) {label : NodeLabel} {node : Node} :
    vdag.node? label = some node ↔ node ∈ vdag.nodes ∧ node.label = label := by
  have sound : ∀ {other}, vdag.node? label = some other → other ∈ vdag.nodes ∧ other.label = label := by
    intro other found
    exact ⟨List.mem_of_find?_eq_some found, by simpa using List.find?_some found⟩
  refine ⟨sound, fun given => ?_⟩
  obtain ⟨member, named⟩ := given
  cases found : vdag.node? label with
  | none => exact absurd named (by simpa using List.find?_eq_none.mp found node member)
  | some other =>
    obtain ⟨member', named'⟩ := sound found
    exact congrArg some (List.inj_on_of_nodup_map distinct member' member (named'.trans named.symm))

end Definition

end Vdag
