import Mathlib.Data.List.Chain
import Mathlib.Data.Set.Card.Arithmetic
import Vdag.Proofs.BlockGraph.Rooted

/-! Ways through a block graph, and how many lead from its head to a block: for the head one, for any other block as
many as lead to the blocks before it, taken together. -/
namespace Vdag
open Relation

namespace Adjacency

structure Way (adjacency : Adjacency) (source sink : BlockId) (way : List BlockId) : Prop where
  first : way.head? = some source
  last : way.getLast? = some sink
  along : way.IsChain adjacency.Edge

variable {adjacency : Adjacency} {source sink : BlockId}

theorem wayAlone {block : BlockId} : adjacency.Way source sink [block] ↔ block = source ∧ block = sink :=
  ⟨fun way => ⟨by simpa using way.first, by simpa using way.last⟩,
    fun ⟨first, last⟩ => ⟨by simp [first], by simp [last], .singleton block⟩⟩

theorem Way.wayExtended {before : List BlockId} {parent : BlockId} (way : adjacency.Way source parent before)
    (edge : adjacency.Edge parent sink) : adjacency.Way source sink (before ++ [sink]) where
  first := by rw [List.head?_append, way.first]; rfl
  last := by simp
  along := by
    refine List.isChain_append.mpr ⟨way.along, .singleton sink, fun x last y own => ?_⟩
    rw [way.last, Option.mem_some_iff] at last
    rw [List.head?_cons, Option.mem_some_iff] at own
    exact last ▸ own ▸ edge

theorem wayIff {way : List BlockId} : adjacency.Way source sink way ↔
    way = [sink] ∧ sink = source ∨
      ∃ before parent, way = before ++ [sink] ∧ adjacency.Way source parent before ∧ adjacency.Edge parent sink := by
  constructor
  · intro given
    obtain ⟨before, rfl⟩ := List.getLast?_eq_some_iff.mp given.last
    cases parents : before.getLast? with
    | none =>
      rw [List.getLast?_eq_none_iff] at parents
      subst before
      exact .inl ⟨rfl, (wayAlone.mp given).1⟩
    | some parent =>
      obtain ⟨first, last, edges⟩ := List.isChain_append.mp given.along
      refine .inr ⟨before, parent, rfl, ⟨?_, parents, first⟩, edges parent parents sink rfl⟩
      have start := given.first
      rw [List.head?_append] at start
      cases before with
      | nil => cases parents
      | cons block rest => exact start
  · rintro (⟨rfl, rfl⟩ | ⟨before, parent, rfl, way, edge⟩)
    · exact wayAlone.mpr ⟨rfl, rfl⟩
    · exact way.wayExtended edge

end Adjacency

namespace BlockGraph
open Adjacency

def parents (graph : BlockGraph) (block : BlockId) : Finset BlockId :=
  graph.blocks.toFinset.filter (fun parent => block ∈ graph.adjacency.targets parent)

noncomputable def ways (graph : BlockGraph) (block : BlockId) : Nat :=
  {way | graph.adjacency.Way graph.head block way}.ncard

theorem memParents {graph : BlockGraph} {parent block : BlockId} :
    parent ∈ graph.parents block ↔ graph.adjacency.Edge parent block := by
  rw [parents, Finset.mem_filter, List.mem_toFinset]
  exact ⟨And.right, fun edge => ⟨edgeSource edge, edge⟩⟩

theorem waysSplit (graph : BlockGraph) (block : BlockId) : {way | graph.adjacency.Way graph.head block way} =
    (if block = graph.head then {[block]} else ∅) ∪
      ⋃ parent ∈ (graph.parents block : Set BlockId),
        (· ++ [block]) '' {way | graph.adjacency.Way graph.head parent way} := by
  ext way
  rw [Set.mem_union, Set.mem_iUnion₂, Set.mem_ofPred_eq, wayIff]
  refine or_congr ?_ ⟨?_, ?_⟩
  · split <;> simp [*]
  · rintro ⟨before, parent, rfl, shorter, edge⟩
    exact ⟨parent, memParents.mpr edge, before, shorter, rfl⟩
  · rintro ⟨parent, edge, before, shorter, rfl⟩
    exact ⟨before, parent, rfl, shorter, memParents.mp edge⟩

namespace RootedDag

variable {graph : BlockGraph} (rooted : RootedDag graph)
include rooted

theorem edgesGrounded (block : BlockId) : Acc graph.adjacency.Edge block := acyclicGrounded rooted.acyclic block

theorem waysFinite (block : BlockId) : {way | graph.adjacency.Way graph.head block way}.Finite := by
  induction rooted.edgesGrounded block with
  | intro block _ ih =>
    rw [waysSplit]
    refine Set.Finite.union (by split <;> simp) (Set.Finite.biUnion (Finset.finite_toSet _) (fun parent edge => ?_))
    exact (ih parent (memParents.mp edge)).image _

theorem headParents : graph.parents graph.head = ∅ :=
  Finset.eq_empty_of_forall_notMem (fun parent edge => ((rooted.head _).mp rfl).2 parent (memParents.mp edge))

theorem waysStep (block : BlockId) :
    graph.ways block = (if block = graph.head then 1 else 0) + ∑ parent ∈ graph.parents block, graph.ways parent := by
  rw [ways, waysSplit]
  by_cases start : block = graph.head
  · subst start
    rw [if_pos rfl, if_pos rfl, rooted.headParents]
    simp
  · have apart : (graph.parents block : Set BlockId).PairwiseDisjoint
        (fun parent => (· ++ [block]) '' {way | graph.adjacency.Way graph.head parent way}) := by
      refine fun a _ b _ ne => Set.disjoint_left.mpr ?_
      rintro _ ⟨way, first, rfl⟩ ⟨other, second, same⟩
      cases List.append_cancel_right same
      exact ne (Option.some.inj (first.last.symm.trans second.last))
    rw [if_neg start, if_neg start, Set.empty_union, Nat.zero_add, (Finset.finite_toSet _).ncard_biUnion
      (fun parent _ => (rooted.waysFinite parent).image _) apart, finsum_mem_coe_finset]
    exact Finset.sum_congr rfl (fun parent _ => Set.ncard_image_of_injective _ (List.append_left_injective [block]))

theorem boundedByWays {f : BlockId → Nat} (each : ∀ block ∈ graph.blocks,
      f block ≤ (if block = graph.head then 1 else 0) + ∑ parent ∈ graph.parents block, f parent) :
    ∀ block ∈ graph.blocks, f block ≤ graph.ways block := by
  intro block
  induction rooted.edgesGrounded block with
  | intro block _ ih =>
    intro member
    refine (each block member).trans ?_
    rw [rooted.waysStep block]
    refine Nat.add_le_add_left (Finset.sum_le_sum (fun parent edge => ?_)) _
    exact ih parent (memParents.mp edge) (edgeSource (memParents.mp edge))

theorem equalsWays {f : BlockId → Nat} (each : ∀ block ∈ graph.blocks,
      f block = (if block = graph.head then 1 else 0) + ∑ parent ∈ graph.parents block, f parent) :
    ∀ block ∈ graph.blocks, f block = graph.ways block := by
  intro block
  induction rooted.edgesGrounded block with
  | intro block _ ih =>
    intro member
    rw [each block member, rooted.waysStep block]
    refine congrArg (_ + ·) (Finset.sum_congr rfl (fun parent edge => ?_))
    exact ih parent (memParents.mp edge) (edgeSource (memParents.mp edge))

end RootedDag

end BlockGraph

end Vdag
