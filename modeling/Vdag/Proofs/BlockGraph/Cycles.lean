import Mathlib.Data.Fintype.EquivFin
import Mathlib.Data.Fintype.Sets
import Mathlib.Order.WellFounded
import Vdag.Proofs.BlockGraph.Edges

/-! Cycles of an adjacency map. A block that every way backwards from ends somewhere is one that no cycle leads to. -/
namespace Vdag.Adjacency
open Relation

def Stuck (adjacency : Adjacency) (block : BlockId) : Prop :=
  ∃ cyclic, TransGen adjacency.Edge cyclic cyclic ∧ ReflTransGen adjacency.Edge cyclic block

variable {adjacency : Adjacency} {block : BlockId}

theorem Stuck.stuckEntered (stuck : adjacency.Stuck block) : ∃ source, adjacency.Edge source block := by
  obtain ⟨cyclic, cycle, way⟩ := stuck
  obtain ⟨source, _, edge⟩ := TransGen.tail'_iff.mp (cycle.trans_left way)
  exact ⟨source, edge⟩

theorem groundedAcyclic {α : Type} {r : α → α → Prop} {a : α} (grounded : Acc r a) : ¬ TransGen r a a := by
  intro cycle
  induction Acc.transGen grounded with
  | intro a _ ih => exact ih a cycle grounded cycle

/- There are finitely many blocks, so a way backwards that never ends comes back to where it was. -/
theorem groundedIff : Acc adjacency.Edge block ↔ ¬ adjacency.Stuck block := by
  constructor
  · intro grounded stuck
    obtain ⟨cyclic, cycle, way⟩ := stuck
    rcases reflTransGen_iff_eq_or_transGen.mp way with rfl | way
    · exact groundedAcyclic grounded cycle
    · exact groundedAcyclic (grounded.inv_of_transGen way) cycle
  · intro free
    let Earlier (a b : {source // source ∈ adjacency.keys}) : Prop :=
      TransGen adjacency.Edge a.1 b.1 ∧ ReflTransGen adjacency.Edge b.1 block
    have : IsTrans _ Earlier := ⟨fun a b c ab bc => ⟨ab.1.trans bc.1, bc.2⟩⟩
    have : Std.Irrefl Earlier := ⟨fun a given => free ⟨a.1, given.1, given.2⟩⟩
    have ends : WellFounded Earlier := Finite.wellFounded_of_trans_of_irrefl Earlier
    have before : ∀ source : {source // source ∈ adjacency.keys},
        ReflTransGen adjacency.Edge source.1 block → Acc adjacency.Edge source.1 := by
      intro source
      induction source using ends.induction with
      | _ source ih =>
        intro way
        exact Acc.intro source.1 (fun earlier edge =>
          ih ⟨earlier, edgeSource edge⟩ ⟨.single edge, way⟩ (.head edge way))
    exact Acc.intro block (fun source edge => before ⟨source, edgeSource edge⟩ (.single edge))

theorem acyclicGrounded (acyclic : ∀ block, ¬ TransGen adjacency.Edge block block) (block : BlockId) :
    Acc adjacency.Edge block :=
  groundedIff.mpr (fun stuck => stuck.elim (fun cyclic given => acyclic cyclic given.1))

theorem groundedIffAcyclic :
    (∀ block ∈ adjacency.keys, Acc adjacency.Edge block) ↔ ∀ block, ¬ TransGen adjacency.Edge block block := by
  constructor
  · intro grounded block cycle
    obtain ⟨next, edge, _⟩ := TransGen.head'_iff.mp cycle
    exact groundedAcyclic (grounded block (edgeSource edge)) cycle
  · exact fun acyclic block _ => acyclicGrounded acyclic block

end Vdag.Adjacency
