import Vdag.Assignment.Resolution
import Vdag.Proofs.Effects
import Vdag.Proofs.Outcome
import Vdag.Proofs.SortedMap

/-! Assignments: which labels resolving gives a target, and what their inverse is. -/
namespace Vdag.Assignment
open Vdag.Action

theorem reverseEntriesOk {entries : List (NodeLabel × Target)} {before after : ReverseAssignment}
    (ok : entries.foldlM reverseEntry before = .ok after) (target : Target) (label : NodeLabel) :
    after.find? target = some label ↔ before.find? target = some label ∨ (label, target) ∈ entries := by
  induction entries generalizing before with
  | nil => cases ok; simp
  | cons entry rest ih =>
    obtain ⟨next, first, later⟩ := Outcome.foldlMConsOk.mp ok
    unfold reverseEntry at first
    cases found : before.find? entry.2 with
    | some other => simp [found] at first
    | none =>
      simp only [found] at first
      cases first
      rw [ih later, SortedMap.findInsert, List.mem_cons, ← or_assoc, Prod.ext_iff]
      by_cases same : target = entry.2
      · subst target
        simp [found, eq_comm]
      · simp [same]

theorem reverseOk {assignment : Assignment} {inverse : ReverseAssignment} (ok : assignment.reverse = .ok inverse)
    (target : Target) (label : NodeLabel) :
    inverse.find? target = some label ↔ assignment.find? label = some target := by
  rw [reverseEntriesOk ok, SortedMap.findSomeIff assignment]
  simp

theorem reverseInjective {assignment : Assignment} {inverse : ReverseAssignment} (ok : assignment.reverse = .ok inverse)
    {a b : NodeLabel} {target : Target} (first : assignment.find? a = some target)
    (second : assignment.find? b = some target) : a = b := by
  rw [← reverseOk ok] at first second
  exact Option.some.inj (first.symm.trans second)

theorem resolvedLabels {σ : Type} {policy : SearchPolicy (StateM σ)} {vdag : String} {nodes : List Node}
    {found assignment : Assignment} {s : σ}
    (ok : (on (resolveNodes policy vdag nodes found) s).1 = .ok assignment) (label : NodeLabel) :
    (assignment.find? label).isSome ↔ (found.find? label).isSome ∨ label ∈ nodes.map (·.label) := by
  induction nodes generalizing found s with
  | nil => cases ok; simp
  | cons node rest ih =>
    rw [resolveNodes, onBind] at ok
    rcases ran : on (target policy vdag node) s with ⟨_ | target, after⟩
    · rw [ran] at ok
      cases ok
    · rw [ran] at ok
      rw [ih ok, SortedMap.findInsert, List.map_cons, List.mem_cons]
      by_cases same : label = node.label <;> simp [same]

end Vdag.Assignment
