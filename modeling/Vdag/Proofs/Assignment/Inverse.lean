import Mathlib.Data.Prod.Basic
import Vdag.CompiledGraph
import Vdag.Proofs.Assignment

/-! Which assignments have an inverse, what the inverse says of labels and blocks, and which two labels stand in the
way where there is none. -/
namespace Vdag.Assignment
open KeyOrder

def Distinct (assignment : Assignment) : Prop :=
  ∀ a b target, assignment.find? a = some target → assignment.find? b = some target → a = b

structure Inverse (assignment : Assignment) (inverse : ReverseAssignment) : Prop where
  entries : ∀ label target, assignment.find? label = some target ↔ inverse.find? target = some label
  size : inverse.size = assignment.size
  labels : ∀ compiled : CompiledGraph, compiled.labels = inverse → ∀ block label,
    compiled.labelOf? block = some label ↔ assignment.find? label = some (.block block)
  unlabelled : ∀ compiled : CompiledGraph, compiled.labels = inverse → ∀ block,
    compiled.labelOf? block = none ↔ ∀ label, assignment.find? label ≠ some (.block block)
  noEmbedding : ∀ compiled : CompiledGraph, compiled.labels = inverse → ∀ block label,
    compiled.labelOf? block = some label → ∀ uri, assignment.find? label ≠ some (.embedded uri)

structure Clash (assignment : Assignment) (first second : NodeLabel) (target : Target) : Prop where
  different : first ≠ second
  order : Before first second
  former : assignment.find? first = some target
  latter : assignment.find? second = some target
  apart : ∀ a b shared, Before a second → Before b second → assignment.find? a = some shared →
    assignment.find? b = some shared → a = b

variable {assignment : Assignment} {inverse : ReverseAssignment}

theorem reversePerm (ok : assignment.reverse = .ok inverse) :
    inverse.entries.Perm (assignment.entries.map Prod.swap) := by
  have distinct : ∀ {κ ν : Type} [KeyOrder κ] (map : SortedMap κ ν), map.entries.Nodup :=
    fun map => (SortedMap.keysNodup map).of_map Prod.fst
  refine (List.perm_ext_iff_of_nodup (distinct inverse)
    ((distinct assignment).map Prod.swap_injective)).mpr (fun entry => ?_)
  obtain ⟨target, label⟩ := entry
  rw [← SortedMap.findSomeIff, reverseOk ok, SortedMap.findSomeIff, List.mem_map]
  constructor
  · intro member
    exact ⟨(label, target), member, rfl⟩
  · rintro ⟨entry, member, same⟩
    cases same
    exact member

theorem reverseInverse (ok : assignment.reverse = .ok inverse) : assignment.Inverse inverse := by
  have labels : ∀ compiled : CompiledGraph, compiled.labels = inverse → ∀ block label,
      compiled.labelOf? block = some label ↔ assignment.find? label = some (.block block) := by
    rintro compiled rfl block label
    exact reverseOk ok (.block block) label
  refine ⟨fun label target => (reverseOk ok target label).symm, ?_, labels, ?_, ?_⟩
  · rw [SortedMap.size, (reversePerm ok).length_eq, List.length_map, SortedMap.size]
  · intro compiled carried block
    rw [Option.eq_none_iff_forall_ne_some]
    exact forall_congr' (fun label => not_congr (labels compiled carried block label))
  · intro compiled carried block label named uri embedded
    have assigned := (labels compiled carried block label).mp named
    cases embedded.symm.trans assigned

theorem reverseClash {failure : Failure} (failed : assignment.reverse = .error failure) :
    ∃ first second target,
      failure = .definition (.sharedTarget first second target) ∧ assignment.Clash first second target := by
  obtain ⟨before, ⟨second, target⟩, after, reached, split, ok, stopped⟩ := Outcome.foldlMStops failed
  have known : ∀ target label, reached.find? target = some label ↔ (label, target) ∈ before := fun target label => by
    simpa using reverseEntriesOk ok target label
  have ascending := assignment.ascending
  rw [split] at ascending
  obtain ⟨_, later, across⟩ := List.pairwise_append.mp ascending
  obtain ⟨behind, _⟩ := List.pairwise_cons.mp later
  have member : ∀ {label target}, (label, target) ∈ before → assignment.find? label = some target := fun within =>
    (SortedMap.findSomeIff assignment).mpr (split ▸ List.mem_append_left _ within)
  -- The labels stand in ascending order, so that all that come before the second have been inserted.
  have earlier : ∀ {label target}, Before label second → assignment.find? label = some target →
      reached.find? target = some label := by
    intro label target ahead assigned
    have listed := (SortedMap.findSomeIff assignment).mp assigned
    rw [split, List.mem_append, List.mem_cons] at listed
    rcases listed with within | same | past
    · exact (known _ _).mpr within
    · cases same
      exact absurd ahead (KeyOrder.irrefl _)
    · exact absurd ahead (KeyOrder.asymm (behind _ past))
  rw [reverseEntry] at stopped
  cases found : reached.find? target with
  | none => simp [found] at stopped
  | some first =>
    have within := (known _ _).mp found
    have order : Before first second := across _ within _ List.mem_cons_self
    simp only [found, Except.error.injEq] at stopped
    refine ⟨first, second, target, stopped.symm, neOfBefore order, order, member within, ?_, ?_⟩
    · exact (SortedMap.findSomeIff assignment).mpr (split ▸ List.mem_append_right _ List.mem_cons_self)
    · intro a b shared aheadA aheadB assignedA assignedB
      exact Option.some.inj ((earlier aheadA assignedA).symm.trans (earlier aheadB assignedB))

theorem reversesExactly (assignment : Assignment) :
    ((∃ inverse, assignment.reverse = .ok inverse) ↔ assignment.Distinct) ∧
      (∀ inverse, assignment.reverse = .ok inverse → assignment.Inverse inverse) ∧
      ∀ failure, assignment.reverse = .error failure → ∃ first second target,
        failure = .definition (.sharedTarget first second target) ∧ assignment.Clash first second target := by
  refine ⟨⟨?_, ?_⟩, fun _ => reverseInverse, fun _ => reverseClash⟩
  · rintro ⟨inverse, ok⟩ a b target
    exact reverseInjective ok
  · intro distinct
    cases reversed : assignment.reverse with
    | ok inverse => exact ⟨inverse, rfl⟩
    | error failure =>
      obtain ⟨first, second, target, _, clash⟩ := reverseClash reversed
      exact absurd (distinct _ _ _ clash.former clash.latter) clash.different

example :
    (Assignment.reverse (.ofList [(⟨"A"⟩, .embedded ⟨"x"⟩), (⟨"B"⟩, .block ⟨"x"⟩)])).map SortedMap.entries =
      .ok [(.block ⟨"x"⟩, ⟨"B"⟩), (.embedded ⟨"x"⟩, ⟨"A"⟩)] := by decide +kernel

end Vdag.Assignment
