import Vdag.Proofs.Assignment
import Vdag.Proofs.Document.NormalForm
import Vdag.Proofs.Registry.DryRun

/-! What a mapped vDAG is once its document was stored and read again: itself, exactly when no block id of its
assignment begins like the text of an embedded vDAG. -/
namespace Vdag
open Vdag.Action

def Target.Legible : Target → Prop
  | .block id => Text.dropFront? vdagMark id.text = none
  | .embedded _ => True

instance : (target : Target) → Decidable target.Legible
  | .block id => inferInstanceAs (Decidable (Text.dropFront? vdagMark id.text = none))
  | .embedded _ => .isTrue trivial

theorem Target.rereadIffLegible {target : Target} : ofText target.text = target ↔ target.Legible := by
  cases target with
  | block id =>
    rw [Legible, text, ofText]
    cases Text.dropFront? vdagMark id.text <;> simp
  | embedded uri =>
    rw [text, ofText, Text.dropFrontIff.mpr rfl]
    exact ⟨fun _ => trivial, fun _ => rfl⟩

theorem Assignment.rereadIffLegible {assignment : Assignment} :
    ofTexts assignment.texts = assignment ↔ ∀ entry ∈ assignment.entries, entry.2.Legible := by
  have listed : ofTexts assignment.texts = assignment.mapValues (fun target => Target.ofText target.text) :=
    SortedMap.ofListRelisted assignment Id.text (fun label => (⟨label⟩ : NodeLabel)) Target.text Target.ofText
      (fun _ _ => rfl)
  rw [listed, SortedMap.mapValuesSame]
  exact forall₂_congr (fun _ _ => Target.rereadIffLegible)

theorem CompiledGraph.legibleReread {assignment : Assignment} {compiled : CompiledGraph}
    (reversed : assignment.reverse = .ok compiled.labels) (legible : ∀ entry ∈ assignment.entries, entry.2.Legible) :
    ofDocument compiled.toDocument = compiled := by
  have named : ∀ entry ∈ compiled.labels.entries, Target.ofText entry.1.text = entry.1 := by
    intro entry member
    have assigned := (Assignment.reverseOk reversed _ _).mp ((SortedMap.findSomeIff compiled.labels).mpr member)
    exact Target.rereadIffLegible.mpr (legible _ ((SortedMap.findSomeIff assignment).mp assigned))
  have labels : (ofDocument compiled.toDocument).labels = compiled.labels :=
    (SortedMap.ofListRelisted compiled.labels Target.text Target.ofText Id.text (fun label => (⟨label⟩ : NodeLabel))
    named).trans
      (SortedMap.mapValuesSame.mpr (fun _ _ => rfl))
  rw [CompiledGraph.ofDocumentToDocument, labels]

namespace Processor

variable {σ : Type} {p : Processor (StateM σ)} {vdag stored : Definition} {before after : σ}

theorem mappedRecord (ok : on (p.mapToBlocks vdag) before = (.ok stored, after)) :
    ∃ assignment compiled, stored = recordOf vdag (.ok (assignment, compiled)) ∧
      assignment.reverse = .ok compiled.labels := by
  rw [mapToBlocksClaims] at ok
  obtain ⟨_, _, _, ok⟩ := onBindOk.mp ok
  obtain ⟨uri, _, _, ok⟩ := onBindOk.mp ok
  obtain ⟨_, _, _, ok⟩ := onBindOk.mp ok
  obtain ⟨planned, _, plan, ok⟩ := onBindOk.mp ok
  obtain ⟨_, _, _, ok⟩ := onBindOk.mp ok
  obtain ⟨⟨assignment, compiled⟩, _, fine, ok⟩ := onBindOk.mp ok
  obtain ⟨_, _, _, last⟩ := onBindOk.mp ok
  cases last
  obtain ⟨rfl, rfl⟩ := Prod.mk.inj fine
  obtain ⟨_, _, steps⟩ := planSteps (Prod.ext (Except.ok.inj (congrArg Prod.fst plan)) rfl)
  exact ⟨assignment, compiled, rfl, steps.reversed⟩

/- Whatever a vDAG was read from and whoever was asked about it: its record, written and read, is the record again
exactly where every block id can be told from an embedded vDAG. -/
theorem recordSurvives {d : VdagDocument} (read : Definition.ofDocument d = .ok vdag)
    (mapped : (on (p.mapToBlocks vdag) before).1 = .ok stored) :
    ∃ again, Definition.ofDocument stored.toDocument = .ok again ∧
      (again = stored ↔ ∀ entry ∈ stored.assignment.entries, entry.2.Legible) := by
  obtain ⟨assignment, compiled, rfl, reversed⟩ := mappedRecord (Prod.ext mapped rfl)
  have again := Definition.sourceToDocument (Definition.sourceIff.mp read) (recordOf vdag (.ok (assignment, compiled)))
    rfl
  refine ⟨_, Definition.sourceIff.mpr again, fun same => ?_, fun legible => ?_⟩
  · exact Assignment.rereadIffLegible.mp (congrArg Definition.assignment same)
  · have legible : ∀ entry ∈ assignment.entries, entry.2.Legible := legible
    have targets := Assignment.rereadIffLegible.mpr legible
    have graph := CompiledGraph.legibleReread reversed legible
    simp only [recordOf, Option.map_some, targets, graph]

end Processor

namespace Surroundings

theorem sampleSurvives : ∃ stored again, Definition.ofDocument sampleTop.toDocument = .ok sampleTop ∧
    (on (sampleOutside.processor.mapToBlocks sampleTop) (sampleRecords, ())).1 = .ok stored ∧
    Definition.ofDocument stored.toDocument = .ok again ∧
    (again = stored ↔ ∀ entry ∈ stored.assignment.entries, entry.2.Legible) := by
  have read : Definition.ofDocument sampleTop.toDocument = .ok sampleTop := by decide +kernel
  have maps : (on (sampleOutside.processor.mapToBlocks sampleTop) (sampleRecords, ())).1.toOption.isSome = true := by
    decide +kernel
  cases mapped : (on (sampleOutside.processor.mapToBlocks sampleTop) (sampleRecords, ())).1 with
  | error failure =>
    rw [mapped] at maps
    cases maps
  | ok stored =>
    obtain ⟨again, reread, same⟩ := Processor.recordSurvives read mapped
    exact ⟨stored, again, read, rfl, reread, same⟩

def sampleMasked : Definition := { sampleTop with nodes := [
  ⟨⟨"A"⟩, .block, none, none, none, none, some ⟨"vdag:::leaf:1-a"⟩, ⟨.empty, .empty, .empty, []⟩⟩,
  ⟨⟨"S"⟩, .vdag, some ⟨"leaf:1-a"⟩, none, none, none, none, ⟨.empty, .empty, .empty, []⟩⟩] }

/- Read again, the block is the vDAG: it has no label, and of two labels one is left. -/
theorem maskedLost : Definition.ofDocument sampleMasked.toDocument = .ok sampleMasked ∧
    ∃ stored ∈ (on (sampleOutside.processor.mapToBlocks sampleMasked) (sampleRecords, ())).1.toOption,
      ∃ again ∈ (Definition.ofDocument stored.toDocument).toOption, again ≠ stored ∧
        stored.compiled.bind (·.labelOf? ⟨"vdag:::leaf:1-a"⟩) = some ⟨"A"⟩ ∧
        again.compiled.bind (·.labelOf? ⟨"vdag:::leaf:1-a"⟩) = none ∧
        stored.compiled.map (·.labels.values) = some [⟨"A"⟩, ⟨"S"⟩] ∧
        again.compiled.map (·.labels.values) = some [⟨"S"⟩] := by
  decide +kernel

end Surroundings

end Vdag
