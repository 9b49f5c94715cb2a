import Vdag.Definition
import Vdag.Proofs.Text

/-! Names of vDAGs as their URIs have them. Two vDAGs share a URI where one is the other read another way: a colon of
one name stands for the one behind the other name, or a hyphen of one version for the one behind the other version. -/
namespace Vdag

def Version.text (v : Version) : String := v.version ++ "-" ++ v.releaseTag

/- The later version goes on to a hyphen that is in the release tag of the other. -/
def Version.MistakenFor (v w : Version) : Prop :=
  ∃ more, w.version = v.version ++ "-" ++ more ∧ v.releaseTag = more ++ "-" ++ w.releaseTag

theorem Version.textShared {v w : Version} : v.text = w.text ↔ v = w ∨ v.MistakenFor w ∨ w.MistakenFor v := by
  have whole : v = w ↔ v.version = w.version ∧ v.releaseTag = w.releaseTag := by
    obtain ⟨version, releaseTag⟩ := v
    obtain ⟨version', releaseTag'⟩ := w
    exact Version.mk.injEq _ _ _ _ ▸ Iff.rfl
  rw [text, text, Text.textCutTwice rfl, whole]
  rfl

namespace Definition

def MistakenFor (vdag other : Definition) : Prop :=
  (∃ more, other.name = vdag.name ++ ":" ++ more ∧ vdag.version.text = more ++ ":" ++ other.version.text) ∨
    other.name = vdag.name ∧ vdag.version.MistakenFor other.version

theorem uriSome {vdag : Definition} {uri : VdagUri} : vdag.uri? = some uri ↔
    (vdag.name ≠ "" ∧ vdag.version.version ≠ "" ∧ vdag.version.releaseTag ≠ "") ∧
      uri = ⟨vdag.name ++ ":" ++ vdag.version.text⟩ := by
  rw [uri?, Id.ofNonEmptySome, uriText, Vdag.uriText]
  split
  · rename_i missing
    simp only [Bool.or_eq_true, String.isEmpty_iff] at missing
    simp only [ne_eq, not_true_eq_false, false_and, false_iff, not_and]
    intro given
    rcases missing with (none | none) | none
    · exact absurd none given.1
    · exact absurd none given.2.1
    · exact absurd none given.2.2
  · rename_i complete
    simp only [Bool.or_eq_true, String.isEmpty_iff, not_or] at complete
    have text : vdag.name ++ ":" ++ vdag.version.version ++ "-" ++ vdag.version.releaseTag =
        vdag.name ++ ":" ++ vdag.version.text := by
      rw [Version.text, ← String.append_assoc, ← String.append_assoc]
    have filled : vdag.name ++ ":" ++ vdag.version.text ≠ "" := by simp
    rw [text]
    exact ⟨fun given => ⟨⟨complete.1.1, complete.1.2, complete.2⟩, given.2⟩, fun given => ⟨filled, given.2⟩⟩

theorem plainNotMistaken {vdag other : Definition} (name : ':' ∉ other.name.toList)
    (version : '-' ∉ other.version.version.toList) : ¬ vdag.MistakenFor other := by
  intro mistaken
  rcases mistaken with ⟨more, longer, _⟩ | ⟨_, more, longer, _⟩
  · exact name (by simp [longer])
  · exact version (by simp [longer])

theorem uriShared {vdag other : Definition} {uri otherUri : VdagUri} (named : vdag.uri? = some uri)
    (otherNamed : other.uri? = some otherUri) (different : ¬ (vdag.name = other.name ∧ vdag.version = other.version)) :
    uri = otherUri ↔ vdag.MistakenFor other ∨ other.MistakenFor vdag := by
  obtain ⟨_, rfl⟩ := uriSome.mp named
  obtain ⟨_, rfl⟩ := uriSome.mp otherNamed
  rw [Id.mk.injEq, Text.textCutTwice rfl, Version.textShared, MistakenFor, MistakenFor]
  constructor
  · intro given
    rcases given with ⟨name, same | first | second⟩ | given | given
    · exact absurd ⟨name, same⟩ different
    · exact .inl (.inr ⟨name.symm, first⟩)
    · exact .inr (.inr ⟨name, second⟩)
    · exact .inl (.inl given)
    · exact .inr (.inl given)
  · intro given
    rcases given with (given | ⟨name, first⟩) | (given | ⟨name, second⟩)
    · exact .inr (.inl given)
    · exact .inl ⟨name.symm, .inr (.inl first)⟩
    · exact .inr (.inr given)
    · exact .inl ⟨name, .inr (.inr second)⟩

end Definition

end Vdag
