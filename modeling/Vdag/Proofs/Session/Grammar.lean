import Mathlib.Logic.Function.Basic
import Vdag.Proofs.Session

/-! The grammar of session ids: the mark, a URI, the first separator behind the mark, and a session with no other in it.
An id that begins with the mark and is spelled in no such way is refused; one that does not is a session of nobody. -/
namespace Vdag

namespace Text

variable {text mark front before after : String}

theorem toListSurjective : Function.Surjective String.toList := fun list => ⟨.ofList list, String.toList_ofList⟩

theorem textAroundIff : text = before ++ mark ++ after ↔
    text.toList = before.toList ++ mark.toList ++ after.toList := by
  rw [← String.toList_inj, String.toList_append, String.toList_append]

theorem containsIff : contains text mark = true ↔ ∃ before after, text = before ++ mark ++ after := by
  rw [contains, occursIff, toListSurjective.exists₂]
  simp only [textAroundIff]

theorem heraldsText : Heralds mark.toList front.toList ↔
    ∀ before after : String, front ++ mark = before ++ mark ++ after → before = front := by
  rw [Heralds, toListSurjective.forall₂]
  refine forall₂_congr (fun before after => ?_)
  rw [textAroundIff, String.toList_append]
  refine imp_congr_right (fun same => ⟨fun none => ?_, fun own => ?_⟩)
  · rw [none, List.append_nil] at same
    exact String.toList_inj.mp (List.append_cancel_right same).symm
  · rw [own, List.append_assoc, List.append_right_inj] at same
    exact List.append_right_eq_self.mp same.symm

end Text

namespace Session

structure Spells (id : String) (uri : VdagUri) (session : String) : Prop where
  whole : id = vdagMark ++ uri.text ++ separator ++ session
  named : uri.text ≠ ""
  present : session ≠ ""
  single : ∀ before after, session ≠ before ++ separator ++ after
  first : ∀ before after, uri.text ++ separator = before ++ separator ++ after → before = uri.text

def Marked (id : String) : Prop := ∃ rest, id = vdagMark ++ rest

variable {id : String}

theorem unmarkedIff : Text.dropFront? vdagMark id = none ↔ ¬ Marked id := by
  rw [Option.eq_none_iff_forall_not_mem, Marked, not_exists]
  exact forall_congr' (fun rest => not_congr Text.dropFrontIff)

theorem parsePlainIff {other : String} : parse id = .ok (.plain other) ↔ other = id ∧ ¬ Marked id := by
  constructor
  · intro parsed
    have unmarked : ¬ Marked id := by
      intro marked
      obtain ⟨rest, rfl⟩ := marked
      obtain ⟨_, _, same⟩ := parseMarkedOk parsed
      cases same
    rw [parsePlain (unmarkedIff.mpr unmarked)] at parsed
    cases parsed
    exact ⟨rfl, unmarked⟩
  · intro given
    obtain ⟨rfl, unmarked⟩ := given
    exact parsePlain (unmarkedIff.mpr unmarked)

theorem parseGovernedIff {uri : VdagUri} {session : String} : parse id = .ok (.governed uri session) ↔
    Spells id uri session := by
  have alone : Text.contains session separator = false ↔ ∀ before after, session ≠ before ++ separator ++ after := by
    rw [← Bool.not_eq_true, Text.containsIff]
    simp only [not_exists]
  rw [parseGoverned, alone, Text.heraldsText]
  exact ⟨fun ⟨whole, named, present, single, first⟩ => ⟨whole, named, present, single, first⟩,
    fun spells => ⟨spells.whole, spells.named, spells.present, spells.single, spells.first⟩⟩

theorem parseText {found : Session} (parsed : parse id = .ok found) : found.text = id := by
  cases found with
  | plain other => exact (parsePlainIff.mp parsed).1
  | governed uri session => exact (parseGovernedIff.mp parsed).whole.symm

theorem parseRefused {failure : Failure} : parse id = .error failure ↔
    failure = .definition (.malformedSession id) ∧ Marked id ∧ ∀ uri session, ¬ Spells id uri session := by
  constructor
  · intro refused
    refine ⟨parseFails refused, ?_, fun uri session spells => ?_⟩
    · by_contra unmarked
      rw [parsePlain (unmarkedIff.mpr unmarked)] at refused
      cases refused
    · rw [parseGovernedIff.mpr spells] at refused
      cases refused
  · intro given
    obtain ⟨rfl, marked, unspelled⟩ := given
    cases parsed : parse id with
    | error failure => rw [parseFails parsed]
    | ok found =>
      cases found with
      | plain other => exact absurd marked (parsePlainIff.mp parsed).2
      | governed uri session => exact absurd (parseGovernedIff.mp parsed) (unspelled uri session)

/- What an id is read as. No two ways of spelling it exist, and what it is read as is written as it was. -/
structure Reads (id : String) (answer : Outcome Session) : Prop where
  plain : ∀ other, answer = .ok (.plain other) ↔ other = id ∧ ¬ Marked id
  governed : ∀ uri session, answer = .ok (.governed uri session) ↔ Spells id uri session
  unique : ∀ uri session uri' session', Spells id uri session → Spells id uri' session' → uri = uri' ∧
    session = session'
  refused : ∀ failure, answer = .error failure ↔
    failure = .definition (.malformedSession id) ∧ Marked id ∧ ∀ uri session, ¬ Spells id uri session
  kept : ∀ found, answer = .ok found → found.text = id

theorem idsReadExactly (id : String) : Reads id (parse id) where
  plain _ := parsePlainIff
  governed _ _ := parseGovernedIff
  unique _ _ _ _ spells spells' := by
    have same := (parseGovernedIff.mpr spells).symm.trans (parseGovernedIff.mpr spells')
    exact Session.governed.inj (Except.ok.inj same)
  refused _ := parseRefused
  kept _ := parseText

example : parse "vdag::::a:::::b" = .ok (.governed ⟨":a"⟩ "::b") ∧
    parse "vdag::::::b" = .error (.definition (.malformedSession "vdag::::::b")) := by decide +kernel

end Session

end Vdag
