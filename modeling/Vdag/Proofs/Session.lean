import Vdag.Definition
import Vdag.Proofs.Ingress
import Vdag.Proofs.Text

/-! Sessions as packets carry them. An id is put together from the URI of a vDAG and a session of its own, and taken
apart again at the first separator, which may stand in the URI already or begin at its end. -/
namespace Vdag

namespace Session

theorem parsePlain {id : String} (unmarked : Text.dropFront? vdagMark id = none) : parse id = .ok (.plain id) := by
  rw [parse, unmarked]

theorem parseMarked (rest : String) : parse (vdagMark ++ rest) =
    match Text.splitFirst? separator rest with
    | some (uri, session) =>
        if uri.isEmpty || session.isEmpty || Text.contains session separator then
          .error (.definition (.malformedSession (vdagMark ++ rest)))
        else .ok (.governed ⟨uri⟩ session)
    | none => .error (.definition (.malformedSession (vdagMark ++ rest))) := by
  have marked : Text.dropFront? vdagMark (vdagMark ++ rest) = some rest := Text.dropFrontIff.mpr rfl
  cases cut : Text.splitFirst? separator rest with
  | none => simp only [parse, marked, cut]
  | some parts =>
    obtain ⟨uri, session⟩ := parts
    simp only [parse, marked, cut]

def governedRest (uri : VdagUri) (session : String) : String := uri.text ++ separator ++ session

theorem governedText (uri : VdagUri) (session : String) :
    (governed uri session).text = vdagMark ++ governedRest uri session := by
  simp [text, governedRest, String.append_assoc]

theorem parseGoverned {id session : String} {uri : VdagUri} :
    parse id = .ok (.governed uri session) ↔ id = (governed uri session).text ∧ uri.text ≠ "" ∧ session ≠ "" ∧
      Text.contains session separator = false ∧ Text.Heralds separator.toList uri.text.toList := by
  rw [governedText]
  constructor
  · intro parsed
    cases marked : Text.dropFront? vdagMark id with
    | none =>
      rw [parsePlain marked] at parsed
      cases parsed
    | some rest =>
      obtain rfl := Text.dropFrontIff.mp marked
      rw [parseMarked] at parsed
      cases cut : Text.splitFirst? separator rest with
      | none => simp [cut] at parsed
      | some parts =>
        obtain ⟨front, last⟩ := parts
        obtain ⟨whole, heralds⟩ := Text.splitTextIff.mp cut
        simp only [cut] at parsed
        split at parsed
        · cases parsed
        · rename_i clear
          cases parsed
          simp only [Bool.or_eq_true, String.isEmpty_iff, not_or, Bool.not_eq_true] at clear
          exact ⟨congrArg (vdagMark ++ ·) whole, clear.1.1, clear.1.2, clear.2, heralds⟩
  · intro given
    obtain ⟨rfl, named, present, single, heralds⟩ := given
    have cut : Text.splitFirst? separator (governedRest uri session) = some (uri.text, session) :=
      Text.splitTextIff.mpr ⟨rfl, heralds⟩
    simp [parseMarked, cut, named, present, single]

theorem parseFails {id : String} {failure : Failure} (failed : parse id = .error failure) :
    failure = .definition (.malformedSession id) := by
  cases marked : Text.dropFront? vdagMark id with
  | none =>
    rw [parsePlain marked] at failed
    cases failed
  | some rest =>
    obtain rfl := Text.dropFrontIff.mp marked
    rw [parseMarked] at failed
    split at failed
    · split at failed
      · cases failed; rfl
      · cases failed
    · cases failed; rfl

theorem parseMarkedOk {rest : String} {found : Session} (parsed : parse (vdagMark ++ rest) = .ok found) :
    ∃ uri session, found = .governed uri session := by
  rw [parseMarked] at parsed
  split at parsed
  · split at parsed
    · cases parsed
    · cases parsed; exact ⟨_, _, rfl⟩
  · cases parsed

/- A URI that a session can follow: no separator stands in it, and none can begin at its end. -/
def Separable (uri : VdagUri) : Prop :=
  Text.contains uri.text separator = false ∧ uri.text.toList.getLast? ≠ some ':'

instance (uri : VdagUri) : Decidable (Separable uri) :=
  inferInstanceAs (Decidable (Text.contains uri.text separator = false ∧ uri.text.toList.getLast? ≠ some ':'))

theorem separatorColons : separator.toList = List.replicate 3 ':' := by decide

theorem separableHeralds {uri : VdagUri} : Separable uri ↔ Text.Heralds separator.toList uri.text.toList := by
  rw [Separable, Text.contains, separatorColons, Text.heraldsRepeated]

theorem parseGovernedText {uri : VdagUri} {session : String} {found : Session}
    (parsed : parse (governed uri session).text = .ok found) :
    ∃ front colons, uri.text = front ++ colons ∧ (∀ c ∈ colons.toList, c = ':') ∧
      found = .governed ⟨front⟩ (colons ++ session) ∧ Text.contains uri.text separator = false := by
  rw [governedText] at parsed
  obtain ⟨other, rest, rfl⟩ := parseMarkedOk parsed
  obtain ⟨same, _, _, single, heralds⟩ := parseGoverned.mp parsed
  rw [governedText, String.append_right_inj, governedRest, governedRest, ← String.toList_inj] at same
  simp only [String.toList_append] at same
  rw [Text.contains, separatorColons] at single
  rw [separatorColons] at same heralds
  obtain ⟨early, late, whole, left, longer, rest'⟩ := Text.cutEarlier same.symm heralds single
  refine ⟨other.text, .ofList early, ?_, ?_, ?_, ?_⟩
  · rw [← String.toList_inj, String.toList_append, String.toList_ofList, longer]
  · rw [String.toList_ofList]
    exact (Text.repeatedParts whole).1
  · rw [Session.governed.injEq, ← String.toList_inj, String.toList_append, String.toList_ofList]
    exact ⟨rfl, rest'⟩
  · rw [Text.contains, separatorColons, Bool.eq_false_iff]
    intro inside
    obtain ⟨before, after, within⟩ := Text.occursIff.mp inside
    have none := heralds before (after ++ late) (by
      conv => lhs; rw [whole]
      rw [← List.append_assoc, ← longer, within, List.append_assoc])
    exact left (List.append_eq_nil_iff.mp none).2

end Session

variable {vdag : Definition} {uri : VdagUri} {session : String}

/- The first packet of a session is governed by the vDAG it was started on where that vDAG's URI can be followed by a
session. Where a separator stands in the URI the packet is refused, and where the URI ends in colons it is refused or
taken for one of the vDAG without them. -/
theorem entryGoverned (named : vdag.uri? = some uri) (present : session ≠ "")
    (single : Text.contains session Session.separator = false) (compiled : CompiledGraph) (data : String)
    (sink : List Destination) (timestamp : Binary64) :
    (Session.parse (compiled.entry uri session data sink timestamp).packet.session = .ok (.governed uri session) ↔
      Session.Separable uri) ∧
    (Text.contains uri.text Session.separator = true →
      Session.parse (compiled.entry uri session data sink timestamp).packet.session =
        .error (.definition (.malformedSession (compiled.entry uri session data sink timestamp).packet.session))) ∧
    ∀ found, Session.parse (compiled.entry uri session data sink timestamp).packet.session = .ok found →
      ∃ front colons, uri.text = front ++ colons ∧ (∀ c ∈ colons.toList, c = ':') ∧
        found = .governed ⟨front⟩ (colons ++ session) := by
  have id : (compiled.entry uri session data sink timestamp).packet.session = (Session.governed uri session).text := rfl
  obtain ⟨filled, same⟩ := Id.ofNonEmptySome.mp named
  have whole : uri.text ≠ "" := same ▸ filled
  rw [id]
  refine ⟨?_, fun inside => ?_, fun found parsed => ?_⟩
  · rw [Session.parseGoverned, Session.separableHeralds]
    exact ⟨fun parsed => parsed.2.2.2.2, fun heralds => ⟨rfl, whole, present, single, heralds⟩⟩
  · cases parsed : Session.parse (Session.governed uri session).text with
    | error failure => rw [Session.parseFails parsed]
    | ok found =>
      obtain ⟨_, _, _, _, _, outside⟩ := Session.parseGovernedText parsed
      cases inside.symm.trans outside
  · obtain ⟨front, colons, longer, letters, same, _⟩ := Session.parseGovernedText parsed
    exact ⟨front, colons, longer, letters, same⟩

def sampleTagged (releaseTag : String) : Definition where
  name := "flow"
  version := ⟨"1", releaseTag⟩
  discoveryTags := []
  controller := .null
  nodes := []
  graph := .empty
  status := .assigned
  assignment := .empty
  compiled := some sampleCompiled

theorem sampleEntryGoverned :
    (sampleTagged "a:b").uri? = some ⟨"flow:1-a:b"⟩ ∧ ("::s" : String) ≠ "" ∧
      Text.contains "::s" Session.separator = false ∧
        Session.parse (sampleCompiled.entry ⟨"flow:1-a:b"⟩ "::s" "data" sampleSink ⟨0⟩).packet.session =
          .ok (.governed ⟨"flow:1-a:b"⟩ "::s") := by
  have named : (sampleTagged "a:b").uri? = some ⟨"flow:1-a:b"⟩ := by decide +kernel
  have present : ("::s" : String) ≠ "" := by decide
  have single : Text.contains "::s" Session.separator = false := by decide +kernel
  exact ⟨named, present, single,
    (entryGoverned named present single sampleCompiled "data" sampleSink ⟨0⟩).1.mpr (by decide +kernel)⟩

theorem colonMisleads :
    (sampleTagged "a:").uri? = some ⟨"flow:1-a:"⟩ ∧ (sampleTagged "a").uri? = some ⟨"flow:1-a"⟩ ∧
      Text.contains "s-1" Session.separator = false ∧
        Session.parse (sampleCompiled.entry ⟨"flow:1-a:"⟩ "s-1" "data" sampleSink ⟨0⟩).packet.session =
          .ok (.governed ⟨"flow:1-a"⟩ ":s-1") := by
  decide +kernel

end Vdag
