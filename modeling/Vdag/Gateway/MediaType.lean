/-! Media types of request bodies: a type, a subtype with perhaps a suffix, and parameters. -/
namespace Vdag

structure MediaType where
  category : String
  subtype : String
  suffix : Option String
  deriving DecidableEq, Repr

namespace MediaType

def isTokenChar (c : Char) : Bool :=
  c.isAlphanum || ['!', '#', '$', '%', '&', '\'', '*', '+', '-', '.', '^', '_', '\x60', '|', '~'].contains c

inductive ParameterState where
  | name (begun : Bool)
  | value (begun : Bool)
  | quoted (begun : Bool)
  | afterQuoted
  | wrong

def ParameterState.next : ParameterState → Char → ParameterState
  | .name begun, c =>
      if c = ' ' ∧ !begun then .name false
      else if c = '=' ∧ begun then .value false
      else if isTokenChar c then .name true
      else .wrong
  | .value begun, c =>
      if c = '"' ∧ !begun then .quoted false
      else if c = ';' ∧ begun then .name false
      else if isTokenChar c then .value true
      else .wrong
  | .quoted begun, c =>
      if c = '"' ∧ begun then .afterQuoted
      else if c.toNat < 32 ∨ 127 ≤ c.toNat then .wrong
      else .quoted true
  | .afterQuoted, c => if c = ';' then .name false else if c = ' ' then .afterQuoted else .wrong
  | .wrong, _ => .wrong

def ParameterState.mayEnd : ParameterState → Bool
  | .name begun => !begun
  | .value _ | .afterQuoted => true
  | .quoted _ | .wrong => false

def hasGoodParameters (parameters : List Char) : Bool :=
  (parameters.foldl ParameterState.next (.name false)).mayEnd

def lower (chars : List Char) : String := String.ofList (chars.map Char.toLower)

def ofParts (category subtype : List Char) : MediaType :=
  let tail := (subtype.reverse.takeWhile (· ≠ '+')).reverse
  let front := subtype.take (subtype.length - tail.length - 1)
  if front.isEmpty then ⟨lower category, lower subtype, none⟩
  else ⟨lower category, lower front, some (lower tail)⟩

def ofText? (text : String) : Option MediaType :=
  let category := text.toList.takeWhile isTokenChar
  match text.toList.drop category.length with
  | '/' :: rest =>
      let subtype := rest.takeWhile isTokenChar
      let media := ofParts category subtype
      match category, subtype, rest.drop subtype.length with
      | _ :: _, _, [] => some media
      | _ :: _, _ :: _, ';' :: parameters => if hasGoodParameters parameters then some media else none
      | _, _, _ => none
  | _ => none

def isJson (media : MediaType) : Bool :=
  media.category == "application" && (media.subtype == "json" || media.suffix == some "json")

end MediaType

end Vdag
