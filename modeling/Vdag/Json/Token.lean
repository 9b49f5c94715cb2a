import Vdag.Json.Numeral

/-! The tokens of JSON text. A string whose escapes name half of a surrogate pair, and a number that no double
holds, are still tokens: they matter only to a reader that needs their value. -/
namespace Vdag.Json

inductive Token where
  | openObject
  | closeObject
  | openArray
  | closeArray
  | colon
  | comma
  | null
  | bool (value : Bool)
  | number (value : Option Number)
  | string (value : Option String)
  | bad
  deriving DecidableEq, Repr

namespace Token

def isSpace (c : Char) : Bool := c == ' ' || c == '\n' || c == '\t' || c == '\r'

def digit? (c : Char) : Option Nat := if '0' ≤ c ∧ c ≤ '9' then some (c.toNat - 48) else none

def hexDigit? (c : Char) : Option Nat :=
  if '0' ≤ c ∧ c ≤ '9' then some (c.toNat - 48)
  else if 'a' ≤ c ∧ c ≤ 'f' then some (c.toNat - 87)
  else if 'A' ≤ c ∧ c ≤ 'F' then some (c.toNat - 55)
  else none

def digits : List Char → List Nat × List Char
  | [] => ([], [])
  | c :: rest =>
      match digit? c with
      | none => ([], c :: rest)
      | some d => let (more, left) := digits rest; (d :: more, left)

def isHigh (unit : Nat) : Bool := 0xd800 ≤ unit && unit < 0xdc00

def isLow (unit : Nat) : Bool := 0xdc00 ≤ unit && unit < 0xe000

def assemble : List Nat → Option (List Char)
  | [] => some []
  | unit :: rest =>
      if isHigh unit then
        match rest with
        | [] => none
        | low :: rest =>
            if isLow low then
              (assemble rest).map (Char.ofNat (0x10000 + (unit - 0xd800) * 0x400 + (low - 0xdc00)) :: ·)
            else none
      else if isLow unit then none
      else (assemble rest).map (Char.ofNat unit :: ·)

def plainEscape? (c : Char) : Option Nat :=
  if c = '"' then some 0x22
  else if c = '\\' then some 0x5c
  else if c = '/' then some 0x2f
  else if c = 'b' then some 0x8
  else if c = 'f' then some 0xc
  else if c = 'n' then some 0xa
  else if c = 'r' then some 0xd
  else if c = 't' then some 0x9
  else none

def stringBody : List Char → Option (List Nat × List Char)
  | [] => none
  | '"' :: rest => some ([], rest)
  | '\\' :: 'u' :: a :: b :: c :: d :: rest => do
      let unit := (← hexDigit? a) * 4096 + (← hexDigit? b) * 256 + (← hexDigit? c) * 16 + (← hexDigit? d)
      let (units, left) ← stringBody rest
      some (unit :: units, left)
  | '\\' :: e :: rest => do
      let unit ← plainEscape? e
      let (units, left) ← stringBody rest
      some (unit :: units, left)
  | c :: rest =>
      if c = '\\' ∨ c.toNat < 0x20 then none
      else do
        let (units, left) ← stringBody rest
        some (c.toNat :: units, left)

def numberTail (negative : Bool) (whole : List Nat) (text : List Char) : Option (Numeral × List Char) := do
  let (fraction, text) ← match text with
    | '.' :: rest =>
        let (found, left) := digits rest
        if found.isEmpty then none else some (some found, left)
    | _ => some (none, text)
  let exponentOf (below : Bool) (rest : List Char) : Option (Numeral × List Char) :=
    let (found, left) := digits rest
    if found.isEmpty then none else some (⟨negative, whole, fraction, some (below, found)⟩, left)
  match text with
  | 'e' :: '+' :: rest | 'E' :: '+' :: rest => exponentOf false rest
  | 'e' :: '-' :: rest | 'E' :: '-' :: rest => exponentOf true rest
  | 'e' :: rest | 'E' :: rest => exponentOf false rest
  | _ => some (⟨negative, whole, fraction, none⟩, text)

def numeral (negative : Bool) (text : List Char) : Option (Numeral × List Char) :=
  match digits text with
  | ([], _) => none
  | (0 :: _ :: _, _) => none
  | (whole, rest) => numberTail negative whole rest

def next : List Char → Option (Token × List Char)
  | [] => none
  | '\x7b' :: rest => some (.openObject, rest)
  | '\x7d' :: rest => some (.closeObject, rest)
  | '[' :: rest => some (.openArray, rest)
  | ']' :: rest => some (.closeArray, rest)
  | ':' :: rest => some (.colon, rest)
  | ',' :: rest => some (.comma, rest)
  | 'n' :: 'u' :: 'l' :: 'l' :: rest => some (.null, rest)
  | 't' :: 'r' :: 'u' :: 'e' :: rest => some (.bool true, rest)
  | 'f' :: 'a' :: 'l' :: 's' :: 'e' :: rest => some (.bool false, rest)
  | '"' :: rest => (stringBody rest).map (fun (units, left) => (.string ((assemble units).map String.ofList), left))
  | '-' :: rest => (numeral true rest).map (fun (found, left) => (.number found.value, left))
  | text => (numeral false text).map (fun (found, left) => (.number found.value, left))

/- At least one character goes with every token, so the length of the text bounds the steps. -/
def lex : (steps : Nat) → List Char → List Token
  | 0, _ => []
  | _ + 1, [] => []
  | steps + 1, c :: rest =>
      if isSpace c then lex steps rest
      else match next (c :: rest) with
        | some (token, left) => token :: lex steps left
        | none => [.bad]

def ofText (text : String) : List Token := lex text.length text.toList

end Token

end Vdag.Json
