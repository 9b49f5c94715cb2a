import Vdag.Json.Token

/-! JSON text as a tree that keeps what typed reading has to judge: members in text order with repetitions, and
the place where the text stops being JSON. -/
namespace Vdag.Json

/-- `broken` stands where the text goes wrong; everything before it is complete. A key is missing where it
cannot be read. -/
inductive Tree where
  | null
  | bool (value : Bool)
  | number (value : Option Number)
  | string (value : Option String)
  | array (items : List Tree)
  | object (members : List (Option String × Tree))
  | broken

namespace Tree

def brokenMember : Option String × Tree := (none, .broken)

mutual

def ofTokens : (depth : Nat) → List Token → Tree × Option (List Token)
  | 0, _ => (.broken, none)
  | _ + 1, .null :: rest => (.null, some rest)
  | _ + 1, .bool value :: rest => (.bool value, some rest)
  | _ + 1, .number value :: rest => (.number value, some rest)
  | _ + 1, .string value :: rest => (.string value, some rest)
  | _ + 1, .openArray :: .closeArray :: rest => (.array [], some rest)
  | depth + 1, .openArray :: rest =>
      let (items, left) := itemsOfTokens depth rest
      (.array items, left)
  | _ + 1, .openObject :: .closeObject :: rest => (.object [], some rest)
  | depth + 1, .openObject :: rest =>
      let (members, left) := membersOfTokens depth rest
      (.object members, left)
  | _ + 1, _ => (.broken, none)

def itemsOfTokens : (depth : Nat) → List Token → List Tree × Option (List Token)
  | 0, _ => ([.broken], none)
  | depth + 1, tokens =>
      let (item, left) := ofTokens depth tokens
      match left with
      | some (.closeArray :: rest) => ([item], some rest)
      | some (.comma :: rest) =>
          let (items, left) := itemsOfTokens depth rest
          (item :: items, left)
      | _ => ([item, .broken], none)

def membersOfTokens : (depth : Nat) → List Token → List (Option String × Tree) × Option (List Token)
  | 0, _ => ([brokenMember], none)
  | depth + 1, .string key :: .colon :: tokens =>
      let (value, left) := ofTokens depth tokens
      match left with
      | some (.closeObject :: rest) => ([(key, value)], some rest)
      | some (.comma :: rest) =>
          let (members, left) := membersOfTokens depth rest
          ((key, value) :: members, left)
      | _ => ([(key, value), brokenMember], none)
  | _ + 1, .string key :: _ => ([(key, .broken), brokenMember], none)
  | _ + 1, _ => ([brokenMember], none)

end

/- Each level of nesting costs two steps and at least one token. -/
def ofText (text : String) : Tree × Option (List Token) :=
  let tokens := Token.ofText text
  ofTokens (2 * tokens.length + 2) tokens

end Tree

end Vdag.Json
