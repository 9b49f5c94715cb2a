import Vdag.Json.Value
import Vdag.Number.Shortest
import Vdag.Text.Hex

/-! JSON text of values: without spaces for the wire, and indented for people. -/
namespace Vdag.Json

def escaped (c : Char) : List Char :=
  if c = '"' then ['\\', '"']
  else if c = '\\' then ['\\', '\\']
  else if c.toNat = 0x8 then ['\\', 'b']
  else if c.toNat = 0xc then ['\\', 'f']
  else if c = '\n' then ['\\', 'n']
  else if c = '\r' then ['\\', 'r']
  else if c = '\t' then ['\\', 't']
  else if c.toNat < 0x20 then ['\\', 'u', '0', '0', Text.hexDigit (c.toNat / 16), Text.hexDigit (c.toNat % 16)]
  else [c]

def quotedChars (text : String) : List Char := '"' :: (text.toList.flatMap escaped ++ ['"'])

def Number.chars : Number → List Char
  | .integer value _ => (toString value).toList
  | .real value _ => value.render.toList

mutual

def Value.chars : Value → List Char
  | .null => "null".toList
  | .bool true => "true".toList
  | .bool false => "false".toList
  | .number value => value.chars
  | .string text => quotedChars text
  | .array items => '[' :: (itemChars items ++ [']'])
  | .object members => '\x7b' :: (memberChars members ++ ['\x7d'])

def itemChars : List Value → List Char
  | [] => []
  | [item] => item.chars
  | item :: rest => item.chars ++ ',' :: itemChars rest

def memberChars : List (String × Value) → List Char
  | [] => []
  | [(key, value)] => quotedChars key ++ ':' :: value.chars
  | (key, value) :: rest => quotedChars key ++ ':' :: (value.chars ++ ',' :: memberChars rest)

end

def Value.render (value : Value) : String := String.ofList value.chars

def lineBreak (depth : Nat) : List Char := '\n' :: List.replicate (2 * depth) ' '

mutual

def Value.indented (depth : Nat) : Value → List Char
  | .array [] => ['[', ']']
  | .array items => '[' :: (indentedItems (depth + 1) items ++ lineBreak depth ++ [']'])
  | .object [] => ['\x7b', '\x7d']
  | .object members => '\x7b' :: (indentedMembers (depth + 1) members ++ lineBreak depth ++ ['\x7d'])
  | .null => "null".toList
  | .bool value => (Value.bool value).chars
  | .number value => value.chars
  | .string text => quotedChars text

def indentedItems (depth : Nat) : List Value → List Char
  | [] => []
  | [item] => lineBreak depth ++ item.indented depth
  | item :: rest => lineBreak depth ++ item.indented depth ++ ',' :: indentedItems depth rest

def indentedMembers (depth : Nat) : List (String × Value) → List Char
  | [] => []
  | [(key, value)] => lineBreak depth ++ quotedChars key ++ ':' :: ' ' :: value.indented depth
  | (key, value) :: rest =>
      lineBreak depth ++ quotedChars key ++ ':' :: ' ' :: (value.indented depth ++ ',' :: indentedMembers depth rest)

end

def Value.pretty (value : Value) : String := String.ofList (value.indented 0)

end Vdag.Json
