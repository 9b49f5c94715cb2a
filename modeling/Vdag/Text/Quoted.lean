import Vdag.Text.Hidden

/-! Text between double quotes with everything that cannot be seen written as an escape, as names are shown
to operators. -/
namespace Vdag.Text

def lowerHex (n : Nat) : String := String.ofList (Nat.toDigits 16 n)

def quotedChar (c : Char) : String :=
  if c = '\t' then "\\t"
  else if c = '\r' then "\\r"
  else if c = '\n' then "\\n"
  else if c = '"' then "\\\""
  else if c = '\\' then "\\\\"
  else if c.toNat = 0 then "\\0"
  else if isHidden c then "\\u\x7b" ++ lowerHex c.toNat ++ "\x7d"
  else c.toString

def quoted (text : String) : String :=
  "\"" ++ String.join (text.toList.map quotedChar) ++ "\""

end Vdag.Text
