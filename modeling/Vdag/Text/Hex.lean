/-! Bytes written as hexadecimal digits, two for each, in lower case. -/
namespace Vdag.Text

def hexDigit (n : Nat) : Char := if n < 10 then Char.ofNat (48 + n) else Char.ofNat (87 + n)

def hexValue (c : Char) : Nat :=
  let n := c.toNat
  if 48 ≤ n ∧ n ≤ 57 then n - 48
  else if 97 ≤ n ∧ n ≤ 102 then n - 87
  else if 65 ≤ n ∧ n ≤ 70 then n - 55
  else 0

def hexByte (byte : UInt8) (text : String) : String :=
  (text.push (hexDigit (byte.toNat / 16))).push (hexDigit (byte.toNat % 16))

def hexOfBytes (bytes : List UInt8) : String := bytes.foldl (fun text byte => hexByte byte text) ""

def readHexDigit (state : List UInt8 × Option Nat) (c : Char) : List UInt8 × Option Nat :=
  match state.2 with
  | none => (state.1, some (hexValue c))
  | some high => (UInt8.ofNat (16 * high + hexValue c) :: state.1, none)

def bytesOfHex (text : String) : List UInt8 := (text.foldl readHexDigit ([], none)).1.reverse

def natOfHex (text : String) : Nat := text.foldl (fun n c => 16 * n + hexValue c) 0

end Vdag.Text
