import Vdag.Json.Reading
import Vdag.Packet.Wire

/-! JSON text that arrives as bytes. Bytes that make no characters spoil only what is read: in a string that is
passed over they may stand. -/
namespace Vdag.Json

def charOfBytes? (bytes : Bytes) : Option (Char × Nat) :=
  [1, 2, 3, 4].findSome? (fun size => do
    let text ← Wire.textOfBytes? (bytes.take size)
    return (← text.toList.head?, size))

/- Written for a byte that makes no character: escapes that name none, so a string that holds it can be passed
over but not read. The sign before them keeps it wrong outside strings and after a backslash. -/
def noCharacter : List Char := "~\\udc00\\udc00".toList

def charsOfBytes : (covered : Nat) → Bytes → List Char
  | _, [] => []
  | covered + 1, _ :: rest => charsOfBytes covered rest
  | 0, byte :: rest => match charOfBytes? (byte :: rest) with
      | some (c, size) => c :: charsOfBytes (size - 1) rest
      | none => noCharacter ++ charsOfBytes 0 rest

def readBytes {α : Type} (read : Source → Reading α) (bytes : Bytes) : Reading α :=
  readText read (String.ofList (charsOfBytes 0 bytes))

end Vdag.Json
