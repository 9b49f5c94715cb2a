import Vdag.Json.Bytes
import Vdag.Proofs.Packet

/-! Text that is written as bytes and read from them character by character. No character's bytes begin with the bytes
of another, so each is found where it starts. -/
namespace Vdag.Json

theorem textBytesEncoded (text : String) : Wire.textBytes text = text.toList.flatMap String.utf8EncodeChar := by
  rw [Wire.textBytes, Wire.toListData, String.toUTF8_eq_toByteArray, ← String.utf8Encode_toList, List.utf8Encode]
  simp

theorem textOfBytes {bytes : Bytes} {text : String} (read : Wire.textOfBytes? bytes = some text) :
    bytes = Wire.textBytes text := by
  unfold Wire.textOfBytes? String.fromUTF8? at read
  split at read
  · obtain rfl := Option.some.inj read
    rw [Wire.textBytes, Wire.toListData]
    rfl
  · cases read

theorem characterReread (c : Char) : Wire.textOfBytes? (String.utf8EncodeChar c) = some (String.ofList [c]) := by
  have written : String.utf8EncodeChar c = Wire.textBytes (String.ofList [c]) := by
    rw [textBytesEncoded, String.toList_ofList, List.flatMap_singleton]
  rw [written, Wire.textReread]

theorem cutCharacter {c : Char} {size : Nat} (begun : 0 < size) (short : size < c.utf8Size) :
    Wire.textOfBytes? ((String.utf8EncodeChar c).take size) = none := by
  rw [Option.eq_none_iff_forall_ne_some]
  intro text read
  have cut := textOfBytes read
  rw [textBytesEncoded] at cut
  have whole : text.toList.utf8Encode ++ ((String.utf8EncodeChar c).drop size).toByteArray = [c].utf8Encode := by
    rw [List.utf8Encode, ← cut, ← List.toByteArray_append, List.take_append_drop, List.utf8Encode,
      List.flatMap_singleton]
  have length := congrArg List.length cut
  rw [List.length_take, String.length_utf8EncodeChar, Nat.min_eq_left (Nat.le_of_lt short)] at length
  have front := List.isPrefix_of_utf8Encode_append_eq_utf8Encode _ whole
  rcases List.prefix_cons_iff.mp front with none | ⟨others, first, later⟩
  · rw [none] at length
    exact Nat.ne_of_gt begun length
  · rw [first, List.prefix_nil.mp later, List.flatMap_singleton, String.length_utf8EncodeChar] at length
    exact Nat.ne_of_lt short length

theorem characterFound (c : Char) (rest : Bytes) :
    charOfBytes? (String.utf8EncodeChar c ++ rest) = some (c, c.utf8Size) := by
  have length := String.length_utf8EncodeChar c
  have cut (size : Nat) (begun : 0 < size) (short : size < c.utf8Size) :
      Wire.textOfBytes? ((String.utf8EncodeChar c ++ rest).take size) = none := by
    rw [List.take_append_of_le_length (length ▸ Nat.le_of_lt short), cutCharacter begun short]
  have whole : Wire.textOfBytes? ((String.utf8EncodeChar c ++ rest).take c.utf8Size) = some (String.ofList [c]) := by
    rw [← length, List.take_left, characterReread]
  have sizes : c.utf8Size = 1 ∨ c.utf8Size = 2 ∨ c.utf8Size = 3 ∨ c.utf8Size = 4 := by
    have some := c.utf8Size_pos
    have few := c.utf8Size_le_four
    omega
  rw [charOfBytes?]
  rcases sizes with size | size | size | size
  all_goals
    rw [size] at cut whole ⊢
    simp [cut, whole]

theorem bytesCovered (bytes rest : Bytes) : charsOfBytes bytes.length (bytes ++ rest) = charsOfBytes 0 rest := by
  induction bytes with
  | nil => rfl
  | cons byte bytes ih => rw [List.length_cons, List.cons_append, charsOfBytes, ih]

theorem charactersReread (cs : List Char) : charsOfBytes 0 (cs.flatMap String.utf8EncodeChar) = cs := by
  induction cs with
  | nil => rfl
  | cons c cs ih =>
    have found := characterFound c (cs.flatMap String.utf8EncodeChar)
    have size := String.length_utf8EncodeChar c
    rw [List.flatMap_cons]
    cases encoded : String.utf8EncodeChar c with
    | nil =>
      rw [encoded] at size
      exact absurd size (Nat.ne_of_lt c.utf8Size_pos)
    | cons byte bytes =>
      rw [encoded] at found size
      rw [List.cons_append] at found ⊢
      rw [charsOfBytes, found, ← size]
      dsimp only
      rw [List.length_cons, Nat.add_sub_cancel, bytesCovered, ih]

theorem readTextBytes {α : Type} (read : Source → Reading α) (text : String) :
    readBytes read (Wire.textBytes text) = readText read text := by
  rw [readBytes, textBytesEncoded, charactersReread, String.ofList_toList]

end Vdag.Json
