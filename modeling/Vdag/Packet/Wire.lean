import Vdag.Failure
import Vdag.Packet.Basic

/-! Packets as bytes: numbers in 8 bytes, the lowest first; texts, byte lists and lists after their length.
Bytes after a packet are not looked at. -/
namespace Vdag.Wire

abbrev Decoder := StateT Bytes Option

def lowBytes : (count value : Nat) → Bytes
  | 0, _ => []
  | count + 1, value => UInt8.ofNat (value % 256) :: lowBytes count (value / 256)

def ofLowBytes (bytes : Bytes) : Nat := bytes.foldr (fun byte value => byte.toNat + 256 * value) 0

def takeBytes (count : Nat) : Decoder Bytes := fun bytes =>
  if count ≤ bytes.length then some (bytes.take count, bytes.drop count) else none

def word (value : UInt64) : Bytes := lowBytes 8 value.toNat

def takeWord : Decoder UInt64 := do return UInt64.ofNat (ofLowBytes (← takeBytes 8))

def sized (bytes : Bytes) : Bytes := word (UInt64.ofNat bytes.length) ++ bytes

def takeSized : Decoder Bytes := do takeBytes (← takeWord).toNat

def textBytes (text : String) : Bytes := text.toUTF8.toList

def textOfBytes? (bytes : Bytes) : Option String := String.fromUTF8? ⟨bytes.toArray⟩

def text (text : String) : Bytes := sized (textBytes text)

def takeText : Decoder String := do (textOfBytes? (← takeSized) : Option String)

def takeMany {α : Type} (take : Decoder α) : (count : Nat) → Decoder (List α)
  | 0 => return []
  | count + 1 => do
      let first ← take
      let rest ← takeMany take count
      return first :: rest

def attachment (a : Attachment) : Bytes := text a.metadata ++ sized a.data

def takeAttachment : Decoder Attachment := do
  let metadata ← takeText
  let data ← takeSized
  return ⟨metadata, data⟩

end Vdag.Wire

namespace Vdag.Packet

open Wire

def encode (p : Packet) : Bytes :=
  text p.session ++ word p.sequence.toUInt64 ++ text p.data ++ word p.timestamp.bits ++ sized p.framePointer ++
    word (UInt64.ofNat p.attachments.length) ++ p.attachments.flatMap attachment ++ text p.outputPointer

def decoder : Decoder Packet := do
  let session ← takeText
  let sequence ← takeWord
  let data ← takeText
  let timestamp ← takeWord
  let framePointer ← takeSized
  let count ← takeWord
  let attachments ← takeMany takeAttachment count.toNat
  let outputPointer ← takeText
  return ⟨session, sequence.toInt64, data, ⟨timestamp⟩, framePointer, attachments, outputPointer⟩

def decode (bytes : Bytes) : Outcome Packet :=
  match decoder bytes with
  | some (packet, _) => .ok packet
  | none => .error .codec

end Vdag.Packet
