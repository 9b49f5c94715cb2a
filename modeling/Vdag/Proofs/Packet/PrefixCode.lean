import Vdag.Proofs.Packet

/-! Packets are words of a prefix code: what decodes to a packet starts with that packet as it is written, so no other
bytes stand for it, and a packet cut short stands for none. -/
namespace Vdag

namespace Wire

theorem bindTaken {α β : Type} {first : Decoder α} {next : α → Decoder β} {bytes rest : Bytes} {b : β} :
    (first >>= next) bytes = some (b, rest) ↔ ∃ a later, first bytes = some (a, later) ∧
    next a later = some (b, rest) := by
  change (first bytes).bind (fun taken => next taken.1 taken.2) = some (b, rest) ↔ _
  simp only [Option.bind_eq_some_iff, Prod.exists]

theorem ofLowBytesLt (bytes : Bytes) : ofLowBytes bytes < Nat.pow 256 bytes.length := by
  induction bytes with
  | nil => exact Nat.one_pos
  | cons byte rest ih =>
    have small := byte.toNat_lt
    have next : Nat.pow 256 (rest.length + 1) = Nat.pow 256 rest.length * 256 := rfl
    rw [ofLowBytes, List.foldr_cons, ← ofLowBytes, List.length_cons, next]
    omega

theorem lowBytesOf (bytes : Bytes) : lowBytes bytes.length (ofLowBytes bytes) = bytes := by
  induction bytes with
  | nil => rfl
  | cons byte rest ih =>
    have small := byte.toNat_lt
    rw [ofLowBytes, List.foldr_cons, ← ofLowBytes, List.length_cons, lowBytes, Nat.add_mul_mod_self_left,
      Nat.mod_eq_of_lt small, UInt8.ofNat_toNat, Nat.add_mul_div_left _ _ (by decide), Nat.div_eq_of_lt small,
      Nat.zero_add, ih]

theorem takenBytes {count : Nat} {bytes taken rest : Bytes} (ok : takeBytes count bytes = some (taken, rest)) :
    bytes = taken ++ rest ∧ taken.length = count := by
  unfold takeBytes at ok
  split at ok
  · rename_i enough
    cases ok
    exact ⟨(List.take_append_drop count bytes).symm, List.length_take_of_le enough⟩
  · cases ok

theorem takenWord {value : UInt64} {bytes rest : Bytes} (ok : takeWord bytes = some (value, rest)) :
    bytes = word value ++ rest := by
  obtain ⟨taken, later, first, last⟩ := bindTaken.mp ok
  obtain ⟨rfl, length⟩ := takenBytes first
  cases last
  have fits := ofLowBytesLt taken
  rw [length] at fits
  rw [word, UInt64.toNat_ofNat_of_lt' fits, ← length, lowBytesOf]

theorem takenSized {content bytes rest : Bytes} (ok : takeSized bytes = some (content, rest)) :
    bytes = sized content ++ rest ∧ content.length < UInt64.size := by
  obtain ⟨length, later, first, last⟩ := bindTaken.mp ok
  cases takenWord first
  obtain ⟨rfl, same⟩ := takenBytes last
  rw [sized, same, UInt64.ofNat_toNat, List.append_assoc]
  exact ⟨rfl, length.toNat_lt⟩

theorem bytesOfText {bytes : Bytes} {content : String} (ok : textOfBytes? bytes = some content) :
    textBytes content = bytes := by
  unfold textOfBytes? String.fromUTF8? at ok
  split at ok
  · cases ok
    rw [textBytes, toListData]
    rfl
  · cases ok

theorem takenText {content : String} {bytes rest : Bytes} (ok : takeText bytes = some (content, rest)) :
    bytes = text content ++ rest ∧ content.utf8ByteSize < UInt64.size := by
  obtain ⟨raw, later, first, last⟩ := bindTaken.mp ok
  obtain ⟨rfl, fits⟩ := takenSized first
  change (textOfBytes? raw).bind (fun content => some (content, later)) = some (content, rest) at last
  obtain ⟨read, known, same⟩ := Option.bind_eq_some_iff.mp last
  cases same
  rw [text, ← textBytesLength, bytesOfText known]
  exact ⟨rfl, fits⟩

theorem takenMany {α : Type} {take : Decoder α} {write : α → Bytes} {P : α → Prop}
    (each : ∀ {bytes a rest}, take bytes = some (a, rest) → bytes = write a ++ rest ∧ P a) {count : Nat}
    {bytes rest : Bytes} {list : List α} (ok : takeMany take count bytes = some (list, rest)) :
    bytes = list.flatMap write ++ rest ∧ list.length = count ∧ ∀ a ∈ list, P a := by
  induction count generalizing bytes list with
  | zero => cases ok; exact ⟨rfl, rfl, nofun⟩
  | succ count ih =>
    obtain ⟨a, later, first, ok⟩ := bindTaken.mp ok
    obtain ⟨others, last, more, ok⟩ := bindTaken.mp ok
    cases ok
    obtain ⟨rfl, holds⟩ := each first
    obtain ⟨rfl, rfl, hold⟩ := ih more
    rw [List.flatMap_cons, List.append_assoc]
    exact ⟨rfl, rfl, List.forall_mem_cons.mpr ⟨holds, hold⟩⟩

theorem takenAttachment {a : Attachment} {bytes rest : Bytes} (ok : takeAttachment bytes = some (a, rest)) :
    bytes = attachment a ++ rest ∧ a.Fits := by
  obtain ⟨metadata, later, first, ok⟩ := bindTaken.mp ok
  obtain ⟨data, last, second, ok⟩ := bindTaken.mp ok
  cases ok
  obtain ⟨rfl, short⟩ := takenText first
  obtain ⟨rfl, short'⟩ := takenSized second
  rw [attachment, List.append_assoc]
  exact ⟨rfl, short, short'⟩

end Wire

namespace Packet
open Wire

theorem decoderTaken {p : Packet} {bytes rest : Bytes} (ok : decoder bytes = some (p, rest)) :
    bytes = p.encode ++ rest ∧ p.Fits := by
  obtain ⟨session, _, first, ok⟩ := bindTaken.mp ok
  obtain ⟨sequence, _, second, ok⟩ := bindTaken.mp ok
  obtain ⟨data, _, third, ok⟩ := bindTaken.mp ok
  obtain ⟨timestamp, _, fourth, ok⟩ := bindTaken.mp ok
  obtain ⟨framePointer, _, fifth, ok⟩ := bindTaken.mp ok
  obtain ⟨count, _, sixth, ok⟩ := bindTaken.mp ok
  obtain ⟨attachments, _, seventh, ok⟩ := bindTaken.mp ok
  obtain ⟨outputPointer, _, eighth, ok⟩ := bindTaken.mp ok
  cases ok
  obtain ⟨rfl, ofSession⟩ := takenText first
  cases takenWord second
  obtain ⟨rfl, ofData⟩ := takenText third
  cases takenWord fourth
  obtain ⟨rfl, ofFramePointer⟩ := takenSized fifth
  cases takenWord sixth
  obtain ⟨rfl, length, each⟩ := takenMany takenAttachment seventh
  obtain ⟨rfl, ofOutputPointer⟩ := takenText eighth
  have counted : UInt64.ofNat attachments.length = count := by rw [length, UInt64.ofNat_toNat]
  refine ⟨?_, ofSession, ofData, ofFramePointer, length ▸ count.toNat_lt, each, ofOutputPointer⟩
  simp only [encode, counted, List.append_assoc, UInt64.toUInt64_toInt64]

theorem decodeIff {bytes : Bytes} {p : Packet} : decode bytes = .ok p ↔ p.Fits ∧ ∃ rest, bytes = p.encode ++ rest := by
  constructor
  · intro ok
    unfold decode at ok
    split at ok
    · rename_i rest taken
      cases ok
      obtain ⟨same, fits⟩ := decoderTaken taken
      exact ⟨fits, rest, same⟩
    · cases ok
  · intro given
    obtain ⟨fits, rest, rfl⟩ := given
    exact decodeFront fits rest

theorem decodeFails {bytes : Bytes} (none : ∀ p, decode bytes ≠ .ok p) : decode bytes = .error .codec := by
  unfold decode at none ⊢
  split
  · rename_i p _ taken
    exact absurd (by rw [taken]) (none p)
  · rfl

theorem cutFails {p : Packet} (fits : p.Fits) {front : Bytes} (cut : front <+: p.encode) (short : front ≠ p.encode) :
    decode front = .error .codec := by
  refine decodeFails (fun q ok => short ?_)
  obtain ⟨missing, whole⟩ := cut
  obtain ⟨fits', rest, rfl⟩ := decodeIff.mp ok
  have same : decode p.encode = .ok q := by
    rw [← whole, List.append_assoc]
    exact decodeFront fits' _
  cases (decodeFront fits []).symm.trans ((List.append_nil p.encode).symm ▸ same)
  rw [List.append_assoc] at whole
  rw [(List.append_eq_nil_iff.mp (List.append_right_eq_self.mp whole)).1, List.append_nil]

/- All packets whose lengths are words, as they are in memory, and all bytes. Equal packets have equal timestamps bit by
bit. -/
theorem packetsPrefixCode :
    (∀ p : Packet, p.Fits → ∀ rest, decode (p.encode ++ rest) = .ok p) ∧
      (∀ bytes p, decode bytes = .ok p → p.Fits ∧ ∃ rest, bytes = p.encode ++ rest) ∧
      ∀ p : Packet, p.Fits → ∀ front, front <+: p.encode → front ≠ p.encode → decode front = .error .codec :=
  ⟨fun _ fits rest => decodeFront fits rest, fun _ _ ok => decodeIff.mp ok,
    fun _ fits _ cut short => cutFails fits cut short⟩

def samplePacket : Packet :=
  ⟨"vdag:::p:1-a:::s1", -3, "é", ⟨0x7ff8000000000001⟩, [0, 255], [⟨"frame.jpg", [1, 2, 3]⟩], ""⟩

theorem samplePacketFits : samplePacket.Fits :=
  ⟨by decide, by decide, by decide, by decide, by simp [samplePacket]; exact ⟨by decide, by decide⟩, by decide⟩

theorem samplePacketCoded : samplePacket.Fits ∧ decode (samplePacket.encode ++ [9]) = .ok samplePacket ∧
    (∃ rest, samplePacket.encode ++ [9] = samplePacket.encode ++ rest) ∧
    decode (samplePacket.encode.take 40) = .error .codec :=
  have read := packetsPrefixCode.1 samplePacket samplePacketFits [9]
  ⟨samplePacketFits, read, (packetsPrefixCode.2.1 _ samplePacket read).2,
    packetsPrefixCode.2.2 samplePacket samplePacketFits _ (List.take_prefix 40 _) (by decide +kernel)⟩

end Packet

end Vdag
