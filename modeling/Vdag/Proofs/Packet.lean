import Vdag.Packet.Wire

/-! Packets written as bytes, and read again, whatever follows them. Every length is a word, so lists and texts are
shorter than a word can tell. -/
namespace Vdag

structure Attachment.Fits (a : Attachment) : Prop where
  metadata : a.metadata.utf8ByteSize < UInt64.size
  data : a.data.length < UInt64.size

structure Packet.Fits (p : Packet) : Prop where
  session : p.session.utf8ByteSize < UInt64.size
  data : p.data.utf8ByteSize < UInt64.size
  framePointer : p.framePointer.length < UInt64.size
  attachments : p.attachments.length < UInt64.size
  each : ∀ a ∈ p.attachments, a.Fits
  outputPointer : p.outputPointer.utf8ByteSize < UInt64.size

namespace Wire

def Takes {α : Type} (decoder : Decoder α) (bytes : Bytes) (a : α) : Prop :=
  ∀ rest, decoder (bytes ++ rest) = some (a, rest)

theorem Takes.bind {α β : Type} {first : Decoder α} {next : α → Decoder β} {bytes later : Bytes} {a : α} {b : β}
    (takes : Takes first bytes a) (takes' : Takes (next a) later b) : Takes (first >>= next) (bytes ++ later) b := by
  intro rest
  rw [List.append_assoc]
  change (first (bytes ++ (later ++ rest))).bind (fun taken => next taken.1 taken.2) = _
  rw [takes]
  exact takes' rest

theorem Takes.takesLast {α β : Type} {first : Decoder α} {f : α → β} {bytes : Bytes} {a : α}
    (takes : Takes first bytes a) : Takes (do return f (← first)) bytes (f a) := by
  have ends : Takes (pure (f a)) [] (f a) := fun _ => rfl
  have both : Takes (do return f (← first)) (bytes ++ []) (f a) := takes.bind ends
  rwa [List.append_nil] at both

theorem lowBytesLength (count value : Nat) : (lowBytes count value).length = count := by
  induction count generalizing value with
  | zero => rfl
  | succ count ih => rw [lowBytes, List.length_cons, ih]

theorem ofLowBytesLow (count value : Nat) (fits : value < Nat.pow 256 count) :
    ofLowBytes (lowBytes count value) = value := by
  induction count generalizing value with
  | zero => rw [Nat.lt_one_iff.mp fits]; rfl
  | succ count ih =>
    have rest : value / 256 < Nat.pow 256 count := Nat.div_lt_of_lt_mul (Nat.pow_succ' ▸ fits)
    have low : (UInt8.ofNat (value % 256)).toNat = value % 256 :=
      UInt8.toNat_ofNat_of_lt' (Nat.mod_lt value (by decide))
    rw [lowBytes, ofLowBytes, List.foldr_cons, ← ofLowBytes, ih _ rest, low]
    exact Nat.mod_add_div value 256

theorem takesBytes (bytes : Bytes) : Takes (takeBytes bytes.length) bytes bytes := by
  intro rest
  rw [takeBytes, if_pos (by simp), List.take_left, List.drop_left]

theorem takesWord (value : UInt64) : Takes takeWord (word value) value := by
  have back : UInt64.ofNat (ofLowBytes (word value)) = value := by
    rw [word, ofLowBytesLow 8 value.toNat value.toNat_lt, UInt64.ofNat_toNat]
  have taken : Takes (takeBytes 8) (word value) (word value) := lowBytesLength 8 value.toNat ▸ takesBytes (word value)
  have read : Takes takeWord (word value) (UInt64.ofNat (ofLowBytes (word value))) := taken.takesLast
  rwa [back] at read

theorem takesSized {bytes : Bytes} (fits : bytes.length < UInt64.size) : Takes takeSized (sized bytes) bytes := by
  have length : (UInt64.ofNat bytes.length).toNat = bytes.length := UInt64.toNat_ofNat_of_lt' fits
  refine (takesWord _).bind ?_
  rw [length]
  exact takesBytes bytes

theorem toListData (bytes : ByteArray) : bytes.toList = bytes.data.toList := by
  suffices ∀ i read, ByteArray.toList.loop bytes i read = read.reverse ++ bytes.data.toList.drop i by
    rw [ByteArray.toList, this]
    rfl
  intro i read
  fun_induction ByteArray.toList.loop bytes i read with
  | case1 i read more ih =>
    have inside : i < bytes.data.toList.length := more
    rw [ih, List.drop_eq_getElem_cons inside]
    simp [ByteArray.get!, more]
  | case2 i read done =>
    rw [List.drop_eq_nil_of_le (Nat.le_of_not_lt done), List.append_nil]

theorem textReread (text : String) : textOfBytes? (textBytes text) = some text := by
  have bytes : (⟨(textBytes text).toArray⟩ : ByteArray) = text.toUTF8 := by rw [textBytes, toListData]
  rw [textOfBytes?, bytes, String.toUTF8_eq_toByteArray, String.fromUTF8?, dif_pos text.isValidUTF8]
  rfl

theorem textBytesLength (content : String) : (textBytes content).length = content.utf8ByteSize := by
  rw [textBytes, toListData, String.toUTF8_eq_toByteArray]
  rfl

theorem takesText {content : String} (fits : content.utf8ByteSize < UInt64.size) :
    Takes takeText (text content) content := by
  have read : Takes (textOfBytes? (textBytes content) : Option String) [] content := by
    intro rest
    rw [textReread]
    rfl
  have both : Takes takeText (text content ++ []) content :=
    (takesSized (textBytesLength content ▸ fits)).bind read
  rwa [List.append_nil] at both

theorem takesMany {α : Type} {take : Decoder α} {write : α → Bytes} {list : List α}
    (each : ∀ a ∈ list, Takes take (write a) a) : Takes (takeMany take list.length) (list.flatMap write) list := by
  induction list with
  | nil => exact fun _ => rfl
  | cons a rest ih =>
    refine (each a List.mem_cons_self).bind ?_
    exact (ih (fun other member => each other (List.mem_cons_of_mem a member))).takesLast

theorem wordLength (value : UInt64) : (word value).length = 8 := lowBytesLength 8 value.toNat

theorem sizedLength (bytes : Bytes) : (sized bytes).length = 8 + bytes.length := by
  rw [sized, List.length_append, wordLength]

theorem textLength (content : String) : (text content).length = 8 + content.utf8ByteSize := by
  rw [text, sizedLength, textBytesLength]

theorem takesAttachment {a : Attachment} (fits : a.Fits) : Takes takeAttachment (attachment a) a := by
  refine (takesText fits.metadata).bind ?_
  exact (takesSized fits.data).takesLast

theorem attachmentLength (a : Attachment) :
    (attachment a).length = 16 + a.metadata.utf8ByteSize + a.data.length := by
  rw [attachment, List.length_append, textLength, sizedLength]
  omega

theorem attachmentsLength (attachments : List Attachment) :
    attachments.length ≤ (attachments.flatMap attachment).length ∧
      ∀ a ∈ attachments, (attachment a).length ≤ (attachments.flatMap attachment).length := by
  induction attachments with
  | nil => exact ⟨Nat.le_refl 0, nofun⟩
  | cons a rest ih =>
    obtain ⟨count, each⟩ := ih
    have own := attachmentLength a
    rw [List.flatMap_cons, List.length_append]
    refine ⟨by rw [List.length_cons]; omega, List.forall_mem_cons.mpr ⟨by omega, fun other member => ?_⟩⟩
    exact Nat.le_trans (each other member) (by omega)

end Wire

namespace Packet
open Wire

theorem encodeLength (p : Packet) : p.encode.length = 56 + p.session.utf8ByteSize + p.data.utf8ByteSize +
    p.framePointer.length + (p.attachments.flatMap attachment).length + p.outputPointer.utf8ByteSize := by
  simp only [encode, List.length_append, textLength, wordLength, sizedLength]
  omega

theorem Fits.ofLength {p : Packet} (short : p.encode.length < UInt64.size) : p.Fits := by
  rw [encodeLength] at short
  obtain ⟨count, each⟩ := attachmentsLength p.attachments
  refine ⟨by omega, by omega, by omega, by omega, fun a member => ?_, by omega⟩
  have own := each a member
  rw [attachmentLength] at own
  exact ⟨by omega, by omega⟩

theorem decoderTakes {p : Packet} (fits : p.Fits) : Takes decoder p.encode p := by
  have length : (UInt64.ofNat p.attachments.length).toNat = p.attachments.length :=
    UInt64.toNat_ofNat_of_lt' fits.attachments
  have attached : Takes (takeMany takeAttachment (UInt64.ofNat p.attachments.length).toNat)
      (p.attachments.flatMap attachment) p.attachments := by
    rw [length]
    exact takesMany (fun a member => takesAttachment (fits.each a member))
  have last : Takes (do
      let outputPointer ← takeText
      return { p with outputPointer }) (text p.outputPointer) p := (takesText fits.outputPointer).takesLast
  simp only [encode, List.append_assoc]
  refine (takesText fits.session).bind ?_
  refine (takesWord _).bind ?_
  refine (takesText fits.data).bind ?_
  refine (takesWord _).bind ?_
  refine (takesSized fits.framePointer).bind ?_
  refine (takesWord _).bind ?_
  exact attached.bind last

theorem decodeFront {p : Packet} (fits : p.Fits) (rest : Bytes) : decode (p.encode ++ rest) = .ok p := by
  rw [decode, decoderTakes fits rest]

theorem decodeEncode {p : Packet} (fits : p.encode.length < UInt64.size) : decode p.encode = .ok p := by
  have taken := decodeFront (.ofLength fits) []
  rwa [List.append_nil] at taken

end Packet

end Vdag
