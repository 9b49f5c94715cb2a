import Vdag.Packet.Basic
import Vdag.Proofs.Document.NormalForm
import Vdag.Proofs.Json.Records

/-! What a document of a packet is, field by field. A packet is read from those documents and from no others. -/
namespace Vdag
open Json

def Binary64.Written (x : Binary64) : Number → Prop
  | .real found _ => found = x
  | .integer found _ => ofInt? found = some x

def Attachment.Described (a : Attachment) (document : Value) : Prop := document.Comprises [
  ("metadata", (· = .string a.metadata)), ("file_data", (· = bytesJson a.data))]

def Packet.Described (p : Packet) (document : Value) : Prop := document.Comprises [
  ("session_id", (· = .string p.session)), ("seq_no", (· = .ofInt p.sequence.toInt)), ("data", (· = .string p.data)),
  ("ts", fun value => ∃ n, value = .number n ∧ p.timestamp.Written n), ("frame_ptr", (· = bytesJson p.framePointer)),
  ("files", fun value => ∃ files, value = .array files ∧ List.Forall₂ Attachment.Described p.attachments files),
  ("output_ptr", (· = .string p.outputPointer))]

namespace Json

section Readers

variable {value : Value}

theorem stringIff {text : String} : Source.string (.value value) = .ok text ↔ value = .string text :=
  ⟨Source.stringOk, fun same => by rw [same]; rfl⟩

theorem numberIff {n : Number} : Source.number (.value value) = .ok n ↔ value = .number n := by
  cases value <;> simp [Source.number, Source.misfit]

theorem integerIff {low high i : Int} : Source.integer low high (.value value) = .ok i ↔
    (∃ fits, value = .number (.integer i fits)) ∧ low ≤ i ∧ i ≤ high := by
  rw [Source.integer, Outcome.bindOk]
  constructor
  · rintro ⟨_ | _, got, ok⟩
    · dsimp only at ok
      split at ok
      · cases ok
        exact ⟨⟨_, numberIff.mp got⟩, ‹_›⟩
      · cases ok
    · cases ok
  · rintro ⟨⟨fits, rfl⟩, inside⟩
    exact ⟨_, rfl, if_pos inside⟩

theorem ofIntFits {i : Int} (fits : -0x8000000000000000 ≤ i ∧ i < 0x10000000000000000) :
    Value.ofInt i = .number (.integer i fits) := by
  rw [Value.ofInt, Number.ofInt, dif_pos fits]

theorem word8Iff {b : UInt8} : Source.word8 (.value value) = .ok b ↔ value = .ofNat b.toNat := by
  have small := b.toNat_lt
  rw [Source.word8, Outcome.bindOk]
  constructor
  · rintro ⟨i, got, ok⟩
    obtain ⟨⟨fits, rfl⟩, inside⟩ := integerIff.mp got
    have same : (b.toNat : Int) = i := by
      rw [← Except.ok.inj ok, UInt8.toNat_ofNat_of_lt' (by omega : i.toNat < 2 ^ 8)]
      omega
    subst same
    exact (ofIntFits fits).symm
  · rintro rfl
    have fits : -0x8000000000000000 ≤ (b.toNat : Int) ∧ (b.toNat : Int) < 0x10000000000000000 := by omega
    exact ⟨b.toNat, integerIff.mpr ⟨⟨fits, ofIntFits fits⟩, by omega⟩, congrArg Except.ok (UInt8.ofNat_toNat)⟩

theorem int64Iff {n : Int64} : Source.int64 (.value value) = .ok n ↔ value = .ofInt n.toInt := by
  have low := n.le_toInt
  have high := n.toInt_lt
  rw [Source.int64, Outcome.bindOk]
  constructor
  · rintro ⟨i, got, ok⟩
    obtain ⟨⟨fits, rfl⟩, inside⟩ := integerIff.mp got
    have same : n.toInt = i := by
      rw [← Except.ok.inj ok, Int64.toInt_ofInt_of_le (by omega) (by omega)]
    subst same
    exact (ofIntFits fits).symm
  · rintro rfl
    have fits : -0x8000000000000000 ≤ n.toInt ∧ n.toInt < 0x10000000000000000 := by omega
    exact ⟨n.toInt, integerIff.mpr ⟨⟨fits, ofIntFits fits⟩, by omega⟩, congrArg Except.ok (Int64.ofInt_toInt n)⟩

/- The rounding is left open here, so that nothing is computed with it. -/
theorem roundedIff (round : Int → Option Binary64) {n : Number} {x : Binary64} :
    (match n with
      | .integer found _ => match round found with
        | some x => .ok x
        | none => .error .unfit
      | .real found _ => .ok found : Reading Binary64) = .ok x ↔
      match n with
      | .real found _ => found = x
      | .integer found _ => round found = some x := by
  cases n with
  | real found finite => simp
  | integer found fits =>
    dsimp only
    cases round found <;> simp

theorem doubleIff {x : Binary64} :
    Source.double (.value value) = .ok x ↔ ∃ n, value = .number n ∧ x.Written n := by
  rw [Source.double, Outcome.bindOk]
  simp only [numberIff]
  exact exists_congr fun n => and_congr_right fun _ => roundedIff Binary64.ofInt?

theorem listIff {α : Type} {read : Source → Reading α} {found : List α} :
    Source.listOf read (.value value) = .ok found ↔
      ∃ items, value = .array items ∧ List.Forall₂ (fun a item => read (.value item) = .ok a) found items := by
  rw [Source.listOf, Outcome.bindOk]
  constructor
  · rintro ⟨sources, got, ok⟩
    cases value with
    | array items =>
      cases got
      have each := List.forall₂_map_left_iff.mp (Outcome.mapMEach ok)
      exact ⟨items, rfl, each.flip⟩
    | null | bool _ | number _ | string _ | object _ => cases got
  · rintro ⟨items, rfl, each⟩
    exact ⟨_, rfl, Outcome.mapMOf (List.forall₂_map_left_iff.mpr each.flip)⟩

theorem bytesIff {bytes : Bytes} : Source.listOf Source.word8 (.value value) = .ok bytes ↔ value = bytesJson bytes := by
  have same (items : List Value) : List.Forall₂ (fun b item => item = .ofNat b.toNat) bytes items ↔
      items = bytes.map (fun b => .ofNat b.toNat) := by
    constructor
    · intro each
      induction each with
      | nil => rfl
      | cons first _ ih => rw [first, ih, List.map_cons]
    · rintro rfl
      exact List.forall₂_map_right_iff.mpr (List.forall₂_same.mpr fun _ _ => rfl)
  simp only [listIff, word8Iff, same, exists_eq_right, bytesJson]

end Readers

end Json

namespace Attachment

def parts : List (RecordPart Attachment) := [
  ⟨"metadata", Source.string, fun a metadata => { a with metadata }, metadata⟩,
  ⟨"file_data", Source.listOf Source.word8, fun a data => { a with data }, data⟩]

theorem partsLawful : RecordPart.Lawful parts where
  names := by decide
  own := by simp [parts]
  apart := by simp [parts]
  whole := by
    rintro ⟨_, _⟩ ⟨_, _⟩ same
    simpa [parts] using same

theorem readIff {document : Value} {a : Attachment} : read (.value document) = .ok a ↔ a.Described document := by
  show FieldReader.readRecord (parts.map RecordPart.field) _ _ = _ ↔ _
  rw [partsLawful.readsIff, Described]
  simp only [parts, List.map_cons, List.map_nil, stringIff, bytesIff]

theorem toJsonFields (a : Attachment) :
    a.toJson = .object [("file_data", bytesJson a.data), ("metadata", .string a.metadata)] := by
  have order : ["file_data", "metadata"].Pairwise KeyOrder.Before := by decide +kernel
  exact congrArg Value.object (SortedMap.ofListSorted order (by simp) (by simp))

theorem describedToJson (a : Attachment) : a.Described a.toJson := by
  simp [toJsonFields, Described, Value.Comprises]

theorem listReadIff {value : Value} {found : List Attachment} : Source.listOf read (.value value) = .ok found ↔
    ∃ files, value = .array files ∧ List.Forall₂ Described found files := by
  rw [listIff]
  simp only [readIff]

end Attachment

namespace Packet

def parts : List (RecordPart Packet) := [
  ⟨"session_id", Source.string, fun p session => { p with session }, session⟩,
  ⟨"seq_no", Source.int64, fun p sequence => { p with sequence }, sequence⟩,
  ⟨"data", Source.string, fun p data => { p with data }, data⟩,
  ⟨"ts", Source.double, fun p timestamp => { p with timestamp }, timestamp⟩,
  ⟨"frame_ptr", Source.listOf Source.word8, fun p framePointer => { p with framePointer }, framePointer⟩,
  ⟨"files", Source.listOf Attachment.read, fun p attachments => { p with attachments }, attachments⟩,
  ⟨"output_ptr", Source.string, fun p outputPointer => { p with outputPointer }, outputPointer⟩]

theorem partsLawful : RecordPart.Lawful parts where
  names := by decide
  own := by simp [parts]
  apart := by simp [parts]
  whole := by
    rintro ⟨_, _, _, _, _, _, _⟩ ⟨_, _, _, _, _, _, _⟩ same
    simpa [parts] using same

theorem readIff {document : Value} {p : Packet} : readValue read document = .ok p ↔ p.Described document := by
  show FieldReader.readRecord (parts.map RecordPart.field) _ _ = _ ↔ _
  rw [partsLawful.readsIff, Described]
  simp only [parts, List.map_cons, List.map_nil, stringIff, int64Iff, doubleIff, bytesIff,
    Attachment.listReadIff]

theorem toJsonFields (p : Packet) : p.toJson = .object [
    ("data", .string p.data), ("files", .array (p.attachments.map Attachment.toJson)),
    ("frame_ptr", bytesJson p.framePointer), ("output_ptr", .string p.outputPointer),
    ("seq_no", .ofInt p.sequence.toInt), ("session_id", .string p.session), ("ts", p.timestamp.toJson)] := by
  have order : ["data", "files", "frame_ptr", "output_ptr", "seq_no", "session_id", "ts"].Pairwise KeyOrder.Before := by
    decide +kernel
  exact congrArg Value.object (SortedMap.ofListSorted order (by simp) (by simp))

theorem describedToJson {p : Packet} (finite : p.timestamp.isFinite = true) : p.Described p.toJson := by
  have time : p.timestamp.toJson = .number (.real p.timestamp finite) := dif_pos finite
  have files : List.Forall₂ Attachment.Described p.attachments (p.attachments.map Attachment.toJson) :=
    List.forall₂_map_right_iff.mpr (List.forall₂_same.mpr fun a _ => a.describedToJson)
  simp [toJsonFields, Described, Value.Comprises, time, files, Binary64.Written]

theorem undescribedToJson {p : Packet} (endless : p.timestamp.isFinite = false) (other : Packet) :
    ¬ other.Described p.toJson := by
  have time : p.timestamp.toJson = .null := dif_neg (by simp [endless])
  simp [toJsonFields, Described, Value.Comprises, time]

end Packet

end Vdag
