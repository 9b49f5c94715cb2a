import Vdag.Json.Reading

/-! Packets: the unit of work that blocks pass on, and its form as JSON, in which policies see it. -/
namespace Vdag

open Json

abbrev Bytes := List UInt8

structure Attachment where
  metadata : String
  data : Bytes
  deriving DecidableEq, Repr

structure Packet where
  session : String
  sequence : Int64
  data : String
  timestamp : Binary64
  framePointer : Bytes
  attachments : List Attachment
  outputPointer : String
  deriving DecidableEq, Repr

def bytesJson (bytes : Bytes) : Value := .array (bytes.map (fun byte => .ofNat byte.toNat))

def Binary64.toJson (x : Binary64) : Value :=
  if h : x.isFinite = true then .number (.real x h) else .null

namespace Attachment

def fields : List (FieldReader Attachment) := [
  .mandatory "metadata" Source.string (fun a metadata => { a with metadata }),
  .mandatory "file_data" (Source.listOf Source.word8) (fun a data => { a with data })]

def read : Source → Reading Attachment := FieldReader.readRecord fields ⟨"", []⟩

def toJson (a : Attachment) : Value := .record [("metadata", .string a.metadata), ("file_data", bytesJson a.data)]

end Attachment

namespace Packet

def blank : Packet := ⟨"", 0, "", .zero, [], [], ""⟩

instance : Inhabited Packet := ⟨blank⟩

def fields : List (FieldReader Packet) := [
  .mandatory "session_id" Source.string (fun p session => { p with session }),
  .mandatory "seq_no" Source.int64 (fun p sequence => { p with sequence }),
  .mandatory "data" Source.string (fun p data => { p with data }),
  .mandatory "ts" Source.double (fun p timestamp => { p with timestamp }),
  .mandatory "frame_ptr" (Source.listOf Source.word8) (fun p framePointer => { p with framePointer }),
  .mandatory "files" (Source.listOf Attachment.read) (fun p attachments => { p with attachments }),
  .mandatory "output_ptr" Source.string (fun p outputPointer => { p with outputPointer })]

def read : Source → Reading Packet := FieldReader.readRecord fields blank

def toJson (p : Packet) : Value := .record [
  ("session_id", .string p.session), ("seq_no", .ofInt p.sequence.toInt), ("data", .string p.data),
  ("ts", p.timestamp.toJson), ("frame_ptr", bytesJson p.framePointer),
  ("files", .array (p.attachments.map Attachment.toJson)), ("output_ptr", .string p.outputPointer)]

def wrapped (p : Packet) : Value := .object [("packet", p.toJson)]

end Packet

end Vdag
