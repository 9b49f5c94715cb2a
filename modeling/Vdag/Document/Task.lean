import Vdag.Json.Reading
import Vdag.Task

/-! Tasks, their updates, and queued submissions in documents. -/
namespace Vdag

open Json

structure TaskDocument where
  id : String
  category : String
  data : Value
  status : String
  statusData : Value
  createdAt : Int64
  updatedAt : Int64
  deriving DecidableEq, Repr

structure TaskUpdateDocument where
  id : String
  status : String
  statusData : Value
  deriving DecidableEq, Repr

structure SubmissionMessage where
  taskId : String
  taskData : Value
  deriving DecidableEq, Repr

namespace TaskDocument

def fields : List (FieldReader TaskDocument) := [
  .mandatory "task_id" Source.string (fun d id => { d with id }),
  .defaulted "task_type" Source.string (fun d category => { d with category }),
  .defaulted "task_data" Source.any (fun d data => { d with data }),
  .defaulted "task_status" Source.string (fun d status => { d with status }),
  .defaulted "task_status_data" Source.any (fun d statusData => { d with statusData }),
  .defaulted "task_create_timestamp" Source.int64 (fun d createdAt => { d with createdAt }),
  .defaulted "task_update_timestamp" Source.int64 (fun d updatedAt => { d with updatedAt })]

def read : Source → Reading TaskDocument := FieldReader.readRecord fields ⟨"", "", .null, "pending", .null, 0, 0⟩

def toJson (d : TaskDocument) : Value := .record [
  ("task_id", .string d.id), ("task_type", .string d.category), ("task_data", d.data),
  ("task_status", .string d.status), ("task_status_data", d.statusData),
  ("task_create_timestamp", .ofInt d.createdAt.toInt), ("task_update_timestamp", .ofInt d.updatedAt.toInt)]

end TaskDocument

namespace TaskUpdateDocument

def fields : List (FieldReader TaskUpdateDocument) := [
  .mandatory "task_id" Source.string (fun d id => { d with id }),
  .mandatory "status" Source.string (fun d status => { d with status }),
  .defaulted "task_status_data" Source.any (fun d statusData => { d with statusData })]

def read : Source → Reading TaskUpdateDocument := FieldReader.readRecord fields ⟨"", "", .null⟩

def toJson (d : TaskUpdateDocument) : Value := .record [
  ("task_id", .string d.id), ("status", .string d.status), ("task_status_data", d.statusData)]

end TaskUpdateDocument

namespace SubmissionMessage

def fields : List (FieldReader SubmissionMessage) := [
  .mandatory "task_id" Source.string (fun d taskId => { d with taskId }),
  .mandatory "task_data" Source.any (fun d taskData => { d with taskData })]

def read : Source → Reading SubmissionMessage := FieldReader.readRecord fields ⟨"", .null⟩

def toJson (m : SubmissionMessage) : Value := .record [("task_id", .string m.taskId), ("task_data", m.taskData)]

end SubmissionMessage

def taskStatusOf (text : String) : Outcome TaskStatus :=
  match TaskStatus.ofText? text with
  | some status => .ok status
  | none => .error (.definition (.unknownTaskStatus text))

namespace Task

def ofDocument (d : TaskDocument) : Outcome Task := do
  let status ← taskStatusOf d.status
  .ok ⟨⟨d.id⟩, d.category, d.data, status, d.statusData, d.createdAt, d.updatedAt⟩

def toDocument (task : Task) : TaskDocument :=
  ⟨task.id.text, task.category, task.data, task.status.text, task.statusData, task.createdAt, task.updatedAt⟩

end Task

namespace TaskUpdate

def ofDocument (d : TaskUpdateDocument) : Outcome TaskUpdate := do
  let status ← taskStatusOf d.status
  .ok ⟨⟨d.id⟩, status, d.statusData⟩

def toDocument (update : TaskUpdate) : TaskUpdateDocument :=
  ⟨update.id.text, update.status.text, update.statusData⟩

end TaskUpdate

end Vdag
