import Vdag.Failure
import Vdag.Json.Value

/-! Tasks: the record that a submission leaves, and the updates that change it. -/
namespace Vdag

def processingTask : String := "vdag_processing"

structure Task where
  id : TaskId
  category : String
  data : Json.Value
  status : TaskStatus
  statusData : Json.Value
  createdAt : Int64
  updatedAt : Int64
  deriving DecidableEq, Repr

structure TaskUpdate where
  id : TaskId
  status : TaskStatus
  statusData : Json.Value
  deriving DecidableEq, Repr

namespace Task

def pending (id : TaskId) (category : String) (data : Json.Value) (now : Int64) : Task :=
  ⟨id, category, data, .pending, .emptyObject, now, now⟩

def apply (task : Task) (update : TaskUpdate) (now : Int64) : Task :=
  { task with status := update.status, statusData := update.statusData, updatedAt := now }

end Task

namespace TaskUpdate

def completed (id : TaskId) (statusData : Json.Value) : TaskUpdate := ⟨id, .completed, statusData⟩

def failed (id : TaskId) (failure : Failure) : TaskUpdate :=
  ⟨id, .failed, .record [("error", .string failure.message), ("kind", .string failure.kind)]⟩

end TaskUpdate

end Vdag
