import Vdag.Service

/-! Tasks in memory. Ids are given out in order. -/
namespace Vdag

structure MemoryTasks where
  tasks : SortedMap TaskId Task
  created : Nat
  deriving DecidableEq, Repr

namespace MemoryTasks

abbrev Op (α : Type) : Type := Action (StateM MemoryTasks) α

def empty : MemoryTasks := ⟨.empty, 0⟩

def idOf (number : Nat) : TaskId := ⟨"task-" ++ toString number⟩

def create (now : Int64) (category : String) (data : Json.Value) : Op TaskId := ExceptT.mk fun s =>
  let id := idOf (s.created + 1)
  (.ok id, ⟨s.tasks.insert id (.pending id category data now), s.created + 1⟩)

def update (now : Int64) (change : TaskUpdate) : Op Unit := ExceptT.mk fun s =>
  match s.tasks.find? change.id with
  | some task => (.ok (), { s with tasks := s.tasks.insert change.id (task.apply change now) })
  | none => (.error (.notFound (.task change.id)), s)

def get (id : TaskId) : Op (Option Task) := ExceptT.mk fun s => (.ok (s.tasks.find? id), s)

def service (now : Int64) : TaskStore (StateM MemoryTasks) := ⟨create now, update now, get⟩

end MemoryTasks

end Vdag
