import Vdag.Service

/-! Queues in memory: for each name the payloads waiting, the oldest first. -/
namespace Vdag

structure MemoryQueue where
  queues : SortedMap String (List Bytes)
  deriving DecidableEq, Repr

namespace MemoryQueue

def empty : MemoryQueue := ⟨.empty⟩

def waiting (q : MemoryQueue) (queue : String) : List Bytes := (q.queues.find? queue).getD []

def length (q : MemoryQueue) (queue : String) : Nat := (q.waiting queue).length

def push (q : MemoryQueue) (queue : String) (payload : Bytes) : MemoryQueue :=
  ⟨q.queues.insert queue (q.waiting queue ++ [payload])⟩

def pop (q : MemoryQueue) (queue : String) : Option Bytes × MemoryQueue :=
  match q.waiting queue with
  | [] => (none, q)
  | payload :: rest => (some payload, ⟨q.queues.insert queue rest⟩)

def drain (q : MemoryQueue) (queue : String) : List Bytes × MemoryQueue :=
  (q.waiting queue, ⟨q.queues.insert queue []⟩)

end MemoryQueue

end Vdag
