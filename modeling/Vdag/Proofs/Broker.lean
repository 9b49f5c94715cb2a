import Vdag.Memory.Broker
import Vdag.Proofs.SortedMap

/-! The queues of a broker, each by what waits in it, and the letters that are put in them. -/
namespace Vdag

namespace MemoryQueue

variable (q : MemoryQueue) (queue other : String)

theorem waitingPush (payload : Bytes) :
    (q.push queue payload).waiting other = if other = queue then q.waiting other ++ [payload] else q.waiting other := by
  rw [waiting, push, SortedMap.findInsert]
  split
  · subst other; rfl
  · rfl

theorem waitingPop : (q.pop queue).2.waiting other =
    if other = queue then (q.waiting other).tail else q.waiting other := by
  unfold pop
  split
  · rename_i empty
    split
    · subst other
      simp [empty]
    · rfl
  · rename_i payload rest found
    rw [waiting, SortedMap.findInsert]
    split
    · subst other
      simp [found]
    · rfl

theorem waitingDrain : (q.drain queue).2.waiting other = if other = queue then [] else q.waiting other := by
  rw [waiting, drain, SortedMap.findInsert]
  split <;> rfl

theorem popHead : (q.pop queue).1 = (q.waiting queue).head? := by
  unfold pop
  split <;> simp [*]

end MemoryQueue

namespace MemoryBroker

def waiting (b : MemoryBroker) (endpoint queue : String) : List Bytes := (b.server endpoint).waiting queue

theorem serverSet (b : MemoryBroker) (endpoint other : String) (server : MemoryQueue) :
    (b.setServer endpoint server).server other = if other = endpoint then server else b.server other := by
  rw [MemoryBroker.server, setServer, SortedMap.findInsert]
  split <;> rfl

theorem waitingPush (b : MemoryBroker) (endpoint queue : String) (payload : Bytes) (endpoint' queue' : String) :
    (b.push endpoint queue payload).waiting endpoint' queue' =
      if endpoint' = endpoint ∧ queue' = queue then b.waiting endpoint' queue' ++ [payload]
      else b.waiting endpoint' queue' := by
  rw [waiting, push, serverSet]
  by_cases there : endpoint' = endpoint
  · subst endpoint'
    rw [if_pos rfl, MemoryQueue.waitingPush]
    simp [waiting]
  · simp [there, waiting]

theorem waitingPop (b : MemoryBroker) (endpoint queue endpoint' queue' : String) :
    (b.pop endpoint queue).2.waiting endpoint' queue' =
      if endpoint' = endpoint ∧ queue' = queue then (b.waiting endpoint' queue').tail
      else b.waiting endpoint' queue' := by
  change (b.setServer endpoint ((b.server endpoint).pop queue).2).waiting endpoint' queue' = _
  rw [waiting, serverSet]
  by_cases there : endpoint' = endpoint
  · subst endpoint'
    rw [if_pos rfl, MemoryQueue.waitingPop]
    simp [waiting]
  · simp [there, waiting]

theorem popHead (b : MemoryBroker) (endpoint queue : String) :
    (b.pop endpoint queue).1 = (b.waiting endpoint queue).head? := MemoryQueue.popHead (b.server endpoint) queue

end MemoryBroker

structure Letter where
  endpoint : String
  queue : String
  payload : Bytes
  deriving DecidableEq, Repr

def mail (letters : List Letter) (endpoint queue : String) : List Bytes :=
  (letters.filter (fun letter => letter.endpoint = endpoint ∧ letter.queue = queue)).map Letter.payload

theorem mailAppend (first later : List Letter) (endpoint queue : String) :
    mail (first ++ later) endpoint queue = mail first endpoint queue ++ mail later endpoint queue := by
  rw [mail, List.filter_append, List.map_append, mail, mail]

namespace MemoryBroker

structure Posted (letters : List Letter) (before after : MemoryBroker) : Prop where
  unreachable : after.unreachable = before.unreachable
  waiting : ∀ endpoint queue, after.waiting endpoint queue =
    before.waiting endpoint queue ++ mail letters endpoint queue

namespace Posted

theorem refl (b : MemoryBroker) : Posted [] b b := ⟨rfl, fun _ _ => (List.append_nil _).symm⟩

theorem trans {first later : List Letter} {a b c : MemoryBroker} (posted : Posted first a b)
    (posted' : Posted later b c) : Posted (first ++ later) a c where
  unreachable := posted'.unreachable.trans posted.unreachable
  waiting endpoint queue := by rw [posted'.waiting, posted.waiting, mailAppend, List.append_assoc]

theorem postedPush (b : MemoryBroker) (letter : Letter) :
    Posted [letter] b (b.push letter.endpoint letter.queue letter.payload) where
  unreachable := rfl
  waiting endpoint queue := by
    rw [waitingPush, mail]
    by_cases here : endpoint = letter.endpoint ∧ queue = letter.queue
    · obtain ⟨rfl, rfl⟩ := here
      simp
    · have elsewhere : ¬ (letter.endpoint = endpoint ∧ letter.queue = queue) := fun h => here ⟨h.1.symm, h.2.symm⟩
      simp [here, elsewhere]

end Posted

end MemoryBroker

end Vdag
