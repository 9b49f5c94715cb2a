import Mathlib.Logic.Function.Basic
import Vdag.Proofs.Broker

/-! Queues shared by any number of clients. A push is one step. A client that pops looks again and again, until it finds
something or gives up after a look that found nothing; one that drains looks until it finds nothing. Others may come in
between any two looks. A turn accounts for what it moves: what was taken from a queue and what waits there is what was
pushed to it, and what a client's calls returned and what it has in hand is what it has taken. -/
namespace Vdag

inductive QueueCall where
  | push (queue : String) (payload : Bytes)
  | pop (queue : String)
  | drain (queue : String)
  deriving DecidableEq, Repr

/- What a client is at: a pop, and whether its last look was in vain, or a drain, and what it has taken so far. -/
inductive Occupation where
  | idle
  | popping (queue : String) (vain : Bool)
  | draining (queue : String) (taken : List Bytes)
  deriving DecidableEq, Repr

inductive QueueEvent (ι : Type) where
  | pushed (i : ι) (queue : String) (payload : Bytes)
  | took (i : ι) (queue : String) (payload : Bytes)
  | popped (i : ι) (queue : String) (answer : Option Bytes)
  | drained (i : ι) (queue : String) (answer : List Bytes)
  deriving DecidableEq, Repr

structure Sharing (ι : Type) where
  queues : MemoryQueue
  clients : ι → Occupation
  journal : List (QueueEvent ι)

namespace Occupation

def queue? : Occupation → Option String
  | .idle => none
  | .popping queue _ | .draining queue _ => some queue

def inHand (queue : String) : Occupation → List Bytes
  | .draining other taken => if other = queue then taken else []
  | .idle | .popping _ _ => []

end Occupation

namespace QueueEvent

variable {ι : Type}

def client : QueueEvent ι → ι
  | .pushed i _ _ | .took i _ _ | .popped i _ _ | .drained i _ _ => i

def queue : QueueEvent ι → String
  | .pushed _ queue _ | .took _ queue _ | .popped _ queue _ | .drained _ queue _ => queue

def pushedTo (queue : String) : QueueEvent ι → List Bytes
  | .pushed _ other payload => if other = queue then [payload] else []
  | _ => []

def takenFrom (queue : String) : QueueEvent ι → List Bytes
  | .took _ other payload => if other = queue then [payload] else []
  | _ => []

def returnedFrom (queue : String) : QueueEvent ι → List Bytes
  | .popped _ other answer => if other = queue then answer.toList else []
  | .drained _ other answer => if other = queue then answer else []
  | _ => []

variable [DecidableEq ι]

def takenBy (i : ι) (queue : String) : QueueEvent ι → List Bytes
  | .took j other payload => if j = i ∧ other = queue then [payload] else []
  | _ => []

def returnedTo (i : ι) (queue : String) : QueueEvent ι → List Bytes
  | .popped j other answer => if j = i ∧ other = queue then answer.toList else []
  | .drained j other answer => if j = i ∧ other = queue then answer else []
  | _ => []

section Elsewhere

variable {events : List (QueueEvent ι)} {i j : ι} {queue other : String}

omit [DecidableEq ι] in
theorem noneElsewhere (about : ∀ event ∈ events, event.queue = queue) (apart : other ≠ queue) :
    events.flatMap (pushedTo other) = [] ∧ events.flatMap (takenFrom other) = [] := by
  simp only [List.flatMap_eq_nil_iff]
  constructor
  all_goals
    intro event member
    have own := about event member
    cases event <;> simp_all [QueueEvent.queue, pushedTo, takenFrom, Ne.symm apart]

theorem noneOfOthers (mine : ∀ event ∈ events, event.client = i) (apart : j ≠ i) (queue : String) :
    events.flatMap (returnedTo j queue) = [] ∧ events.flatMap (takenBy j queue) = [] := by
  simp only [List.flatMap_eq_nil_iff]
  constructor
  all_goals
    intro event member
    have own := mine event member
    cases event <;> simp_all [client, returnedTo, takenBy, Ne.symm apart]

end Elsewhere

end QueueEvent

namespace Sharing

variable {ι : Type}

/- A client begins a call, looks into the queue that it pops or drains, or waits no longer. A turn that is not for its
client to take changes nothing. -/
inductive Turn (ι : Type) where
  | call (i : ι) (call : QueueCall)
  | look (i : ι)
  | giveUp (i : ι)
  deriving DecidableEq, Repr

def start : Sharing ι := ⟨.empty, fun _ => .idle, []⟩

variable [DecidableEq ι]

def move (s : Sharing ι) (i : ι) (occupation : Occupation) (queues : MemoryQueue) (events : List (QueueEvent ι)) :
    Sharing ι :=
  ⟨queues, Function.update s.clients i occupation, s.journal ++ events⟩

def begin (s : Sharing ι) (i : ι) : QueueCall → Sharing ι
  | .push queue payload => s.move i .idle (s.queues.push queue payload) [.pushed i queue payload]
  | .pop queue => s.move i (.popping queue false) s.queues []
  | .drain queue => s.move i (.draining queue []) s.queues []

def look (s : Sharing ι) (i : ι) : Sharing ι :=
  match s.clients i with
  | .idle => s
  | .popping queue _ => match s.queues.pop queue with
      | (some payload, left) => s.move i .idle left [.took i queue payload, .popped i queue (some payload)]
      | (none, left) => s.move i (.popping queue true) left []
  | .draining queue taken => match s.queues.pop queue with
      | (some payload, left) => s.move i (.draining queue (taken ++ [payload])) left [.took i queue payload]
      | (none, left) => s.move i .idle left [.drained i queue taken]

def turn (s : Sharing ι) : Turn ι → Sharing ι
  | .call i call => match s.clients i with
      | .idle => s.begin i call
      | .popping _ _ | .draining _ _ => s
  | .look i => s.look i
  | .giveUp i => match s.clients i with
      | .popping queue true => s.move i .idle s.queues [.popped i queue none]
      | _ => s

def turns (s : Sharing ι) (order : List (Turn ι)) : Sharing ι := order.foldl turn s

def concerns? (s : Sharing ι) : Turn ι → Option String
  | .call _ (.push queue _) | .call _ (.pop queue) | .call _ (.drain queue) => some queue
  | .look i | .giveUp i => (s.clients i).queue?

omit [DecidableEq ι] in
def pushedTo (s : Sharing ι) (queue : String) : List Bytes := s.journal.flatMap (QueueEvent.pushedTo queue)

omit [DecidableEq ι] in
def takenFrom (s : Sharing ι) (queue : String) : List Bytes := s.journal.flatMap (QueueEvent.takenFrom queue)

omit [DecidableEq ι] in
def returnedFrom (s : Sharing ι) (queue : String) : List Bytes := s.journal.flatMap (QueueEvent.returnedFrom queue)

def takenBy (s : Sharing ι) (i : ι) (queue : String) : List Bytes := s.journal.flatMap (QueueEvent.takenBy i queue)

def returnedTo (s : Sharing ι) (i : ι) (queue : String) : List Bytes :=
  s.journal.flatMap (QueueEvent.returnedTo i queue)

inductive Moves (s : Sharing ι) : Turn ι → Sharing ι → Prop
  | still {turn : Turn ι} (idle : ∀ i, turn = .look i → s.clients i = .idle) : Moves s turn s
  | began {i : ι} {call : QueueCall} (idle : s.clients i = .idle) : Moves s (.call i call) (s.begin i call)
  | popped {i : ι} {queue : String} {vain : Bool} {payload : Bytes} {rest : List Bytes}
      (popping : s.clients i = .popping queue vain) (waits : s.queues.waiting queue = payload :: rest) :
      Moves s (.look i)
        (s.move i .idle (s.queues.pop queue).2 [.took i queue payload, .popped i queue (some payload)])
  | missed {i : ι} {queue : String} {vain : Bool} (popping : s.clients i = .popping queue vain)
      (empty : s.queues.waiting queue = []) :
      Moves s (.look i) (s.move i (.popping queue true) (s.queues.pop queue).2 [])
  | took {i : ι} {queue : String} {taken : List Bytes} {payload : Bytes} {rest : List Bytes}
      (draining : s.clients i = .draining queue taken) (waits : s.queues.waiting queue = payload :: rest) :
      Moves s (.look i)
        (s.move i (.draining queue (taken ++ [payload])) (s.queues.pop queue).2 [.took i queue payload])
  | drained {i : ι} {queue : String} {taken : List Bytes} (draining : s.clients i = .draining queue taken)
      (empty : s.queues.waiting queue = []) :
      Moves s (.look i) (s.move i .idle (s.queues.pop queue).2 [.drained i queue taken])
  | gaveUp {i : ι} {queue : String} (popping : s.clients i = .popping queue true) :
      Moves s (.giveUp i) (s.move i .idle s.queues [.popped i queue none])

theorem popCases (q : MemoryQueue) (queue : String) :
    (q.waiting queue = [] ∧ q.pop queue = (none, (q.pop queue).2)) ∨
      ∃ payload rest, q.waiting queue = payload :: rest ∧ q.pop queue = (some payload, (q.pop queue).2) := by
  have first := q.popHead queue
  cases waits : q.waiting queue with
  | nil =>
    rw [waits] at first
    exact .inl ⟨rfl, Prod.ext first rfl⟩
  | cons payload rest =>
    rw [waits] at first
    exact .inr ⟨payload, rest, rfl, Prod.ext first rfl⟩

theorem turnMoves (s : Sharing ι) (turn : Turn ι) : Moves s turn (s.turn turn) := by
  cases turn with
  | call i call =>
    rw [Sharing.turn]
    cases doing : s.clients i with
    | idle => exact .began doing
    | popping queue vain | draining queue taken => exact .still fun _ look => nomatch look
  | look i =>
    rw [Sharing.turn, look]
    cases doing : s.clients i with
    | idle =>
      refine .still fun j same => ?_
      cases same
      exact doing
    | popping queue vain =>
      rcases popCases s.queues queue with ⟨empty, found⟩ | ⟨payload, rest, waits, found⟩
      · dsimp only
        rw [found]
        exact .missed doing empty
      · dsimp only
        rw [found]
        exact .popped doing waits
    | draining queue taken =>
      rcases popCases s.queues queue with ⟨empty, found⟩ | ⟨payload, rest, waits, found⟩
      · dsimp only
        rw [found]
        exact .drained doing empty
      · dsimp only
        rw [found]
        exact .took doing waits
  | giveUp i =>
    rw [Sharing.turn]
    split
    · rename_i queue doing
      exact .gaveUp doing
    · exact .still fun _ look => nomatch look

section Accounts

variable {s after : Sharing ι} {turn : Turn ι}

section Moved

variable (s) (i j : ι) (occupation : Occupation) (queues : MemoryQueue) (events : List (QueueEvent ι)) (queue : String)

@[simp] theorem queuesMove : (s.move i occupation queues events).queues = queues := rfl

@[simp] theorem pushedToMove : (s.move i occupation queues events).pushedTo queue =
    s.pushedTo queue ++ events.flatMap (QueueEvent.pushedTo queue) := List.flatMap_append

@[simp] theorem takenFromMove : (s.move i occupation queues events).takenFrom queue =
    s.takenFrom queue ++ events.flatMap (QueueEvent.takenFrom queue) := List.flatMap_append

@[simp] theorem returnedFromMove : (s.move i occupation queues events).returnedFrom queue =
    s.returnedFrom queue ++ events.flatMap (QueueEvent.returnedFrom queue) := List.flatMap_append

@[simp] theorem takenByMove : (s.move i occupation queues events).takenBy j queue =
    s.takenBy j queue ++ events.flatMap (QueueEvent.takenBy j queue) := List.flatMap_append

@[simp] theorem returnedToMove : (s.move i occupation queues events).returnedTo j queue =
    s.returnedTo j queue ++ events.flatMap (QueueEvent.returnedTo j queue) := List.flatMap_append

@[simp] theorem clientsMove : (s.move i occupation queues events).clients j =
    if j = i then occupation else s.clients j := Function.update_apply ..

end Moved

def Conserves (s : Sharing ι) : Prop := ∀ queue, s.takenFrom queue ++ s.queues.waiting queue = s.pushedTo queue

theorem Conserves.keptByMove (before : s.Conserves) {i : ι} {occupation : Occupation} {queues : MemoryQueue}
    {events : List (QueueEvent ι)} (queue : String) (about : ∀ event ∈ events, event.queue = queue)
    (elsewhere : ∀ other, other ≠ queue → queues.waiting other = s.queues.waiting other)
    (here : s.takenFrom queue ++ events.flatMap (QueueEvent.takenFrom queue) ++ queues.waiting queue =
      s.pushedTo queue ++ events.flatMap (QueueEvent.pushedTo queue)) :
    (s.move i occupation queues events).Conserves := by
  intro other
  by_cases same : other = queue
  · subst other
    simpa using here
  · obtain ⟨pushed, taken⟩ := QueueEvent.noneElsewhere about same
    simp [pushed, taken, elsewhere other same, before other]

theorem Moves.conservesAfter (moves : Moves s turn after) (before : s.Conserves) : after.Conserves := by
  cases moves with
  | still => exact before
  | @began i call idle =>
    cases call with
    | push queue payload =>
      refine before.keptByMove queue (by simp [QueueEvent.queue]) (fun other apart => ?_) ?_
      · simp [MemoryQueue.waitingPush, apart]
      · simp [MemoryQueue.waitingPush, QueueEvent.takenFrom, QueueEvent.pushedTo, ← before queue]
    | pop queue | drain queue => exact before.keptByMove queue (by simp) (fun _ _ => rfl) (by simpa using before queue)
  | @popped _ queue _ payload rest _ waits | @took _ queue _ payload rest _ waits =>
    refine before.keptByMove queue (by simp [QueueEvent.queue]) (fun other apart => ?_) ?_
    · simp [MemoryQueue.waitingPop, apart]
    · simp [MemoryQueue.waitingPop, QueueEvent.takenFrom, QueueEvent.pushedTo, ← before queue, waits]
  | @missed _ queue _ _ empty | @drained _ queue _ _ empty =>
    refine before.keptByMove queue (by simp [QueueEvent.queue]) (fun other apart => ?_) ?_
    · simp [MemoryQueue.waitingPop, apart]
    · simp [MemoryQueue.waitingPop, QueueEvent.takenFrom, QueueEvent.pushedTo, ← before queue, empty]
  | @gaveUp _ queue _ =>
    refine before.keptByMove queue (by simp [QueueEvent.queue]) (fun _ _ => rfl) ?_
    simpa [QueueEvent.takenFrom, QueueEvent.pushedTo] using before queue

/- What a client's calls have returned, and then what it has in hand, is what the client has taken. -/
def Owned (s : Sharing ι) : Prop :=
  ∀ i queue, s.returnedTo i queue ++ (s.clients i).inHand queue = s.takenBy i queue

theorem Owned.keptByMove (before : s.Owned) {i : ι} {occupation : Occupation} {queues : MemoryQueue}
    {events : List (QueueEvent ι)} (mine : ∀ event ∈ events, event.client = i)
    (own : ∀ queue, s.returnedTo i queue ++ events.flatMap (QueueEvent.returnedTo i queue) ++ occupation.inHand queue =
      s.takenBy i queue ++ events.flatMap (QueueEvent.takenBy i queue)) :
    (s.move i occupation queues events).Owned := by
  intro j queue
  by_cases same : j = i
  · subst j
    simpa using own queue
  · obtain ⟨returned, taken⟩ := QueueEvent.noneOfOthers mine same queue
    simp [returned, taken, same, before j queue]

theorem Moves.ownedAfter (moves : Moves s turn after) (before : s.Owned) : after.Owned := by
  cases moves with
  | still => exact before
  | @began i call idle =>
    have free (queue : String) : s.returnedTo i queue = s.takenBy i queue := by
      simpa [idle, Occupation.inHand] using before i queue
    cases call <;>
      exact before.keptByMove (by simp [QueueEvent.client])
        (by simp [QueueEvent.returnedTo, QueueEvent.takenBy, Occupation.inHand, free])
  | @popped i queue _ payload _ popping _ =>
    refine before.keptByMove (by simp [QueueEvent.client]) fun other => ?_
    have free : s.returnedTo i other = s.takenBy i other := by
      simpa [popping, Occupation.inHand] using before i other
    by_cases same : queue = other <;>
      simp [QueueEvent.returnedTo, QueueEvent.takenBy, Occupation.inHand, same, free]
  | @missed i queue _ popping _ =>
    refine before.keptByMove (by simp) fun other => ?_
    simpa [popping, Occupation.inHand] using before i other
  | @took i queue taken payload _ draining _ =>
    refine before.keptByMove (by simp [QueueEvent.client]) fun other => ?_
    by_cases same : queue = other
    · simp [QueueEvent.returnedTo, QueueEvent.takenBy, Occupation.inHand, same, ← before i other, draining]
    · simpa [QueueEvent.returnedTo, QueueEvent.takenBy, Occupation.inHand, same, draining] using before i other
  | @drained i queue taken draining _ =>
    refine before.keptByMove (by simp [QueueEvent.client]) fun other => ?_
    by_cases same : queue = other <;>
      simpa [QueueEvent.returnedTo, QueueEvent.takenBy, Occupation.inHand, same, draining] using before i other
  | @gaveUp i queue popping =>
    refine before.keptByMove (by simp [QueueEvent.client]) fun other => ?_
    simpa [QueueEvent.returnedTo, QueueEvent.takenBy, Occupation.inHand, popping] using before i other

theorem Moves.waitingElsewhere (moves : Moves s turn after) {queue : String} (other : s.concerns? turn ≠ some queue) :
    after.queues.waiting queue = s.queues.waiting queue := by
  cases moves with
  | still => rfl
  | @began i call idle =>
    cases call with
    | push target payload =>
      have target : queue ≠ target := fun same => other (congrArg some same.symm)
      simp [begin, MemoryQueue.waitingPush, target]
    | pop target | drain target => rfl
  | @popped i target _ _ _ doing _ | @missed i target _ doing _ | @took i target _ _ _ doing _
  | @drained i target _ doing _ =>
    have target : queue ≠ target := fun same => other (by simp [concerns?, doing, Occupation.queue?, same])
    simp [MemoryQueue.waitingPop, target]
  | gaveUp => rfl

end Accounts

end Sharing

end Vdag
