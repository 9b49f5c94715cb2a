import Mathlib.Data.List.Flatten
import Mathlib.Data.List.Induction
import Vdag.Proofs.Queue.Sharing

/-! What the calls of clients that share queues return, after any turns. What is taken from a queue, in the order of
the looks, and then what waits there, is all that was ever pushed to it. Calls return it in that order too, unless a
client takes something while the drain of another still holds what came before. Who got nothing had looked last where
nothing was. -/
namespace Vdag

namespace Sharing

variable {ι : Type} [DecidableEq ι]

section Runs

variable {i : ι} {queue : String}

theorem turnsSnoc (s : Sharing ι) (order : List (Turn ι)) (last : Turn ι) :
    s.turns (order ++ [last]) = (s.turns order).turn last := List.foldl_append

theorem turnsKeep {Kept : Sharing ι → Prop} (step : ∀ s turn, Kept s → Kept (s.turn turn)) (s : Sharing ι)
    (order : List (Turn ι)) (holds : Kept s) : Kept (s.turns order) := by
  induction order generalizing s with
  | nil => exact holds
  | cons turn order ih => exact ih (s.turn turn) (step s turn holds)

theorem runConserves (order : List (Turn ι)) : (start.turns order).Conserves :=
  turnsKeep (fun s turn => (s.turnMoves turn).conservesAfter) start order fun _ => rfl

theorem runOwned (order : List (Turn ι)) : (start.turns order).Owned :=
  turnsKeep (fun s turn => (s.turnMoves turn).ownedAfter) start order fun _ _ => rfl

theorem takenBySublist (s : Sharing ι) (i : ι) (queue : String) :
    (s.takenBy i queue).Sublist (s.takenFrom queue) := by
  refine List.Sublist.flatMap_right s.journal fun event _ => ?_
  cases event with
  | took j other payload =>
    by_cases own : other = queue
    · by_cases mine : j = i <;> simp [QueueEvent.takenBy, QueueEvent.takenFrom, own, mine]
    · simp [QueueEvent.takenBy, QueueEvent.takenFrom, own]
  | pushed | popped | drained => exact .slnil

/- The last look of a client, when a pop of the queue found nothing there. -/
structure InVain (i : ι) (queue : String) (order before later : List (Turn ι)) : Prop where
  splits : order = before ++ .look i :: later
  last : .look i ∉ later
  popping : ∃ vain, (start.turns before).clients i = .popping queue vain
  empty : (start.turns before).queues.waiting queue = []

theorem Moves.lookedInVain {s after : Sharing ι} {turn : Turn ι} (moves : Moves s turn after)
    (popping : after.clients i = .popping queue true) :
    (turn ≠ .look i ∧ s.clients i = .popping queue true) ∨
      turn = .look i ∧ s.queues.waiting queue = [] ∧ ∃ vain, s.clients i = .popping queue vain := by
  cases moves with
  | still idle =>
    refine .inl ⟨fun look => ?_, popping⟩
    rw [idle i look] at popping
    cases popping
  | @began j call idle =>
    refine .inl ⟨by simp, ?_⟩
    by_cases own : i = j
    · cases call <;> simp [begin, own] at popping
    · cases call <;> simpa [begin, own] using popping
  | @missed j other vain doing empty =>
    by_cases own : i = j
    · subst j
      obtain rfl : other = queue := by simpa using popping
      exact .inr ⟨rfl, empty, vain, doing⟩
    · exact .inl ⟨fun same => own (Turn.look.inj same).symm, by simpa [own] using popping⟩
  | @popped j _ _ _ _ _ _ | @took j _ _ _ _ _ _ | @drained j _ _ _ _ =>
    by_cases own : i = j
    · simp [own] at popping
    · exact .inl ⟨fun same => own (Turn.look.inj same).symm, by simpa [own] using popping⟩
  | @gaveUp j other doing =>
    by_cases own : i = j
    · simp [own] at popping
    · exact .inl ⟨by simp, by simpa [own] using popping⟩

theorem lastLook (order : List (Turn ι)) (popping : (start.turns order).clients i = .popping queue true) :
    ∃ before later, InVain i queue order before later := by
  induction order using List.reverseRecOn with
  | nil => cases popping
  | append_singleton order last ih =>
    rw [turnsSnoc] at popping
    rcases (turnMoves _ last).lookedInVain popping with ⟨other, already⟩ | ⟨rfl, empty, doing⟩
    · obtain ⟨before, later, vain⟩ := ih already
      exact ⟨before, later ++ [last], by simp [vain.splits],
        by simp [vain.last, Ne.symm other], vain.popping, vain.empty⟩
    · exact ⟨order, [], rfl, List.not_mem_nil, doing, empty⟩

theorem Moves.wroteEvents {s after : Sharing ι} {turn : Turn ι} (moves : Moves s turn after) :
    ∃ events, after.journal = s.journal ++ events ∧ ∀ i queue, .popped i queue none ∈ events →
      events = [.popped i queue none] ∧ turn = .giveUp i ∧ s.clients i = .popping queue true := by
  cases moves with
  | still => exact ⟨[], (List.append_nil _).symm, by simp⟩
  | @began i call _ => cases call <;> exact ⟨_, rfl, by simp⟩
  | popped | missed | took | drained => exact ⟨_, rfl, by simp⟩
  | @gaveUp i queue popping =>
    refine ⟨_, rfl, fun j other answered => ?_⟩
    obtain ⟨rfl, rfl⟩ : j = i ∧ other = queue := by simpa using answered
    exact ⟨rfl, rfl, popping⟩

theorem nothingFound (order : List (Turn ι)) {earlier others : List (QueueEvent ι)}
    (answered : (start.turns order).journal = earlier ++ .popped i queue none :: others) :
    ∃ served rest before later, order = served ++ .giveUp i :: rest ∧ (start.turns served).journal = earlier ∧
      InVain i queue served before later := by
  induction order using List.reverseRecOn generalizing others with
  | nil => simp [turns, start] at answered
  | append_singleton order last ih =>
    obtain ⟨events, wrote, vain⟩ := (turnMoves (start.turns order) last).wroteEvents
    rw [turnsSnoc, wrote] at answered
    rcases List.append_eq_append_iff.1 answered with ⟨late, lateStart, lateRest⟩ | ⟨found, early, foundRest⟩
    · obtain ⟨sole, rfl, popping⟩ := vain i queue (by simp [lateRest])
      obtain rfl : late = [] := by
        cases late with
        | nil => rfl
        | cons event late => simp [sole] at lateRest
      obtain ⟨before, later, inVain⟩ := lastLook order popping
      exact ⟨order, [], before, later, rfl, by simpa using lateStart.symm, inVain⟩
    · cases found with
      | nil =>
        have here : events = .popped i queue none :: others := foundRest.symm
        obtain ⟨-, rfl, popping⟩ := vain i queue (by simp [here])
        obtain ⟨before, later, inVain⟩ := lastLook order popping
        exact ⟨order, [], before, later, rfl, by simpa using early, inVain⟩
      | cons event found =>
        obtain ⟨rfl, -⟩ := List.cons.inj foundRest
        obtain ⟨served, rest, before, later, rfl, journal, inVain⟩ := ih early
        exact ⟨served, rest ++ [last], before, later, by simp, journal, inVain⟩

structure DrainedAlone (s after : Sharing ι) (i : ι) (queue : String) (taken : List Bytes) : Prop where
  journal : after.journal = s.journal ++ (s.queues.drain queue).1.map (.took i queue) ++
    [.drained i queue (taken ++ (s.queues.drain queue).1)]
  clients : after.clients = Function.update s.clients i .idle
  waiting : ∀ other, after.queues.waiting other = (s.queues.drain queue).2.waiting other

theorem drainAlone (s : Sharing ι) {taken : List Bytes} (draining : s.clients i = .draining queue taken) :
    DrainedAlone s (s.turns (List.replicate (s.queues.length queue + 1) (.look i))) i queue taken := by
  rw [MemoryQueue.length]
  induction waits : s.queues.waiting queue generalizing s taken with
  | nil =>
    have looked : s.turns (List.replicate 1 (.look i)) = s.move i .idle s.queues [.drained i queue taken] := by
      simp [turns, turn, look, draining, MemoryQueue.pop, waits]
    rw [List.length_nil, Nat.zero_add, looked]
    exact {
      journal := by simp [move, MemoryQueue.drain, waits]
      clients := rfl
      waiting := fun other => by
        by_cases same : other = queue <;> simp [MemoryQueue.waitingDrain, same, waits] }
  | cons payload rest ih =>
    have looked : s.look i = s.move i (.draining queue (taken ++ [payload])) (s.queues.pop queue).2
        [.took i queue payload] := by simp [look, draining, MemoryQueue.pop, waits]
    have still : (s.look i).clients i = .draining queue (taken ++ [payload]) := by simp [looked]
    have after := ih (s.look i) still (by simp [looked, MemoryQueue.waitingPop, waits])
    have first : s.turns (List.replicate (rest.length + 2) (.look i)) =
        (s.look i).turns (List.replicate (rest.length + 1) (.look i)) := rfl
    rw [List.length_cons, first]
    exact {
      journal := by
        rw [after.journal, looked]
        simp [move, MemoryQueue.drain, MemoryQueue.waitingPop, waits]
      clients := by
        rw [after.clients, looked]
        simp [move]
      waiting := fun other => by
        rw [after.waiting, looked]
        by_cases same : other = queue <;> simp [MemoryQueue.waitingDrain, MemoryQueue.waitingPop, same] }

def Overtakes (s : Sharing ι) (queue : String) (turn : Turn ι) : Prop :=
  ∃ i j, i ≠ j ∧ turn = .look j ∧ (s.clients i).inHand queue ≠ [] ∧ (s.clients j).queue? = some queue ∧
    s.queues.waiting queue ≠ []

/- Nobody takes from the queue while the drain of another client holds what it has taken there. -/
def NoneOvertaken (queue : String) (order : List (Turn ι)) : Prop :=
  ∀ before turn later, order = before ++ turn :: later → ¬ (start.turns before).Overtakes queue turn

inductive Holding (s : Sharing ι) (queue : String) : List Bytes → Prop
  | nobody (empty : ∀ i, (s.clients i).inHand queue = []) : Holding s queue []
  | one (i : ι) (others : ∀ j, j ≠ i → (s.clients j).inHand queue = []) : Holding s queue ((s.clients i).inHand queue)

def InTurn (s : Sharing ι) (queue : String) : Prop :=
  ∃ hand, s.Holding queue hand ∧ s.returnedFrom queue ++ hand = s.takenFrom queue

section Overtaking

variable {s after : Sharing ι} {hand : List Bytes}

theorem Holding.heldAlone (holding : s.Holding queue hand) (i : ι)
    (others : ∀ j, j ≠ i → (s.clients j).inHand queue = []) : hand = (s.clients i).inHand queue := by
  cases holding with
  | nobody empty => exact (empty i).symm
  | one k elsewhere =>
    by_cases own : k = i
    · rw [own]
    · rw [others k own, elsewhere i (Ne.symm own)]

theorem Holding.keptByMove (holding : s.Holding queue hand) {occupation : Occupation} {queues : MemoryQueue}
    {events : List (QueueEvent ι)} (same : occupation.inHand queue = (s.clients i).inHand queue) :
    (s.move i occupation queues events).Holding queue hand := by
  have hands : ∀ j, ((s.move i occupation queues events).clients j).inHand queue = (s.clients j).inHand queue := by
    intro j
    by_cases own : j = i
    · simp [own, same]
    · simp [own]
  cases holding with
  | nobody empty => exact .nobody fun j => (hands j).trans (empty j)
  | one k others =>
    rw [← hands k]
    exact .one k fun j apart => (hands j).trans (others j apart)

omit [DecidableEq ι] in
theorem Holding.othersEmpty (holding : s.Holding queue hand) (held : (s.clients i).inHand queue ≠ []) :
    ∀ j, j ≠ i → (s.clients j).inHand queue = [] := by
  cases holding with
  | nobody empty => exact absurd (empty i) held
  | one k elsewhere =>
    obtain rfl : i = k := by_contra fun apart => held (elsewhere i apart)
    exact elsewhere

omit [DecidableEq ι] in
theorem emptyUnlessOvertaken (fair : ¬ s.Overtakes queue (.look i)) (looking : (s.clients i).queue? = some queue)
    (waits : s.queues.waiting queue ≠ []) : ∀ j, j ≠ i → (s.clients j).inHand queue = [] :=
  fun j apart => by_contra fun held => fair ⟨j, i, apart, rfl, held, looking, waits⟩

theorem InTurn.keptByMove (before : s.InTurn queue) {occupation : Occupation} {queues : MemoryQueue}
    {events : List (QueueEvent ι)} (same : occupation.inHand queue = (s.clients i).inHand queue)
    (returned : events.flatMap (QueueEvent.returnedFrom queue) = [])
    (taken : events.flatMap (QueueEvent.takenFrom queue) = []) : (s.move i occupation queues events).InTurn queue := by
  obtain ⟨hand, holding, account⟩ := before
  exact ⟨hand, holding.keptByMove same, by simpa [returned, taken] using account⟩

/- Where nobody else holds anything, what a client held is all that the returns lack. -/
theorem InTurn.keptAlone (before : s.InTurn queue) {occupation : Occupation} {queues : MemoryQueue}
    {events : List (QueueEvent ι)} (others : ∀ j, j ≠ i → (s.clients j).inHand queue = [])
    (balanced : (s.clients i).inHand queue ++ events.flatMap (QueueEvent.takenFrom queue) =
      events.flatMap (QueueEvent.returnedFrom queue) ++ occupation.inHand queue) :
    (s.move i occupation queues events).InTurn queue := by
  obtain ⟨hand, holding, account⟩ := before
  have held : hand = (s.clients i).inHand queue := holding.heldAlone i others
  have still : ∀ j, j ≠ i → ((s.move i occupation queues events).clients j).inHand queue = [] := by
    intro j apart
    simpa [apart] using others j apart
  have now : ((s.move i occupation queues events).clients i).inHand queue = occupation.inHand queue := by simp
  refine ⟨_, .one i still, ?_⟩
  rw [now, returnedFromMove, takenFromMove, List.append_assoc, ← balanced, ← account, held, List.append_assoc]

theorem Moves.inTurnAfter {turn : Turn ι} (moves : Moves s turn after) (fair : ¬ s.Overtakes queue turn)
    (before : s.InTurn queue) : after.InTurn queue := by
  cases moves with
  | still => exact before
  | @began i call idle =>
    cases call <;>
      exact before.keptByMove (by simp [idle, Occupation.inHand]) (by simp [QueueEvent.returnedFrom])
        (by simp [QueueEvent.takenFrom])
  | @popped i other vain payload rest popping waits =>
    by_cases own : other = queue
    · subst other
      refine before.keptAlone (emptyUnlessOvertaken fair (by simp [popping, Occupation.queue?]) (by simp [waits])) ?_
      simp [popping, Occupation.inHand, QueueEvent.returnedFrom, QueueEvent.takenFrom]
    · exact before.keptByMove (by simp [popping, Occupation.inHand]) (by simp [QueueEvent.returnedFrom, own])
        (by simp [QueueEvent.takenFrom, own])
  | missed popping _ => exact before.keptByMove (by simp [popping, Occupation.inHand]) rfl rfl
  | @took i other taken payload rest draining waits =>
    by_cases own : other = queue
    · subst other
      refine before.keptAlone (emptyUnlessOvertaken fair (by simp [draining, Occupation.queue?]) (by simp [waits])) ?_
      simp [draining, Occupation.inHand, QueueEvent.returnedFrom, QueueEvent.takenFrom]
    · exact before.keptByMove (by simp [draining, Occupation.inHand, own]) (by simp [QueueEvent.returnedFrom])
        (by simp [QueueEvent.takenFrom, own])
  | @drained i other taken draining _ =>
    -- A drain that took nothing is no news to the others, who may hold something here.
    by_cases held : other = queue ∧ taken ≠ []
    · obtain ⟨rfl, held⟩ := held
      obtain ⟨hand, holding, -⟩ := id before
      refine before.keptAlone (holding.othersEmpty (i := i) (by simpa [draining, Occupation.inHand] using held)) ?_
      simp [draining, Occupation.inHand, QueueEvent.returnedFrom, QueueEvent.takenFrom]
    · have nothing : other = queue → taken = [] := fun own => by_contra fun some => held ⟨own, some⟩
      exact before.keptByMove (by simpa [draining, Occupation.inHand] using fun own => (nothing own).symm)
        (by simpa [QueueEvent.returnedFrom] using nothing) (by simp [QueueEvent.takenFrom])
  | gaveUp popping =>
    exact before.keptByMove (by simp [popping, Occupation.inHand]) (by simp [QueueEvent.returnedFrom])
      (by simp [QueueEvent.takenFrom])

theorem runInTurn (order : List (Turn ι)) (fair : NoneOvertaken queue order) : (start.turns order).InTurn queue := by
  induction order using List.reverseRecOn with
  | nil => exact ⟨[], .nobody fun _ => rfl, rfl⟩
  | append_singleton order last ih =>
    rw [turnsSnoc]
    have earlier : NoneOvertaken queue order :=
      fun before turn later split => fair before turn (later ++ [last]) (by simp [split])
    exact (turnMoves _ last).inTurnAfter (fair order last [] rfl) (ih earlier)

end Overtaking

/- The queues after any number of turns: nothing is lost, doubled or passed over. -/
structure FirstInFirstOut (order : List (Turn ι)) : Prop where
  ordered : ∀ queue, (start.turns order).takenFrom queue ++ (start.turns order).queues.waiting queue =
    (start.turns order).pushedTo queue
  owned : ∀ i queue, (start.turns order).returnedTo i queue ++ ((start.turns order).clients i).inHand queue =
    (start.turns order).takenBy i queue
  inOrder : ∀ i queue, ((start.turns order).takenBy i queue).Sublist ((start.turns order).pushedTo queue)
  inTurn : ∀ queue, NoneOvertaken queue order → ∃ hand, (start.turns order).Holding queue hand ∧
    (start.turns order).returnedFrom queue ++ hand ++ (start.turns order).queues.waiting queue =
      (start.turns order).pushedTo queue
  alone : ∀ i queue taken, (start.turns order).clients i = .draining queue taken →
    DrainedAlone (start.turns order) ((start.turns order).turns
      (List.replicate ((start.turns order).queues.length queue + 1) (.look i))) i queue taken
  apart : ∀ turn queue, (start.turns order).concerns? turn ≠ some queue →
    ((start.turns order).turn turn).queues.waiting queue = (start.turns order).queues.waiting queue
  nothing : ∀ i queue earlier others, (start.turns order).journal = earlier ++ .popped i queue none :: others →
    ∃ served rest before later, order = served ++ .giveUp i :: rest ∧ (start.turns served).journal = earlier ∧
      InVain i queue served before later

theorem firstInFirstOut (order : List (Turn ι)) : FirstInFirstOut order where
  ordered := runConserves order
  owned := runOwned order
  inOrder i queue := by
    rw [← runConserves order queue]
    exact ((start.turns order).takenBySublist i queue).trans (List.sublist_append_left ..)
  inTurn queue fair := by
    obtain ⟨hand, holding, account⟩ := runInTurn order fair
    exact ⟨hand, holding, by rw [account, runConserves order queue]⟩
  alone _ _ _ draining := drainAlone _ draining
  apart turn _ := (turnMoves _ turn).waitingElsewhere
  nothing _ _ _ _ := nothingFound order

/- A client comes in between two looks of the drain of another. -/
def overtaking : List (Turn Bool) :=
  [.call false (.push "a" [1]), .call false (.push "a" [2]), .call false (.push "a" [3]), .call false (.drain "a"),
    .call true (.pop "a"), .look false, .look true, .look false, .look false]

theorem drainOvertaken :
    (start.turns overtaking).pushedTo "a" = [[1], [2], [3]] ∧ (start.turns overtaking).queues.waiting "a" = [] ∧
      (start.turns overtaking).returnedTo false "a" = [[1], [3]] ∧
      (start.turns overtaking).returnedTo true "a" = [[2]] ∧
      (start.turns overtaking).returnedFrom "a" ++ (start.turns overtaking).queues.waiting "a" ≠
        (start.turns overtaking).pushedTo "a" := by decide +kernel

end Runs

end Sharing

end Vdag
