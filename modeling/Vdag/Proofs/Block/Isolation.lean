import Vdag.Proofs.Block.Agreement

/-! A block at its input queue, packet after packet. What it remembers of one never shows in another: each is handled
as if it were the only one. -/
namespace Vdag
open Vdag.Action

structure MemoryLimits where
  connections : Nat
  connectionTime : Option Nat
  policies : Nat
  policyTime : Option Nat
  deriving DecidableEq, Repr

def MemoryLimits.fresh {κ π : Type} (limits : MemoryLimits) : BlockMemory κ π :=
  ⟨.new limits.connections limits.connectionTime, .new limits.policies limits.policyTime⟩

namespace Workshop

variable {ω π : Type} (w : Workshop ω π)

abbrev State (ω π : Type) := Plant ω × BlockMemory String π

def waiting (plant : Plant ω) : List Bytes := plant.2.1.waiting w.inbox w.inputQueue

def popped (plant : Plant ω) : Plant ω := (plant.1, (plant.2.1.pop w.inbox w.inputQueue).2, plant.2.2)

def turn (s : State ω π) : State ω π := (on (joined w.runtime.takeOne) s).2

def turns (w : Workshop ω π) (s : State ω π) : Nat → State ω π
  | 0 => s
  | count + 1 => w.turn (w.turns s count)

theorem waitingPopped (plant : Plant ω) (endpoint queue : String) :
    (w.popped plant).2.1.waiting endpoint queue =
      if endpoint = w.inbox ∧ queue = w.inputQueue then (plant.2.1.waiting endpoint queue).tail
      else plant.2.1.waiting endpoint queue :=
  MemoryBroker.waitingPop _ _ _ _ _

variable {w} {habits : Habits π} {standing : Standing}

theorem poppedAt {plant : Plant ω} (found : standing.At plant) : standing.At (w.popped plant) :=
  ⟨found.records, found.unreachable⟩

theorem onPop (plant : Plant ω) (memory : BlockMemory String π) :
    on (joined (Block.outside (w.runtime.input.pop w.runtime.id.inputQueue Block.patience))) (plant, memory) =
      (.ok (w.waiting plant).head?, (w.popped plant, memory)) := by
  rw [waiting, ← MemoryBroker.popHead]
  rfl

theorem takesNone {plant : Plant ω} (empty : w.waiting plant = []) (memory : BlockMemory String π) :
    on (joined w.runtime.takeOne) (plant, memory) = (.ok false, (w.popped plant, memory)) := by
  rw [Block.takeOne, onJoinedBind, onPop, empty]
  rfl

theorem takesNext (relies : standing.Relies w habits) {plant : Plant ω} {memory : BlockMemory String π}
    {payload : Bytes} {rest : List Bytes} (found : standing.At plant) (tidy : standing.Tidy habits w.block memory)
    (next : w.waiting plant = payload :: rest) (governed : standing.Governs payload) :
    ∃ plant' memory', on (joined w.runtime.takeOne) (plant, memory) = (.ok true, (plant', memory')) ∧
      Went (w.handled habits standing.records standing.unreachable payload).letters (w.popped plant) plant' ∧
      standing.Tidy habits w.block memory' := by
  rw [Block.takeOne, onJoinedBind, onPop, next]
  have handles := (Standing.runsHandle relies governed).caughtRuns.bind
    (fun _ _ => Standing.Runs.outcomeRuns (.ok true))
  obtain ⟨plant', memory', ran, went, tidy⟩ := handles (w.popped plant) memory (poppedAt found) tidy
  have letters : ∀ told : Told ForwardReport,
      (told.caught >>= fun _ => Told.ofOutcome (.ok true)).letters = told.letters :=
    fun _ => List.append_nil _
  exact ⟨plant', memory', ran, letters _ ▸ went, tidy⟩

def standingAt (plant : Plant ω) : Standing := ⟨plant.1.stored?, fun _ => True, plant.2.1.unreachable⟩

theorem standsAt (plant : Plant ω) : (standingAt plant).At plant := ⟨fun _ _ => rfl, rfl⟩

theorem freshTidy (limits : MemoryLimits) (block : BlockId) : standing.Tidy habits block limits.fresh :=
  ⟨RecencyCache.holdsNew _ _, RecencyCache.holdsNew _ _⟩

theorem turnGoes (steady : w.Steady habits) {s : State ω π} (governed : ∀ payload, standing.Governs payload)
    (found : standing.At s.1) (tidy : standing.Tidy habits w.block s.2) :
    ∃ letters, Went letters (w.popped s.1) (w.turn s).1 ∧ standing.Tidy habits w.block (w.turn s).2 := by
  obtain ⟨plant, memory⟩ := s
  cases next : w.waiting plant with
  | nil =>
    rw [turn, takesNone next]
    exact ⟨[], .refl _, tidy⟩
  | cons payload rest =>
    obtain ⟨plant', memory', ran, went, tidy⟩ := takesNext (Standing.steadyRelies steady) found tidy next
      (governed payload)
    rw [turn, ran]
    exact ⟨_, went, tidy⟩

theorem governsAll (plant : Plant ω) (payload : Bytes) : (standingAt plant).Governs payload :=
  fun _ _ _ _ _ _ => trivial

theorem turnsKeep (steady : w.Steady habits) (limits : MemoryLimits) (plant : Plant ω) (count : Nat) :
    (standingAt plant).At (w.turns (plant, limits.fresh) count).1 ∧
      (standingAt plant).Tidy habits w.block (w.turns (plant, limits.fresh) count).2 := by
  induction count with
  | zero => exact ⟨standsAt plant, freshTidy limits w.block⟩
  | succ count ih =>
    obtain ⟨letters, went, tidy⟩ := turnGoes steady (governsAll plant) ih.1 ih.2
    exact ⟨(poppedAt ih.1).stillAt went, tidy⟩

theorem waitingTurns (steady : w.Steady habits) (limits : MemoryLimits) (plant : Plant ω) (count : Nat) :
    ∃ more, w.waiting (w.turns (plant, limits.fresh) count).1 = (w.waiting plant).drop count ++ more := by
  induction count with
  | zero => exact ⟨[], (List.append_nil _).symm⟩
  | succ count ih =>
    obtain ⟨more, queued⟩ := ih
    obtain ⟨found, tidy⟩ := turnsKeep steady limits plant count
    obtain ⟨letters, went, _⟩ := turnGoes steady (governsAll plant) found tidy
    have after : w.waiting (w.turns (plant, limits.fresh) (count + 1)).1 =
        (w.waiting (w.turns (plant, limits.fresh) count).1).tail ++ mail letters w.inbox w.inputQueue := by
      rw [turns, waiting, went.posted.waiting, waitingPopped, if_pos ⟨rfl, rfl⟩, waiting]
    rw [after, queued, ← List.tail_drop]
    cases (w.waiting plant).drop count with
    | nil => exact ⟨more.tail ++ mail letters w.inbox w.inputQueue, rfl⟩
    | cons payload rest => exact ⟨more ++ mail letters w.inbox w.inputQueue, List.append_assoc _ _ _⟩

def alone (w : Workshop ω π) (limits : MemoryLimits) (registry : MemoryRegistry) (unreachable : List String) (rest : ω)
    (payload : Bytes) : Outcome ForwardReport × State ω π :=
  on (joined (w.runtime.handle payload)) ((registry, ⟨.empty, unreachable, 0⟩, rest), limits.fresh)

theorem alonePosts (steady : w.Steady habits) (limits : MemoryLimits) (registry : MemoryRegistry)
    (unreachable : List String) (rest : ω) (payload : Bytes) :
    (w.alone limits registry unreachable rest payload).1 =
        (w.handled habits registry.stored? unreachable payload).outcome ∧
      ∀ endpoint queue, (w.alone limits registry unreachable rest payload).2.1.2.1.waiting endpoint queue =
        mail (w.handled habits registry.stored? unreachable payload).letters endpoint queue := by
  have found := standsAt (registry, (⟨.empty, unreachable, 0⟩ : MemoryBroker), rest)
  obtain ⟨plant', memory', ran, went, _⟩ :=
    Standing.runsHandle (Standing.steadyRelies steady) (governsAll _ payload) _ limits.fresh found
      (freshTidy limits w.block)
  have ran : w.alone limits registry unreachable rest payload = _ := ran
  rw [ran]
  exact ⟨rfl, fun endpoint queue => went.posted.waiting endpoint queue⟩

theorem handledFails {records : VdagUri → Option Definition} {unreachable : List String} {payload : Bytes}
    {failure : Failure} (fails : (w.handled habits records unreachable payload).outcome = .error failure) :
    (w.handled habits records unreachable payload).letters = [] := by
  unfold handled at *
  cases prepared : habits.prepare w.block records payload with
  | error cause => rfl
  | ok packet =>
    rw [prepared] at fails
    change (w.forwarded unreachable packet).outcome = _ at fails
    change [] ++ (w.forwarded unreachable packet).letters = _
    unfold forwarded at *
    cases hops : nextHops w.block packet with
    | error cause => rfl
    | ok destinations =>
      rw [hops] at fails
      cases destinations with
      | none => cases fails
      | some destinations =>
        change (Destination.allReached unreachable packet.encode destinations .blank).outcome = _ at fails
        rw [Destination.allReachedTells] at fails
        cases fails

/- A payload taken as it would be if it were the only one. -/
structure TakenAlone (w : Workshop ω π) (before : State ω π) (later : List Bytes)
    (alone : Outcome ForwardReport × State ω π) : Prop where
  answer : (on (joined w.runtime.takeOne) before).1 = .ok true
  queues : ∀ endpoint queue, (w.turn before).1.2.1.waiting endpoint queue =
    (if endpoint = w.inbox ∧ queue = w.inputQueue then later else before.1.2.1.waiting endpoint queue) ++
      alone.2.1.2.1.waiting endpoint queue
  dropped : ∀ failure, alone.1 = .error failure → ∀ endpoint queue, alone.2.1.2.1.waiting endpoint queue = []

theorem turnsTakeAlone (steady : w.Steady habits) (limits limits' : MemoryLimits) (plant : Plant ω)
    {registry : MemoryRegistry} (same : registry.stored? = plant.1.stored?) (rest : ω) (count : Nat) :
    (∀ payload later, w.waiting (w.turns (plant, limits.fresh) count).1 = payload :: later →
      w.TakenAlone (w.turns (plant, limits.fresh) count) later
        (w.alone limits' registry plant.2.1.unreachable rest payload)) ∧
    ∀ payload, (w.waiting plant)[count]? = some payload →
      ∃ later, w.waiting (w.turns (plant, limits.fresh) count).1 = payload :: later := by
  refine ⟨fun payload later next => ?_, fun payload queued => ?_⟩
  · obtain ⟨found, tidy⟩ := turnsKeep steady limits plant count
    obtain ⟨outcome, posts⟩ := alonePosts steady limits' registry plant.2.1.unreachable rest payload
    rw [same] at outcome posts
    obtain ⟨plant', memory', ran, went, _⟩ := takesNext (Standing.steadyRelies steady) found tidy next
      (governsAll plant payload)
    refine ⟨congrArg Prod.fst ran, fun endpoint queue => ?_, fun failure fails endpoint queue => ?_⟩
    · rw [turn, ran, went.posted.waiting, waitingPopped, posts]
      congr 1
      split
      · rename_i own
        obtain ⟨rfl, rfl⟩ := own
        exact congrArg List.tail next
      · rfl
    · rw [posts, handledFails (outcome.symm.trans fails)]
      rfl
  · obtain ⟨more, waits⟩ := waitingTurns steady limits plant count
    obtain ⟨bound, rfl⟩ := List.getElem?_eq_some_iff.mp queued
    rw [waits, List.drop_eq_getElem_cons bound]
    exact ⟨_, rfl⟩

def sampleShop : Workshop Unit Unit where
  block := ⟨"b1"⟩
  inbox := "host:7000"
  outbox := "host:7000"
  work := echo
  policies := ⟨fun _ => return (), fun _ input => return input⟩
  clock := pure 0

def sampleHabits : Habits Unit := ⟨.ok, fun _ => .ok (), fun _ input => .ok input⟩

theorem sampleSteady : sampleShop.Steady sampleHabits := ⟨fun _ _ => rfl, fun _ _ => rfl, fun _ _ _ => rfl⟩

def samplePlant : Plant Unit :=
  (.empty, (MemoryBroker.empty.push "host:7000" "b1_inputs" [7]).push "host:7000" "b1_inputs" Packet.blank.encode, ())

def sampleLimits : MemoryLimits := ⟨1, some 5, 1, none⟩

theorem sampleTakenAlone :
    sampleShop.Steady sampleHabits ∧ (sampleShop.waiting samplePlant)[1]? = some Packet.blank.encode ∧
      ∃ later, sampleShop.waiting (sampleShop.turns (samplePlant, sampleLimits.fresh) 1).1 =
      Packet.blank.encode :: later ∧
        sampleShop.TakenAlone (sampleShop.turns (samplePlant, sampleLimits.fresh) 1) later
          (sampleShop.alone ⟨0, none, 0, none⟩ .empty [] () Packet.blank.encode) := by
  have queued : (sampleShop.waiting samplePlant)[1]? = some Packet.blank.encode := by decide +kernel
  have alone := turnsTakeAlone sampleSteady sampleLimits ⟨0, none, 0, none⟩ samplePlant
    (show MemoryRegistry.empty.stored? = samplePlant.1.stored? from rfl) () 1
  obtain ⟨later, next⟩ := alone.2 _ queued
  exact ⟨sampleSteady, queued, later, next, alone.1 _ _ next⟩

end Workshop

end Vdag
