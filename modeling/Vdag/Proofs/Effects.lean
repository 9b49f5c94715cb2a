import Vdag.Service

/-! Actions on a state, run: the outcome and the state they leave, step by step. -/
namespace Vdag.Action

variable {σ α β : Type}

def on (action : Action (StateM σ) α) (state : σ) : Outcome α × σ := action.run.run state

@[simp] theorem onOutcome (outcome : Outcome α) (state : σ) : on (ofOutcome outcome) state = (outcome, state) := rfl

@[simp] theorem onLift (action : Action (StateM σ) α) (state : σ) :
    on (ExceptT.lift action.run) state = (.ok (on action state).1, (on action state).2) := rfl

theorem onAdapt (change : Failure → Failure) (action : Action (StateM σ) α) (state : σ) :
    on (action.adapt change) state = ((on action state).1.mapError change, (on action state).2) := rfl

theorem onBind (action : Action (StateM σ) α) (next : α → Action (StateM σ) β) (state : σ) :
    on (action >>= next) state = match on action state with
      | (.ok a, after) => on (next a) after
      | (.error failure, after) => (.error failure, after) := by
  simp only [on, ExceptT.run_bind, StateT.run_bind]
  rcases (ExceptT.run action).run state with ⟨_ | a, after⟩
  · rfl
  · rfl

theorem onBindPure (action : Action (StateM σ) α) (f : α → β) (state : σ) :
    on (do return f (← action)) state = ((on action state).1.map f, (on action state).2) := by
  rw [onBind]
  rcases on action state with ⟨_ | a, after⟩
  · rfl
  · rfl

theorem onBindOk {action : Action (StateM σ) α} {next : α → Action (StateM σ) β} {before after : σ} {b : β} :
    on (action >>= next) before = (.ok b, after) ↔
      ∃ a middle, on action before = (.ok a, middle) ∧ on (next a) middle = (.ok b, after) := by
  rw [onBind]
  cases h : on action before with
  | mk outcome middle =>
    cases outcome with
    | ok a => simp [and_assoc]
    | error failure => simp

/- An action with a memory of its own, run: the memory stands beside the state. -/
def joined {κ : Type} (action : Action (StateT κ (StateM σ)) α) : Action (StateM (σ × κ)) α := ExceptT.mk fun w =>
  let ((outcome, memory), state) := action.run w.2 w.1
  (outcome, (state, memory))

theorem onJoinedBind {κ : Type} (action : Action (StateT κ (StateM σ)) α) (next : α → Action (StateT κ (StateM σ)) β)
    (w : σ × κ) :
    on (joined (action >>= next)) w = match on (joined action) w with
      | (.ok a, after) => on (joined (next a)) after
      | (.error failure, after) => (.error failure, after) := by
  obtain ⟨state, memory⟩ := w
  simp only [on, joined, ExceptT.run_mk, StateT.run]
  rw [ExceptT.run_bind]
  rcases ran : action.run memory state with ⟨⟨_ | a, memory'⟩, state'⟩
  all_goals simp only [bind, StateT.bind, ran]
  all_goals rfl

def Keeps (relation : σ → σ → Prop) (action : Action (StateM σ) α) : Prop :=
  ∀ state, relation state (on action state).2

namespace Keeps

variable {relation : σ → σ → Prop}

theorem outcomeKeeps (same : ∀ state, relation state state) (outcome : Outcome α) :
    Keeps relation (ofOutcome outcome) :=
  same

theorem bind {action : Action (StateM σ) α} {next : α → Action (StateM σ) β}
    (trans : ∀ {a b c}, relation a b → relation b c → relation a c) (first : Keeps relation action)
    (later : ∀ a, Keeps relation (next a)) : Keeps relation (action >>= next) := by
  intro state
  have start := first state
  rw [onBind]
  cases h : on action state with
  | mk outcome middle =>
    rw [h] at start
    cases outcome with
    | ok a => exact trans start (later a middle)
    | error failure => exact start

end Keeps

def Fails (among : Failure → Prop) (action : Action (StateM σ) α) : Prop :=
  ∀ state failure, (on action state).1 = .error failure → among failure

namespace Fails

variable {among : Failure → Prop}

theorem outcomeFails {outcome : Outcome α} (each : ∀ failure, outcome = .error failure → among failure) :
    Fails (σ := σ) among (ofOutcome outcome) := fun _ => each

theorem answerFails (a : α) : Fails (σ := σ) among (pure a) := fun _ _ failed => by cases failed

theorem bind {action : Action (StateM σ) α} {next : α → Action (StateM σ) β} (first : Fails among action)
    (later : ∀ a, Fails among (next a)) : Fails among (action >>= next) := by
  intro state failure failed
  rw [onBind] at failed
  cases ran : on action state with
  | mk outcome middle =>
    rw [ran] at failed
    cases outcome with
    | ok a => exact later a middle failure failed
    | error other =>
      cases failed
      exact first state failure (congrArg Prod.fst ran)

theorem adaptFails {change : Failure → Failure} (each : ∀ failure, among (change failure))
    (action : Action (StateM σ) α) : Fails among (action.adapt change) := by
  intro state failure failed
  rw [onAdapt] at failed
  cases ran : (on action state).1 with
  | ok a =>
    rw [ran] at failed
    cases failed
  | error other =>
    rw [ran] at failed
    cases failed
    exact each other

end Fails

end Vdag.Action
