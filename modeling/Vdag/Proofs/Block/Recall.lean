import Vdag.Proofs.Block.Policies
import Vdag.Proofs.RecencyCache

/-! What a block remembers of policies, call after call. Every answer comes from the last load of its vDAG, and what is
remembered of one vDAG was never loaded at two times. Clocks may show anything. -/
namespace Vdag
open Vdag.Action

namespace Action

variable {σ α β : Type}

def Constant (still : σ → Prop) (action : Action (StateM σ) α) (answer : Outcome α) : Prop :=
  ∀ state, still state → (on action state).1 = answer ∧ still (on action state).2

namespace Constant

variable {still : σ → Prop}

theorem outcomeConstant (outcome : Outcome α) : Constant still (ofOutcome outcome) outcome :=
  fun _ stands => ⟨rfl, stands⟩

theorem bind {action : Action (StateM σ) α} {next : α → Action (StateM σ) β} {answer : Outcome α}
    {later : α → Outcome β} (first : Constant still action answer) (rest : ∀ a, Constant still (next a) (later a)) :
    Constant still (action >>= next) (answer >>= later) := by
  intro state stands
  obtain ⟨told, stood⟩ := first state stands
  rw [onBind]
  rcases ran : on action state with ⟨_ | a, after⟩
  · rw [ran] at told stood
    exact told ▸ ⟨rfl, stood⟩
  · rw [ran] at told stood
    exact told ▸ rest a after stood

theorem bindSome {action : Action (StateM σ) α} {next : α → Action (StateM σ) β} {answer : Outcome α}
    (first : Constant still action answer) (rest : ∀ a, ∃ later, Constant still (next a) later) :
    ∃ later, Constant still (action >>= next) later :=
  have ⟨later, constant⟩ := Classical.axiomOfChoice rest
  ⟨answer >>= later, first.bind constant⟩

end Constant

end Action

namespace PolicyBook

variable {σ π : Type}

inductive Call (σ : Type) where
  | policy (uri : VdagUri) (stage : Stage)
  | forget (uri : VdagUri)
  | change (become : σ → σ)

inductive Event (π : Type) where
  | loaded (uri : VdagUri) (answer : Outcome (Option π × Option π))
  | forgotten (uri : VdagUri)
  | answered (uri : VdagUri) (stage : Stage) (answer : Outcome (Option π))
  deriving DecidableEq

def Event.overtakes : Event π → VdagUri → Prop
  | .loaded uri _, other => uri = other
  | .forgotten uri, other => uri = other
  | .answered _ _ _, _ => False

/- The last load of a vDAG went well, and nothing was forgotten of it since. -/
def Stands (history : List (Event π)) (uri : VdagUri) (rules : Option π × Option π) : Prop :=
  ∃ before later, history = before ++ .loaded uri (.ok rules) :: later ∧ ∀ event ∈ later, ¬ event.overtakes uri

/- A policy that is answered is one that stands. A failure is that of a load made for the answer. -/
def Event.Founded (before : List (Event π)) : Event π → Prop
  | .answered uri stage (.ok policy) => ∃ rules, Stands before uri rules ∧ policy = select stage rules
  | .answered uri _ (.error failure) => ∃ earlier, before = earlier ++ [.loaded uri (.error failure)]
  | _ => True

theorem Event.Founded.answersLoad {before : List (Event π)} {uri : VdagUri} {stage : Stage}
    {answer : Outcome (Option π)}
    (founded : (Event.answered uri stage answer).Founded before) {load : Outcome (Option π × Option π)}
    (alike : ∀ given, .loaded uri given ∈ before → given = load) : answer = load.map (select stage) := by
  cases answer with
  | ok policy =>
    obtain ⟨rules, ⟨earlier, between, rfl, _⟩, rfl⟩ := founded
    rw [← alike (.ok rules) (List.mem_append_right _ List.mem_cons_self)]
    rfl
  | error failure =>
    obtain ⟨earlier, rfl⟩ := founded
    rw [← alike (.error failure) (List.mem_append_right _ List.mem_cons_self)]
    rfl

def Sound (history : List (Event π)) : Prop :=
  ∀ before event later, history = before ++ event :: later → event.Founded before

section Histories

variable {history : List (Event π)} {event : Event π} {uri : VdagUri} {rules : Option π × Option π}

theorem soundEmpty : Sound ([] : List (Event π)) := fun before _ _ split => by cases before <;> cases split

theorem Sound.soundAppend (sound : Sound history) (founded : event.Founded history) : Sound (history ++ [event]) := by
  intro before other later split
  rcases List.eq_nil_or_concat later with rfl | ⟨rest, last, rfl⟩
  · obtain ⟨rfl, same⟩ := List.append_inj' split rfl
    cases same
    exact founded
  · rw [List.concat_eq_append, ← List.cons_append, ← List.append_assoc] at split
    exact sound before other rest (List.append_inj' split rfl).1

theorem Stands.standsAppend (stands : Stands history uri rules) (kept : ¬ event.overtakes uri) :
    Stands (history ++ [event]) uri rules := by
  obtain ⟨before, later, rfl, quiet⟩ := stands
  refine ⟨before, later ++ [event], List.append_assoc _ _ _, fun other member => ?_⟩
  rcases List.mem_append.mp member with earlier | last
  · exact quiet other earlier
  · exact List.mem_singleton.mp last ▸ kept

theorem Stands.rulesUnique {rules' : Option π × Option π} (stands : Stands history uri rules)
    (stands' : Stands history uri rules') : rules = rules' := by
  obtain ⟨before, later, rfl, quiet⟩ := stands
  obtain ⟨before', later', split, quiet'⟩ := stands'
  rcases List.append_eq_append_iff.mp split with ⟨between, rfl, same⟩ | ⟨between, rfl, same⟩
  · rcases List.cons_eq_append_iff.mp same with ⟨rfl, same⟩ | ⟨rest, rfl, rfl⟩
    · cases same
      rfl
    · exact absurd rfl (quiet _ (List.mem_append_right _ List.mem_cons_self))
  · rcases List.cons_eq_append_iff.mp same with ⟨rfl, same⟩ | ⟨rest, rfl, rfl⟩
    · cases same
      rfl
    · exact absurd rfl (quiet' _ (List.mem_append_right _ List.mem_cons_self))

theorem standsLoaded (history : List (Event π)) (uri : VdagUri) (rules : Option π × Option π) :
    Stands (history ++ [.loaded uri (.ok rules)]) uri rules :=
  ⟨history, [], rfl, fun _ member => absurd member List.not_mem_nil⟩

end Histories

structure Recalls (history : List (Event π)) (cache : PolicyCache π) : Prop where
  sound : Sound history
  held : cache.Holds (fun key policy => ∃ rules, Stands history key.1 rules ∧ policy = select key.2 rules)

namespace Recalls

variable {history : List (Event π)} {cache : PolicyCache π}

theorem newRecalls (capacity : Nat) (timeToLive : Option Nat) :
    Recalls ([] : List (Event π)) (.new capacity timeToLive) :=
  ⟨soundEmpty, RecencyCache.holdsNew capacity timeToLive⟩

theorem answeredRecalls (recalls : Recalls history cache) {uri : VdagUri} {stage : Stage} {answer : Outcome (Option π)}
    (founded : (Event.answered uri stage answer).Founded history) :
    Recalls (history ++ [.answered uri stage answer]) cache where
  sound := recalls.sound.soundAppend founded
  held := recalls.held.mono (fun _ _ ⟨rules, stands, same⟩ => ⟨rules, stands.standsAppend id, same⟩)

theorem droppedRecalls (recalls : Recalls history cache) (event : Event π) {uri : VdagUri}
    (founded : event.Founded history)
    (others : ∀ other, other ≠ uri → ¬ event.overtakes other) :
    Recalls (history ++ [event]) (invalidate uri cache).2 where
  sound := recalls.sound.soundAppend founded
  held := RecencyCache.Holds.dropWhere (recalls.held.mono (fun _ _ ⟨rules, stands, same⟩ apart =>
    ⟨rules, stands.standsAppend (others _ (of_decide_eq_false apart)), same⟩))

theorem loadedRecalls (recalls : Recalls history cache) (now : Nat) (uri : VdagUri) (rules : Option π × Option π) :
    Recalls (history ++ [.loaded uri (.ok rules)]) (remember now uri rules cache) where
  sound := recalls.sound.soundAppend trivial
  held := by
    have own := standsLoaded history uri rules
    refine RecencyCache.Holds.holdsReplace (RecencyCache.Holds.holdsReplace (recalls.held.mono ?_) now ?_) now
      ⟨rules, own, rfl⟩
    · rintro ⟨other, stage⟩ policy ⟨rules', stands, same⟩ first second
      have apart : uri ≠ other := by
        rintro rfl
        cases stage with
        | preprocessing => exact first rfl
        | postprocessing => exact second rfl
      exact ⟨rules', stands.standsAppend apart, same⟩
    · exact fun _ => ⟨rules, own, rfl⟩

theorem getRecalls (recalls : Recalls history cache) (now : Nat) (key : VdagUri × Stage) :
    Recalls history (cache.get now key).2 :=
  ⟨recalls.sound, (recalls.held.holdsGet now key).1⟩

end Recalls

variable (book : PolicyBook (StateM σ) π)

def loading? (uri : VdagUri) (stage : Stage) (s : σ × PolicyCache π) : Option (Outcome (Option π × Option π)) :=
  match (s.2.get (book.clock.run s.1).1 (uri, stage)).1 with
  | some _ => none
  | none => some (on (book.load uri) (book.clock.run s.1).2).1

inductive Found (uri : VdagUri) (stage : Stage) (s : σ × PolicyCache π) :
    Option (Outcome (Option π × Option π)) → Outcome (Option π) → σ × PolicyCache π → Prop where
  | remembered {policy : Option π} {got : PolicyCache π}
      (looked : s.2.get (book.clock.run s.1).1 (uri, stage) = (some policy, got)) :
      Found uri stage s none (.ok policy) ((book.clock.run s.1).2, got)
  | failed {failure : Failure} {after : σ} {got : PolicyCache π}
      (looked : s.2.get (book.clock.run s.1).1 (uri, stage) = (none, got))
      (ran : on (book.load uri) (book.clock.run s.1).2 = (.error failure, after)) :
      Found uri stage s (some (.error failure)) (.error failure) (after, (invalidate uri got).2)
  | loaded {rules : Option π × Option π} {after : σ} {got : PolicyCache π}
      (looked : s.2.get (book.clock.run s.1).1 (uri, stage) = (none, got))
      (ran : on (book.load uri) (book.clock.run s.1).2 = (.ok rules, after)) :
      Found uri stage s (some (.ok rules)) (.ok (select stage rules))
        ((book.clock.run after).2, remember (book.clock.run after).1 uri rules got)

theorem foundPolicy (uri : VdagUri) (stage : Stage) (s : σ × PolicyCache π) :
    book.Found uri stage s (book.loading? uri stage s) (on (joined (book.policyFor uri stage)) s).1
      (on (joined (book.policyFor uri stage)) s).2 := by
  obtain ⟨s, cache⟩ := s
  rw [onPolicyFor, loading?]
  rcases looked : cache.get (book.clock.run s).1 (uri, stage) with ⟨_ | policy, got⟩
  · rcases ran : on (book.load uri) (book.clock.run s).2 with ⟨failure | rules, after⟩
    · exact .failed looked ran
    · exact .loaded looked ran
  · exact .remembered looked

def serve (s : σ × PolicyCache π) : Call σ → List (Event π) × (σ × PolicyCache π)
  | .policy uri stage =>
      ((book.loading? uri stage s).toList.map (.loaded uri) ++
        [.answered uri stage (on (joined (book.policyFor uri stage)) s).1],
          (on (joined (book.policyFor uri stage)) s).2)
  | .forget uri => ([.forgotten uri], (s.1, (invalidate uri s.2).2))
  | .change become => ([], (become s.1, s.2))

def serveAll (book : PolicyBook (StateM σ) π) (s : σ × PolicyCache π) :
    List (Call σ) → List (Event π) × (σ × PolicyCache π)
  | [] => ([], s)
  | call :: rest =>
      let (events, next) := book.serve s call
      let (later, last) := book.serveAll next rest
      (events ++ later, last)

variable {book}

theorem Recalls.foundRecalls {history : List (Event π)} {s after : σ × PolicyCache π} (recalls : Recalls history s.2)
    {uri : VdagUri} {stage : Stage} {load : Option (Outcome (Option π × Option π))} {answer : Outcome (Option π)}
    (found : book.Found uri stage s load answer after) :
    Recalls (history ++ (load.toList.map (.loaded uri) ++ [.answered uri stage answer])) after.2 := by
  have got := recalls.getRecalls (book.clock.run s.1).1 (uri, stage)
  cases found with
  | remembered looked =>
    rw [looked] at got
    obtain ⟨_, known⟩ := recalls.held.holdsGet (book.clock.run s.1).1 (uri, stage)
    exact got.answeredRecalls (known _ (congrArg Prod.fst looked))
  | @failed failure _ _ looked ran =>
    rw [looked] at got
    have dropped := got.droppedRecalls (.loaded uri (.error failure)) trivial (fun _ apart same => apart same.symm)
    have failed : Recalls (history ++ [.loaded uri (.error failure)] ++ [.answered uri stage (.error failure)]) _ :=
      dropped.answeredRecalls ⟨history, rfl⟩
    rwa [List.append_assoc] at failed
  | @loaded rules after _ looked ran =>
    rw [looked] at got
    have answered :
        Recalls (history ++ [.loaded uri (.ok rules)] ++ [.answered uri stage (.ok (select stage rules))]) _ :=
      (got.loadedRecalls (book.clock.run after).1 uri rules).answeredRecalls
      ⟨rules, standsLoaded history uri rules, rfl⟩
    rwa [List.append_assoc] at answered

theorem Recalls.serveRecalls {history : List (Event π)} {s : σ × PolicyCache π} (recalls : Recalls history s.2)
    (call : Call σ) : Recalls (history ++ (book.serve s call).1) (book.serve s call).2.2 := by
  cases call with
  | change become => exact (List.append_nil history).symm ▸ recalls
  | forget uri => exact recalls.droppedRecalls _ trivial (fun _ apart same => apart same.symm)
  | policy uri stage => exact recalls.foundRecalls (foundPolicy book uri stage s)

theorem Recalls.serveAll {history : List (Event π)} {s : σ × PolicyCache π} (recalls : Recalls history s.2)
    (calls : List (Call σ)) : Recalls (history ++ (book.serveAll s calls).1) (book.serveAll s calls).2.2 := by
  induction calls generalizing history s with
  | nil => exact (List.append_nil history).symm ▸ recalls
  | cons call rest ih =>
    have first : Recalls _ (book.serve s call).2.2 := recalls.serveRecalls call
    have later := ih first
    rwa [List.append_assoc] at later

theorem Found.onlyClockMoved {uri : VdagUri} {stage : Stage} {s after : σ × PolicyCache π} {answer : Outcome (Option π)}
    (found : book.Found uri stage s none answer after) : after.1 = (book.clock.run s.1).2 := by
  cases found
  rfl

theorem Found.clearedOnFailure {uri : VdagUri} {stage : Stage} {s after : σ × PolicyCache π} {failure : Failure}
    {answer : Outcome (Option π)} (found : book.Found uri stage s (some (.error failure)) answer after) :
    answer = .error failure ∧ (∀ other, RecencyCache.entry? after.2 (uri, other) = none) ∧
      ∀ key, key.1 ≠ uri → RecencyCache.entry? after.2 key = RecencyCache.entry? s.2 key := by
  cases found with
  | @failed _ _ got looked ran =>
    refine ⟨rfl, fun other => ?_, fun key apart => ?_⟩
    · rw [invalidate, RecencyCache.entryDropped, if_pos (decide_eq_true rfl)]
    · have elsewhere : key ≠ (uri, stage) := fun same => apart (congrArg Prod.fst same)
      have kept := RecencyCache.entryGot s.2 (book.clock.run s.1).1 elsewhere
      rw [looked] at kept
      rw [invalidate, RecencyCache.entryDropped, if_neg (by simpa using apart), kept]

section Unchanging

variable {still : σ → Prop} {records : VdagUri → Outcome (Option Definition)} {policyOf : PolicyRule → Outcome π}

structure Unchanging (book : PolicyBook (StateM σ) π) (still : σ → Prop)
    (records : VdagUri → Outcome (Option Definition)) (policyOf : PolicyRule → Outcome π) : Prop where
  clock : ∀ s, still s → still (book.clock.run s).2
  registry : ∀ uri, Constant still (book.registry.get uri) (records uri)
  policies : ∀ rule, Constant still (book.policies.load rule) (policyOf rule)

def Call.Spares (still : σ → Prop) : Call σ → Prop
  | .change become => ∀ s, still s → still (become s)
  | _ => True

theorem Unchanging.ruleConstant (unchanging : book.Unchanging still records policyOf) (rule : Option PolicyRule) :
    ∃ answer, Constant still (book.loadRule rule) answer := by
  cases rule with
  | none => exact ⟨_, Constant.outcomeConstant (.ok none)⟩
  | some rule => exact ⟨_, (unchanging.policies rule).bind (fun policy => Constant.outcomeConstant (.ok (some policy)))⟩

theorem Unchanging.loadConstant (unchanging : book.Unchanging still records policyOf) (uri : VdagUri) :
    ∃ answer, Constant still (book.load uri) answer := by
  refine (unchanging.registry uri).bindSome (fun stored =>
    (Constant.outcomeConstant (nodeOf book.block uri stored)).bindSome ?_)
  intro found
  cases found with
  | none => exact ⟨_, Constant.outcomeConstant (.ok (none, none))⟩
  | some node =>
    obtain ⟨_, before⟩ := unchanging.ruleConstant node.preprocessingRule
    obtain ⟨_, after⟩ := unchanging.ruleConstant node.postprocessingRule
    exact ⟨_, before.bind (fun b => after.bind (fun a => Constant.outcomeConstant (.ok (b, a))))⟩

theorem Found.loadsSteady {uri : VdagUri} {stage : Stage} {s after : σ × PolicyCache π} {answer : Outcome (Option π)}
    {asked : Option (Outcome (Option π × Option π))} {loaded : Outcome (Option π × Option π)}
    (found : book.Found uri stage s asked answer after) (clock : ∀ s, still s → still (book.clock.run s).2)
    (answers : Constant still (book.load uri) loaded) (stands : still s.1) :
    (∀ given, asked = some given → given = loaded) ∧ still after.1 := by
  have told := answers _ (clock _ stands)
  cases found with
  | remembered looked => exact ⟨nofun, clock _ stands⟩
  | failed looked ran =>
    rw [ran] at told
    exact ⟨fun given same => Option.some.inj same ▸ told.1, told.2⟩
  | loaded looked ran =>
    rw [ran] at told
    exact ⟨fun given same => Option.some.inj same ▸ told.1, clock _ told.2⟩

theorem Unchanging.serveSteady (unchanging : book.Unchanging still records policyOf) {s : σ × PolicyCache π}
    (stands : still s.1) {call : Call σ} (spares : call.Spares still) :
    (∀ uri given, .loaded uri given ∈ (book.serve s call).1 → Constant still (book.load uri) given) ∧
      still (book.serve s call).2.1 := by
  cases call with
  | change become => exact ⟨fun _ _ member => absurd member List.not_mem_nil, spares _ stands⟩
  | forget uri =>
    refine ⟨fun _ _ member => ?_, stands⟩
    cases List.mem_singleton.mp member
  | policy uri stage =>
    obtain ⟨loaded, answers⟩ := unchanging.loadConstant uri
    obtain ⟨given, stood⟩ := (foundPolicy book uri stage s).loadsSteady unchanging.clock answers stands
    refine ⟨fun other given' member => ?_, stood⟩
    rw [PolicyBook.serve, List.mem_append, List.mem_map] at member
    rcases member with ⟨one, asked, same⟩ | last
    · cases same
      exact given _ (Option.mem_toList.mp asked) ▸ answers
    · cases List.mem_singleton.mp last

theorem Unchanging.serveAll (unchanging : book.Unchanging still records policyOf) {s : σ × PolicyCache π}
    (stands : still s.1) {calls : List (Call σ)} (spare : ∀ call ∈ calls, call.Spares still) {uri : VdagUri}
    {given : Outcome (Option π × Option π)} (member : .loaded uri given ∈ (book.serveAll s calls).1) :
    Constant still (book.load uri) given := by
  induction calls generalizing s with
  | nil => cases member
  | cons call rest ih =>
    obtain ⟨first, later⟩ := List.forall_mem_cons.mp spare
    obtain ⟨answers, stood⟩ := unchanging.serveSteady stands first
    rcases List.mem_append.mp member with now | soon
    · exact answers uri given now
    · exact ih stood later soon

end Unchanging

theorem hostedUnchanging {τ : Type} {standing : τ → Prop} {policies : PolicyService (StateM τ) π} {clock : StateM τ Nat}
    (block : BlockId) (vdags : SortedMap VdagUri Definition)
    (steady : ∀ rule, Constant standing (policies.load rule) (policyOf rule))
    (ticks : ∀ s, standing s → standing (clock.run s).2) :
    (hosted block policies clock).Unchanging (fun s => s.1.vdags = vdags ∧ standing s.2)
      (fun uri => .ok (vdags.find? uri)) policyOf where
  clock := fun s ⟨same, stands⟩ => ⟨same, ticks s.2 stands⟩
  registry := by
    rintro uri ⟨r, s⟩ ⟨rfl, stands⟩
    exact ⟨rfl, rfl, stands⟩
  policies := fun rule s ⟨same, stands⟩ =>
    have ran := steady rule s.2 stands
    ⟨ran.1, same, ran.2⟩

structure Coherent (book : PolicyBook (StateM σ) π) (s : σ) (calls : List (Call σ)) (events : List (Event π))
    (last : σ × PolicyCache π) : Prop where
  answers : ∀ before uri stage policy later, events = before ++ .answered uri stage (.ok policy) :: later →
    ∃ rules, Stands before uri rules ∧ policy = select stage rules
  failures : ∀ before uri stage failure later, events = before ++ .answered uri stage (.error failure) :: later →
    ∃ earlier, before = earlier ++ [.loaded uri (.error failure)]
  unasked : ∀ uri stage, book.loading? uri stage last = none →
    (on (joined (book.policyFor uri stage)) last).2.1 = (book.clock.run last.1).2
  paired : ∀ uri first second, RecencyCache.entry? last.2 (uri, .preprocessing) = some first →
    RecencyCache.entry? last.2 (uri, .postprocessing) = some second →
      ∃ rules, Stands events uri rules ∧ first.value = rules.1 ∧ second.value = rules.2
  cleared : ∀ uri stage failure, book.loading? uri stage last = some (.error failure) →
    (on (joined (book.policyFor uri stage)) last).1 = .error failure ∧
    (∀ other, RecencyCache.entry? (on (joined (book.policyFor uri stage)) last).2.2 (uri, other) = none) ∧
    ∀ key, key.1 ≠ uri →
      RecencyCache.entry? (on (joined (book.policyFor uri stage)) last).2.2 key = RecencyCache.entry? last.2 key
  steady : ∀ still records policyOf, book.Unchanging still records policyOf → still s →
    (∀ call ∈ calls, call.Spares still) → ∀ uri stage answer, .answered uri stage answer ∈ events →
      ∀ s', still s' → answer = (on (book.load uri) s').1.map (select stage)

theorem policiesCoherent (book : PolicyBook (StateM σ) π) (capacity : Nat) (timeToLive : Option Nat) (s : σ)
    (calls : List (Call σ)) :
    book.Coherent s calls (book.serveAll (s, .new capacity timeToLive) calls).1
      (book.serveAll (s, .new capacity timeToLive) calls).2 := by
  have start : Recalls ([] : List (Event π)) (s, RecencyCache.new capacity timeToLive).2 :=
    .newRecalls capacity timeToLive
  have recalls : Recalls _ (book.serveAll (s, .new capacity timeToLive) calls).2.2 := start.serveAll calls
  rw [List.nil_append] at recalls
  refine ⟨fun before uri stage policy later split => recalls.sound before _ later split,
    fun before uri stage failure later split => recalls.sound before _ later split,
    fun uri stage remembered => (remembered ▸ foundPolicy book uri stage _).onlyClockMoved, ?_,
    fun uri stage failure loading => (loading ▸ foundPolicy book uri stage _).clearedOnFailure, ?_⟩
  · intro uri first second before after
    obtain ⟨rules, stands, same⟩ := recalls.held.holdsEntry before
    obtain ⟨rules', stands', same'⟩ := recalls.held.holdsEntry after
    obtain rfl := stands.rulesUnique stands'
    exact ⟨rules, stands, same, same'⟩
  · intro still records policyOf unchanging stands spare uri stage answer member s' stood
    obtain ⟨before, later, split⟩ := List.append_of_mem member
    have founded := recalls.sound before _ later split
    refine founded.answersLoad (fun given earlier => ?_)
    have within : .loaded uri given ∈ (book.serveAll (s, .new capacity timeToLive) calls).1 :=
      split ▸ List.mem_append_left _ earlier
    exact (unchanging.serveAll stands spare within s' stood).1.symm

def samplePolicies : PolicyService (StateM Unit) Unit := ⟨fun _ => return (), fun _ input => return input⟩

def sampleBook : PolicyBook (Hosted Unit) Unit := hosted ⟨"b1"⟩ samplePolicies (pure 0)

def sampleKept : MemoryRegistry := MemoryRegistry.empty.store
  { name := "leaf", version := ⟨"1", "a"⟩, discoveryTags := [], controller := .null, nodes := [], graph := .empty,
    status := .assigned, assignment := .empty, compiled := some ⟨⟨⟨"b2"⟩, [⟨"b2"⟩], .empty⟩, .empty, .empty⟩ }

def sampleAsked : List (Call (MemoryRegistry × Unit)) :=
  [.preprocessing, .postprocessing, .preprocessing].map (.policy ⟨"leaf:1-a"⟩)

theorem sampleCoherent :
    sampleBook.Unchanging (fun s => s.1.vdags = sampleKept.vdags ∧ True) (fun uri => .ok (sampleKept.vdags.find? uri))
        (fun _ => .ok ()) ∧
      ∀ capacity uri stage answer,
        .answered uri stage answer ∈ (sampleBook.serveAll ((sampleKept, ()), .new capacity none) sampleAsked).1 →
        answer = (on (sampleBook.load uri) (sampleKept, ())).1.map (select stage) := by
  have steady : ∀ rule, Constant (fun _ => True) (samplePolicies.load rule) (.ok ()) := fun _ _ _ => ⟨rfl, trivial⟩
  have unchanging : sampleBook.Unchanging (fun s => s.1.vdags = sampleKept.vdags ∧ True)
      (fun uri => .ok (sampleKept.vdags.find? uri)) (fun _ => .ok ()) :=
    hostedUnchanging ⟨"b1"⟩ sampleKept.vdags steady (fun _ _ => trivial)
  refine ⟨unchanging, fun capacity uri stage answer answered => ?_⟩
  have spare : ∀ call ∈ sampleAsked, call.Spares (fun s => s.1.vdags = sampleKept.vdags ∧ True) := fun call asked => by
    obtain ⟨_, _, rfl⟩ := List.mem_map.mp asked
    trivial
  exact (policiesCoherent sampleBook capacity none (sampleKept, ()) sampleAsked).steady _ _ _ unchanging ⟨rfl, trivial⟩
    spare uri stage answer answered _ ⟨rfl, trivial⟩

/- With room for one stage only, the second takes the place of the first, which is loaded again. -/
example : (sampleBook.serveAll ((sampleKept, ()), .new 1 none) sampleAsked).1 =
    [.loaded ⟨"leaf:1-a"⟩ (.ok (none, none)), .answered ⟨"leaf:1-a"⟩ .preprocessing (.ok none),
      .answered ⟨"leaf:1-a"⟩ .postprocessing (.ok none), .loaded ⟨"leaf:1-a"⟩ (.ok (none, none)),
      .answered ⟨"leaf:1-a"⟩ .preprocessing (.ok none)] := by
  decide +kernel

end PolicyBook

end Vdag
