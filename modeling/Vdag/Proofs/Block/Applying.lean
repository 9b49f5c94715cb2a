import Vdag.Proofs.Block.Policies
import Vdag.Proofs.Packet.Documents

/-! What a block makes of a packet when it runs a stage on it. Where no policy is run the packet stays as it is;
otherwise it is what the policy's output describes, and an output that describes no packet is refused. -/
namespace Vdag
open Vdag.Action Json

namespace PolicyBook

variable {σ π : Type}

def Unruled (block : BlockId) (stage : Stage) (uri : VdagUri) (stored : Option Definition) : Prop :=
  ∃ found, nodeOf block uri stored = .ok found ∧
    ∀ node, found = some node → select stage (node.preprocessingRule, node.postprocessingRule) = none

def Ran (book : PolicyBook (StateM σ) π) (uri : VdagUri) (stage : Stage) (packet : Packet) (w : σ × PolicyCache π)
    (output : Value) (after : σ × PolicyCache π) : Prop :=
  ∃ policy s, on (joined (book.policyFor uri stage)) w = (.ok (some policy), (s, after.2)) ∧
    on (book.policies.evaluate policy packet.wrapped) s = (.ok output, after.1)

structure Judged (output : Value) (outcome : Outcome Packet) : Prop where
  returns : ∀ p, outcome = .ok p ↔ ∃ document, output.member? "packet" = some document ∧ p.Described document
  refuses : ∀ failure, outcome = .error failure → ∃ fault, failure = .policy fault

theorem packetOfJudged (stage : Stage) (uri : VdagUri) (output : Value) :
    Judged output (packetOf stage uri output) where
  returns p := by
    rw [packetOf]
    cases output.member? "packet" with
    | none => simp
    | some document =>
      simp only [Option.some.injEq, exists_eq_left', ← Packet.readIff]
      cases readValue Packet.read document <;> simp
  refuses failure failed := by
    unfold packetOf at failed
    split at failed
    · exact ⟨_, (Except.error.inj failed).symm⟩
    · split at failed
      · cases failed
      · exact ⟨_, (Except.error.inj failed).symm⟩

theorem ruleLoaded (book : PolicyBook (StateM σ) π) {rule? : Option PolicyRule} {s s' : σ} {policy? : Option π}
    (ok : on (book.loadRule rule?) s = (.ok policy?, s')) : policy? = none ↔ rule? = none := by
  cases rule? with
  | none =>
    cases ok
    exact ⟨fun _ => rfl, fun _ => rfl⟩
  | some rule =>
    rw [loadRule, onBindPure] at ok
    obtain ⟨policy, -, rfl⟩ := Outcome.mapOk.mp (Prod.mk.inj ok).1
    simp

theorem loadSelects {book : PolicyBook (StateM σ) π} {uri : VdagUri} {s s' : σ} {loaded : Option π × Option π}
    (ok : on (book.load uri) s = (.ok loaded, s')) :
    ∃ stored middle, on (book.registry.get uri) s = (.ok stored, middle) ∧
      ∀ stage, select stage loaded = none ↔ Unruled book.block stage uri stored := by
  rw [load, onBindOk] at ok
  obtain ⟨stored, middle, got, ok⟩ := ok
  obtain ⟨found, _, looked, ok⟩ := onBindOk.mp ok
  obtain ⟨named, rfl⟩ : nodeOf book.block uri stored = .ok found ∧ middle = _ := Prod.mk.inj looked
  refine ⟨stored, middle, got, fun stage => ?_⟩
  cases found with
  | none =>
    cases ok
    have bare : Unruled book.block stage uri stored := ⟨none, named, by simp⟩
    exact iff_of_true (by cases stage <;> rfl) bare
  | some node =>
    obtain ⟨before, s₁, first, ok⟩ := onBindOk.mp ok
    obtain ⟨after, s₂, second, ok⟩ := onBindOk.mp ok
    cases ok
    have rules : select stage (before, after) = none ↔
        select stage (node.preprocessingRule, node.postprocessingRule) = none := by
      cases stage with
      | preprocessing => exact book.ruleLoaded first
      | postprocessing => exact book.ruleLoaded second
    rw [rules]
    constructor
    · exact fun none => ⟨_, named, fun other same => Option.some.inj same ▸ none⟩
    · rintro ⟨found, named', bare⟩
      exact bare node (Except.ok.inj (named'.symm.trans named))

variable (book : PolicyBook (StateM σ) π) (stage : Stage) (packet : Packet) (w : σ × PolicyCache π)

theorem onApply (uri : VdagUri) (session : String) :
    on (joined (book.apply (.governed uri session) stage packet)) w =
      match on (joined (book.policyFor uri stage)) w with
      | (.error failure, after) => (.error failure, after)
      | (.ok none, after) => (.ok packet, after)
      | (.ok (some policy), (s, cache)) => match on (book.policies.evaluate policy packet.wrapped) s with
        | (.error failure, s) => (.error failure, (s, cache))
        | (.ok output, s) => (packetOf stage uri output, (s, cache)) := by
  rw [apply, Session.uri?]
  dsimp only
  rw [onJoinedBind]
  rcases on (joined (book.policyFor uri stage)) w with ⟨_ | _ | policy, s, cache⟩
  · rfl
  · rfl
  · dsimp only
    have evaluated : on (joined ((book.policies.evaluate policy packet.wrapped).hoist StateT.lift)) (s, cache) =
        ((on (book.policies.evaluate policy packet.wrapped) s).1,
          ((on (book.policies.evaluate policy packet.wrapped) s).2, cache)) := rfl
    rw [onJoinedBind, evaluated]
    rcases on (book.policies.evaluate policy packet.wrapped) s with ⟨_ | output, s'⟩
    · rfl
    · rfl

structure Faithful : Prop where
  plain : ∀ id, on (joined (book.apply (.plain id) stage packet)) w = (.ok packet, w)
  without : ∀ uri session after, on (joined (book.policyFor uri stage)) w = (.ok none, after) →
    on (joined (book.apply (.governed uri session) stage packet)) w = (.ok packet, after)
  unruled : ∀ uri session left loaded s stored s', w.2.get (book.clock.run w.1).1 (uri, stage) = (none, left) →
    on (book.load uri) (book.clock.run w.1).2 = (.ok loaded, s) →
      on (book.registry.get uri) (book.clock.run w.1).2 = (.ok stored, s') → Unruled book.block stage uri stored →
        (on (joined (book.apply (.governed uri session) stage packet)) w).1 = .ok packet
  ran : ∀ uri session output after, book.Ran uri stage packet w output after →
    ∃ outcome, on (joined (book.apply (.governed uri session) stage packet)) w = (outcome, after) ∧
      Judged output outcome
  echoed : ∀ uri session after, book.Ran uri stage packet w packet.wrapped after → packet.timestamp.isFinite = true →
    on (joined (book.apply (.governed uri session) stage packet)) w = (.ok packet, after)
  endless : ∀ uri session after, book.Ran uri stage packet w packet.wrapped after → packet.timestamp.isFinite = false →
    ∃ fault, on (joined (book.apply (.governed uri session) stage packet)) w = (.error (.policy fault), after)

variable {book stage packet w}

theorem onRan {uri : VdagUri} {output : Value} {after : σ × PolicyCache π}
    (ran : book.Ran uri stage packet w output after) (session : String) :
    on (joined (book.apply (.governed uri session) stage packet)) w = (packetOf stage uri output, after) := by
  obtain ⟨policy, s, found, evaluated⟩ := ran
  rw [onApply, found]
  dsimp only
  rw [evaluated]

theorem packetOfWrapped (finite : packet.timestamp.isFinite = true) (uri : VdagUri) :
    packetOf stage uri packet.wrapped = .ok packet :=
  ((packetOfJudged stage uri packet.wrapped).returns packet).mpr ⟨packet.toJson, rfl, Packet.describedToJson finite⟩

theorem refusesEndless (endless : packet.timestamp.isFinite = false) (uri : VdagUri) :
    ∃ fault, packetOf stage uri packet.wrapped = .error (.policy fault) := by
  have judged := packetOfJudged stage uri packet.wrapped
  cases outcome : packetOf stage uri packet.wrapped with
  | ok p =>
    obtain ⟨document, found, describes⟩ := (judged.returns p).mp outcome
    cases found
    exact absurd describes (Packet.undescribedToJson endless p)
  | error failure =>
    obtain ⟨fault, rfl⟩ := judged.refuses failure outcome
    exact ⟨fault, rfl⟩

variable (book stage packet w)

theorem appliesFaithfully : book.Faithful stage packet w where
  plain id := rfl
  without uri session after found := by rw [onApply, found]
  unruled uri session left loaded s stored s' forgotten loads got bare := by
    obtain ⟨stored', _, got', selects⟩ := loadSelects loads
    obtain ⟨rfl, -⟩ : stored' = stored ∧ _ := by simpa using got'.symm.trans got
    obtain ⟨state, cache⟩ := w
    rw [onApply, onPolicyFor, forgotten]
    dsimp only
    rw [loads]
    dsimp only
    rw [(selects stage).mpr bare]
  ran uri session output after ran := ⟨_, onRan ran session, packetOfJudged stage uri output⟩
  echoed uri session after ran finite := by rw [onRan ran, packetOfWrapped finite]
  endless uri session after ran endless := by
    obtain ⟨fault, refused⟩ := refusesEndless endless uri
    exact ⟨fault, by rw [onRan ran, refused]⟩

def sampleEcho : PolicyBook (Hosted Unit) Unit :=
  hosted ⟨"b"⟩ ⟨fun _ => return (), fun _ input => return input⟩ (pure 0)

def sampleRuled : MemoryRegistry := MemoryRegistry.empty.store
  { name := "leaf", version := ⟨"1", "a"⟩, discoveryTags := [], controller := .null,
    nodes := [⟨⟨"A"⟩, .block, none, none, some ⟨"rule", .null⟩, none, some ⟨"b"⟩, ⟨.empty, .empty, .empty, []⟩⟩],
    graph := .empty, status := .assigned, assignment := .empty,
    compiled := some ⟨⟨⟨"b"⟩, [⟨"b"⟩], .empty⟩, .empty, .ofList [(.block ⟨"b"⟩, ⟨"A"⟩)]⟩ }

def sampleWorld : (MemoryRegistry × Unit) × PolicyCache Unit := ((sampleRuled, ()), .new 4 none)

def sampleStamped (bits : UInt64) : Packet :=
  { Packet.blank with session := "s", attachments := [⟨"frame", [0, 255]⟩], timestamp := ⟨bits⟩ }

theorem sampleRan (packet : Packet) : sampleEcho.Ran ⟨"leaf:1-a"⟩ .preprocessing packet sampleWorld packet.wrapped
    (on (joined (sampleEcho.policyFor ⟨"leaf:1-a"⟩ .preprocessing)) sampleWorld).2 := by
  have found : (on (joined (sampleEcho.policyFor ⟨"leaf:1-a"⟩ .preprocessing)) sampleWorld).1 = .ok (some ()) := by
    decide +kernel
  exact ⟨(), _, Prod.ext found rfl, rfl⟩

theorem sampleFaithful : ∃ after fault,
    on (joined (sampleEcho.apply (.governed ⟨"leaf:1-a"⟩ "s") .preprocessing (sampleStamped 0x3ff8000000000000)))
        sampleWorld = (.ok (sampleStamped 0x3ff8000000000000), after) ∧
      on (joined (sampleEcho.apply (.governed ⟨"leaf:1-a"⟩ "s") .preprocessing (sampleStamped 0x7ff8000000000000)))
        sampleWorld = (.error (.policy fault), after) := by
  have stays := (appliesFaithfully sampleEcho .preprocessing (sampleStamped 0x3ff8000000000000) sampleWorld).echoed
    ⟨"leaf:1-a"⟩ "s" _ (sampleRan _) (by decide)
  obtain ⟨fault, refused⟩ := (appliesFaithfully sampleEcho .preprocessing (sampleStamped 0x7ff8000000000000)
    sampleWorld).endless ⟨"leaf:1-a"⟩ "s" _ (sampleRan _) (by decide)
  exact ⟨_, fault, stays, refused⟩

end PolicyBook

end Vdag
