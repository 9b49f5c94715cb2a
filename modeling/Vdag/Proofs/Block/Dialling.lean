import Vdag.Proofs.Block.Connections
import Vdag.Proofs.Json.Lexing
import Vdag.Proofs.Text

/-! Connections asked for and dropped, over any connector and any clock. What is handed out was opened for the endpoint
it is asked for, and last of all that was opened for it; the connector is called where nothing live is kept, and only
then. -/
namespace Vdag
open Vdag.Action

namespace Destination

def SharesEndpoint (d other : Destination) : Prop := d.host = other.host ∧ d.port = other.port

instance (d other : Destination) : Decidable (d.SharesEndpoint other) := inferInstanceAs (Decidable (_ ∧ _))

theorem portColonless (port : UInt16) : ':' ∉ (toString port.toNat).toList := by
  rw [show (toString port.toNat).toList = Nat.toDigits 10 port.toNat from Nat.toList_repr]
  intro member
  have digit := Nat.isDigit_of_mem_toDigits (by decide) (by decide) member
  cases digit

theorem endpointShared {d other : Destination} : d.endpoint = other.endpoint ↔ d.SharesEndpoint other := by
  rw [endpoint, endpoint, endpointOf, endpointOf, Text.textCutTwice rfl, SharesEndpoint]
  constructor
  · rintro (⟨host, port⟩ | ⟨more, _, port⟩ | ⟨more, _, port⟩)
    · have digits : Nat.toDigits 10 d.port.toNat = Nat.toDigits 10 other.port.toNat := by
        rw [← Nat.toList_repr, ← Nat.toList_repr]
        exact congrArg String.toList port
      exact ⟨host, UInt16.toNat_inj.mp (Json.decimalInjective digits)⟩
    · exact absurd (by simp [port]) (portColonless d.port)
    · exact absurd (by simp [port]) (portColonless other.port)
  · rintro ⟨host, port⟩
    exact .inl ⟨host, by rw [port]⟩

end Destination

structure Attempt (κ : Type) where
  destination : Destination
  answer : Outcome κ

def Latest {κ : Type} (attempts : List (Attempt κ)) (endpoint : String) (connection : κ) : Prop :=
  ∃ earlier attempt later, attempts = earlier ++ attempt :: later ∧ attempt.destination.endpoint = endpoint ∧
    attempt.answer = .ok connection ∧ ∀ other ∈ later, other.destination.endpoint ≠ endpoint

namespace Latest

variable {κ : Type} {attempts : List (Attempt κ)} {endpoint : String} {connection : κ}

theorem keptElsewhere (latest : Latest attempts endpoint connection) {attempt : Attempt κ}
    (elsewhere : attempt.destination.endpoint ≠ endpoint) : Latest (attempts ++ [attempt]) endpoint connection := by
  obtain ⟨earlier, own, later, rfl, led, opened, others⟩ := latest
  refine ⟨earlier, own, later ++ [attempt], by simp, led, opened, fun other member => ?_⟩
  rcases List.mem_append.mp member with before | last
  · exact others other before
  · exact List.mem_singleton.mp last ▸ elsewhere

theorem lastLatest (attempts : List (Attempt κ)) {d : Destination} (connection : κ) :
    Latest (attempts ++ [⟨d, .ok connection⟩]) d.endpoint connection :=
  ⟨attempts, _, [], rfl, rfl, rfl, fun _ member => absurd member List.not_mem_nil⟩

end Latest

namespace Dialer

variable {σ κ : Type}

def recorded (dialer : Dialer (StateM σ) κ) : Dialer (StateM (σ × List (Attempt κ))) κ where
  connector := {
    connect d := ExceptT.mk fun w =>
      let (answer, s) := on (dialer.connector.connect d) w.1
      (answer, (s, w.2 ++ [⟨d, answer⟩]))
    push connection queue payload := ExceptT.mk fun w =>
      let (answer, s) := on (dialer.connector.push connection queue payload) w.1
      (answer, (s, w.2)) }
  clock w :=
    let (now, s) := dialer.clock w.1
    (now, (s, w.2))

inductive Call where
  | connection (d : Destination)
  | drop (d : Destination)
  deriving DecidableEq, Repr

def after (dialer : Dialer (StateM σ) κ) (w : σ × ConnectionCache κ) : Call → σ × ConnectionCache κ
  | .connection d => (on (joined (dialer.connection d)) w).2
  | .drop d => (w.1, drop d w.2)

def history (dialer : Dialer (StateM σ) κ) (w : σ × ConnectionCache κ) (calls : List Call) : σ × ConnectionCache κ :=
  calls.foldl dialer.after w

abbrev Record (σ κ : Type) := (σ × List (Attempt κ)) × ConnectionCache κ

variable (dialer : Dialer (StateM σ) κ)

inductive Found (d : Destination) (w : Record σ κ) : Outcome κ → Record σ κ → Prop
  | unsupported (port : d.port = 0) : Found d w (.error (.transport (.unsupportedPort d.host))) w
  | kept (port : d.port ≠ 0) {connection : κ} {got : ConnectionCache κ}
      (looked : w.2.get (dialer.clock.run w.1.1).1 d.endpoint = (some connection, got)) :
      Found d w (.ok connection) (((dialer.clock.run w.1.1).2, w.1.2), got)
  | refused (port : d.port ≠ 0) {failure : Failure} {s : σ} {got : ConnectionCache κ}
      (looked : w.2.get (dialer.clock.run w.1.1).1 d.endpoint = (none, got))
      (tried : on (dialer.connector.connect d) (dialer.clock.run w.1.1).2 = (.error failure, s)) :
      Found d w (.error failure) ((s, w.1.2 ++ [⟨d, .error failure⟩]), got)
  | opened (port : d.port ≠ 0) {connection : κ} {s : σ} {got : ConnectionCache κ}
      (looked : w.2.get (dialer.clock.run w.1.1).1 d.endpoint = (none, got))
      (tried : on (dialer.connector.connect d) (dialer.clock.run w.1.1).2 = (.ok connection, s)) :
      Found d w (.ok connection) (((dialer.clock.run s).2, w.1.2 ++ [⟨d, .ok connection⟩]),
        got.insert (dialer.clock.run s).1 d.endpoint connection)

theorem onRecorded (d : Destination) (s : σ) (attempts : List (Attempt κ)) :
    on (dialer.recorded.connector.connect d) (s, attempts) = ((on (dialer.connector.connect d) s).1,
      ((on (dialer.connector.connect d) s).2, attempts ++ [⟨d, (on (dialer.connector.connect d) s).1⟩])) := rfl

theorem recordedClock (s : σ) (attempts : List (Attempt κ)) :
    dialer.recorded.clock.run (s, attempts) = ((dialer.clock.run s).1, ((dialer.clock.run s).2, attempts)) := rfl

theorem findsConnection (d : Destination) (w : Record σ κ) :
    dialer.Found d w (on (joined (dialer.recorded.connection d)) w).1
    (on (joined (dialer.recorded.connection d)) w).2 := by
  obtain ⟨⟨s, attempts⟩, cache⟩ := w
  by_cases port : d.port = 0
  · rw [dialer.recorded.onUnsupported port]
    exact .unsupported port
  rw [dialer.recorded.onConnection port, recordedClock]
  rcases looked : cache.get (dialer.clock.run s).1 d.endpoint with ⟨_ | connection, got⟩
  · dsimp only
    rw [onRecorded]
    rcases tried : on (dialer.connector.connect d) (dialer.clock.run s).2 with ⟨failure | connection, s'⟩
    · exact .refused port looked tried
    · exact .opened port looked tried
  · exact .kept port looked

theorem recordedAlike (d : Destination) (w : Record σ κ) :
    on (joined (dialer.connection d)) (w.1.1, w.2) = ((on (joined (dialer.recorded.connection d)) w).1,
      ((on (joined (dialer.recorded.connection d)) w).2.1.1, (on (joined (dialer.recorded.connection d)) w).2.2)) := by
  obtain ⟨⟨s, attempts⟩, cache⟩ := w
  by_cases port : d.port = 0
  · rw [dialer.recorded.onUnsupported port, dialer.onUnsupported port]
  rw [dialer.recorded.onConnection port, dialer.onConnection port, recordedClock]
  rcases cache.get (dialer.clock.run s).1 d.endpoint with ⟨_ | connection, got⟩
  · dsimp only
    rw [onRecorded]
    rcases on (dialer.connector.connect d) (dialer.clock.run s).2 with ⟨failure | connection, s'⟩
    · rfl
    · rfl
  · rfl

/- Every connection that is kept is the last one opened for its endpoint. -/
def Led (w : Record σ κ) : Prop := w.2.Holds (Latest w.1.2)

variable {dialer} {d : Destination} {w w' : Record σ κ} {answer : Outcome κ}

/- An attempt is made where nothing is kept for the endpoint, so it does not take the place of any that counts. -/
theorem Led.heldAfterTry (led : Led w) {now : Nat} {got : ConnectionCache κ}
    (looked : w.2.get now d.endpoint = (none, got))
    (outcome : Outcome κ) : got.Holds (Latest (w.1.2 ++ [⟨d, outcome⟩])) := by
  have lost := RecencyCache.getLost (congrArg Prod.fst looked)
  obtain ⟨stays, _⟩ := led.holdsGet now d.endpoint
  rw [looked] at lost stays
  have apart := RecencyCache.entryNone.mp lost
  exact (stays.holdsBoth apart).mono (fun _ _ ⟨latest, other⟩ => latest.keptElsewhere other.symm)

theorem Found.keepsLed (found : dialer.Found d w answer w') (led : Led w) :
    Led w' ∧ ∀ connection, answer = .ok connection → Latest w'.1.2 d.endpoint connection := by
  cases found with
  | unsupported => exact ⟨led, nofun⟩
  | kept _ looked =>
    obtain ⟨stays, own⟩ := led.holdsGet (dialer.clock.run w.1.1).1 d.endpoint
    rw [looked] at stays own
    refine ⟨stays, fun connection same => ?_⟩
    cases same
    exact own _ rfl
  | refused _ looked => exact ⟨led.heldAfterTry looked _, nofun⟩
  | @opened _ connection _ _ looked =>
    have own := Latest.lastLatest w.1.2 (d := d) connection
    refine ⟨(led.heldAfterTry looked _).holdsInsert _ own, fun other same => ?_⟩
    cases same
    exact own

theorem Led.ledAfterCall (led : Led w) (call : Call) : Led (dialer.recorded.after w call) := by
  cases call with
  | connection d => exact ((findsConnection dialer d w).keepsLed led).1
  | drop d => exact led.holdsInvalidate d.endpoint

theorem Led.ledAfterHistory (led : Led w) (calls : List Call) : Led (dialer.recorded.history w calls) := by
  induction calls generalizing w with
  | nil => exact led
  | cons call rest ih => exact ih (led.ledAfterCall call)

theorem Found.staysAbsent (found : dialer.Found d w answer w') {endpoint : String} (elsewhere : d.endpoint ≠ endpoint)
    (absent : RecencyCache.entry? w.2 endpoint = none) : RecencyCache.entry? w'.2 endpoint = none := by
  rw [RecencyCache.entryNone] at absent ⊢
  obtain ⟨stays, _⟩ := absent.holdsGet (dialer.clock.run w.1.1).1 d.endpoint
  cases found with
  | unsupported => exact absent
  | kept _ looked | refused _ looked =>
    rw [looked] at stays
    exact stays
  | opened _ looked =>
    rw [looked] at stays
    exact stays.holdsInsert _ elsewhere

theorem historyAbsent {calls : List Call} (elsewhere : ∀ other, .connection other ∈ calls → other.endpoint ≠ d.endpoint)
    (absent : RecencyCache.entry? w.2 d.endpoint = none) :
    RecencyCache.entry? (dialer.recorded.history w calls).2 d.endpoint = none := by
  induction calls generalizing w with
  | nil => exact absent
  | cons call rest ih =>
    refine ih (fun other member => elsewhere other (List.mem_cons_of_mem call member)) ?_
    cases call with
    | connection other => exact (findsConnection dialer other w).staysAbsent (elsewhere other List.mem_cons_self) absent
    | drop other =>
      change RecencyCache.entry? (w.2.without other.endpoint) d.endpoint = none
      rw [RecencyCache.entryWithout, absent, ite_self]

variable (dialer)

def Live (w : Record σ κ) (d : Destination) (connection : κ) : Prop :=
  ∃ entry, RecencyCache.entry? w.2 d.endpoint = some entry ∧ w.2.hasExpired (dialer.clock.run w.1.1).1 entry = false ∧
    entry.value = connection

structure Serves (dialer : Dialer (StateM σ) κ) (d : Destination) (w : Record σ κ) (answer : Outcome κ)
    (after : Record σ κ) : Prop where
  alike : on (joined (dialer.connection d)) (w.1.1, w.2) = (answer, (after.1.1, after.2))
  unsupported : d.port = 0 → answer = .error (.transport (.unsupportedPort d.host)) ∧ after = w
  kept : d.port ≠ 0 → ∀ connection, dialer.Live w d connection → answer = .ok connection ∧ after.1.2 = w.1.2
  tried : d.port ≠ 0 → (∀ connection, ¬ dialer.Live w d connection) → after.1.2 = w.1.2 ++ [⟨d, answer⟩]
  failed : ∀ failure, after.1.2 = w.1.2 ++ [⟨d, .error failure⟩] → answer = .error failure ∧
    RecencyCache.entry? after.2 d.endpoint = none ∧
      ∀ key, key ≠ d.endpoint → RecencyCache.entry? after.2 key = RecencyCache.entry? w.2 key
  leads : ∀ connection, answer = .ok connection → ∃ earlier attempt later, after.1.2 = earlier ++ attempt :: later ∧
    attempt.destination.SharesEndpoint d ∧ attempt.answer = .ok connection ∧
    ∀ other ∈ later, ¬ other.destination.SharesEndpoint d

variable {dialer}

theorem liveIff {connection : κ} : dialer.Live w d connection ↔
    (w.2.get (dialer.clock.run w.1.1).1 d.endpoint).1 = some connection := RecencyCache.getFound.symm

theorem Found.servesFound (found : dialer.Found d w answer w') (led : Led w)
    (alike : on (joined (dialer.connection d)) (w.1.1, w.2) = (answer, (w'.1.1, w'.2))) :
    dialer.Serves d w answer w' where
  alike := alike
  unsupported port := by
    cases found with
    | unsupported => exact ⟨rfl, rfl⟩
    | kept other | refused other | opened other => exact absurd port other
  kept port connection live := by
    rw [liveIff] at live
    cases found with
    | unsupported none => exact absurd none port
    | kept _ looked =>
      rw [looked] at live
      exact ⟨congrArg Except.ok (Option.some.inj live), rfl⟩
    | refused _ looked | opened _ looked =>
      rw [looked] at live
      cases live
  tried port none := by
    cases found with
    | unsupported none => exact absurd none port
    | kept _ looked => exact absurd (liveIff.mpr (congrArg Prod.fst looked)) (none _)
    | refused | opened => rfl
  failed failure attempted := by
    -- Only a connection that was refused leaves a failed attempt behind.
    have unchanged : ∀ attempt : Attempt κ, w.1.2 ≠ w.1.2 ++ [attempt] := by simp
    cases found with
    | unsupported | kept => exact absurd attempted (unchanged _)
    | @refused _ _ _ got looked =>
      have got : (w.2.get (dialer.clock.run w.1.1).1 d.endpoint).2 = got := congrArg Prod.snd looked
      subst got
      cases List.append_cancel_left attempted
      exact ⟨rfl, RecencyCache.getLost (congrArg Prod.fst looked), fun key apart => RecencyCache.entryGot _ _ apart⟩
    | opened => cases List.append_cancel_left attempted
  leads connection ok := by
    obtain ⟨earlier, attempt, later, split, led, opened, others⟩ := (found.keepsLed led).2 connection ok
    exact ⟨earlier, attempt, later, split, Destination.endpointShared.mp led, opened,
      fun other member => mt Destination.endpointShared.mpr (others other member)⟩

/- What connections are like at any time: each is answered for as is told, and one that is dropped is opened anew, even
when others have been asked for in between. -/
structure Reliable (dialer : Dialer (StateM σ) κ) (w : Record σ κ) : Prop where
  serves : ∀ d, dialer.Serves d w (on (joined (dialer.recorded.connection d)) w).1
    (on (joined (dialer.recorded.connection d)) w).2
  drops : ∀ d, (dialer.recorded.after w (.drop d)).1 = w.1 ∧
    RecencyCache.entry? (dialer.recorded.after w (.drop d)).2 d.endpoint = none ∧
    ∀ other : Destination, ¬ other.SharesEndpoint d →
      RecencyCache.entry? (dialer.recorded.after w (.drop d)).2 other.endpoint = RecencyCache.entry? w.2 other.endpoint
  anew : ∀ d between, d.port ≠ 0 → (∀ other, .connection other ∈ between → ¬ other.SharesEndpoint d) →
    let waited := dialer.recorded.history w (.drop d :: between)
    (dialer.recorded.after waited (.connection d)).1.2 =
      waited.1.2 ++ [⟨d, (on (joined (dialer.recorded.connection d)) waited).1⟩]

theorem Led.reliableLed (led : Led w) : dialer.Reliable w where
  serves d := (findsConnection dialer d w).servesFound led (recordedAlike dialer d w)
  drops d := by
    refine ⟨rfl, (RecencyCache.entryWithout _ _ _).trans (if_pos rfl), fun other apart => ?_⟩
    exact (RecencyCache.entryWithout _ _ _).trans (if_neg (mt Destination.endpointShared.mp apart))
  anew d between port elsewhere := by
    intro waited
    have absent : RecencyCache.entry? waited.2 d.endpoint = none :=
      historyAbsent (w := dialer.recorded.after w (.drop d))
        (fun other member => mt Destination.endpointShared.mp (elsewhere other member))
        ((RecencyCache.entryWithout _ _ _).trans (if_pos rfl))
    have led' : Led waited := (led.ledAfterCall (.drop d)).ledAfterHistory between
    refine ((findsConnection dialer d waited).servesFound led' (recordedAlike dialer d waited)).tried port
      (fun _ live => ?_)
    obtain ⟨entry, known, _⟩ := live
    cases known.symm.trans absent

theorem connectionsLead (dialer : Dialer (StateM σ) κ) (s : σ) (capacity : Nat) (timeToLive : Option Nat)
    (calls : List Call) : dialer.Reliable (dialer.recorded.history ((s, []), .new capacity timeToLive) calls) := by
  have led : Led (((s, []), .new capacity timeToLive) : Record σ κ) := RecencyCache.holdsNew capacity timeToLive
  exact (led.ledAfterHistory calls).reliableLed

end Dialer

end Vdag
