import Vdag.Proofs.Block.Isolation
import Vdag.Proofs.Block.Passing
import Vdag.Proofs.Routing

/-! Forwarding, destination by destination: what is reported, and what arrives where. Nothing that comes of one
destination shows in what the others get. -/
namespace Vdag
open Vdag.Action

namespace Route

theorem parseAdhoc {pointer : String} : parse pointer = .ok .adhoc ↔ Text.isBlank pointer = true := by
  rw [parse]
  split
  · rename_i blank
    simp [blank]
  · rename_i shown
    refine ⟨fun read => ?_, fun blank => absurd blank shown⟩
    obtain ⟨value, _, routed⟩ := Outcome.bindOk.mp read
    rw [ofValue] at routed
    split at routed
    · split at routed
      · cases routed
      · obtain ⟨_, _, made⟩ := Outcome.bindOk.mp routed
        cases made
    · obtain ⟨_, _, listed⟩ := Outcome.bindOk.mp routed
      obtain ⟨_, _, made⟩ := Outcome.bindOk.mp listed
      cases made

end Route

theorem nextHopsBlank {block : BlockId} {packet : Packet} :
    nextHops block packet = .ok none ↔ Text.isBlank packet.outputPointer = true := by
  rw [← Route.parseAdhoc, nextHops, Outcome.bindOk]
  constructor
  · rintro ⟨route, read, hops⟩
    cases route with
    | adhoc => exact read
    | graph addresses =>
      obtain ⟨_, _, made⟩ := Outcome.bindOk.mp hops
      cases made
    | direct outputs => cases outputs <;> cases hops
  · intro read
    exact ⟨.adhoc, read, rfl⟩

namespace Destination

def reportOf (unreachable : List String) (destinations : List Destination) : ForwardReport where
  delivered := (destinations.filter (inReach unreachable)).map label
  failed := (destinations.filter (fun d => !d.inReach unreachable)).map (fun d => (d.label, d.fault))

theorem leadingInReach (unreachable : List String) (destinations : List Destination) (endpoint queue : String) :
    leading (destinations.filter (inReach unreachable)) endpoint queue =
      destinations.countP (fun d => decide (d.endpoint = endpoint ∧ d.queue = queue) && d.inReach unreachable) :=
  List.countP_filter

theorem leadingElsewhere {unreachable unreachable' : List String} {changed endpoint : String}
    (alike : ∀ other, other ≠ changed → (other ∈ unreachable ↔ other ∈ unreachable')) (elsewhere : endpoint ≠ changed)
    (destinations : List Destination) (queue : String) :
    leading (destinations.filter (inReach unreachable)) endpoint queue =
      leading (destinations.filter (inReach unreachable')) endpoint queue := by
  rw [leadingInReach, leadingInReach]
  refine List.countP_congr (fun d _ => ?_)
  rw [Bool.and_eq_true, Bool.and_eq_true, decide_eq_true_eq]
  refine and_congr_right (fun led => ?_)
  rw [inReach, inReach, decide_eq_true_eq, decide_eq_true_eq, led.1, alike endpoint elsewhere]

end Destination

namespace Workshop

variable {ω π : Type} (w : Workshop ω π)

/- The connections of a block, after it has dialled and dropped any number of them, while endpoints came and went. -/
inductive Opened : ConnectionCache String → Prop where
  | new (capacity : Nat) (timeToLive : Option Nat) : Opened (.new capacity timeToLive)
  | dialled {cache : ConnectionCache String} (opened : Opened cache) (d : Destination) (plant : Plant ω) :
      Opened (on (joined (w.dialer.connection d)) (plant, cache)).2.2
  | dropped {cache : ConnectionCache String} (opened : Opened cache) (d : Destination) : Opened (Dialer.drop d cache)

variable {w}

theorem Opened.leadsToEndpoint {cache : ConnectionCache String} (opened : w.Opened cache) :
    cache.Holds (fun endpoint connection => connection = endpoint) := by
  induction opened with
  | new capacity timeToLive => exact RecencyCache.holdsNew capacity timeToLive
  | dialled opened d plant ih =>
    refine Dialer.holdsConnection w.dialer ih (fun s connection answered => ?_) plant
    change (if d.endpoint ∈ s.2.1.unreachable then Except.error _ else Except.ok d.endpoint) =
      .ok connection at answered
    split at answered
    · cases answered
    · exact (Except.ok.inj answered).symm
  | dropped opened d ih => exact ih.holdsInvalidate d.endpoint

theorem Opened.openedAfterDelivery {s : Plant ω × ConnectionCache String} (opened : w.Opened s.2) (d : Destination)
    (payload : Bytes) : w.Opened (on (joined (w.dialer.deliver d payload)) s).2.2 := by
  have dialled := opened.dialled d s.1
  change w.Opened (on (joined (w.dialer.connection d)) s).2.2 at dialled
  rw [Dialer.onDeliver]
  rcases reached : on (joined (w.dialer.connection d)) s with ⟨_ | connection, plant, cache⟩
  · rw [reached] at dialled
    exact dialled
  · rw [reached] at dialled
    dsimp only
    split
    · exact dialled
    · exact dialled.dropped d

theorem Opened.deliveredAll {s : Plant ω × ConnectionCache String} (opened : w.Opened s.2) (payload : Bytes)
    (destinations : List Destination) (report : ForwardReport) :
    w.Opened (on (joined (ExceptT.lift (w.runtime.router.deliverAll payload destinations report))) s).2.2 := by
  induction destinations generalizing s report with
  | nil => exact opened
  | cons d rest ih =>
    rw [Standing.liftDeliverAll, onJoinedBind]
    exact ih (opened.openedAfterDelivery d payload) _

theorem Opened.openedAfterForward {s : Plant ω × ConnectionCache String} (opened : w.Opened s.2) (packet : Packet) :
    w.Opened (on (joined (w.runtime.router.forward packet)) s).2.2 := by
  rw [Router.forward, onJoinedBind]
  cases hops : nextHops w.runtime.router.block packet with
  | error failure => exact opened
  | ok destinations =>
    cases destinations with
    | none => exact opened
    | some destinations => exact opened.deliveredAll packet.encode destinations .blank

structure Connected (w : Workshop ω π) (s : Plant ω × ConnectionCache String) : Prop where
  opened : w.Opened s.2
  reach : s.2.Holds (fun _ connection => connection ∉ s.1.2.1.unreachable)

theorem Connected.connectedDialled {s : Plant ω × ConnectionCache String} (connected : w.Connected s) :
    (standingAt s.1).Dialled s.2 := by
  intro entry member
  have leads := connected.opened.leadsToEndpoint entry member
  exact ⟨leads, leads ▸ connected.reach entry member⟩

def arriving (w : Workshop ω π) (unreachable : List String) (packet : Packet) (endpoint queue : String) : List Bytes :=
  mail (w.forwarded unreachable packet).letters endpoint queue

theorem onForward {s : Plant ω × ConnectionCache String} (connected : w.Connected s) (packet : Packet) :
    (on (joined (w.runtime.router.forward packet)) s).1 = (w.forwarded s.1.2.1.unreachable packet).outcome ∧
      MemoryBroker.Posted (w.forwarded s.1.2.1.unreachable packet).letters s.1.2.1
        (on (joined (w.runtime.router.forward packet)) s).2.1.2.1 ∧
      w.Connected (on (joined (w.runtime.router.forward packet)) s).2 := by
  have opened := connected.opened.openedAfterForward packet
  have runs : (standingAt s.1).Runs (standingAt s.1).Dialled (w.runtime.router.forward packet)
      (w.forwarded s.1.2.1.unreachable packet) := Standing.runsForward w packet
  obtain ⟨plant', cache', ran, went, dialled⟩ := runs s.1 s.2 (standsAt s.1) connected.connectedDialled
  change on (joined (w.runtime.router.forward packet)) s = _ at ran
  rw [ran] at opened ⊢
  refine ⟨rfl, went.posted, opened, fun entry member => ?_⟩
  obtain ⟨leads, near⟩ := dialled entry member
  rw [went.posted.unreachable]
  exact leads ▸ near

theorem onUnrouted {packet : Packet} {failure : Failure} (unrouted : nextHops w.block packet = .error failure)
    (s : Plant ω × ConnectionCache String) : on (joined (w.runtime.router.forward packet)) s = (.error failure, s) := by
  have block : w.runtime.router.block = w.block := rfl
  rw [Router.forward, onJoinedBind, block, unrouted]
  rfl

theorem forwardedHops {packet : Packet} {destinations : List Destination}
    (hops : nextHops w.block packet = .ok (some destinations)) (unreachable : List String) :
    w.forwarded unreachable packet = ⟨.ok (Destination.reportOf unreachable destinations),
      (destinations.filter (Destination.inReach unreachable)).map (Destination.letter packet.encode)⟩ := by
  have told := Destination.allReachedTells unreachable packet.encode destinations .blank
  rw [forwarded, hops]
  exact told

theorem arrivingHops {packet : Packet} {destinations : List Destination}
    (hops : nextHops w.block packet = .ok (some destinations)) (unreachable : List String) (endpoint queue : String) :
    w.arriving unreachable packet endpoint queue = List.replicate
      (Destination.leading (destinations.filter (Destination.inReach unreachable)) endpoint queue) packet.encode := by
  rw [arriving, forwardedHops hops]
  exact Destination.mailLetters packet.encode _ endpoint queue

theorem forwardedKept {packet : Packet} (kept : nextHops w.block packet = .ok none) (unreachable : List String) :
    w.forwarded unreachable packet =
      ⟨.ok ⟨[Destination.defaultQueue], []⟩, [⟨w.outbox, Destination.defaultQueue, packet.encode⟩]⟩ := by
  rw [forwarded, kept]
  rfl

theorem arrivingElsewhere {unreachable unreachable' : List String} {changed endpoint : String}
    (alike : ∀ other, other ≠ changed → (other ∈ unreachable ↔ other ∈ unreachable')) (elsewhere : endpoint ≠ changed)
    (packet : Packet) (queue : String) :
    w.arriving unreachable packet endpoint queue = w.arriving unreachable' packet endpoint queue := by
  cases hops : nextHops w.block packet with
  | error failure => rw [arriving, arriving, forwarded, forwarded, hops]; rfl
  | ok destinations =>
    cases destinations with
    | none => rw [arriving, arriving, forwardedKept hops, forwardedKept hops]
    | some destinations =>
      rw [arrivingHops hops, arrivingHops hops, Destination.leadingElsewhere alike elsewhere]

/- A packet as it is forwarded: dropped without a route, kept where its pointer is blank, and otherwise sent to every
destination in reach, as often as it is planned. -/
structure Forwards (w : Workshop ω π) (packet : Packet) (before : Plant ω × ConnectionCache String)
    (answer : Outcome ForwardReport) (after : Plant ω × ConnectionCache String) : Prop where
  unrouted : ∀ failure, nextHops w.block packet = .error failure → answer = .error failure ∧ after = before
  blank : nextHops w.block packet = .ok none ↔ Text.isBlank packet.outputPointer = true
  kept : nextHops w.block packet = .ok none → answer = .ok ⟨[Destination.defaultQueue], []⟩ ∧
    ∀ endpoint queue, after.1.2.1.waiting endpoint queue = before.1.2.1.waiting endpoint queue ++
      if endpoint = w.outbox ∧ queue = Destination.defaultQueue then [packet.encode] else []
  sent : ∀ destinations, nextHops w.block packet = .ok (some destinations) →
    answer = .ok (Destination.reportOf before.1.2.1.unreachable destinations) ∧
    ∀ endpoint queue, after.1.2.1.waiting endpoint queue = before.1.2.1.waiting endpoint queue ++ List.replicate
      (Destination.leading (destinations.filter (Destination.inReach before.1.2.1.unreachable)) endpoint queue)
      packet.encode
  connected : w.Connected after

theorem forwardsPacket {s : Plant ω × ConnectionCache String} (connected : w.Connected s) (packet : Packet) :
    w.Forwards packet s (on (joined (w.runtime.router.forward packet)) s).1
      (on (joined (w.runtime.router.forward packet)) s).2 := by
  obtain ⟨answer, posted, connected'⟩ := onForward connected packet
  refine ⟨fun failure unrouted => ?_, nextHopsBlank, fun kept => ?_, fun destinations hops => ?_, connected'⟩
  · rw [onUnrouted unrouted]
    exact ⟨rfl, rfl⟩
  · rw [forwardedKept kept] at answer posted
    refine ⟨answer, fun endpoint queue => ?_⟩
    rw [posted.waiting, mail, List.filter_cons]
    by_cases own : endpoint = w.outbox ∧ queue = Destination.defaultQueue
    · simp [own]
    · have other : ¬ (w.outbox = endpoint ∧ Destination.defaultQueue = queue) := fun h => own ⟨h.1.symm, h.2.symm⟩
      simp [own, other]
  · refine ⟨answer.trans (congrArg Told.outcome (forwardedHops hops _)), fun endpoint queue => ?_⟩
    rw [posted.waiting, ← arrivingHops hops]
    rfl

theorem forwardsExactly {s : Plant ω × ConnectionCache String} (connected : w.Connected s) (packet : Packet) :
    w.Forwards packet s (on (joined (w.runtime.router.forward packet)) s).1
        (on (joined (w.runtime.router.forward packet)) s).2 ∧
      ∀ s', w.Connected s' → ∀ changed,
        (∀ other, other ≠ changed → (other ∈ s.1.2.1.unreachable ↔ other ∈ s'.1.2.1.unreachable)) →
        ∀ endpoint queue, endpoint ≠ changed → ∃ arrived,
          (on (joined (w.runtime.router.forward packet)) s).2.1.2.1.waiting endpoint queue =
            s.1.2.1.waiting endpoint queue ++ arrived ∧
          (on (joined (w.runtime.router.forward packet)) s').2.1.2.1.waiting endpoint queue =
            s'.1.2.1.waiting endpoint queue ++ arrived := by
  refine ⟨forwardsPacket connected packet, fun s' connected' changed alike endpoint queue elsewhere => ?_⟩
  have arrives := (onForward connected packet).2.1.waiting endpoint queue
  have arrives' := (onForward connected' packet).2.1.waiting endpoint queue
  exact ⟨w.arriving s.1.2.1.unreachable packet endpoint queue, arrives,
    arrives'.trans (congrArg _ (arrivingElsewhere alike elsewhere packet queue).symm)⟩

def sampleHops : List Destination :=
  [{ host := "down" }, { host := "up", queue := "Q" }, { host := "grpc", port := 0 }, { host := "up", queue := "Q" }]

def sampleRouted : Packet := { Packet.blank with outputPointer := (Route.direct sampleHops).pointer }

def sampleCut : Plant Unit := (.empty, MemoryBroker.empty.cutOff "down:6379", ())

def sampleConnections : ConnectionCache String :=
  (on (joined (sampleShop.dialer.connection { host := "up" })) (sampleCut, .new 1 none)).2.2

theorem sampleConnected : sampleShop.Connected (sampleCut, sampleConnections) where
  opened := .dialled (.new 1 none) { host := "up" } sampleCut
  reach := by
    have held : ∀ entry ∈ sampleConnections.entries, entry.2.value ∉ sampleCut.2.1.unreachable := by decide +kernel
    exact held

theorem sampleForwarded :
    sampleShop.Connected (sampleCut, sampleConnections) ∧
      nextHops sampleShop.block sampleRouted = .ok (some sampleHops) ∧
      (on (joined (sampleShop.runtime.router.forward sampleRouted)) (sampleCut, sampleConnections)).1 =
        .ok ⟨["up:6379/Q", "up:6379/Q"], [("down:6379/OUTPUT", .transport (.refused "down:6379")),
          ("grpc:0/OUTPUT", .transport (.unsupportedPort "grpc"))]⟩ ∧
      (on (joined (sampleShop.runtime.router.forward sampleRouted)) (sampleCut, sampleConnections)).2.1.2.1.waiting
        "up:6379" "Q" = [sampleRouted.encode, sampleRouted.encode] := by
  have hops : nextHops sampleShop.block sampleRouted = .ok (some sampleHops) := by
    rw [nextHops, sampleRouted, Route.parseDirect]
    rfl
  obtain ⟨report, queues⟩ := (forwardsExactly sampleConnected sampleRouted).1.sent _ hops
  refine ⟨sampleConnected, hops, report.trans (by decide +kernel), (queues _ _).trans ?_⟩
  have twice :
      Destination.leading (sampleHops.filter (Destination.inReach sampleCut.2.1.unreachable)) "up:6379" "Q" = 2 := by
    decide +kernel
  rw [twice]
  rfl

end Workshop

end Vdag
