import Mathlib.Data.String.Basic
import Vdag.Ingress
import Vdag.Proofs.Addressing
import Vdag.Proofs.Block.Passing
import Vdag.Proofs.Block.Settling
import Vdag.Proofs.Packet
import Vdag.Proofs.Registry.Consistency
import Vdag.Proofs.Routing

/-! From a vDAG that was mapped to the packets that arrive: its graph travels with the packet that enters it, and the
blocks it was mapped to pass that packet on along every way there is. -/
namespace Vdag
open Vdag.Action

namespace AddressBook.Reaches

variable {book : AddressBook} {blocks : List BlockId} {outputs : List Destination}

theorem leadingCount (reaches : book.Reaches blocks outputs) {other : BlockId} {own : Destination}
    (located : book.destination other = .ok own) :
    Destination.leading outputs own.endpoint other.inputQueue = blocks.count other := by
  induction reaches with
  | nil => rfl
  | @cons block d blocks outputs first _ ih =>
    have same : (d.endpoint = own.endpoint ∧ d.queue = other.inputQueue) ↔ block = other := by
      constructor
      · intro given
        exact BlockId.inputQueueInjective ((destinationOk first).2.symm.trans given.2)
      · rintro rfl
        cases Except.ok.inj (first.symm.trans located)
        exact ⟨rfl, (destinationOk first).2⟩
    rw [Destination.leading, List.countP_cons, ← Destination.leading, ih, List.count_cons]
    simp only [same, decide_eq_true_eq, beq_iff_eq]

end AddressBook.Reaches

/- A plan whose packets stay on their way: every address has a port, no block goes by the name of the final entry, and
no node runs rules. -/
structure Definition.Plain (vdag : Definition) (book : AddressBook) (compiled : CompiledGraph) : Prop where
  ports : ∀ block host port, book.address? block = some (host, port) → port ≠ 0
  named : ∀ block ∈ compiled.blocks.blocks, block.text ≠ PhysicalGraph.finalKey
  ruleless : ∀ node ∈ vdag.nodes, node.preprocessingRule = none ∧ node.postprocessingRule = none

structure Crew.Staffs {ω π : Type} (crew : Crew ω π) (book : AddressBook) (blocks : List BlockId) (uri : VdagUri)
    (record : Definition) (plant : Plant ω) : Prop where
  located : ∀ block ∈ blocks, ∀ own, book.destination block = .ok own → (crew.shop block).inbox = own.endpoint
  echoes : ∀ block ∈ blocks, (crew.shop block).work = echo
  stored : plant.1.stored? uri = some record
  reachable : plant.2.1.unreachable = []
  empty : ∀ block ∈ blocks, (crew.shop block).waiting plant = []

/- A session and a sink that an entry packet can be built for, and a packet that is no longer than a word can tell:
lengths are sent as words. -/
structure Crew.Admits {ω π : Type} (crew : Crew ω π) (graph : BlockGraph) (uri : VdagUri) (session : String)
    (sink : List Destination) (packet : Packet) : Prop where
  parsed : Session.parse (Session.governed uri session).text = .ok (.governed uri session)
  somewhere : sink ≠ []
  ports : ∀ d ∈ sink, d.port ≠ 0
  outer : ∀ d ∈ sink, crew.Outer graph d.endpoint d.queue
  fits : packet.encode.length < UInt64.size

def Standing.only (uri : VdagUri) (record : Definition) : Standing := ⟨fun _ => some record, (· = uri), []⟩

namespace Surroundings

variable {σ : Type}

structure Laid (book : AddressBook) (vdag record : Definition) (uri : VdagUri) (compiled : CompiledGraph) : Prop where
  rooted : BlockGraph.RootedDag compiled.blocks
  located : ∀ {block}, block ∈ compiled.blocks.blocks → (∃ own, book.destination block = .ok own) ∧
    ∃ outputs, compiled.addresses.find? block.text = some outputs ∧
      book.Reaches (compiled.blocks.adjacency.targets block) outputs
  found : ∀ block, PolicyBook.nodeOf block uri (some record) = .ok none ∨
    ∃ node ∈ vdag.nodes, PolicyBook.nodeOf block uri (some record) = .ok (some node)

theorem mappedLaid {search : SearchPolicy (StateM σ)} {book : AddressBook} {vdag record : Definition} {uri : VdagUri}
    {compiled : CompiledGraph} {w w' : MemoryRegistry × σ}
    (mapped : on ((⟨search, book.service⟩ : Surroundings σ).processor.mapToBlocks vdag) w = (.ok record, w'))
    (named : record.uri? = some uri) (built : record.compiled = some compiled) :
    Laid book vdag record uri compiled := by
  obtain ⟨r, s⟩ := w
  rcases mapCases ⟨search, book.service⟩ vdag r s with ⟨failure, refused⟩ | ⟨⟨mapping⟩⟩
  · cases refused.symm.trans mapped
  · have consistent := mapping.consistentRecord
    have plan := mapping.plan
    have answered := (congrArg Prod.fst mapped).symm.trans mapping.answered
    cases planned : mapping.planned with
    | error failure =>
      rw [planned] at answered
      cases answered
    | ok found =>
      obtain ⟨assignment, _⟩ := found
      rw [planned] at answered consistent plan
      cases answered
      cases built
      cases Option.some.inj (consistent.named.symm.trans named)
      have parts := planParts _ plan
      obtain ⟨index, _, compiledBlocks⟩ := parts.blocks
      obtain ⟨s', located⟩ := parts.located
      obtain ⟨resolved, covered⟩ := AddressBook.locateOk located
      have rooted : BlockGraph.RootedDag compiled.blocks := BlockGraph.withinRooted compiledBlocks
      refine ⟨rooted, AddressBook.locatesAll resolved covered, fun block => ?_⟩
      rcases consistent.nodeFound block with ⟨failed, _, _⟩ | ⟨node, placed, known⟩ | ⟨_, _, known⟩
      · cases failed
      · exact .inr ⟨node, placed.1, known⟩
      · exact .inl known

end Surroundings

section Routing

variable {ω π : Type} {book : AddressBook} {vdag record : Definition} {uri : VdagUri} {compiled : CompiledGraph}
  {crew : Crew ω π} {plant : Plant ω} {session data : String} {sink : List Destination} {timestamp : Binary64}
  (laid : Surroundings.Laid book vdag record uri compiled) (plain : vdag.Plain book compiled)
  {packet : Packet} (entered : packet = (compiled.entry uri session data sink timestamp).packet)
  (staffs : crew.Staffs book compiled.blocks.blocks uri record plant)
  (admits : crew.Admits compiled.blocks uri session sink packet)
include laid plain

theorem laidRuleless (block : BlockId) : PolicyBook.Ruleless block uri (some record) := by
  rcases laid.found block with known | ⟨node, member, known⟩
  · exact ⟨none, known, nofun⟩
  · exact ⟨some node, known, fun other same => Option.some.inj same ▸ plain.ruleless node member⟩

include entered staffs admits

theorem laidHops {block : BlockId} (member : block ∈ compiled.blocks.blocks) : ∃ destinations,
    nextHops block packet = .ok (some destinations) ∧ (∀ d ∈ destinations, d.port ≠ 0) ∧
      (∀ other ∈ compiled.blocks.blocks, Destination.leading destinations (crew.shop other).inbox other.inputQueue =
        if block ∈ compiled.blocks.parents other then 1 else 0) ∧
      ∀ endpoint queue, crew.Outer compiled.blocks endpoint queue → Destination.leading destinations endpoint queue =
        if block ∈ compiled.blocks.tail.toFinset then Destination.leading sink endpoint queue else 0 := by
  obtain ⟨_, outputs, listed, reaches⟩ := laid.located member
  have last : outputs = [] ↔ block ∈ compiled.blocks.tail.toFinset := by
    rw [reaches.emptyTogether, List.mem_toFinset, laid.rooted.tail]
    exact ⟨fun none => ⟨member, none⟩, And.right⟩
  refine ⟨_, nextHopsGraph (entered ▸ rfl) (PhysicalGraph.hopsFinal listed (plain.named block member)
    admits.somewhere), ?_⟩
  by_cases ends : outputs = []
  · rw [if_pos ends]
    have without : compiled.blocks.adjacency.targets block = [] := reaches.emptyTogether.mp ends
    refine ⟨admits.ports, fun other known => ?_, fun endpoint queue outer => by rw [if_pos (last.mp ends)]⟩
    have none : block ∉ compiled.blocks.parents other := by
      rw [BlockGraph.memParents, Adjacency.Edge, without]
      exact List.not_mem_nil
    rw [if_neg none, Destination.leading, List.countP_eq_zero]
    intro d listed same
    exact admits.outer d listed other known (of_decide_eq_true same)
  · rw [if_neg ends]
    refine ⟨fun d listed => ?_, fun other known => ?_, fun endpoint queue outer => ?_⟩
    · obtain ⟨other, _, located⟩ := reaches.eachOfBlock d listed
      exact plain.ports other d.host d.port (AddressBook.destinationOk located).1
    · obtain ⟨⟨own, located⟩, _⟩ := laid.located known
      rw [staffs.located other known own located, reaches.leadingCount located,
        (laid.rooted.wellFormed.distinct block).count]
      exact if_congr BlockGraph.memParents.symm rfl rfl
    · rw [if_neg (fun final => ends (last.mpr final)), Destination.leading, List.countP_eq_zero]
      intro d listed same
      obtain ⟨other, edge, located⟩ := reaches.eachOfBlock d listed
      obtain ⟨rfl, rfl⟩ := of_decide_eq_true same
      have known : other ∈ compiled.blocks.blocks := laid.rooted.wellFormed.closed edge
      exact outer other known ⟨(staffs.located other known d located).symm, (AddressBook.destinationOk located).2⟩

theorem laidRoutes :
    crew.Routes compiled.blocks (.only uri record) Habits.passing packet.encode (Destination.leading sink) := by
  have decoded := Packet.decodeEncode admits.fits
  have parsed : Session.parse packet.session = .ok (.governed uri session) := entered ▸ admits.parsed
  have ruleless := laidRuleless laid plain
  have mails : ∀ block ∈ compiled.blocks.blocks, ∃ destinations,
      (∀ endpoint queue, mail ((crew.shop block).handled Habits.passing (Standing.only uri record).records
        (Standing.only uri record).unreachable packet.encode).letters endpoint queue =
          List.replicate (Destination.leading destinations endpoint queue) packet.encode) ∧
      (∀ other ∈ compiled.blocks.blocks, Destination.leading destinations (crew.shop other).inbox other.inputQueue =
        if block ∈ compiled.blocks.parents other then 1 else 0) ∧
      ∀ endpoint queue, crew.Outer compiled.blocks endpoint queue → Destination.leading destinations endpoint queue =
        if block ∈ compiled.blocks.tail.toFinset then Destination.leading sink endpoint queue else 0 := by
    intro block member
    obtain ⟨destinations, hops, ports, inner, outer⟩ := laidHops laid plain entered staffs admits member
    refine ⟨destinations, fun endpoint queue => ?_, inner, outer⟩
    have reach : ∀ d ∈ destinations, d.port ≠ 0 ∧ d.endpoint ∉ (Standing.only uri record).unreachable :=
      fun d listed => ⟨ports d listed, List.not_mem_nil⟩
    have bare : PolicyBook.Ruleless (crew.shop block).block uri ((Standing.only uri record).records uri) := ruleless _
    rw [← crew.own block] at hops
    rw [Workshop.passesUnruled decoded parsed bare hops reach, Destination.mailLetters]
  refine ⟨fun block member => ?_, ?_, fun block member other known => ?_, fun block member endpoint queue outer => ?_⟩
  · refine Standing.passingRelies (staffs.echoes block member) (fun other governed => ?_)
    cases governed
    exact ruleless _
  · intro other session' uri' decoded' parsed' governed
    cases decoded.symm.trans decoded'
    cases parsed.symm.trans parsed'
    exact (Option.some.inj governed).symm
  · obtain ⟨destinations, letters, inner, _⟩ := mails block member
    rw [letters, inner other known]
  · obtain ⟨destinations, letters, _, outwards⟩ := mails block member
    rw [letters, outwards endpoint queue outer]

end Routing

/- One packet for every way: at every time of every schedule, and in the end under each that leaves no block out. -/
theorem Crew.deliversAlongWays {σ ω π : Type} {search : SearchPolicy (StateM σ)} {book : AddressBook}
    {vdag record : Definition} {w w' : MemoryRegistry × σ} {uri : VdagUri} {compiled : CompiledGraph} {crew : Crew ω π}
    {plant : Plant ω} {session data : String} {sink : List Destination} {timestamp : Binary64} {packet : Packet}
    (mapped : on ((⟨search, book.service⟩ : Surroundings σ).processor.mapToBlocks vdag) w = (.ok record, w'))
    (named : record.uri? = some uri) (built : record.compiled = some compiled) (plain : vdag.Plain book compiled)
    (staffs : crew.Staffs book compiled.blocks.blocks uri record plant)
    (entered : packet = (compiled.entry uri session data sink timestamp).packet)
    (admits : crew.Admits compiled.blocks uri session sink packet) {schedule : Nat → Move}
    (proper : ∀ time, Proper compiled.blocks (.only uri record) (schedule time)) :
    (∀ time, crew.Delivers compiled.blocks packet.encode (Destination.leading sink) plant.2.1.waiting
      (crew.after (crew.start (crew.enter plant compiled.blocks.head packet.encode)) schedule time)) ∧
    ((∀ block ∈ compiled.blocks.blocks, ∀ time, ∃ later, time ≤ later ∧ schedule later = .serve block) →
      ∃ time, ∀ later, time ≤ later → crew.Idle compiled.blocks
        (crew.after (crew.start (crew.enter plant compiled.blocks.head packet.encode)) schedule later)) := by
  have laid := Surroundings.mappedLaid mapped named built
  have routes := laidRoutes laid plain entered staffs admits
  have found : (Standing.only uri record).At plant := by
    refine ⟨fun other governed => ?_, staffs.reachable⟩
    cases governed
    exact staffs.stored
  have head : compiled.blocks.head ∈ compiled.blocks.blocks := ((laid.rooted.head _).mp rfl).1
  have flowing := fun time => (startFlowing found staffs.empty head).keptAfter routes proper time
  exact ⟨fun time => (flowing time).deliversGraph laid.rooted routes, Flowing.eventuallyIdle laid.rooted flowing routes⟩

namespace Crew

def sampleBranches : Definition where
  name := "branches"
  version := ⟨"1", "a"⟩
  discoveryTags := []
  controller := .null
  nodes := [⟨⟨"A"⟩, .block, none, none, none, none, some ⟨"b0"⟩, ⟨.empty, .empty, .empty, []⟩⟩,
    ⟨⟨"B"⟩, .block, none, none, none, none, some ⟨"b1"⟩, ⟨.empty, .empty, .empty, []⟩⟩,
    ⟨⟨"S"⟩, .vdag, some ⟨"leaf:1-a"⟩, none, none, none, none, ⟨.empty, .empty, .empty, []⟩⟩,
    ⟨⟨"T"⟩, .block, none, none, none, none, some ⟨"b3"⟩, ⟨.empty, .empty, .empty, []⟩⟩]
  graph := ⟨[⟨⟨"B"⟩, [⟨"A"⟩]⟩, ⟨⟨"S"⟩, [⟨"A"⟩]⟩, ⟨⟨"T"⟩, [⟨"B"⟩, ⟨"S"⟩]⟩], .empty⟩
  status := .failed
  assignment := .empty
  compiled := none

def sampleAddress (block : String) : Destination := ⟨"host", 7000, block ++ "_inputs", some block⟩

def sampleCompiled : CompiledGraph where
  blocks := ⟨⟨"b0"⟩, [⟨"b3"⟩],
    .ofList [(⟨"b0"⟩, [⟨"b1"⟩, ⟨"b2"⟩]), (⟨"b1"⟩, [⟨"b3"⟩]), (⟨"b2"⟩, [⟨"b3"⟩]), (⟨"b3"⟩, [])]⟩
  addresses := ⟨.ofList [("b0", [sampleAddress "b1", sampleAddress "b2"]), ("b1", [sampleAddress "b3"]),
    ("b2", [sampleAddress "b3"]), ("b3", [])]⟩
  labels := .ofList [(.block ⟨"b0"⟩, ⟨"A"⟩), (.block ⟨"b1"⟩, ⟨"B"⟩), (.block ⟨"b3"⟩, ⟨"T"⟩),
    (.embedded ⟨"leaf:1-a"⟩, ⟨"S"⟩)]

def sampleRecord : Definition := { sampleBranches with
  status := .assigned
  assignment := .ofList [(⟨"A"⟩, .block ⟨"b0"⟩), (⟨"B"⟩, .block ⟨"b1"⟩), (⟨"S"⟩, .embedded ⟨"leaf:1-a"⟩),
    (⟨"T"⟩, .block ⟨"b3"⟩)]
  compiled := some sampleCompiled }

theorem sampleMapped : (on (Surroundings.sampleOutside.processor.mapToBlocks sampleBranches)
    (Surroundings.sampleRecords, ())).1.toOption = some sampleRecord := by decide +kernel

def sampleCrew : Crew Unit Unit where
  shop block := ⟨block, "host:7000", "host:7000", echo, Surroundings.samplePolicies, pure 0⟩
  limits _ := Workshop.sampleLimits
  own _ := rfl

def samplePlant : Plant Unit := (MemoryRegistry.empty.store sampleRecord, .empty, ())

def sampleSink : List Destination := [⟨"sink", 9000, "RESULTS", none⟩]

def samplePacket : Packet := (sampleCompiled.entry ⟨"branches:1-a"⟩ "s" "hello" sampleSink .zero).packet

def sampleRound (time : Nat) : BlockId := sampleCompiled.blocks.blocks.getD (time % 4) ⟨"b0"⟩

theorem samplePlain : sampleBranches.Plain ⟨.empty, some ("host", 7000)⟩ sampleCompiled where
  ports := by
    intro block host port found
    cases found
    decide
  named := by decide +kernel
  ruleless := by decide +kernel

theorem sampleStaffs : sampleCrew.Staffs ⟨.empty, some ("host", 7000)⟩ sampleCompiled.blocks.blocks ⟨"branches:1-a"⟩
    sampleRecord samplePlant where
  located := by
    intro block _ own found
    cases found
    change "host:7000" = Destination.endpointOf "host" 7000
    decide +kernel
  echoes _ _ := rfl
  stored := by decide +kernel
  reachable := rfl
  empty := by decide +kernel

theorem sampleOuter : sampleCrew.Outer sampleCompiled.blocks "sink:9000" "RESULTS" := by
  rintro block member ⟨_, same⟩
  revert block
  decide +kernel

theorem sampleAdmits : sampleCrew.Admits sampleCompiled.blocks ⟨"branches:1-a"⟩ "s" sampleSink samplePacket where
  parsed := by decide +kernel
  somewhere := nofun
  ports := by decide +kernel
  outer := by
    intro d listed
    rw [List.mem_singleton.mp listed, show Destination.endpoint ⟨"sink", 9000, "RESULTS", none⟩ = "sink:9000" by
      decide +kernel]
    exact sampleOuter
  fits := by
    -- The text is counted by its characters: to write its bytes out takes much longer.
    have routed : samplePacket.outputPointer.utf8ByteSize ≤ 2000 := by
      change (String.ofList _).utf8ByteSize ≤ 2000
      rw [String.utf8ByteSize_ofList]
      decide +kernel
    have others : 56 + samplePacket.session.utf8ByteSize + samplePacket.data.utf8ByteSize +
        samplePacket.framePointer.length + (samplePacket.attachments.flatMap Wire.attachment).length ≤ 2000 := by
      decide +kernel
    rw [Packet.encodeLength, UInt64.size]
    omega

theorem sampleNamed : sampleRecord.uri? = some ⟨"branches:1-a"⟩ := by decide +kernel

theorem sampleWays (rooted : BlockGraph.RootedDag sampleCompiled.blocks) : sampleCompiled.blocks.ways ⟨"b3"⟩ = 2 := by
  have step : ∀ block parents, sampleCompiled.blocks.parents block = parents → sampleCompiled.blocks.ways block =
      (if block = ⟨"b0"⟩ then 1 else 0) + ∑ parent ∈ parents, sampleCompiled.blocks.ways parent :=
    fun block _ same => same ▸ rooted.waysStep block
  have first := step ⟨"b0"⟩ ∅ (by decide +kernel)
  have left := step ⟨"b1"⟩ {⟨"b0"⟩} (by decide +kernel)
  have right := step ⟨"b2"⟩ {⟨"b0"⟩} (by decide +kernel)
  have last := step ⟨"b3"⟩ {⟨"b1"⟩, ⟨"b2"⟩} (by decide +kernel)
  simp at first left right last
  rw [last, left, right, first]

theorem sampleDelivered : ∃ time, ∀ later, time ≤ later →
    (sampleCrew.after (sampleCrew.start (sampleCrew.enter samplePlant sampleCompiled.blocks.head
      samplePacket.encode))
      (fun time => .serve (sampleRound time)) later).plant.2.1.waiting "sink:9000" "RESULTS" =
        [samplePacket.encode, samplePacket.encode] := by
  obtain ⟨⟨outcome, w'⟩, ran⟩ : ∃ last, on (Surroundings.sampleOutside.processor.mapToBlocks sampleBranches)
    (Surroundings.sampleRecords, ()) = last := ⟨_, rfl⟩
  have mapped := sampleMapped
  rw [ran] at mapped
  cases outcome with
  | error failure => cases mapped
  | ok record =>
    cases mapped
    have proper : ∀ time, Proper sampleCompiled.blocks (.only ⟨"branches:1-a"⟩ sampleRecord)
        (.serve (sampleRound time)) := by
      intro time
      have inside : time % 4 < sampleCompiled.blocks.blocks.length := Nat.mod_lt time (by decide)
      change sampleRound time ∈ _
      rw [sampleRound, ← List.getElem_eq_getD (h := inside)]
      exact List.getElem_mem inside
    obtain ⟨delivers, settles⟩ := deliversAlongWays ran sampleNamed rfl samplePlain sampleStaffs rfl sampleAdmits
      proper
    have fair : ∀ block ∈ sampleCompiled.blocks.blocks, ∀ time, ∃ later, time ≤ later ∧
        Move.serve (sampleRound later) = .serve block := by
      intro block member time
      obtain ⟨i, inside, same⟩ := List.getElem_of_mem member
      have small : i < 4 := inside
      refine ⟨4 * time + i, by omega, ?_⟩
      rw [sampleRound, show (4 * time + i) % 4 = i by omega, ← List.getElem_eq_getD (h := inside), same]
    obtain ⟨time, idle⟩ := settles fair
    refine ⟨time, fun later le => ?_⟩
    have arrived := (delivers later).arrived (idle later le) _ _ sampleOuter
    have before : samplePlant.2.1.waiting "sink:9000" "RESULTS" = [] := rfl
    have once : Destination.leading sampleSink "sink:9000" "RESULTS" = 1 := by decide +kernel
    have last : ∑ block ∈ sampleCompiled.blocks.tail.toFinset, sampleCompiled.blocks.ways block = 2 := by
      rw [show sampleCompiled.blocks.tail.toFinset = {⟨"b3"⟩} by decide +kernel, Finset.sum_singleton]
      exact sampleWays (Surroundings.mappedLaid ran sampleNamed rfl).rooted
    rw [last, once, before] at arrived
    exact arrived

end Crew

end Vdag
