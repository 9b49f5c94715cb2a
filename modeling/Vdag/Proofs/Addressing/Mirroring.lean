import Vdag.Proofs.Addressing
import Vdag.Proofs.BlockGraph.Nesting

/-! A compiled graph, seen through a table of addresses. Where a block has no address the graph is refused, however that
is noticed; what is accepted shows the same blocks and the same ways between them. -/
namespace Vdag.AddressBook
open Vdag.Action BlockGraph

variable {book : AddressBook} {graph : BlockGraph} {block : BlockId}

def Covers (book : AddressBook) (graph : BlockGraph) : Prop := ∀ block ∈ graph.blocks, (book.address? block).isSome

instance (book : AddressBook) (graph : BlockGraph) : Decidable (book.Covers graph) :=
  inferInstanceAs (Decidable (∀ block ∈ graph.blocks, _))

structure Leads (book : AddressBook) (block : BlockId) (d : Destination) : Prop where
  address : book.address? block = some (d.host, d.port)
  queue : d.queue = block.text ++ "_inputs"
  named : d.block = some block.text

structure Mirrors (book : AddressBook) (graph : BlockGraph) (addresses : PhysicalGraph) : Prop where
  blocks : addresses.outputs.keys = graph.blocks.map Id.text
  outputs : ∀ block ∈ graph.blocks, ∃ outputs, addresses.find? block.text = some outputs ∧
    List.Forall₂ book.Leads (graph.adjacency.targets block) outputs ∧ (outputs.map Destination.block).Nodup ∧
    (outputs = [] ↔ block ∈ graph.tail)

structure Located (book : AddressBook) (graph : BlockGraph) (outcome : Outcome PhysicalGraph) : Prop where
  accepts : (∃ addresses, outcome = .ok addresses) ↔ book.Covers graph
  mirrors : ∀ addresses, outcome = .ok addresses → book.Mirrors graph addresses
  refuses : ∀ failure, outcome = .error failure → ∃ block ∈ graph.blocks, book.address? block = none ∧
    (failure = .notFound (.runningBlock block) ∨ failure = .notFound (.address block))

theorem destinationLeads {d : Destination} (ok : book.destination block = .ok d) : book.Leads block d := by
  unfold destination at ok
  split at ok
  · rename_i found
    cases ok
    exact ⟨found, rfl, rfl⟩
  · cases ok

theorem destinationFails {failure : Failure} (failed : book.destination block = .error failure) :
    book.address? block = none ∧ failure = .notFound (.runningBlock block) := by
  unfold destination at failed
  split at failed
  · cases failed
  · rename_i missing
    cases failed
    exact ⟨missing, rfl⟩

namespace Reaches

variable {blocks : List BlockId} {outputs : List Destination}

theorem leadsPairwise (reaches : book.Reaches blocks outputs) : List.Forall₂ book.Leads blocks outputs :=
  reaches.imp (fun _ _ => destinationLeads)

theorem namedInOrder (reaches : book.Reaches blocks outputs) :
    outputs.map Destination.block = blocks.map (fun block => some block.text) := by
  induction reaches with
  | nil => rfl
  | cons first _ ih => rw [List.map_cons, List.map_cons, (destinationLeads first).named, ih]

theorem distinctNames (reaches : book.Reaches blocks outputs) (nodup : blocks.Nodup) :
    (outputs.map Destination.block).Nodup := by
  rw [reaches.namedInOrder]
  exact nodup.map (fun _ _ same => Id.textInjective (Option.some.inj same))

end Reaches

theorem resolveFails {adjacency : Adjacency} {failure : Failure} (failed : book.resolve adjacency = .error failure) :
    ∃ source sink, adjacency.Edge source sink ∧ book.address? sink = none ∧
      failure = .notFound (.runningBlock sink) := by
  obtain ⟨⟨source, sinks⟩, entry, before, failed⟩ := Outcome.foldlMFails failed
  unfold addBlock at failed
  split at failed
  · rcases Outcome.bindFails.mp failed with targets | ⟨_, _, last⟩
    · obtain ⟨sink, listed, failed⟩ := Outcome.mapMFails targets
      obtain ⟨missing, rfl⟩ := destinationFails failed
      exact ⟨source, sink, Adjacency.edgeIff.mpr ⟨sinks, entry, listed⟩, missing, rfl⟩
    · cases last
  · cases failed

theorem addressedListed {entry : BlockId × List BlockId} {before after : PhysicalGraph}
    (added : book.addBlock before entry = .ok after) (key : String) :
    key ∈ after.outputs.keys ↔
      key = entry.1.text ∧ (book.address? entry.1).isSome ∨ key ∈ before.outputs.keys := by
  unfold addBlock at added
  split at added
  · rename_i addressed
    obtain ⟨own, _, last⟩ := Outcome.bindOk.mp added
    cases last
    rw [PhysicalGraph.insert, SortedMap.keysInsert, and_iff_left addressed]
  · rename_i missing
    cases added
    simp [missing]

theorem resolveLists {adjacency : Adjacency} {addresses : PhysicalGraph} (ok : book.resolve adjacency = .ok addresses)
    (key : String) :
    key ∈ addresses.outputs.keys ↔ ∃ block ∈ adjacency.keys, key = block.text ∧ (book.address? block).isSome := by
  have listed : ∀ {entries : List (BlockId × List BlockId)} {before after : PhysicalGraph},
      entries.foldlM book.addBlock before = .ok after → (key ∈ after.outputs.keys ↔
        (∃ entry ∈ entries, key = entry.1.text ∧ (book.address? entry.1).isSome) ∨ key ∈ before.outputs.keys) := by
    intro entries
    induction entries with
    | nil =>
      intro before after ok
      cases ok
      simp
    | cons entry rest ih =>
      intro before after ok
      obtain ⟨next, first, later⟩ := Outcome.foldlMConsOk.mp ok
      rw [ih later, addressedListed first, List.exists_mem_cons_iff, or_assoc, or_left_comm]
  have start : key ∉ PhysicalGraph.empty.outputs.keys := List.not_mem_nil
  rw [listed ok, or_iff_left start, SortedMap.keys]
  simp

theorem coversFails {addresses : PhysicalGraph} {failure : Failure}
    (failed : addresses.checkCovers graph = .error failure) :
    ∃ block ∈ graph.blocks, block.text ∉ addresses.outputs.keys ∧ failure = .notFound (.address block) := by
  unfold PhysicalGraph.checkCovers at failed
  split at failed
  · rename_i block found
    cases failed
    have absent : addresses.contains block = false := by simpa using List.find?_some found
    refine ⟨block, List.mem_of_find?_eq_some found, fun key => ?_, rfl⟩
    rw [PhysicalGraph.contains, SortedMap.contains, SortedMap.memKeys.mp key] at absent
    cases absent
  · cases failed

theorem resolveKeys {addresses : PhysicalGraph} (ok : book.resolve graph.adjacency = .ok addresses)
    (covers : book.Covers graph) : addresses.outputs.keys = graph.blocks.map Id.text := by
  have ascending : (graph.blocks.map Id.text).Pairwise KeyOrder.Before :=
    List.pairwise_map.mpr (SortedMap.keysAscending graph.adjacency)
  refine SortedMap.ascendingSame (SortedMap.keysAscending _) ascending (fun key => ?_)
  rw [resolveLists ok, List.mem_map]
  constructor
  · rintro ⟨block, member, rfl, _⟩
    exact ⟨block, member, rfl⟩
  · rintro ⟨block, member, rfl⟩
    exact ⟨block, member, rfl, covers block member⟩

theorem locatedCovers {addresses : PhysicalGraph} (ok : book.resolve graph.adjacency = .ok addresses)
    (covered : addresses.checkCovers graph = .ok ()) : book.Covers graph := by
  intro block member
  obtain ⟨⟨own, reached⟩, _⟩ := locatesAll ok covered member
  exact Option.isSome_iff_exists.mpr ⟨_, (destinationOk reached).1⟩

theorem locatedMirrors {addresses : PhysicalGraph} (rooted : RootedDag graph)
    (ok : book.resolve graph.adjacency = .ok addresses) (covered : addresses.checkCovers graph = .ok ()) :
    book.Mirrors graph addresses := by
  refine ⟨resolveKeys ok (locatedCovers ok covered), fun block member => ?_⟩
  obtain ⟨_, outputs, found, reached⟩ := locatesAll ok covered member
  refine ⟨outputs, found, reached.leadsPairwise, reached.distinctNames (rooted.wellFormed.distinct block), ?_⟩
  rw [reached.emptyTogether, rooted.tail, and_iff_right member]

theorem rootedLocated {σ : Type} (rooted : RootedDag graph) (book : AddressBook) (s : σ) :
    book.Located graph (on (PhysicalGraph.locate book.service graph) s).1 := by
  have refuses : ∀ failure, (on (PhysicalGraph.locate book.service graph) s).1 = .error failure →
      ∃ block ∈ graph.blocks, book.address? block = none ∧
        (failure = .notFound (.runningBlock block) ∨ failure = .notFound (.address block)) := by
    intro failure failed
    rw [onLocate] at failed
    rcases Outcome.bindFails.mp failed with unresolved | ⟨addresses, resolved, failed⟩
    · obtain ⟨source, sink, edge, missing, rfl⟩ := resolveFails unresolved
      exact ⟨sink, rooted.wellFormed.closed edge, missing, .inl rfl⟩
    · rcases Outcome.bindFails.mp failed with uncovered | ⟨_, _, last⟩
      · obtain ⟨block, member, unlisted, rfl⟩ := coversFails uncovered
        refine ⟨block, member, Option.not_isSome_iff_eq_none.mp (fun addressed => unlisted ?_), .inr rfl⟩
        exact (resolveLists resolved block.text).mpr ⟨block, member, rfl, addressed⟩
      · cases last
  refine ⟨⟨fun accepted => ?_, fun covers => ?_⟩, fun addresses ok => ?_, refuses⟩
  · obtain ⟨addresses, ok⟩ := accepted
    obtain ⟨resolved, covered⟩ := locateOk ok
    exact locatedCovers resolved covered
  · cases outcome : (on (PhysicalGraph.locate book.service graph) s).1 with
    | ok addresses => exact ⟨addresses, rfl⟩
    | error failure =>
      obtain ⟨block, member, missing, _⟩ := refuses failure outcome
      have addressed := covers block member
      rw [missing] at addressed
      cases addressed
  · obtain ⟨resolved, covered⟩ := locateOk ok
    exact locatedMirrors rooted resolved covered

theorem compiledLocated {σ : Type} {root : Option VdagUri} {logical : LogicalGraph} {assignment : Assignment}
    {index : EmbeddedIndex} (compiled : compile root logical assignment index = .ok graph) (book : AddressBook)
    (s : σ) : book.Located graph (on (PhysicalGraph.locate book.service graph) s).1 :=
  rootedLocated (withinRooted compiled) book s

def sampleBook : AddressBook := ⟨.ofList [("b0", ("front", 7000)), ("b2", ("back", 7002))], some ("pool", 7100)⟩

theorem sampleLocated : compile (some ⟨"top:1-a"⟩) sampleLogical sampleAssignment sampleIndex = .ok sampleGraph ∧
    sampleBook.Covers sampleGraph ∧
    ∃ addresses, (on (PhysicalGraph.locate sampleBook.service sampleGraph) ()).1 = .ok addresses ∧
      sampleBook.Mirrors sampleGraph addresses := by
  have located := compiledLocated sampleCompiles sampleBook ()
  have covers : sampleBook.Covers sampleGraph := by decide +kernel
  obtain ⟨addresses, ok⟩ := located.accepts.mpr covers
  exact ⟨sampleCompiles, covers, addresses, ok, located.mirrors addresses ok⟩

end Vdag.AddressBook
