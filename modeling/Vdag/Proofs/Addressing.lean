import Vdag.Compilation
import Vdag.Memory.Discovery
import Vdag.Proofs.BlockGraph.Edges
import Vdag.Proofs.Effects
import Vdag.Proofs.Outcome

/-! Addresses from a table. In a graph whose blocks are all covered, every block is listed with the addresses of the
blocks it leads to, in their order. -/
namespace Vdag.AddressBook
open Adjacency Vdag.Action

variable {book : AddressBook}

def Reaches (book : AddressBook) (blocks : List BlockId) (outputs : List Destination) : Prop :=
  List.Forall₂ (fun block d => book.destination block = .ok d) blocks outputs

theorem destinationOk {block : BlockId} {d : Destination} (ok : book.destination block = .ok d) :
    book.address? block = some (d.host, d.port) ∧ d.queue = block.inputQueue := by
  unfold destination at ok
  cases found : book.address? block with
  | none =>
    rw [found] at ok
    cases ok
  | some address =>
    rw [found] at ok
    cases ok
    exact ⟨rfl, rfl⟩

theorem listedFrom {entries : List (BlockId × List BlockId)} {before after : PhysicalGraph}
    (ok : entries.foldlM book.addBlock before = .ok after) {key : String} {outputs : List Destination}
    (found : after.find? key = some outputs) :
    before.find? key = some outputs ∨ ∃ entry ∈ entries, entry.1.text = key ∧ (book.address? entry.1).isSome ∧
      book.Reaches entry.2 outputs := by
  induction entries generalizing before with
  | nil => cases ok; exact .inl found
  | cons entry rest ih =>
    obtain ⟨next, first, later⟩ := Outcome.foldlMConsOk.mp ok
    rcases ih later with known | ⟨other, member, listed⟩
    · unfold addBlock at first
      split at first
      · rename_i addressed
        obtain ⟨own, reached, last⟩ := Outcome.bindOk.mp first
        cases last
        rw [PhysicalGraph.find?, PhysicalGraph.insert, SortedMap.findInsert] at known
        split at known
        · rename_i same
          cases known
          exact .inr ⟨entry, List.mem_cons_self, same.symm, addressed, Outcome.mapMEach reached⟩
        · exact .inl known
      · cases first
        exact .inl known
    · exact .inr ⟨other, List.mem_cons_of_mem entry member, listed⟩

theorem coversAll {addresses : PhysicalGraph} {graph : BlockGraph} (covered : addresses.checkCovers graph = .ok ()) :
    ∀ block ∈ graph.blocks, (addresses.find? block.text).isSome := by
  intro block member
  unfold PhysicalGraph.checkCovers at covered
  split at covered
  · cases covered
  · rename_i missing
    have listed : addresses.contains block = true := by simpa using List.find?_eq_none.mp missing block member
    exact listed

theorem onLocate {σ : Type} (book : AddressBook) (graph : BlockGraph) (s : σ) :
    on (PhysicalGraph.locate book.service graph) s = (do
      let addresses ← book.resolve graph.adjacency
      addresses.checkCovers graph
      return addresses, s) := by
  have ran : on (PhysicalGraph.locate book.service graph) s = on (ofOutcome (book.resolve graph.adjacency) >>=
      fun addresses => ofOutcome (addresses.checkCovers graph) >>= fun _ => pure addresses) s := rfl
  rw [ran, onBind, onOutcome]
  cases book.resolve graph.adjacency with
  | error failure => rfl
  | ok addresses =>
    dsimp only
    rw [onBind, onOutcome]
    change _ = (addresses.checkCovers graph >>= fun _ => pure addresses, s)
    cases addresses.checkCovers graph <;> rfl

theorem locateOk {σ : Type} {graph : BlockGraph} {addresses : PhysicalGraph} {s : σ}
    (ok : (on (PhysicalGraph.locate book.service graph) s).1 = .ok addresses) :
    book.resolve graph.adjacency = .ok addresses ∧ addresses.checkCovers graph = .ok () := by
  rw [onLocate] at ok
  obtain ⟨found, resolved, ok⟩ := Outcome.bindOk.mp ok
  obtain ⟨_, covered, last⟩ := Outcome.bindOk.mp ok
  cases last
  exact ⟨resolved, covered⟩

theorem locatesAll {graph : BlockGraph} {addresses : PhysicalGraph} (ok : book.resolve graph.adjacency = .ok addresses)
    (covered : addresses.checkCovers graph = .ok ()) {block : BlockId} (member : block ∈ graph.blocks) :
    (∃ own, book.destination block = .ok own) ∧
      ∃ outputs, addresses.find? block.text = some outputs ∧ book.Reaches (graph.adjacency.targets block) outputs := by
  obtain ⟨outputs, found⟩ := Option.isSome_iff_exists.mp (coversAll covered block member)
  rcases listedFrom ok found with nothing | ⟨⟨other, sinks⟩, entry, same, addressed, reached⟩
  · cases nothing
  · cases Id.textInjective same
    obtain ⟨address, known⟩ := Option.isSome_iff_exists.mp addressed
    refine ⟨⟨_, by rw [destination, known]⟩, outputs, found, ?_⟩
    rw [edgeOfEntry entry]
    exact reached

namespace Reaches

variable {blocks : List BlockId} {outputs : List Destination}

theorem eachOfBlock (reaches : book.Reaches blocks outputs) :
    ∀ d ∈ outputs, ∃ block ∈ blocks, book.destination block = .ok d := by
  induction reaches with
  | nil => exact nofun
  | cons first _ ih =>
    refine List.forall_mem_cons.mpr ⟨⟨_, List.mem_cons_self, first⟩, fun d member => ?_⟩
    obtain ⟨block, listed, located⟩ := ih d member
    exact ⟨block, List.mem_cons_of_mem _ listed, located⟩

theorem emptyTogether (reaches : book.Reaches blocks outputs) : outputs = [] ↔ blocks = [] := by
  cases reaches <;> simp

end Reaches

end Vdag.AddressBook
