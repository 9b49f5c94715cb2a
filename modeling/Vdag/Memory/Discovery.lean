import Vdag.Service

/-! Addresses of blocks from a table. Every block is reached at its own input queue. -/
namespace Vdag

structure AddressBook where
  addresses : SortedMap String (String × UInt16)
  fallback : Option (String × UInt16)
  deriving DecidableEq, Repr

namespace AddressBook

def address? (book : AddressBook) (block : BlockId) : Option (String × UInt16) :=
  (book.addresses.find? block.text).or book.fallback

def destination (book : AddressBook) (block : BlockId) : Outcome Destination :=
  match book.address? block with
  | some (host, port) => .ok ⟨host, port, block.inputQueue, some block.text⟩
  | none => .error (.notFound (.runningBlock block))

/- Blocks without an address are left out. One with an address must not lead to a block that has none. -/
def addBlock (book : AddressBook) (graph : PhysicalGraph) (entry : BlockId × List BlockId) : Outcome PhysicalGraph :=
  if (book.address? entry.1).isSome then do
    .ok (graph.insert entry.1.text (← entry.2.mapM book.destination))
  else .ok graph

def resolve (book : AddressBook) (adjacency : Adjacency) : Outcome PhysicalGraph :=
  adjacency.entries.foldlM book.addBlock .empty

def service {m : Type → Type} [Monad m] (book : AddressBook) : Discovery m :=
  ⟨fun adjacency => Action.ofOutcome (book.resolve adjacency)⟩

end AddressBook

end Vdag
