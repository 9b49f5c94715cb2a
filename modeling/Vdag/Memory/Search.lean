import Vdag.Service

/-! Searches answered from a table of rules. A rule that is not in it matches nothing. -/
namespace Vdag

structure MemorySearch where
  results : SortedMap String (List SearchMatch)
  calls : Nat
  deriving DecidableEq, Repr

namespace MemorySearch

def ofBlocks (table : SortedMap String (List BlockId)) : MemorySearch :=
  ⟨table.mapValues (fun blocks => blocks.map (⟨·, .empty⟩)), 0⟩

def counted (s : MemorySearch) : MemorySearch := { s with calls := s.calls + 1 }

def search (rule : PolicyRule) : Action (StateM MemorySearch) (List SearchMatch) := ExceptT.mk fun s =>
  (.ok ((s.results.find? rule.uri).getD []), s.counted)

def service : SearchPolicy (StateM MemorySearch) := ⟨search⟩

end MemorySearch

end Vdag
