import Vdag.Failure
import Vdag.SortedMap

/-! What every node label of a vDAG is assigned to, and the inverse. -/
namespace Vdag

abbrev Assignment := SortedMap NodeLabel Target

abbrev ReverseAssignment := SortedMap Target NodeLabel

namespace Assignment

def embeddings (assignment : Assignment) : List VdagUri := assignment.values.filterMap Target.embedded?

def reverseEntry (found : ReverseAssignment) (entry : NodeLabel × Target) : Outcome ReverseAssignment :=
  match found.find? entry.2 with
  | some first => .error (.definition (.sharedTarget first entry.1 entry.2))
  | none => .ok (found.insert entry.2 entry.1)

def reverse (assignment : Assignment) : Outcome ReverseAssignment :=
  assignment.entries.foldlM reverseEntry .empty

end Assignment

end Vdag
