import Vdag.CompiledGraph
import Vdag.Packet.Basic
import Vdag.Route
import Vdag.Session

/-! The first packet of a session on a compiled vDAG. -/
namespace Vdag

structure Entry where
  head : BlockId
  queue : String
  packet : Packet
  deriving DecidableEq, Repr

def CompiledGraph.entry (compiled : CompiledGraph) (uri : VdagUri) (session data : String)
    (sink : List Destination) (timestamp : Binary64) : Entry where
  head := compiled.blocks.head
  queue := compiled.blocks.head.inputQueue
  packet := {
    session := (Session.governed uri session).text
    sequence := 0
    data
    timestamp
    framePointer := []
    attachments := []
    outputPointer := (Route.graph (compiled.addresses.withFinal sink)).pointer }

end Vdag
