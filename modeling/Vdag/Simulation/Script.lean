import Vdag.Failure
import Vdag.Json.Printer
import Vdag.Packet.Basic

/-! Scripted policies and block work for simulated deployments. A script is shown a document that holds a packet,
and answers with one. -/
namespace Vdag

open Json

/- `failure` and `answer` end a script at once; the changes to the packet follow one another as listed. -/
structure Script where
  failure : Option Failure := none
  answer : Option Value := none
  addition : Option String := none
  members : List (String × Value) := []
  dumps : Bool := false
  dropped : Option String := none
  deriving DecidableEq, Repr

namespace Script

def dataOf (packet : Value) : String := ((packet.member? "data").bind Value.text?).getD ""

def change (s : Script) (input packet : Value) : Value :=
  let extended := match s.addition with
    | some addition => packet.setMember "data" (.string (dataOf packet ++ addition))
    | none => packet
  let merged := s.members.foldl (fun packet (key, member) => packet.setMember key member) extended
  let dumped := if s.dumps then merged.setMember "data" (.string (input.setMember "packet" merged).render) else merged
  match s.dropped with
  | some key => dumped.eraseMember key
  | none => dumped

def run (s : Script) (input : Value) : Outcome Value :=
  match s.failure, s.answer with
  | some failure, _ => .error failure
  | none, some answer => .ok answer
  | none, none => .ok (input.setMember "packet" (s.change input ((input.member? "packet").getD .null)))

def work (s : Script) (packet : Packet) : Outcome Packet := do
  let output ← s.run packet.wrapped
  match readValue Packet.read ((output.member? "packet").getD .null) with
  | .ok found => .ok found
  | .error _ => .error .malformed

end Script

end Vdag
