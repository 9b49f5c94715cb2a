import Vdag.ConnectionCache
import Vdag.Packet.Wire
import Vdag.Route

/-! Forwarding: a packet goes to every next hop its output pointer gives the block. -/
namespace Vdag

/- What became of each destination. Destinations do not depend on each other. -/
structure ForwardReport where
  delivered : List String
  failed : List (String × Failure)
  deriving DecidableEq, Repr

namespace ForwardReport

def blank : ForwardReport := ⟨[], []⟩

def isComplete (report : ForwardReport) : Bool := report.failed.isEmpty

def add (report : ForwardReport) (target : String) : Outcome Unit → ForwardReport
  | .ok () => { report with delivered := report.delivered ++ [target] }
  | .error failure => { report with failed := report.failed ++ [(target, failure)] }

end ForwardReport

def nextHops (block : BlockId) (packet : Packet) : Outcome (Option (List Destination)) := do
  match ← Route.parse packet.outputPointer with
  | .adhoc => .ok none
  | .graph addresses => return some (← addresses.hops block)
  | .direct [] => .error (.routing (.noDestinations packet.session))
  | .direct outputs => .ok (some outputs)

structure Router (m : Type → Type) (κ : Type) where
  block : BlockId
  own : QueueClient m
  dialer : Dialer m κ

namespace Router

variable {m : Type → Type} [Monad m] {κ : Type}

def deliverAll (router : Router m κ) (payload : Bytes) : List Destination → ForwardReport →
    StateT (ConnectionCache κ) m ForwardReport
  | [], report => return report
  | d :: rest, report => do
      let outcome ← (router.dialer.deliver d payload).run
      router.deliverAll payload rest (report.add d.label outcome)

def keep (router : Router m κ) (payload : Bytes) : StateT (ConnectionCache κ) m ForwardReport := do
  let outcome ← StateT.lift (router.own.push Destination.defaultQueue payload).run
  return ForwardReport.blank.add Destination.defaultQueue outcome

/- Only a packet without a route is a failure; deliveries that fail are reported. -/
def forward (router : Router m κ) (packet : Packet) : Action (StateT (ConnectionCache κ) m) ForwardReport := do
  match ← Action.ofOutcome (nextHops router.block packet) with
  | none => ExceptT.lift (router.keep packet.encode)
  | some destinations => ExceptT.lift (router.deliverAll packet.encode destinations .blank)

end Router

end Vdag
