import Vdag.RecencyCache
import Vdag.Service

/-! Connections to the queues of other blocks. One is kept for each endpoint and shared by all packets. -/
namespace Vdag

abbrev ConnectionCache (κ : Type) := RecencyCache String κ

structure Dialer (m : Type → Type) (κ : Type) where
  connector : Connector m κ
  clock : m Nat

namespace Dialer

variable {m : Type → Type} [Monad m] {κ : Type}

def openNew (dialer : Dialer m κ) (d : Destination) : Action (StateT (ConnectionCache κ) m) κ :=
  ExceptT.mk fun cache => do
    match ← (dialer.connector.connect d).run with
    | .error failure => return (.error failure, cache)
    | .ok connection => return (.ok connection, cache.insert (← dialer.clock) d.endpoint connection)

/- The connection to a destination. Port 0 is refused before anything is looked at. -/
def connection (dialer : Dialer m κ) (d : Destination) : Action (StateT (ConnectionCache κ) m) κ :=
  if d.port = 0 then Action.fail (.transport (.unsupportedPort d.host))
  else do
    let found ← ExceptT.lift fun cache => do return cache.get (← dialer.clock) d.endpoint
    match found with
    | some connection => return connection
    | none => dialer.openNew d

def drop (d : Destination) (cache : ConnectionCache κ) : ConnectionCache κ := (cache.invalidate d.endpoint).2

def deliver (dialer : Dialer m κ) (d : Destination) (payload : Bytes) :
    Action (StateT (ConnectionCache κ) m) Unit := do
  let connection ← dialer.connection d
  ExceptT.mk fun cache => do
    match ← (dialer.connector.push connection d.queue payload).run with
    | .ok () => return (.ok (), cache)
    | .error failure => return (.error failure, drop d cache)

end Dialer

end Vdag
