import Vdag.Service

/-! Queues on a server that keeps lists: pushed on the left, taken from the right. -/
namespace Vdag

inductive ListCommand where
  | pushLeft (list : String) (payload : Bytes)
  | takeRight (list : String) (seconds : Nat)
  deriving DecidableEq, Repr

inductive ListReply where
  | nothing
  | count (n : Int)
  | entry (list : String) (payload : Bytes)
  | refusal (text : String)
  deriving DecidableEq, Repr

structure ListServerUrl where
  host : String
  port : UInt16 := 6379
  database : Nat := 0
  deriving DecidableEq, Repr

namespace ListServerUrl

def scheme : String := "redis://"

def digits? (text : String) (limit : Nat) : Option Nat :=
  let chars := text.toList
  if chars.isEmpty ∨ !chars.all Char.isDigit then none
  else
    let n := chars.foldl (fun n c => 10 * n + (c.toNat - 48)) 0
    if n < limit then some n else none

def database? (path : String) : Option Nat := if path.isEmpty then some 0 else digits? path 0x8000000000000000

def endpoint? (text : String) : Option (String × UInt16) :=
  match Text.splitFirst? ":" text with
  | none => if text.isEmpty then none else some (text, 6379)
  | some (host, port) => if host.isEmpty then none else (digits? port 0x10000).map (host, UInt16.ofNat ·)

def ofText? (text : String) : Option ListServerUrl := do
  let rest ← Text.dropFront? scheme text
  let (authority, path) := (Text.splitFirst? "/" rest).getD (rest, "")
  let (host, port) ← endpoint? authority
  return ⟨host, port, ← database? path⟩

end ListServerUrl

structure ListClient (m : Type → Type) (κ : Type) where
  connect : ListServerUrl → Action m κ
  send : κ → ListCommand → Action m ListReply

namespace ListClient

variable {m : Type → Type} [Monad m] {κ : Type}

def unreachable : ListClient m Unit :=
  ⟨fun _ => Action.fail (.transport .exchange), fun _ _ => Action.fail (.transport .exchange)⟩

def badReply : Failure := .transport (.reported "unexpected reply")

def failureOf : ListReply → Failure
  | .refusal text => .transport (.reported text)
  | _ => badReply

def pushed : ListReply → Outcome Unit
  | .count _ => .ok ()
  | other => .error (failureOf other)

def taken : ListReply → Outcome (Option Bytes)
  | .nothing => .ok none
  | .entry _ payload => .ok (some payload)
  | other => .error (failureOf other)

/- A wait of zero would last for ever, so at least a second is waited. -/
def queue (client : ListClient m κ) (connection : κ) : QueueClient m where
  push list payload := do Action.ofOutcome (pushed (← client.send connection (.pushLeft list payload)))
  pop list seconds := do Action.ofOutcome (taken (← client.send connection (.takeRight list (max seconds 1))))

def openUrl (client : ListClient m κ) (url : String) : Action m (QueueClient m) := do
  match ListServerUrl.ofText? url with
  | none => Action.fail (.transport (.reported ("no address of a list server: " ++ url)))
  | some url => return client.queue (← client.connect url)

def urlOf (d : Destination) : ListServerUrl := ⟨d.host, d.port, 0⟩

def connector (client : ListClient m κ) : Connector m κ where
  connect d := client.connect (urlOf d)
  push connection := (client.queue connection).push

end ListClient

end Vdag
