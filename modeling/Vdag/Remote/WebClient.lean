import Vdag.Document.Reply
import Vdag.Document.Vdag
import Vdag.Remote.StatusLine
import Vdag.Service

/-! Asking a service over HTTP. All services answer with the same envelope. -/
namespace Vdag

open Json

inductive WebMethod where
  | get
  | post
  | put
  | delete
  deriving DecidableEq, Repr

structure WebRequest where
  method : WebMethod
  url : String
  body : Option Value
  deriving DecidableEq, Repr

structure WebAnswer where
  status : Nat
  body : String
  deriving DecidableEq, Repr

structure WebClient (m : Type → Type) where
  send : WebRequest → m (Option WebAnswer)

structure BaseUrl where
  text : String
  deriving DecidableEq, Repr

namespace BaseUrl

def ofText (text : String) : BaseUrl := ⟨Text.trimEnd '/' text⟩

def path (base : BaseUrl) (path : String) : String := base.text ++ path

end BaseUrl

namespace WebAnswer

def isMissing (answer : WebAnswer) : Bool := answer.status == 404

def envelope (answer : WebAnswer) : Outcome Reply :=
  match readText Reply.read answer.body with
  | .ok reply => .ok reply
  | .error _ => .error (.transport (.unexpectedReply (statusLine answer.status) answer.body))

def data (answer : WebAnswer) : Outcome Value := do
  let reply ← answer.envelope
  if reply.success then .ok (reply.data.getD .null)
  else .error (.transport (.reported reply.errorMessage))

def typed {α : Type} (read : Source → Reading α) (answer : WebAnswer) : Outcome α := do
  (readValue read (← answer.data)).outcome

end WebAnswer

namespace WebClient

variable {m : Type → Type} [Monad m]

def ask (client : WebClient m) (method : WebMethod) (url : String) (body : Option Value) : Action m WebAnswer :=
  ExceptT.mk do
    match ← client.send ⟨method, url, body⟩ with
    | some answer => return .ok answer
    | none => return .error (.transport .exchange)

def unreachable : WebClient m := ⟨fun _ => return none⟩

def command (client : WebClient m) (method : WebMethod) (url : String) (body : Option Value) : Action m Unit := do
  let answer ← client.ask method url body
  let _ ← Action.ofOutcome answer.data
  return ()

end WebClient

end Vdag
