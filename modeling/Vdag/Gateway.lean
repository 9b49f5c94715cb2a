import Vdag.Document.Reply
import Vdag.Gateway.MediaType
import Vdag.Submission

/-! The service's own interface: one endpoint for submissions and one for each dry run. -/
namespace Vdag

open Json

structure HttpRequest where
  method : String
  target : String
  contentType : Option String
  body : String
  deriving DecidableEq, Repr

/- A request that is refused before it reaches an endpoint gets no envelope. -/
structure HttpResponse where
  status : Nat
  reply : Option Reply
  deriving DecidableEq, Repr

inductive Endpoint where
  | submit
  | dryAssignment
  | dryEndToEnd
  | validateGraph
  deriving DecidableEq, Repr

namespace Endpoint

def path : Endpoint → String
  | .submit => "/submitTask"
  | .dryAssignment => "/dryrun/assignment-policy"
  | .dryEndToEnd => "/dryrun/end-to-end"
  | .validateGraph => "/dryrun/validate-graph"

def ofPath? (path : String) : Option Endpoint :=
  [submit, dryAssignment, dryEndToEnd, validateGraph].find? (fun endpoint => endpoint.path == path)

end Endpoint

namespace HttpRequest

def isSchemeChar (c : Char) : Bool := c.isAlphanum || c = '+' || c = '-' || c = '.'

def endsPath (c : Char) : Bool := c = '?' || c = '#'

/- Without a scheme and a server in front of it, and without a query or a fragment after it. A target that is
neither a path nor a whole address has no path. -/
def path (request : HttpRequest) : String :=
  let target := request.target.toList
  let afterServer := match target.dropWhile isSchemeChar with
    | ':' :: '/' :: '/' :: rest => rest.dropWhile (fun c => c ≠ '/' && !endsPath c)
    | _ => if target.head? = some '/' then target else []
  String.ofList (afterServer.takeWhile (fun c => !endsPath c))

def bodyLimit : Nat := 2 * 1024 * 1024

def hasJsonType (request : HttpRequest) : Bool :=
  match request.contentType.bind MediaType.ofText? with
  | some media => media.isJson
  | none => false

/- The document in the body, or the status that refuses it. What follows the document is not looked at. -/
def document (request : HttpRequest) : Except Nat VdagDocument :=
  if !request.hasJsonType then .error 415
  else if bodyLimit < request.body.utf8ByteSize then .error 413
  else match readFront VdagDocument.read request.body with
    | .ok document => .ok document
    | .error .malformed => .error 400
    | .error .unfit => .error 422

/- The endpoint and its document. The path is looked at first, then the method, then the body. -/
def accept (request : HttpRequest) : Except Nat (Endpoint × VdagDocument) :=
  match Endpoint.ofPath? request.path with
  | none => .error 404
  | some endpoint =>
      if request.method ≠ "POST" then .error 405
      else do .ok (endpoint, ← request.document)

end HttpRequest

structure Gateway (m : Type → Type) where
  processor : Processor m
  desk : SubmissionDesk m

namespace Gateway

variable {m : Type → Type} [Monad m]

def answer (g : Gateway m) (document : VdagDocument) : Endpoint → Action m Value
  | .submit => do return (← g.desk.submit document).toJson
  | .dryAssignment => do
      let vdag ← Action.ofOutcome (Definition.ofDocument document)
      return (← g.processor.dryAssignment vdag).toJson
  | .dryEndToEnd => do
      let vdag ← Action.ofOutcome (Definition.ofDocument document)
      let (assignment, compiled) ← g.processor.dryEndToEnd vdag
      return endToEndJson assignment compiled
  | .validateGraph => do
      let vdag ← Action.ofOutcome (Definition.ofDocument document)
      return (← g.processor.validateGraph vdag).toJson

def respond (g : Gateway m) (request : HttpRequest) : m HttpResponse :=
  match request.accept with
  | .error status => return ⟨status, none⟩
  | .ok (endpoint, document) => do
      let (status, reply) := replyTo (← (g.answer document endpoint).run)
      return ⟨status, some reply⟩

end Gateway

end Vdag
