import Vdag.Failure
import Vdag.Json.Reading

/-! The envelope that replies travel in, both those given and those taken. Discovery answers with a graph in
place of data, the registry with an error in place of a message. -/
namespace Vdag

open Json

structure Reply where
  success : Bool := false
  data : Option Value := none
  graph : Option Value := none
  message : Option String := none
  error : Option String := none
  kind : Option String := none
  deriving DecidableEq, Repr

namespace Reply

def fields : List (FieldReader Reply) := [
  .defaulted "success" Source.bool (fun r success => { r with success }),
  .defaulted "data" (Source.optional Source.any) (fun r data => { r with data }),
  .defaulted "graph" (Source.optional Source.any) (fun r graph => { r with graph }),
  .defaulted "message" (Source.optional Source.string) (fun r message => { r with message }),
  .defaulted "error" (Source.optional Source.string) (fun r error => { r with error }),
  .defaulted "kind" (Source.optional Source.string) (fun r kind => { r with kind })]

def read : Source → Reading Reply := FieldReader.readRecord fields {}

def texts (name : String) (text : Option String) : List (String × Value) :=
  text.toList.map (fun text => (name, .string text))

def toJson (r : Reply) : Value :=
  .record ([("success", .bool r.success)] ++ r.data.toList.map (("data", ·)) ++ r.graph.toList.map (("graph", ·)) ++
    texts "message" r.message ++ texts "error" r.error ++ texts "kind" r.kind)

def ok (data : Value) : Reply := { success := true, data := some data }

def ofFailure (failure : Failure) : Reply :=
  { message := some failure.message, kind := some failure.kind }

def errorMessage (r : Reply) : String := (r.message.or r.error).getD "Unknown error occurred"

end Reply

def Failure.statusCode : Failure → Nat
  | .definition _ | .malformed => 400
  | .conflict .. => 409
  | .assignment .. | .composition _ => 422
  | .notFound _ => 404
  | .transport _ => 502
  | .routing _ | .policy _ | .codec | .unreadable => 500

def replyTo : Outcome Value → Nat × Reply
  | .ok data => (200, .ok data)
  | .error failure => (failure.statusCode, .ofFailure failure)

end Vdag
