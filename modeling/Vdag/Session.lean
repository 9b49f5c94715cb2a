import Vdag.Failure

/-! Sessions: a packet belongs to a session of a vDAG, or to one that nobody governs. -/
namespace Vdag

inductive Session where
  | plain (id : String)
  | governed (uri : VdagUri) (session : String)
  deriving DecidableEq, Repr

namespace Session

def separator : String := ":::"

/- Ids that start with the vDAG mark are governed: a URI and a session follow, neither empty, and the session
without a separator of its own. -/
def parse (id : String) : Outcome Session :=
  match Text.dropFront? vdagMark id with
  | none => .ok (.plain id)
  | some rest =>
      match Text.splitFirst? separator rest with
      | some (uri, session) =>
          if uri.isEmpty || session.isEmpty || Text.contains session separator then
            .error (.definition (.malformedSession id))
          else .ok (.governed ⟨uri⟩ session)
      | none => .error (.definition (.malformedSession id))

def text : Session → String
  | .plain id => id
  | .governed uri session => vdagMark ++ uri.text ++ separator ++ session

def uri? : Session → Option VdagUri
  | .plain _ => none
  | .governed uri _ => some uri

end Session

end Vdag
