import Vdag.Remote.WebClient

/-! A registry behind HTTP. It has no claim of its own. -/
namespace Vdag

open Json

namespace RemoteRegistry

variable {m : Type → Type} [Monad m]

def vdagUrl (base : BaseUrl) (uri : VdagUri) : String := base.path ("/vdag/" ++ uri.text)

def definition (document : VdagDocument) : Outcome Definition := Definition.ofDocument document

def get (client : WebClient m) (base : BaseUrl) (uri : VdagUri) : Action m (Option Definition) := do
  let answer ← client.ask .get (vdagUrl base uri) none
  if answer.isMissing then return none
  else
    let document ← Action.ofOutcome (answer.typed VdagDocument.read)
    return some (← Action.ofOutcome (definition document))

def create (client : WebClient m) (base : BaseUrl) (vdag : Definition) : Action m Unit :=
  client.command .post (base.path "/vdag") (some vdag.toJson)

def update (client : WebClient m) (base : BaseUrl) (uri : VdagUri) (vdag : Definition) : Action m Unit :=
  client.command .put (vdagUrl base uri) (some vdag.toJson)

def delete (client : WebClient m) (base : BaseUrl) (uri : VdagUri) : Action m Unit := do
  let answer ← client.ask .delete (vdagUrl base uri) none
  if answer.isMissing then Action.fail (.notFound (.vdag uri))
  else
    let _ ← Action.ofOutcome answer.data
    return ()

def query (client : WebClient m) (base : BaseUrl) (filter : Value) : Action m (List Definition) := do
  let answer ← client.ask .post (base.path "/vdags") (some filter)
  let documents ← Action.ofOutcome (answer.typed (Source.listOf VdagDocument.read))
  Action.ofOutcome (documents.mapM definition)

def reach : Nat := 0x100000000

def service (client : WebClient m) (base : BaseUrl) : Registry m :=
  let plain : Registry m := {
    get := get client base
    create := create client base
    update := update client base
    delete := delete client base
    query := query client base
    claim := fun _ => return ()
    release := fun _ => return ()
    reach := return reach }
  plain.withPlainClaim

end RemoteRegistry

end Vdag
