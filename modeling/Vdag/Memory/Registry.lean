import Vdag.Service

/-! A registry in memory. Its claim is one step: the check, the deletion and the mark happen together. -/
namespace Vdag

structure MemoryRegistry where
  vdags : SortedMap VdagUri Definition
  claimed : List VdagUri
  deletes : Nat
  lookups : Nat
  deriving DecidableEq, Repr

namespace MemoryRegistry

abbrev Op (α : Type) : Type := Action (StateM MemoryRegistry) α

def empty : MemoryRegistry := ⟨.empty, [], 0, 0⟩

def store (r : MemoryRegistry) (vdag : Definition) : MemoryRegistry :=
  match vdag.uri? with
  | some uri => { r with vdags := r.vdags.insert uri vdag }
  | none => r

def unmark (r : MemoryRegistry) (uri : VdagUri) : MemoryRegistry :=
  { r with claimed := r.claimed.filter (· ≠ uri) }

def mark (r : MemoryRegistry) (uri : VdagUri) : MemoryRegistry := { r with claimed := uri :: r.claimed }

def remove (r : MemoryRegistry) (uri : VdagUri) : MemoryRegistry :=
  { r with vdags := r.vdags.erase uri, deletes := r.deletes + 1 }

def get (uri : VdagUri) : Op (Option Definition) := ExceptT.mk fun r =>
  (.ok (r.vdags.find? uri), { r with lookups := r.lookups + 1 })

/- A record is stored once. Storing it ends the claim. -/
def create (vdag : Definition) : Op Unit := ExceptT.mk fun r =>
  match vdag.requireUri with
  | .error failure => (.error failure, r)
  | .ok uri =>
      if r.vdags.contains uri then (.error (.conflict uri.text vdag.status.text), r)
      else (.ok (), { r.unmark uri with vdags := r.vdags.insert uri vdag })

def update (uri : VdagUri) (vdag : Definition) : Op Unit := ExceptT.mk fun r =>
  if r.vdags.contains uri then (.ok (), { r with vdags := r.vdags.insert uri vdag })
  else (.error (.notFound (.vdag uri)), r)

def delete (uri : VdagUri) : Op Unit := ExceptT.mk fun r =>
  if r.vdags.contains uri then (.ok (), r.remove uri) else (.error (.notFound (.vdag uri)), r)

def matchesQuery (filter : Json.Value) (vdag : Definition) : Bool :=
  let agrees (key text : String) : Bool := match (filter.member? key).bind Json.Value.text? with
    | some wanted => text == wanted
    | none => true
  agrees "status" vdag.status.text && agrees "vdag_name" vdag.name

def query (filter : Json.Value) : Op (List Definition) := ExceptT.mk fun r =>
  (.ok (r.vdags.values.filter (matchesQuery filter)), r)

def compiling : String := "compiling"

def claim (uri : VdagUri) : Op Unit := ExceptT.mk fun r =>
  if uri ∈ r.claimed then (.error (.conflict uri.text compiling), r)
  else match r.vdags.find? uri with
    | none => (.ok (), r.mark uri)
    | some stored => match Registry.refuseRunning uri stored with
        | .error failure => (.error failure, r)
        | .ok () => (.ok (), (r.remove uri).mark uri)

def release (uri : VdagUri) : StateM MemoryRegistry Unit := modify (·.unmark uri)

def service : Registry (StateM MemoryRegistry) where
  get := get
  create := create
  update := update
  delete := delete
  query := query
  claim := claim
  release := release
  reach := do return (← MonadState.get).vdags.size

end MemoryRegistry

end Vdag
