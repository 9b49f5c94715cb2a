import Vdag.Service

/-! Resolving the nodes of a vDAG: each label to a block that is named, found by a search, or to another vDAG. -/
namespace Vdag

variable {m : Type → Type} [Monad m]

namespace Assignment

def onlyMatch (rule : String) : List SearchMatch → Except AssignmentFault BlockId
  | [only] => .ok only.block
  | [] => .error (.noMatch rule)
  | several => .error (.severalMatches rule several.length)

/- Trouble on the way stays trouble on the way; any other failure is one of the assignment. -/
def searchFailure (vdag : String) (node : Node) (rule : PolicyRule) : Failure → Failure
  | .transport cause => .transport (.searching node.label cause)
  | other => .assignment node.label.text vdag (.searchFailed rule.uri other.message)

def search (policy : SearchPolicy m) (vdag : String) (node : Node) (rule : PolicyRule) : Action m BlockId := do
  let found ← (policy.search rule).adapt (searchFailure vdag node rule)
  Action.ofOutcome ((onlyMatch rule.uri found).mapError (.assignment node.label.text vdag))

def target (policy : SearchPolicy m) (vdag : String) (node : Node) : Action m Target :=
  match node.manualBlock with
  | some block => return .block block
  | none =>
      if node.kind.isBlock then
        match node.searchRule? with
        | some rule => return .block (← search policy vdag node rule)
        | none => Action.fail (.assignment node.label.text vdag .noRule)
      else match node.embedded with
        | some uri => return .embedded uri
        | none => Action.fail (.definition (.noEmbedded node.label))

def resolveNodes (policy : SearchPolicy m) (vdag : String) : List Node → Assignment → Action m Assignment
  | [], found => return found
  | node :: rest, found => do
      let target ← target policy vdag node
      resolveNodes policy vdag rest (found.insert node.label target)

def resolve (policy : SearchPolicy m) (vdag : Definition) : Action m Assignment :=
  resolveNodes policy vdag.uriText vdag.nodes .empty

end Assignment

end Vdag
