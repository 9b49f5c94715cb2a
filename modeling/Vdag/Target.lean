import Vdag.Id
import Vdag.Text.Basic

/-! What a node label is assigned to: a block, or another vDAG that takes the node's place. -/
namespace Vdag

def vdagMark : String := "vdag:::"

inductive Target where
  | block (id : BlockId)
  | embedded (uri : VdagUri)
  deriving DecidableEq, Repr

namespace Target

def text : Target → String
  | .block id => id.text
  | .embedded uri => vdagMark ++ uri.text

def ofText (text : String) : Target :=
  match Text.dropFront? vdagMark text with
  | some uri => .embedded ⟨uri⟩
  | none => .block ⟨text⟩

def block? : Target → Option BlockId
  | .block id => some id
  | .embedded _ => none

def embedded? : Target → Option VdagUri
  | .block _ => none
  | .embedded uri => some uri

def Before : Target → Target → Prop
  | .block a, .block b => KeyOrder.Before a b
  | .block _, .embedded _ => True
  | .embedded _, .block _ => False
  | .embedded a, .embedded b => KeyOrder.Before a b

instance decideBefore : (a b : Target) → Decidable (Before a b)
  | .block a, .block b => inferInstanceAs (Decidable (KeyOrder.Before a b))
  | .block _, .embedded _ => .isTrue trivial
  | .embedded _, .block _ => .isFalse id
  | .embedded a, .embedded b => inferInstanceAs (Decidable (KeyOrder.Before a b))

instance : KeyOrder Target where
  Before := Before
  decide := decideBefore
  irrefl a := by cases a <;> exact KeyOrder.irrefl _
  trans {a b c} h g := by
    cases a <;> cases b <;> cases c <;> simp only [Before] at h g ⊢
    · exact KeyOrder.trans h g
    · exact KeyOrder.trans h g
  connected {a b} h g := by
    cases a <;> cases b <;> simp only [Before, not_true_eq_false] at h g
    · exact congrArg _ (KeyOrder.connected h g)
    · exact congrArg _ (KeyOrder.connected h g)

end Target

end Vdag
