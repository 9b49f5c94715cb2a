import Vdag.Order
import Vdag.Text.Quoted

/-! Identifiers. The kind is part of the type, so a block id is never taken for a node label; the text is free. -/
namespace Vdag

inductive IdKind where
  | block
  | nodeLabel
  | vdagUri
  | task
  deriving DecidableEq, Repr

def IdKind.title : IdKind → String
  | .block => "Block"
  | .nodeLabel => "NodeLabel"
  | .vdagUri => "VdagUri"
  | .task => "Task"

structure Id (kind : IdKind) where
  text : String
  deriving DecidableEq, Repr

abbrev BlockId := Id .block
abbrev NodeLabel := Id .nodeLabel
abbrev VdagUri := Id .vdagUri
abbrev TaskId := Id .task

namespace Id

variable {kind : IdKind}

instance : LawfulBEq (Id kind) := inferInstance

theorem textInjective {a b : Id kind} (h : a.text = b.text) : a = b := by
  cases a; cases b; cases h; rfl

instance : KeyOrder (Id kind) := KeyOrder.ofView Id.text textInjective

instance : ToString (Id kind) := ⟨Id.text⟩

def isEmpty (id : Id kind) : Bool := id.text.isEmpty

def ofNonEmpty? (text : String) : Option (Id kind) := if text.isEmpty then none else some ⟨text⟩

theorem ofNonEmptySome {text : String} {id : Id kind} : ofNonEmpty? text = some id ↔ text ≠ "" ∧ id = ⟨text⟩ := by
  unfold ofNonEmpty?
  split
  · rename_i empty
    exact ⟨nofun, fun given => absurd (String.isEmpty_iff.mp empty) given.1⟩
  · rename_i filled
    have filled : text ≠ "" := fun none => filled (String.isEmpty_iff.mpr none)
    exact ⟨fun same => ⟨filled, (Option.some.inj same).symm⟩, fun given => congrArg some given.2.symm⟩

def describe (id : Id kind) : String := kind.title ++ ": " ++ Text.quoted id.text

end Id

def BlockId.inputQueue (block : BlockId) : String := block.text ++ "_inputs"

end Vdag
