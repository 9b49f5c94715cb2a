/-! The states of vDAGs and tasks, the kinds of nodes and the stages of policies, with their words in documents. -/
namespace Vdag

inductive VdagStatus where
  | pending
  | assigned
  | failed
  | active
  deriving DecidableEq, Repr

namespace VdagStatus

def text : VdagStatus → String
  | .pending => "pending"
  | .assigned => "assigned"
  | .failed => "failed"
  | .active => "active"

def ofText? (text : String) : Option VdagStatus :=
  [pending, assigned, failed, active].find? (fun status => status.text == text)

def allowsResubmission : VdagStatus → Bool
  | .pending | .failed => true
  | .assigned | .active => false

def isRunnable : VdagStatus → Bool
  | .assigned | .active => true
  | .pending | .failed => false

end VdagStatus

inductive TaskStatus where
  | pending
  | completed
  | failed
  deriving DecidableEq, Repr

namespace TaskStatus

def text : TaskStatus → String
  | .pending => "pending"
  | .completed => "completed"
  | .failed => "failed"

def ofText? (text : String) : Option TaskStatus :=
  [pending, completed, failed].find? (fun status => status.text == text)

end TaskStatus

/- A node of unspecified kind is a block node; documents keep the difference. -/
inductive NodeKind where
  | unspecified
  | block
  | vdag
  deriving DecidableEq, Repr

namespace NodeKind

def text : NodeKind → String
  | .unspecified => ""
  | .block => "block"
  | .vdag => "vdag"

def ofText? (text : String) : Option NodeKind :=
  [unspecified, block, vdag].find? (fun kind => kind.text == text)

def isBlock : NodeKind → Bool
  | .unspecified | .block => true
  | .vdag => false

end NodeKind

inductive Stage where
  | preprocessing
  | postprocessing
  deriving DecidableEq, Repr

def Stage.title : Stage → String
  | .preprocessing => "Preprocessing"
  | .postprocessing => "Postprocessing"

end Vdag
