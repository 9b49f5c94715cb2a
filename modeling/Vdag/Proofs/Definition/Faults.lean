import Vdag.Proofs.Definition

/-! What can be wrong with a vDAG, node by node and connection by connection, and which of it is told: what comes
first in the order of declaration. A vDAG with which nothing is wrong is accepted. -/
namespace Vdag

def Tells (fault : DefinitionFault → Prop) (answer : Outcome Unit) : Prop :=
  ∀ failure, answer = .error failure ↔ ∃ told, fault told ∧ failure = .definition told

namespace Tells

variable {fault : DefinitionFault → Prop} {told : DefinitionFault}

theorem tellsFine (none : ∀ told, ¬ fault told) : Tells fault (.ok ()) := by
  intro failure
  refine ⟨nofun, fun given => ?_⟩
  obtain ⟨told, found, _⟩ := given
  exact absurd found (none told)

theorem tellsFaulty (found : fault told) (only : ∀ other, fault other → other = told) :
    Tells fault (.error (.definition told)) := by
  intro failure
  constructor
  · intro failed
    cases failed
    exact ⟨told, found, rfl⟩
  · intro given
    obtain ⟨other, found', rfl⟩ := given
    rw [only other found']

theorem okIff {answer : Outcome Unit} (tells : Tells fault answer) : answer = .ok () ↔ ∀ told, ¬ fault told := by
  cases answer with
  | ok _ =>
    refine ⟨fun _ told found => ?_, fun _ => rfl⟩
    cases (tells _).mpr ⟨told, found, rfl⟩
  | error failure =>
    obtain ⟨told, found, _⟩ := (tells failure).mp rfl
    exact ⟨nofun, fun none => absurd found (none told)⟩

end Tells

namespace Node

variable {node : Node} {taken taken' : List NodeLabel}

structure Resolvable (node : Node) : Prop where
  ruled : node.manualBlock = none → node.kind = .unspecified ∨ node.kind = .block →
    ∃ rule, node.assignmentRule = some rule ∧ rule.uri ≠ ""
  embeds : node.manualBlock = none → node.kind = .vdag → ∃ uri, node.embedded = some uri

inductive Unresolved (node : Node) : DefinitionFault → Prop
  | ruleless (unnamed : node.manualBlock = none) (kind : node.kind = .unspecified ∨ node.kind = .block)
      (none : ∀ rule, node.assignmentRule = some rule → rule.uri = "") : Unresolved node (.noRule node.label)
  | vacant (unnamed : node.manualBlock = none) (kind : node.kind = .vdag) (none : node.embedded = none) :
      Unresolved node (.noEmbedded node.label)

theorem resolvableIff : node.Resolvable ↔ ∀ fault, ¬ node.Unresolved fault := by
  constructor
  · intro resolvable fault unresolved
    cases unresolved with
    | ruleless unnamed kind none =>
      obtain ⟨rule, known, named⟩ := resolvable.ruled unnamed kind
      exact named (none rule known)
    | vacant unnamed kind none =>
      obtain ⟨uri, known⟩ := resolvable.embeds unnamed kind
      cases none.symm.trans known
  · intro clear
    refine ⟨fun unnamed kind => ?_, fun unnamed kind => ?_⟩
    · by_contra ruleless
      refine clear _ (.ruleless unnamed kind (fun rule known => ?_))
      by_contra named
      exact ruleless ⟨rule, known, named⟩
    · cases known : node.embedded with
      | none => exact absurd (.vacant unnamed kind known) (clear _)
      | some uri => exact ⟨uri, rfl⟩

theorem searchRuleNone : node.searchRule? = none ↔ ∀ rule, node.assignmentRule = some rule → rule.uri = "" := by
  rw [searchRule?, Option.filter_eq_none_iff]
  simp

theorem kindBlock : node.kind.isBlock = true ↔ node.kind = .unspecified ∨ node.kind = .block := by
  cases node.kind <;> decide

theorem kindVdag : ¬ node.kind.isBlock = true ↔ node.kind = .vdag := by
  cases node.kind <;> decide

theorem checkTells (node : Node) : Tells node.Unresolved node.check := by
  unfold check
  split
  · rename_i named
    refine .tellsFine (fun fault unresolved => ?_)
    cases unresolved with
    | ruleless unnamed | vacant unnamed => simp [unnamed] at named
  rename_i unnamed
  have unnamed : node.manualBlock = none := by simpa using unnamed
  split
  · rename_i block
    have kind := kindBlock.mp block
    have never : node.kind ≠ .vdag := fun vdag => kindVdag.mpr vdag block
    split
    · rename_i ruled
      refine .tellsFine (fun fault unresolved => ?_)
      cases unresolved with
      | ruleless _ _ none => simp [searchRuleNone.mpr none] at ruled
      | vacant _ vdag => exact never vdag
    · rename_i ruleless
      refine .tellsFaulty (.ruleless unnamed kind (searchRuleNone.mp (by simpa using ruleless)))
        (fun fault unresolved => ?_)
      cases unresolved with
      | ruleless => rfl
      | vacant _ vdag => exact absurd vdag never
  · rename_i other
    have kind := kindVdag.mp other
    split
    · rename_i known
      refine .tellsFine (fun fault unresolved => ?_)
      cases unresolved with
      | ruleless _ block => exact other (kindBlock.mpr block)
      | vacant _ _ none => simp [none] at known
    · rename_i none
      refine .tellsFaulty (.vacant unnamed kind (by simpa using none)) (fun fault unresolved => ?_)
      cases unresolved with
      | ruleless _ block => exact absurd (kindBlock.mpr block) other
      | vacant => rfl

inductive Fault (taken : List NodeLabel) (node : Node) : DefinitionFault → Prop
  | unlabelled (empty : node.label.text = "") : Fault taken node .emptyLabel
  | repeated (labelled : node.label.text ≠ "") (again : node.label ∈ taken) :
    Fault taken node (.duplicateLabel node.label)
  | unresolved {fault : DefinitionFault} (labelled : node.label.text ≠ "") (fresh : node.label ∉ taken)
      (unresolved : node.Unresolved fault) : Fault taken node fault

theorem Fault.faultAlike {fault : DefinitionFault} (alike : ∀ label, label ∈ taken ↔ label ∈ taken')
    (faulty : node.Fault taken fault) : node.Fault taken' fault := by
  cases faulty with
  | unlabelled empty => exact .unlabelled empty
  | repeated labelled again => exact .repeated labelled ((alike _).mp again)
  | unresolved labelled fresh unresolved => exact .unresolved labelled (mt (alike _).mpr fresh) unresolved

def inspect (taken : List NodeLabel) (node : Node) : Outcome Unit :=
  if node.label.isEmpty then .error (.definition .emptyLabel)
  else if node.label ∈ taken then .error (.definition (.duplicateLabel node.label))
  else node.check

theorem labelEmpty : node.label.isEmpty = true ↔ node.label.text = "" := String.isEmpty_iff

theorem inspectTells (taken : List NodeLabel) (node : Node) : Tells (node.Fault taken) (node.inspect taken) := by
  unfold inspect
  split
  · rename_i empty
    have empty := labelEmpty.mp empty
    refine .tellsFaulty (.unlabelled empty) (fun fault faulty => ?_)
    cases faulty with
    | unlabelled => rfl
    | repeated labelled | unresolved labelled => exact absurd empty labelled
  rename_i labelled
  have labelled := mt labelEmpty.mpr labelled
  split
  · rename_i again
    refine .tellsFaulty (.repeated labelled again) (fun fault faulty => ?_)
    cases faulty with
    | unlabelled empty => exact absurd empty labelled
    | repeated => rfl
    | unresolved _ fresh => exact absurd again fresh
  · rename_i fresh
    refine fun failure => (checkTells node failure).trans (exists_congr (fun fault => and_congr_left' ?_))
    constructor
    · exact .unresolved labelled fresh
    · intro faulty
      cases faulty with
      | unlabelled empty => exact absurd empty labelled
      | repeated _ again => exact absurd again fresh
      | unresolved _ _ unresolved => exact unresolved

end Node

namespace Connection

variable {known : List NodeLabel} {c : Connection}

inductive Fault (known : List NodeLabel) (c : Connection) : DefinitionFault → Prop
  | unknown (absent : c.node ∉ known) : Fault known c (.unknownConnection c.node)
  | input {before after : List NodeLabel} {input : NodeLabel} (own : c.node ∈ known)
      (split : c.inputs = before ++ input :: after) (others : ∀ earlier ∈ before, earlier ∈ known)
      (absent : input ∉ known) : Fault known c (.unknownInput c.node input)

theorem inputFound {input : NodeLabel} : c.inputs.find? (· ∉ known) = some input ↔ input ∉ known ∧
    ∃ before after, c.inputs = before ++ input :: after ∧ ∀ earlier ∈ before, earlier ∈ known := by
  rw [List.find?_eq_some_iff_append]
  simp

theorem checkTells (known : List NodeLabel) (c : Connection) : Tells (c.Fault known) (c.check known) := by
  unfold check
  split
  · rename_i absent
    refine .tellsFaulty (.unknown absent) (fun fault faulty => ?_)
    cases faulty with
    | unknown => rfl
    | input own => exact absurd own absent
  rename_i own
  have own : c.node ∈ known := not_not.mp own
  cases missing : c.inputs.find? (· ∉ known) with
  | some input =>
    obtain ⟨absent, before, after, split, others⟩ := inputFound.mp missing
    refine .tellsFaulty (.input own split others absent) (fun fault faulty => ?_)
    cases faulty with
    | unknown absent => exact absurd own absent
    | input _ split' others' absent' =>
      cases missing.symm.trans (inputFound.mpr ⟨absent', _, _, split', others'⟩)
      rfl
  | none =>
    refine .tellsFine (fun fault faulty => ?_)
    cases faulty with
    | unknown absent => exact absent own
    | input _ split others absent =>
      cases missing.symm.trans (inputFound.mpr ⟨absent, _, _, split, others⟩)

end Connection

namespace Definition

variable {vdag : Definition}

structure SoundNodes (nodes : List Node) : Prop where
  labelled : ∀ node ∈ nodes, node.label.text ≠ ""
  distinct : (nodes.map (·.label)).Nodup
  resolvable : ∀ node ∈ nodes, node.Resolvable

structure WellFormed (vdag : Definition) : Prop extends SoundNodes vdag.nodes where
  inhabited : vdag.nodes ≠ []
  connected : ∀ c ∈ vdag.graph.connections, c.Within vdag.labels

/- What is wrong with a vDAG before everything else that is. -/
inductive FirstFault (vdag : Definition) : DefinitionFault → Prop
  | deserted (none : vdag.nodes = []) : FirstFault vdag .noNodes
  | node {before after : List Node} {node : Node} {fault : DefinitionFault}
    (split : vdag.nodes = before ++ node :: after)
      (sound : SoundNodes before) (faulty : node.Fault (before.map (·.label)) fault) : FirstFault vdag fault
  | connection {before after : List Connection} {c : Connection} {fault : DefinitionFault} (inhabited : vdag.nodes ≠ [])
      (sound : SoundNodes vdag.nodes) (split : vdag.graph.connections = before ++ c :: after)
      (within : ∀ earlier ∈ before, earlier.Within vdag.labels) (faulty : c.Fault vdag.labels fault) :
      FirstFault vdag fault

theorem resolvableChecked {node : Node} : node.check = .ok () ↔ node.Resolvable :=
  (Node.checkTells node).okIff.trans Node.resolvableIff.symm

theorem checkNodesSound {nodes : List Node} : checkNodes nodes [] = .ok () ↔ SoundNodes nodes := by
  rw [checkNodesOk]
  simp only [List.not_mem_nil, not_false_eq_true, true_and, resolvableChecked, ← Bool.not_eq_true, Node.labelEmpty]
  exact ⟨fun ⟨each, distinct⟩ => ⟨fun node member => (each node member).1, distinct, fun node member =>
    (each node member).2⟩,
    fun sound => ⟨fun node member => ⟨sound.labelled node member, sound.resolvable node member⟩, sound.distinct⟩⟩

theorem checkNodesCons (node : Node) (rest : List Node) (seen : List NodeLabel) :
    checkNodes (node :: rest) seen = (node.inspect seen >>= fun _ => checkNodes rest (node.label :: seen)) := by
  rw [checkNodes, Node.inspect]
  split
  · rfl
  · split
    · rfl
    · rfl

theorem checkNodesStops {nodes : List Node} {seen : List NodeLabel} {failure : Failure} :
    checkNodes nodes seen = .error failure ↔ ∃ before node after, nodes = before ++ node :: after ∧
      checkNodes before seen = .ok () ∧ node.inspect ((before.map (·.label)).reverse ++ seen) = .error failure := by
  induction nodes generalizing seen with
  | nil => simp [checkNodes]
  | cons head rest ih =>
    rw [checkNodesCons, Outcome.bindFails, Outcome.consSplits, ih]
    refine or_congr (by simp [checkNodes]) ⟨?_, ?_⟩
    · rintro ⟨_, passed, before, node, after, split, sound, stopped⟩
      refine ⟨before, node, after, split, ?_, by simpa using stopped⟩
      rw [checkNodesCons, passed]
      exact sound
    · rintro ⟨before, node, after, split, sound, stopped⟩
      rw [checkNodesCons, Outcome.bindOk] at sound
      obtain ⟨_, passed, sound⟩ := sound
      exact ⟨(), passed, before, node, after, split, sound, by simpa using stopped⟩

theorem nodesTell {nodes : List Node} {failure : Failure} : checkNodes nodes [] = .error failure ↔
    ∃ before node after, nodes = before ++ node :: after ∧ SoundNodes before ∧
      ∃ fault, node.Fault (before.map (·.label)) fault ∧ failure = .definition fault := by
  rw [checkNodesStops]
  refine exists_congr (fun before => exists₂_congr (fun node after => and_congr_right' (and_congr checkNodesSound ?_)))
  refine (Node.inspectTells _ node failure).trans (exists_congr (fun fault => and_congr_left' ⟨?_, ?_⟩))
  · exact Node.Fault.faultAlike (by simp)
  · exact Node.Fault.faultAlike (by simp)

theorem graphTells {known : List NodeLabel} {graph : LogicalGraph} {failure : Failure} :
    graph.check known = .error failure ↔ ∃ before c after, graph.connections = before ++ c :: after ∧
      (∀ earlier ∈ before, earlier.Within known) ∧ ∃ fault, c.Fault known fault ∧ failure = .definition fault := by
  rw [LogicalGraph.check, Outcome.forMFails]
  simp only [Connection.checkOk, Connection.checkTells known _ failure]

theorem validateAccepts : vdag.validate = .ok () ↔ vdag.WellFormed := by
  rw [validateOk]
  constructor
  · intro valid
    exact ⟨⟨fun node member => mt Node.labelEmpty.mpr (by simp [valid.labelled node member]), valid.distinct,
      fun node member => resolvableChecked.mp (valid.resolvable node member)⟩, valid.inhabited, valid.connected⟩
  · intro formed
    have labelled : ∀ node ∈ vdag.nodes, node.label.isEmpty = false := fun node member =>
      Bool.eq_false_iff.mpr (mt Node.labelEmpty.mp (formed.labelled node member))
    exact ⟨formed.inhabited, labelled, formed.distinct, fun node member =>
      resolvableChecked.mpr (formed.resolvable node member), formed.connected⟩

theorem validateTells (vdag : Definition) : Tells vdag.FirstFault vdag.validate := by
  unfold validate
  split
  · rename_i empty
    have none := List.isEmpty_iff.mp empty
    refine .tellsFaulty (.deserted none) (fun fault first => ?_)
    cases first with
    | deserted => rfl
    | node split => simp [none] at split
    | connection inhabited => exact absurd none inhabited
  · rename_i inhabited
    have inhabited : vdag.nodes ≠ [] := mt List.isEmpty_iff.mpr inhabited
    intro failure
    rw [Outcome.bindFails, nodesTell]
    constructor
    · rintro (⟨before, node, after, split, sound, fault, faulty, rfl⟩ | ⟨_, sound, graph⟩)
      · exact ⟨fault, .node split sound faulty, rfl⟩
      · obtain ⟨before, c, after, split, within, fault, faulty, rfl⟩ := graphTells.mp graph
        exact ⟨fault, .connection inhabited (checkNodesSound.mp sound) split within faulty, rfl⟩
    · rintro ⟨fault, first, rfl⟩
      cases first with
      | deserted none => exact absurd none inhabited
      | node split sound faulty => exact .inl ⟨_, _, _, split, sound, fault, faulty, rfl⟩
      | connection _ sound split within faulty =>
        exact .inr ⟨(), checkNodesSound.mpr sound, graphTells.mpr ⟨_, _, _, split, within, fault, faulty, rfl⟩⟩

theorem validateFails {failure : Failure} (failed : vdag.validate = .error failure) :
    ∃ fault, failure = .definition fault := by
  obtain ⟨fault, _, told⟩ := (validateTells vdag failure).mp failed
  exact ⟨fault, told⟩

structure Judged (vdag : Definition) (answer : Outcome Unit) : Prop where
  accepts : answer = .ok () ↔ vdag.WellFormed
  refuses : ∀ failure, answer = .error failure ↔ ∃ fault, vdag.FirstFault fault ∧ failure = .definition fault

theorem validationJudges (vdag : Definition) : vdag.Judged vdag.validate where
  accepts := validateAccepts
  refuses := validateTells vdag

end Definition

end Vdag
