import Vdag.Memory.Discovery
import Vdag.Memory.Search
import Vdag.Proofs.Assignment
import Vdag.Proofs.Definition
import Vdag.Proofs.Registry.Asking

/-! Resolving, node by node. Most nodes say themselves what stands behind them; for the others one search each is made,
in the order in which they are declared, until one of them does not come up with exactly one block. -/
namespace Vdag
open Vdag.Action

namespace Node

def Searched (node : Node) : Prop := node.manualBlock = none ∧ node.kind ≠ .vdag

instance (node : Node) : Decidable node.Searched := inferInstanceAs (Decidable (_ ∧ _))

inductive Given (node : Node) : Target → Prop
  | manual {block : BlockId} (named : node.manualBlock = some block) : Given node (.block block)
  | embedded {uri : VdagUri} (unnamed : node.manualBlock = none) (kind : node.kind = .vdag)
      (known : node.embedded = some uri) : Given node (.embedded uri)

theorem Given.notSearched {node : Node} {target : Target} (given : node.Given target) : ¬ node.Searched := by
  rintro ⟨unnamed, other⟩
  cases given with
  | manual named => cases named.symm.trans unnamed
  | embedded _ kind _ => exact other kind

theorem Given.targetUnique {node : Node} {first second : Target} (given : node.Given first)
    (again : node.Given second) : first = second := by
  cases given with
  | manual named =>
    cases again with
    | manual named' => exact congrArg Target.block (Option.some.inj (named.symm.trans named'))
    | embedded unnamed _ _ => cases named.symm.trans unnamed
  | embedded unnamed _ known =>
    cases again with
    | manual named => cases named.symm.trans unnamed
    | embedded _ _ known' => exact congrArg Target.embedded (Option.some.inj (known.symm.trans known'))

theorem checkedRule {node : Node} (checked : node.check = .ok ()) (searched : node.Searched) :
    node.kind.isBlock = true ∧ ∃ rule, node.searchRule? = some rule ∧ node.assignmentRule = some rule := by
  obtain ⟨unnamed, kind⟩ := searched
  have block : node.kind.isBlock = true := by
    cases shown : node.kind with
    | vdag => exact absurd shown kind
    | unspecified | block => rfl
  refine ⟨block, ?_⟩
  simp only [check, unnamed, block, Option.isSome_none, Bool.false_eq_true, if_false, if_true] at checked
  split at checked
  · rename_i ruled
    obtain ⟨rule, known⟩ := Option.isSome_iff_exists.mp ruled
    exact ⟨rule, known, (Option.filter_eq_some_iff.mp known).1⟩
  · cases checked

theorem checkedGiven {node : Node} (checked : node.check = .ok ()) (given : ¬ node.Searched) :
    ∃ target, node.Given target := by
  cases named : node.manualBlock with
  | some block => exact ⟨_, .manual named⟩
  | none =>
    have kind : node.kind = .vdag := by
      by_contra other
      exact given ⟨named, other⟩
    cases known : node.embedded with
    | some uri => exact ⟨_, .embedded named kind known⟩
    | none => simp [check, named, kind, known, NodeKind.isBlock] at checked

end Node

structure Inquiry where
  node : Node
  rule : PolicyRule
  answer : Outcome (List SearchMatch)

namespace Inquiry

def Settled (q : Inquiry) : Prop := ∃ only, q.answer = .ok [only]

inductive Refused (q : Inquiry) (vdag : String) : Failure → Prop
  | lost {cause : TransportFault} (answered : q.answer = .error (.transport cause)) :
      Refused q vdag (.transport (.searching q.node.label cause))
  | failed {failure : Failure} (answered : q.answer = .error failure) (other : ∀ cause, failure ≠ .transport cause) :
      Refused q vdag (.assignment q.node.label.text vdag (.searchFailed q.rule.uri failure.message))
  | nothing (answered : q.answer = .ok []) :
      Refused q vdag (.assignment q.node.label.text vdag (.noMatch q.rule.uri))
  | several {found : List SearchMatch} (answered : q.answer = .ok found) (many : 2 ≤ found.length) :
      Refused q vdag (.assignment q.node.label.text vdag (.severalMatches q.rule.uri found.length))

theorem Refused.notSettled {q : Inquiry} {vdag : String} {failure : Failure} (refused : q.Refused vdag failure) :
    ¬ q.Settled := by
  rintro ⟨only, settled⟩
  cases refused with
  | lost answered | failed answered _ | nothing answered => cases answered.symm.trans settled
  | several answered many =>
    cases answered.symm.trans settled
    exact absurd many (by simp)

def outcome (q : Inquiry) (vdag : String) : Outcome BlockId := do
  let found ← q.answer.mapError (Assignment.searchFailure vdag q.node q.rule)
  (Assignment.onlyMatch q.rule.uri found).mapError (.assignment q.node.label.text vdag)

theorem outcomeCases (q : Inquiry) (vdag : String) :
    (∃ only, q.answer = .ok [only] ∧ q.outcome vdag = .ok only.block) ∨
      ∃ failure, q.Refused vdag failure ∧ q.outcome vdag = .error failure := by
  obtain ⟨node, rule, answer⟩ := q
  match answer with
  | .ok [only] => exact .inl ⟨only, rfl, rfl⟩
  | .ok [] => exact .inr ⟨_, .nothing rfl, rfl⟩
  | .ok (first :: second :: rest) => exact .inr ⟨_, .several rfl (by simp), rfl⟩
  | .error failure =>
    refine .inr ?_
    cases failure with
    | transport cause => exact ⟨_, .lost rfl, rfl⟩
    | _ => exact ⟨_, .failed rfl nofun, rfl⟩

end Inquiry

variable {σ : Type}

def SearchPolicy.inquiries (policy : SearchPolicy (StateM σ)) : List Node → σ → List Inquiry
  | [], _ => []
  | node :: rest, s =>
      if node.Searched then match node.assignmentRule with
        | some rule =>
            ⟨node, rule, (on (policy.search rule) s).1⟩ :: policy.inquiries rest (on (policy.search rule) s).2
        | none => policy.inquiries rest s
      else policy.inquiries rest s

namespace SearchPolicy
variable {policy : SearchPolicy (StateM σ)} {nodes : List Node} {s : σ}

theorem inquiriesNodes (checked : ∀ node ∈ nodes, node.check = .ok ()) :
    (policy.inquiries nodes s).map Inquiry.node = nodes.filter (fun node => node.Searched) := by
  induction nodes generalizing s with
  | nil => rfl
  | cons node rest ih =>
    obtain ⟨own, others⟩ := List.forall_mem_cons.mp checked
    rw [inquiries]
    by_cases searched : node.Searched
    · obtain ⟨_, rule, _, known⟩ := Node.checkedRule own searched
      rw [if_pos searched, known, List.filter_cons_of_pos (by simpa using searched), ← ih others]
      rfl
    · rw [if_neg searched, List.filter_cons_of_neg (by simpa using searched), ih others]

theorem inquiriesAnswered : ∀ q ∈ policy.inquiries nodes s,
    q.node.assignmentRule = some q.rule ∧ ∃ s', q.answer = (on (policy.search q.rule) s').1 := by
  induction nodes generalizing s with
  | nil => simp [inquiries]
  | cons node rest ih =>
    rw [inquiries]
    split
    · split
      · rename_i rule known
        exact List.forall_mem_cons.mpr ⟨⟨known, s, rfl⟩, ih⟩
      · exact ih
    · exact ih

end SearchPolicy

namespace Assignment

section Nodes
variable (outside : Surroundings σ) {vdag : String} {node : Node} {nodes : List Node}

theorem targetGiven {placed : Target} (given : node.Given placed) (s : σ) :
    on (target outside.search vdag node) s = (.ok placed, s) := by
  cases given with
  | manual named => simp only [target, named]; rfl
  | embedded unnamed kind known => simp only [target, unnamed, kind, known]; rfl

theorem targetSearched {rule : PolicyRule} (searched : node.Searched) (block : node.kind.isBlock = true)
    (ruled : node.searchRule? = some rule) (s : σ) :
    on (target outside.search vdag node) s =
      ((Inquiry.outcome ⟨node, rule, (on (outside.search.search rule) s).1⟩ vdag).map Target.block,
        (on (outside.search.search rule) s).2) := by
  simp only [target, searched.1, block, ruled, if_true]
  rw [onBindPure, search, onBind, onAdapt]
  dsimp only [Inquiry.outcome]
  cases (on (outside.search.search rule) s).1 <;> rfl

theorem givenAsks {placed : Target} (given : node.Given placed) (w : MemoryRegistry × σ) :
    (target Paused.processor.search vdag node).run.asked outside w = [] := by
  cases given with
  | manual named => simp only [target, named]; rfl
  | embedded unnamed kind known => simp only [target, unnamed, kind, known]; rfl

theorem searchedAsks {rule : PolicyRule} (searched : node.Searched) (block : node.kind.isBlock = true)
    (ruled : node.searchRule? = some rule) (w : MemoryRegistry × σ) :
    (target Paused.processor.search vdag node).run.asked outside w = [.search rule] := by
  have asks := Paused.asksPerform outside
  have called : ((Paused.processor.search.search rule).adapt (searchFailure vdag node rule)).run.asked outside w =
      [.search rule] := rfl
  have performed := asks.adapt (searchFailure vdag node rule) (asks.search rule)
  simp only [target, searched.1, block, ruled, if_true, search]
  rw [Paused.askedLast outside (asks.bind performed (fun _ => asks.outcome _)) _ (fun _ _ => rfl) w,
    Paused.askedLast outside performed _ (fun _ _ => rfl) w, called]

end Nodes

structure Placed (nodes : List Node) (qs : List Inquiry) (before after : Assignment) : Prop where
  kept : ∀ label, label ∉ nodes.map (·.label) → after.find? label = before.find? label
  given : ∀ node ∈ nodes, ∀ target, node.Given target → after.find? node.label = some target
  searched : ∀ q ∈ qs, ∀ only, q.answer = .ok [only] → after.find? q.node.label = some (.block only.block)

/- How resolving goes, with the calls it makes: to the end of all searches, or to the first that comes to nothing. -/
inductive Course (vdag : String) (nodes : List Node) (qs : List Inquiry) (before : Assignment) :
    Outcome Assignment → List Request → Prop
  | settled {after : Assignment} (each : ∀ q ∈ qs, q.Settled) (placed : Placed nodes qs before after) :
      Course vdag nodes qs before (.ok after) (qs.map fun q => .search q.rule)
  | refused (first : List Inquiry) {later : List Inquiry} {q : Inquiry} {failure : Failure}
      (split : qs = first ++ q :: later) (each : ∀ p ∈ first, p.Settled) (refused : q.Refused vdag failure) :
      Course vdag nodes qs before (.error failure) ((first ++ [q]).map fun q => .search q.rule)

namespace Course
variable {vdag : String} {node : Node} {rest : List Node} {qs : List Inquiry} {before : Assignment}
  {outcome : Outcome Assignment} {asked : List Request}

theorem keptPast {target : Target} {after : Assignment} (fresh : node.label ∉ rest.map (·.label))
    (placed : Placed rest qs (before.insert node.label target) after) :
    after.find? node.label = some target ∧
      ∀ label, label ∉ (node :: rest).map (·.label) → after.find? label = before.find? label := by
  refine ⟨(placed.kept node.label fresh).trans (SortedMap.findInsertSelf _ _ _), fun label apart => ?_⟩
  obtain ⟨ne, apart⟩ := not_or.mp (fun h => apart (List.mem_cons.mpr h))
  exact (placed.kept label apart).trans (SortedMap.findInsertOther _ _ ne)

theorem givenFirst {target : Target} (given : node.Given target) (fresh : node.label ∉ rest.map (·.label))
    (course : Course vdag rest qs (before.insert node.label target) outcome asked) :
    Course vdag (node :: rest) qs before outcome asked := by
  cases course with
  | refused first split each refused => exact .refused first split each refused
  | settled each placed =>
    obtain ⟨own, kept⟩ := keptPast fresh placed
    refine .settled each ⟨kept, List.forall_mem_cons.mpr ⟨fun other again => ?_, placed.given⟩, placed.searched⟩
    exact own.trans (congrArg some (given.targetUnique again))

theorem searchedFirst {rule : PolicyRule} {only : SearchMatch} (searched : node.Searched)
    (fresh : node.label ∉ rest.map (·.label))
    (course : Course vdag rest qs (before.insert node.label (.block only.block)) outcome asked) :
    Course vdag (node :: rest) (⟨node, rule, .ok [only]⟩ :: qs) before outcome (.search rule :: asked) := by
  cases course with
  | refused first split each refused =>
    exact .refused (⟨node, rule, .ok [only]⟩ :: first) (congrArg _ split)
      (List.forall_mem_cons.mpr ⟨⟨only, rfl⟩, each⟩) refused
  | settled each placed =>
    obtain ⟨own, kept⟩ := keptPast fresh placed
    refine .settled (List.forall_mem_cons.mpr ⟨⟨only, rfl⟩, each⟩) ⟨kept, ?_, ?_⟩
    · exact List.forall_mem_cons.mpr ⟨fun target given => absurd searched given.notSearched, placed.given⟩
    · refine List.forall_mem_cons.mpr ⟨fun other answered => ?_, placed.searched⟩
      cases answered
      exact own

end Course

theorem nodesInTurn (outside : Surroundings σ) {vdag : String} {nodes : List Node}
    (checked : ∀ node ∈ nodes, node.check = .ok ()) (distinct : (nodes.map (·.label)).Nodup) (before : Assignment)
    (r : MemoryRegistry) (s : σ) :
    Course vdag nodes (outside.search.inquiries nodes s) before
      (on (resolveNodes outside.search vdag nodes before) s).1
      ((resolveNodes Paused.processor.search vdag nodes before).run.asked outside (r, s)) := by
  -- On the nodes still to be resolved, with what the earlier ones were given.
  induction nodes generalizing before s with
  | nil => exact .settled (by simp [SearchPolicy.inquiries]) ⟨fun _ _ => rfl, by simp, by simp [SearchPolicy.inquiries]⟩
  | cons node rest ih =>
    obtain ⟨own, others⟩ := List.forall_mem_cons.mp checked
    obtain ⟨fresh, distinct⟩ := List.nodup_cons.mp distinct
    have performed := (Paused.asksPerform outside).targetRelated vdag node
    have hosted := (Surroundings.consultsOutside outside).targetRelated vdag node r s
    rw [resolveNodes, resolveNodes, onBind, Paused.askedThen outside performed, hosted, SearchPolicy.inquiries]
    by_cases searched : node.Searched
    · obtain ⟨block, rule, ruled, known⟩ := Node.checkedRule own searched
      rw [searchedAsks outside searched block ruled, targetSearched outside searched block ruled, if_pos searched,
        known]
      dsimp only
      rcases Inquiry.outcomeCases ⟨node, rule, (on (outside.search.search rule) s).1⟩ vdag with
        ⟨only, answered, found⟩ | ⟨failure, refused, found⟩
      · rw [found, show (on (outside.search.search rule) s).1 = _ from answered]
        exact (ih others distinct _ _).searchedFirst searched fresh
      · rw [found]
        exact .refused [] rfl (by simp) refused
    · obtain ⟨target, given⟩ := Node.checkedGiven own searched
      rw [givenAsks outside given, targetGiven outside given, if_neg searched]
      exact (ih others distinct _ s).givenFirst given fresh

structure Fits (vdag : Definition) (qs : List Inquiry) (assignment : Assignment) : Prop where
  labels : ∀ label, label ∈ assignment.keys ↔ label ∈ vdag.labels
  given : ∀ node ∈ vdag.nodes, ¬ node.Searched →
    ∃ target, node.Given target ∧ assignment.find? node.label = some target
  found : ∀ q ∈ qs, ∃ only, q.answer = .ok [only] ∧ assignment.find? q.node.label = some (.block only.block)

/- What resolving comes to, and all that it asks for, by the searches there are to make and their answers. After the
first answer that is not one match nothing more is asked. -/
structure Resolved (policy : SearchPolicy (StateM σ)) (vdag : Definition) (qs : List Inquiry)
    (outcome : Outcome Assignment) (asked : List Request) : Prop where
  searches : qs.map Inquiry.node = vdag.nodes.filter (fun node => node.Searched)
  answered : ∀ q ∈ qs, q.node.assignmentRule = some q.rule ∧ ∃ s, q.answer = (on (policy.search q.rule) s).1
  accepts : (∃ assignment, outcome = .ok assignment) ↔ ∀ q ∈ qs, q.Settled
  assigns : ∀ assignment, outcome = .ok assignment →
    Fits vdag qs assignment ∧ asked = qs.map (fun q => .search q.rule)
  refuses : ∀ failure, outcome = .error failure → ∃ first q later, qs = first ++ q :: later ∧
    (∀ p ∈ first, p.Settled) ∧ ¬ q.Settled ∧ q.Refused vdag.uriText failure ∧
    asked = (first ++ [q]).map (fun q => .search q.rule)

theorem Placed.fitsWhenSettled {vdag : Definition} {qs : List Inquiry} {assignment : Assignment} (valid : vdag.Valid)
    (searches : qs.map Inquiry.node = vdag.nodes.filter (fun node => node.Searched)) (each : ∀ q ∈ qs, q.Settled)
    (placed : Placed vdag.nodes qs .empty assignment) : Fits vdag qs assignment := by
  have given : ∀ node ∈ vdag.nodes, ¬ node.Searched →
      ∃ target, node.Given target ∧ assignment.find? node.label = some target := by
    intro node member unsearched
    obtain ⟨target, given⟩ := Node.checkedGiven (valid.resolvable node member) unsearched
    exact ⟨target, given, placed.given node member target given⟩
  have found : ∀ q ∈ qs,
      ∃ only, q.answer = .ok [only] ∧ assignment.find? q.node.label = some (.block only.block) := by
    intro q among
    obtain ⟨only, answered⟩ := each q among
    exact ⟨only, answered, placed.searched q among only answered⟩
  refine ⟨fun label => ⟨fun key => ?_, fun named => ?_⟩, given, found⟩
  · by_contra absent
    obtain ⟨target, known⟩ := SortedMap.keyFound.mp key
    cases known.symm.trans (placed.kept label absent)
  · obtain ⟨node, member, rfl⟩ := List.mem_map.mp named
    by_cases searched : node.Searched
    · have listed : node ∈ qs.map Inquiry.node := by simp [searches, member, searched]
      obtain ⟨q, among, rfl⟩ := List.mem_map.mp listed
      obtain ⟨_, _, known⟩ := found q among
      exact SortedMap.memOfFind known
    · obtain ⟨_, _, known⟩ := given node member searched
      exact SortedMap.memOfFind known

theorem Course.courseResolved {policy : SearchPolicy (StateM σ)} {vdag : Definition} {s : σ}
    {outcome : Outcome Assignment} {asked : List Request} (valid : vdag.Valid)
    (course : Course vdag.uriText vdag.nodes (policy.inquiries vdag.nodes s) .empty outcome asked) :
    Resolved policy vdag (policy.inquiries vdag.nodes s) outcome asked := by
  have searches : (policy.inquiries vdag.nodes s).map Inquiry.node = vdag.nodes.filter (fun node => node.Searched) :=
    SearchPolicy.inquiriesNodes valid.resolvable
  have answered : ∀ q ∈ policy.inquiries vdag.nodes s,
      q.node.assignmentRule = some q.rule ∧ ∃ s, q.answer = (on (policy.search q.rule) s).1 :=
    SearchPolicy.inquiriesAnswered
  cases course with
  | settled each placed =>
    refine ⟨searches, answered, ⟨fun _ => each, fun _ => ⟨_, rfl⟩⟩, fun assignment same => ?_, nofun⟩
    cases same
    exact ⟨placed.fitsWhenSettled valid searches each, rfl⟩
  | @refused first later q failure split each refused =>
    refine ⟨searches, answered, ⟨nofun, fun all => ?_⟩, nofun, fun other same => ?_⟩
    · exact absurd (all q (split ▸ List.mem_append_right _ List.mem_cons_self)) refused.notSettled
    · cases same
      exact ⟨first, q, later, split, each, refused.notSettled, refused, rfl⟩

theorem resolvesInTurn (outside : Surroundings σ) {vdag : Definition} (valid : vdag.validate = .ok ())
    (r : MemoryRegistry) (s : σ) :
    Resolved outside.search vdag (outside.search.inquiries vdag.nodes s) (on (resolve outside.search vdag) s).1
      ((resolve Paused.processor.search vdag).run.asked outside (r, s)) := by
  have valid := Definition.validateOk.mp valid
  exact (nodesInTurn outside valid.resolvable valid.distinct .empty r s).courseResolved valid

def sampleMixed : Definition where
  name := "mixed"
  version := ⟨"1", "a"⟩
  discoveryTags := []
  controller := .null
  nodes :=
    [⟨⟨"A"⟩, .vdag, none, none, none, none, some ⟨"b1"⟩, ⟨.empty, .empty, .empty, []⟩⟩,
     ⟨⟨"B"⟩, .unspecified, none, some ⟨"one", .null⟩, none, none, none, ⟨.empty, .empty, .empty, []⟩⟩,
     ⟨⟨"S"⟩, .vdag, some ⟨"leaf:1-a"⟩, none, none, none, none, ⟨.empty, .empty, .empty, []⟩⟩,
     ⟨⟨"C"⟩, .block, none, some ⟨"two", .null⟩, none, none, none, ⟨.empty, .empty, .empty, []⟩⟩,
     ⟨⟨"D"⟩, .block, none, some ⟨"none", .null⟩, none, none, none, ⟨.empty, .empty, .empty, []⟩⟩]
  graph := .empty
  status := .pending
  assignment := .empty
  compiled := none

def sampleTable : MemorySearch := .ofBlocks (.ofList [("one", [⟨"b2"⟩]), ("two", [⟨"b3"⟩, ⟨"b4"⟩])])

def sampleSearches : Surroundings MemorySearch := ⟨MemorySearch.service, AddressBook.service ⟨.empty, none⟩⟩

theorem sampleResolved : sampleMixed.validate = .ok () ∧
    Resolved sampleSearches.search sampleMixed (sampleSearches.search.inquiries sampleMixed.nodes sampleTable)
      (.error (.assignment "C" "mixed:1-a" (.severalMatches "two" 2)))
      [.search ⟨"one", .null⟩, .search ⟨"two", .null⟩] := by
  have valid : sampleMixed.validate = .ok () := by decide +kernel
  have stopped : (on (resolve sampleSearches.search sampleMixed) sampleTable).1 =
      .error (.assignment "C" "mixed:1-a" (.severalMatches "two" 2)) := by decide +kernel
  have asked : (resolve Paused.processor.search sampleMixed).run.asked sampleSearches (.empty, sampleTable) =
      [.search ⟨"one", .null⟩, .search ⟨"two", .null⟩] := by rfl
  have resolved := resolvesInTurn sampleSearches valid .empty sampleTable
  rw [stopped, asked] at resolved
  exact ⟨valid, resolved⟩

end Assignment

end Vdag
