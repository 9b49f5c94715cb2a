import Vdag.Document.Vdag
import Vdag.Proofs.Outcome
import Vdag.Proofs.SortedMap
import Vdag.Proofs.Text

/-! What becomes of a document that is read into a vDAG and written out again: its normal form, in which rules have
their two members, addresses are there and the URI is the derived one. A normal form is read as the same vDAG. -/
namespace Vdag
open Json

section Fields

variable {ρ α β : Type} {fields : List (FieldReader ρ)} {get : ρ → α} {read : Source → Reading α} {name : String}

def Json.FieldReader.Serves (field : FieldReader ρ) (name : String) (read : Source → Reading α) (get : ρ → α) : Prop :=
  ∀ source before after, field.read source before = .ok after →
    if field.name = name then read source = .ok (get after) else get after = get before

theorem Json.FieldReader.servesOwn {put : ρ → α → ρ} (stands : ∀ record value, get (put record value) = value) :
    (FieldReader.defaulted name read put).Serves name read get := by
  intro source before after ok
  obtain ⟨value, found, ok⟩ := Outcome.bindOk.mp ok
  cases ok
  rw [FieldReader.defaulted, if_pos rfl, stands, found]

theorem Json.FieldReader.servesOther {other : String} {readOther : Source → Reading β} {put : ρ → β → ρ}
    (apart : other ≠ name) (stays : ∀ record value, get (put record value) = get record) :
    (FieldReader.defaulted other readOther put).Serves name read get := by
  intro source before after ok
  obtain ⟨value, found, ok⟩ := Outcome.bindOk.mp ok
  cases ok
  rw [FieldReader.defaulted, if_neg apart, stays]

/- One part of a record is read from the member of that name and no other. -/
structure Json.FieldReader.Feeds (fields : List (FieldReader ρ)) (name : String) (read : Source → Reading α)
    (get : ρ → α) : Prop where
  known : name ∈ fields.map FieldReader.name
  each : ∀ field ∈ fields, field.Serves name read get

namespace Json.FieldReader.Feeds

variable (feeds : FieldReader.Feeds fields name read get)
include feeds

theorem readsHead {key : String} {source : Source} {rest : List (Option String × Source)} {seen : List String}
    {before : ρ} {result : List String × ρ}
    (ok : readMembers fields ignore ((some key, source) :: rest) seen before = .ok result) :
    ∃ seen next, readMembers fields ignore rest seen next = .ok result ∧
      if key = name then read source = .ok (get next) else get next = get before := by
  rw [readMembers] at ok
  cases named : fields.find? (fun field => field.name == key) with
  | none =>
    have strange : key ≠ name := by
      obtain ⟨field, member, rfl⟩ := List.mem_map.mp feeds.known
      exact fun same => List.find?_eq_none.mp named field member (beq_iff_eq.mpr same.symm)
    rw [named] at ok
    exact ⟨seen, before, ok, (if_neg strange).mpr rfl⟩
  | some field =>
    have called : field.name = key := beq_iff_eq.mp (List.find?_some named :)
    rw [named] at ok
    dsimp only at ok
    split at ok
    · cases ok
    · obtain ⟨next, got, ok⟩ := Outcome.bindOk.mp ok
      have served := feeds.each field (List.mem_of_find?_eq_some named) _ _ _ got
      rw [called] at served
      exact ⟨key :: seen, next, ok, served⟩

theorem readsMember {entries : List (String × Value)} (unique : (entries.map Prod.fst).Nodup) {seen : List String}
    {before : ρ} {result : List String × ρ}
    (ok : readMembers fields ignore (entries.map (fun entry => (some entry.1, .value entry.2))) seen before =
    .ok result) : (∀ value, (name, value) ∈ entries → read (.value value) = .ok (get result.2)) ∧
      ((∀ entry ∈ entries, entry.1 ≠ name) → get result.2 = get before) := by
  induction entries generalizing seen before with
  | nil =>
    cases ok
    exact ⟨nofun, fun _ => rfl⟩
  | cons entry rest ih =>
    obtain ⟨apart, unique⟩ := List.nodup_cons.mp unique
    obtain ⟨seen, next, ok, served⟩ := feeds.readsHead ok
    obtain ⟨inside, outside⟩ := ih unique ok
    refine ⟨fun value listed => ?_, fun absent => ?_⟩
    · rcases List.mem_cons.mp listed with rfl | listed
      · rw [if_pos rfl] at served
        rw [outside (fun other member same => apart (List.mem_map.mpr ⟨other, member, same⟩))]
        exact served
      · exact inside value listed
    · obtain ⟨first, absent⟩ := List.forall_mem_cons.mp absent
      rw [if_neg first] at served
      exact (outside absent).trans served

end Json.FieldReader.Feeds

end Fields

theorem Json.Source.stringOk {value : Value} {text : String} (ok : Source.string (.value value) = .ok text) :
    value = .string text := by
  unfold Source.string at ok
  split at ok
  · rename_i same
    cases same
  · rename_i same
    cases same
    cases ok
    rfl
  · cases ok

theorem Json.Reading.outcomeOk {α : Type} {reading : Reading α} {value : α} (ok : reading.outcome = .ok value) :
    reading = .ok value := by
  unfold Reading.outcome at ok
  split at ok
  · cases ok
    rfl
  · cases ok

namespace PolicyRule

def normalMembers (members : Members) : Members :=
  if members.isEmpty then members
  else .ofList [("policyRuleURI", (members.find? "policyRuleURI").getD (.string "")),
    ("parameters", (members.find? "parameters").getD .null)]

theorem membersEntries (rule : PolicyRule) :
    rule.members.entries = [("parameters", rule.parameters), ("policyRuleURI", .string rule.uri)] := by
  have order : ["parameters", "policyRuleURI"].Pairwise KeyOrder.Before := by decide +kernel
  exact SortedMap.ofListSorted order (by simp) (by simp)

theorem ofMembersOf (rule? : Option PolicyRule) : ofMembers (membersOf rule?) = .ok rule? := by
  cases rule? with
  | none => rfl
  | some rule =>
    have filled : rule.members.isEmpty = false := by rw [SortedMap.isEmpty, membersEntries]; rfl
    rw [membersOf, ofMembers, filled, membersEntries]
    rfl

theorem uriField : FieldReader.Feeds fields "policyRuleURI" Source.string uri where
  known := by simp [fields, FieldReader.defaulted]
  each := by
    simp only [fields, List.forall_mem_cons]
    exact ⟨FieldReader.servesOwn (fun _ _ => rfl), FieldReader.servesOther (by decide) (fun _ _ => rfl), nofun⟩

theorem parametersField : FieldReader.Feeds fields "parameters" Source.any parameters where
  known := by simp [fields, FieldReader.defaulted]
  each := by
    simp only [fields, List.forall_mem_cons]
    exact ⟨FieldReader.servesOther (by decide) (fun _ _ => rfl), FieldReader.servesOwn (fun _ _ => rfl), nofun⟩

theorem memberPrinted {α : Type} {get : PolicyRule → α} {read : Source → Reading α} {name : String} {members : Members}
    {rule : PolicyRule} (feeds : FieldReader.Feeds fields name read get) (print : α → Value)
    (printed : ∀ {value part}, read (.value value) = .ok part → value = print part)
    (ok : readValue PolicyRule.read (.object members.entries) = .ok rule) :
    (members.find? name).getD (print (get ⟨"", .null⟩)) = print (get rule) := by
  have ok : FieldReader.readObject fields FieldReader.ignore ⟨"", .null⟩ (.value (.object members.entries)) =
    .ok rule := ok
  unfold FieldReader.readObject at ok
  obtain ⟨listed, taken, ok⟩ := Outcome.bindOk.mp ok
  cases taken
  obtain ⟨⟨seen, record⟩, taken, ok⟩ := Outcome.bindOk.mp ok
  obtain ⟨inside, outside⟩ := feeds.readsMember members.keysNodup taken
  have same : record = rule := by
    dsimp only at ok
    split at ok
    · exact Except.ok.inj ok
    · cases ok
  subst same
  cases found : members.find? name with
  | some value => exact printed (inside value (members.findSomeIff.mp found))
  | none => exact congrArg print (outside (SortedMap.keyUnlisted found)).symm

theorem ofMembersNormal {members : Members} {rule? : Option PolicyRule} (ok : ofMembers members = .ok rule?) :
    membersOf rule? = normalMembers members := by
  unfold ofMembers at ok
  unfold normalMembers
  split at ok
  · rename_i none
    cases ok
    rw [if_pos none]
    exact SortedMap.ext (List.isEmpty_iff.mp none).symm
  · rename_i filled
    rw [if_neg filled]
    obtain ⟨rule, given, rfl⟩ := Outcome.mapOk.mp ok
    have read := Reading.outcomeOk given
    have uri : (members.find? "policyRuleURI").getD (.string "") = .string rule.uri :=
      memberPrinted uriField Value.string Source.stringOk read
    have parameters : (members.find? "parameters").getD .null = rule.parameters :=
      memberPrinted parametersField id Except.ok.inj read
    rw [uri, parameters]
    rfl

end PolicyRule

theorem Id.writtenText {kind : IdKind} (text : String) :
    ((ofNonEmpty? text : Option (Id kind)).map Id.text).getD "" = text := by
  unfold ofNonEmpty?
  split
  · rename_i empty
    exact (String.isEmpty_iff.mp empty).symm
  · rfl

theorem Id.textsWritten {kind : IdKind} (texts : List String) :
    (texts.map (fun text => (⟨text⟩ : Id kind))).map Id.text = texts := by
  rw [List.map_map]
  exact List.map_id texts

theorem Id.textsReread {kind : IdKind} (ids : List (Id kind)) : (ids.map Id.text).map (fun text => ⟨text⟩) = ids := by
  rw [List.map_map]
  exact List.map_id ids

theorem Node.kindWritten {text : String} {kind : NodeKind} (ok : kindOf text = .ok kind) : kind.text = text := by
  unfold kindOf at ok
  split at ok
  · rename_i found
    cases ok
    simpa using List.find?_some found
  · cases ok

theorem Node.kindReread (kind : NodeKind) : kindOf kind.text = .ok kind := by cases kind <;> rfl

theorem Definition.statusWritten {text : String} {status : VdagStatus} (ok : statusOf text = .ok status) :
    status.text = text := by
  unfold statusOf at ok
  split at ok
  · rename_i found
    cases ok
    simpa using List.find?_some found
  · cases ok

theorem Definition.statusReread (status : VdagStatus) : statusOf status.text = .ok status := by cases status <;> rfl

theorem Target.textOfText (text : String) : (ofText text).text = text := by
  unfold ofText
  split
  · rename_i uri marked
    exact (Text.dropFrontIff.mp marked).symm
  · rfl

def NodeDocument.normal (d : NodeDocument) : NodeDocument := { d with
  assignmentRule := PolicyRule.normalMembers d.assignmentRule
  preprocessingRule := PolicyRule.normalMembers d.preprocessingRule
  postprocessingRule := PolicyRule.normalMembers d.postprocessingRule }

namespace Node

structure Source (d : NodeDocument) (node : Node) : Prop where
  kind : kindOf d.nodeKind = .ok node.kind
  assignmentRule : PolicyRule.ofMembers d.assignmentRule = .ok node.assignmentRule
  preprocessingRule : PolicyRule.ofMembers d.preprocessingRule = .ok node.preprocessingRule
  postprocessingRule : PolicyRule.ofMembers d.postprocessingRule = .ok node.postprocessingRule
  others : node = { node with
    label := ⟨d.nodeLabel⟩, embedded := Id.ofNonEmpty? d.vdagUri, manualBlock := Id.ofNonEmpty? d.manualBlockId,
    extras := ⟨d.modelParameters, d.outputProtocol, d.inputProtocol, d.ioMap⟩ }

theorem sourceIff {d : NodeDocument} {node : Node} : ofDocument d = .ok node ↔ Source d node := by
  unfold ofDocument
  constructor
  · intro ok
    obtain ⟨kind, kindRead, ok⟩ := Outcome.bindOk.mp ok
    obtain ⟨assignmentRule, first, ok⟩ := Outcome.bindOk.mp ok
    obtain ⟨preprocessingRule, second, ok⟩ := Outcome.bindOk.mp ok
    obtain ⟨postprocessingRule, third, ok⟩ := Outcome.bindOk.mp ok
    cases ok
    exact ⟨kindRead, first, second, third, rfl⟩
  · intro source
    rw [source.kind, source.assignmentRule, source.preprocessingRule, source.postprocessingRule, source.others]
    rfl

theorem toDocumentNormal {d : NodeDocument} {node : Node} (source : Source d node) : node.toDocument = d.normal := by
  rw [source.others]
  simp only [toDocument, NodeDocument.normal, kindWritten source.kind, Id.writtenText,
    PolicyRule.ofMembersNormal source.assignmentRule, PolicyRule.ofMembersNormal source.preprocessingRule,
    PolicyRule.ofMembersNormal source.postprocessingRule]

theorem sourceToDocument {d : NodeDocument} {node : Node} (source : Source d node) : Source node.toDocument node where
  kind := kindReread node.kind
  assignmentRule := PolicyRule.ofMembersOf node.assignmentRule
  preprocessingRule := PolicyRule.ofMembersOf node.preprocessingRule
  postprocessingRule := PolicyRule.ofMembersOf node.postprocessingRule
  others := by
    rw [source.others]
    simp only [toDocument, Id.writtenText]

end Node

theorem Connection.toDocumentOfDocument (d : ConnectionDocument) : (ofDocument d).toDocument = d := by
  rw [toDocument, ofDocument, Id.textsWritten]

theorem Connection.ofDocumentToDocument (c : Connection) : ofDocument c.toDocument = c := by
  rw [ofDocument, toDocument, Id.textsReread]

theorem LogicalGraph.toDocumentOfDocument (d : LogicalGraphDocument) : (ofDocument d).toDocument = d := by
  simp [toDocument, ofDocument, Connection.toDocumentOfDocument, Function.comp_def]

theorem LogicalGraph.ofDocumentToDocument (graph : LogicalGraph) : ofDocument graph.toDocument = graph := by
  simp [ofDocument, toDocument, Connection.ofDocumentToDocument, Function.comp_def]

theorem Assignment.textsOfTexts (texts : SortedMap String String) : (ofTexts texts).texts = texts :=
  (SortedMap.ofListRelisted texts (fun label => (⟨label⟩ : NodeLabel)) Id.text Target.ofText Target.text
  (fun _ _ => rfl)).trans
    (SortedMap.mapValuesSame.mpr (fun entry _ => Target.textOfText entry.2))

theorem Adjacency.textsOfTexts (texts : SortedMap String (List String)) : (ofTexts texts).texts = texts :=
  (SortedMap.ofListRelisted texts (fun block => (⟨block⟩ : BlockId)) Id.text
    (fun sinks => sinks.map (fun block => (⟨block⟩ : BlockId))) (fun sinks => sinks.map Id.text) (fun _ _ => rfl)).trans
    (SortedMap.mapValuesSame.mpr (fun entry _ => Id.textsWritten entry.2))

theorem Adjacency.ofTextsTexts (adjacency : Adjacency) : ofTexts adjacency.texts = adjacency :=
  (SortedMap.ofListRelisted adjacency Id.text (fun block => (⟨block⟩ : BlockId)) (fun sinks => sinks.map Id.text)
    (fun sinks => sinks.map (fun block => (⟨block⟩ : BlockId))) (fun _ _ => rfl)).trans
    (SortedMap.mapValuesSame.mpr (fun entry _ => Id.textsReread entry.2))

def CompiledDocument.normal (d : CompiledDocument) : CompiledDocument :=
  { d with physicalGraph := some (d.physicalGraph.getD .empty) }

namespace CompiledGraph

theorem labelsWritten (d : CompiledDocument) :
    SortedMap.ofList ((ofDocument d).labels.entries.map (fun entry => (entry.1.text, entry.2.text))) = d.labels :=
  (SortedMap.ofListRelisted d.labels Target.ofText Target.text (fun label => (⟨label⟩ : NodeLabel)) Id.text
    (fun entry _ => Target.textOfText entry.1)).trans (SortedMap.mapValuesSame.mpr (fun _ _ => rfl))

theorem toDocumentOfDocument (d : CompiledDocument) : (ofDocument d).toDocument = d.normal := by
  rw [toDocument, labelsWritten]
  simp only [ofDocument, CompiledDocument.normal, Id.textsWritten, Adjacency.textsOfTexts]

theorem ofDocumentToDocument (compiled : CompiledGraph) :
    ofDocument compiled.toDocument = { compiled with labels := (ofDocument compiled.toDocument).labels } := by
  simp only [ofDocument, toDocument, Id.textsReread, Adjacency.ofTextsTexts, Option.getD_some]

theorem normalReread (d : CompiledDocument) : ofDocument d.normal = ofDocument d := rfl

end CompiledGraph

def VdagDocument.normal (d : VdagDocument) : VdagDocument := { d with
  uri := uriText d.name d.version.version d.version.releaseTag
  nodes := d.nodes.map NodeDocument.normal
  compiled := d.compiled.map CompiledDocument.normal }

namespace Definition

structure Source (d : VdagDocument) (vdag : Definition) : Prop where
  nodes : List.Forall₂ Node.Source d.nodes vdag.nodes
  status : statusOf d.status = .ok vdag.status
  others : vdag = { vdag with
    name := d.name, version := d.version, discoveryTags := d.discoveryTags, controller := d.controller,
    graph := .ofDocument d.graph, assignment := .ofTexts d.assignment, compiled := d.compiled.map .ofDocument }

theorem sourceIff {d : VdagDocument} {vdag : Definition} : ofDocument d = .ok vdag ↔ Source d vdag := by
  unfold ofDocument
  constructor
  · intro ok
    obtain ⟨nodes, each, ok⟩ := Outcome.bindOk.mp ok
    obtain ⟨status, found, ok⟩ := Outcome.bindOk.mp ok
    cases ok
    exact ⟨(Outcome.mapMEach each).imp (fun _ _ => Node.sourceIff.mp), found, rfl⟩
  · intro source
    rw [Outcome.mapMOf (source.nodes.imp (fun _ _ => Node.sourceIff.mpr)), source.status, source.others]
    rfl

theorem toDocumentNormal {d : VdagDocument} {vdag : Definition} (source : Source d vdag) :
    vdag.toDocument = d.normal := by
  have nodes : d.nodes.map NodeDocument.normal = vdag.nodes.map Node.toDocument :=
    List.forall₂_eq_eq_eq ▸ List.forall₂_map_left_iff.mpr (List.forall₂_map_right_iff.mpr
      (source.nodes.imp (fun _ _ node => (Node.toDocumentNormal node).symm)))
  rw [VdagDocument.normal, nodes, source.others]
  simp [toDocument, uriText, LogicalGraph.toDocumentOfDocument, Assignment.textsOfTexts, statusWritten source.status,
    CompiledGraph.toDocumentOfDocument, Function.comp_def]

theorem nodesReread {documents : List NodeDocument} {nodes : List Node}
    (each : List.Forall₂ Node.Source documents nodes) : List.Forall₂ Node.Source (nodes.map Node.toDocument) nodes := by
  induction each with
  | nil => exact .nil
  | cons first _ ih => exact .cons (Node.sourceToDocument first) ih

theorem sourceToDocument {d : VdagDocument} {vdag : Definition} (source : Source d vdag) (record : Definition)
    (nodes : record.nodes = vdag.nodes) :
    Source record.toDocument { record with
      assignment := .ofTexts record.assignment.texts
      compiled := record.compiled.map (fun compiled => .ofDocument compiled.toDocument) } where
  nodes := by
    show List.Forall₂ _ (record.nodes.map Node.toDocument) record.nodes
    rw [nodes]
    exact nodesReread source.nodes
  status := statusReread record.status
  others := by
    simp [toDocument, LogicalGraph.ofDocumentToDocument, Function.comp_def]

/- What is read is written in normal form, and read again it is the same: a document loses nothing but what its
normal form does not have. -/
theorem normalForm {d : VdagDocument} {vdag : Definition} (ok : ofDocument d = .ok vdag) :
    vdag.toDocument = d.normal ∧ ofDocument vdag.toDocument = .ok vdag ∧ d.normal.normal = d.normal := by
  have source := sourceIff.mp ok
  have written := toDocumentNormal source
  have same : { vdag with
      assignment := .ofTexts vdag.assignment.texts
      compiled := vdag.compiled.map (fun compiled => .ofDocument compiled.toDocument) } = vdag := by
    rw [source.others]
    simp [Assignment.textsOfTexts, CompiledGraph.toDocumentOfDocument, CompiledGraph.normalReread, Function.comp_def]
  have again := sourceToDocument source vdag rfl
  rw [same] at again
  exact ⟨written, sourceIff.mpr again, by rw [← written, ← toDocumentNormal again]⟩

def sampleLoose : VdagDocument := { VdagDocument.blank with
  name := "flow"
  version := ⟨"1", "a"⟩
  uri := "elsewhere"
  nodes := [{ NodeDocument.blank with
    nodeLabel := "A"
    preprocessingRule := .ofList [("policyRuleURI", .string "p"), ("note", .bool true)]
    manualBlockId := "b" }]
  compiled := some ⟨"b", ["b"], .ofList [("b", [])], none, .ofList [("b", "A")]⟩ }

theorem sampleNormalForm : ∃ vdag, ofDocument sampleLoose = .ok vdag ∧ vdag.toDocument = sampleLoose.normal ∧
    ofDocument vdag.toDocument = .ok vdag ∧ sampleLoose.normal.normal = sampleLoose.normal := by
  obtain ⟨vdag, ok⟩ : ∃ vdag, ofDocument sampleLoose = .ok vdag := ⟨_, rfl⟩
  exact ⟨vdag, ok, normalForm ok⟩

end Definition

end Vdag
