import Vdag.Document.Vdag
import Vdag.Proofs.Json.Keeping
import Vdag.Proofs.Routing

/-! Documents written as values and read again. Every record is listed in key order, which is not the order of its
fields; and what a document that was read can be made of. -/
namespace Vdag
open Json

namespace Json

theorem ofMapId (map : Members) : Value.ofMap id map = .object map.entries :=
  congrArg Value.object (List.map_id' map.entries)

theorem valuesReread (list : List Value) : Source.listOf Source.any (.value (.array list)) = .ok list := by
  have each (v : Value) : Source.any (.value (id v)) = .ok v := rfl
  have read := listReread each list
  rwa [List.map_id] at read

theorem membersReread (map : Members) : NodeDocument.memberMap (.value (.ofMap id map)) = .ok map :=
  mapReread (fun _ => rfl) map

theorem stringsReread (texts : List String) : Source.listOf Source.string (.value (.strings texts)) = .ok texts :=
  listReread (fun _ => rfl) texts

theorem optionalReread {α : Type} {read : Source → Reading α} {f : α → Value} (each : ∀ a, read (.value (f a)) = .ok a)
    (present : ∀ a, (Source.value (f a)).isNull = false) (found : Option α) :
    Source.optional read (.value ((found.map f).getD .null)) = .ok found := by
  cases found with
  | none => rfl
  | some a =>
    rw [Option.map_some, Option.getD_some, Source.optional, present, each]
    rfl

end Json

namespace Version

theorem toJsonFields (v : Version) :
    v.toJson = .object [("release-tag", .string v.releaseTag), ("version", .string v.version)] := by
  have order : ["release-tag", "version"].Pairwise KeyOrder.Before := by decide +kernel
  exact congrArg Value.object (SortedMap.ofListSorted order (by simp) (by simp))

theorem readPrinted (v : Version) : Version.read (.value v.toJson) = .ok v := by
  rw [toJsonFields]
  rfl

end Version

namespace NodeDocument

theorem toJsonFields (d : NodeDocument) : d.toJson = .object [
    ("IOMap", .array d.ioMap), ("assignmentPolicyRule", .ofMap id d.assignmentRule),
    ("inputProtocol", .ofMap id d.inputProtocol), ("manualBlockId", .string d.manualBlockId),
    ("modelParameters", .ofMap id d.modelParameters), ("nodeLabel", .string d.nodeLabel),
    ("nodeType", .string d.nodeKind),
    ("outputProtocol", .ofMap id d.outputProtocol), ("postprocessingPolicyRule", .ofMap id d.postprocessingRule),
    ("preprocessingPolicyRule", .ofMap id d.preprocessingRule), ("vdagURI", .string d.vdagUri)] := by
  have order : ["IOMap", "assignmentPolicyRule", "inputProtocol", "manualBlockId", "modelParameters", "nodeLabel",
      "nodeType", "outputProtocol", "postprocessingPolicyRule", "preprocessingPolicyRule",
      "vdagURI"].Pairwise KeyOrder.Before := by decide +kernel
  exact congrArg Value.object (SortedMap.ofListSorted order (by simp) (by simp))

theorem readPrinted (d : NodeDocument) : NodeDocument.read (.value d.toJson) = .ok d := by
  rw [toJsonFields]
  simp [NodeDocument.read, FieldReader.readRecord, FieldReader.readObject, Source.members, FieldReader.readMembers,
    fields, FieldReader.defaulted, Source.string, membersReread, valuesReread, bind, Except.bind]

end NodeDocument

namespace ConnectionDocument

theorem inputReread (label : String) :
    FieldReader.readRecord [inputField] "" (.value (inputJson label)) = .ok label := rfl

theorem toJsonFields (d : ConnectionDocument) :
    d.toJson = .object [("inputs", .array (d.inputs.map inputJson)), ("nodeLabel", .string d.node)] := by
  have order : ["inputs", "nodeLabel"].Pairwise KeyOrder.Before := by decide +kernel
  exact congrArg Value.object (SortedMap.ofListSorted order (by simp) (by simp))

theorem readPrinted (d : ConnectionDocument) : ConnectionDocument.read (.value d.toJson) = .ok d := by
  rw [toJsonFields]
  simp [ConnectionDocument.read, FieldReader.readRecord, FieldReader.readObject, Source.members,
    FieldReader.readMembers,
    fields, FieldReader.defaulted, FieldReader.mandatory, Source.string, listReread inputReread, bind, Except.bind]

end ConnectionDocument

theorem FieldReader.readMembersAppend {ρ : Type} (fields : List (FieldReader ρ))
    (other : String → Source → ρ → Reading ρ)
    (first later : List (Option String × Source)) (seen : List String) (record : ρ) :
    FieldReader.readMembers fields other (first ++ later) seen record = (do
      let (seen, record) ← FieldReader.readMembers fields other first seen record
      FieldReader.readMembers fields other later seen record) := by
  induction first generalizing seen record with
  | nil => rfl
  | cons entry rest ih =>
    obtain ⟨key, source⟩ := entry
    cases key with
    | none => rfl
    | some key =>
      rw [List.cons_append, FieldReader.readMembers, FieldReader.readMembers]
      cases fields.find? (fun field => field.name == key) with
      | none => simp only [ih, bind_assoc]
      | some field =>
        dsimp only
        split
        · rfl
        · simp only [ih, bind_assoc]

theorem FieldReader.readObjectOf {ρ : Type} {fields : List (FieldReader ρ)} {other : String → Source → ρ → Reading ρ}
    {source : Source} {members : List (Option String × Source)} (listed : source.members = .ok members)
    {blank record : ρ}
    {seen : List String} (read : FieldReader.readMembers fields other members [] blank = .ok (seen, record)) :
    FieldReader.readObject fields other blank source =
      if fields.all (fun field => !field.required || field.name ∈ seen) then .ok record else .error .unfit := by
  rw [FieldReader.readObject, listed]
  simp only [bind, Except.bind]
  rw [read]

namespace LogicalGraphDocument

theorem extrasRead {entries : List (String × Value)} (other : ∀ entry ∈ entries, entry.1 ≠ "connections")
    (seen : List String) (graph : LogicalGraphDocument) :
    FieldReader.readMembers [connectionsField] keepExtra (entries.map (fun entry => (some entry.1, .value entry.2)))
        seen graph =
      .ok (seen, { graph with extra := entries.foldl (fun map entry => map.insert entry.1 entry.2) graph.extra }) := by
  induction entries generalizing graph with
  | nil => rfl
  | cons entry rest ih =>
    obtain ⟨first, later⟩ := List.forall_mem_cons.mp other
    have strange : [connectionsField].find? (fun field => field.name == entry.1) = none :=
      List.find?_eq_none.mpr (fun field member => by
        rw [List.mem_singleton.mp member, beq_iff_eq]
        exact fun same => first same.symm)
    rw [List.map_cons, FieldReader.readMembers, strange]
    exact ih later { graph with extra := graph.extra.insert entry.1 entry.2 }

theorem connectionsRead (connections : List ConnectionDocument) (graph : LogicalGraphDocument) :
    connectionsField.read (.value (.array (connections.map ConnectionDocument.toJson))) graph =
      .ok { graph with connections } := by
  change (do .ok { graph with connections := ← Source.listOf ConnectionDocument.read _ }) = _
  rw [listReread ConnectionDocument.readPrinted]
  rfl

theorem readPrinted (graph : LogicalGraphDocument) (apart : graph.extra.find? "connections" = none) :
    LogicalGraphDocument.read (.value graph.toJson) = .ok graph := by
  obtain ⟨before, after, whole, inserted⟩ :=
    SortedMap.insertBetween (.array (graph.connections.map ConnectionDocument.toJson)) apart
  obtain ⟨first, last⟩ := List.forall_mem_append.mp (whole ▸ SortedMap.keyUnlisted apart)
  have printed : graph.toJson =
      .object (before ++ ("connections", .array (graph.connections.map ConnectionDocument.toJson)) :: after) := by
    rw [toJson, ofMapId, inserted]
  have extra : (before ++ after).foldl (fun map entry => map.insert entry.1 entry.2) .empty = graph.extra := by
    rw [← whole]
    exact SortedMap.ofListEntries graph.extra
  rw [List.foldl_append] at extra
  have read : FieldReader.readMembers [connectionsField] keepExtra ((before ++ ("connections",
      .array (graph.connections.map ConnectionDocument.toJson)) :: after).map
        (fun entry => (some entry.1, .value entry.2))) [] .empty = .ok (["connections"], graph) := by
    have named : [connectionsField].find? (fun field => field.name == "connections") = some connectionsField := rfl
    rw [List.map_append, FieldReader.readMembersAppend, extrasRead first, List.map_cons]
    simp only [bind, Except.bind]
    rw [FieldReader.readMembers, named]
    dsimp only
    rw [if_neg List.not_mem_nil, connectionsRead]
    simp only [bind, Except.bind]
    rw [extrasRead last]
    exact congrArg (fun extra => Except.ok (["connections"], LogicalGraphDocument.mk graph.connections extra)) extra
  rw [printed, LogicalGraphDocument.read, FieldReader.readObjectOf rfl read]
  rfl

end LogicalGraphDocument

namespace CompiledDocument

theorem toJsonFields (d : CompiledDocument) : d.toJson = .object [
    ("head", .string d.head), ("rev_mapping", .ofMap .string d.labels), ("t2_graph", .ofMap Value.strings d.blockGraph),
    ("t3_graph", (d.physicalGraph.map PhysicalGraph.toJson).getD .null), ("tail", .strings d.tail)] := by
  have order : ["head", "rev_mapping", "t2_graph", "t3_graph", "tail"].Pairwise KeyOrder.Before := by decide +kernel
  exact congrArg Value.object (SortedMap.ofListSorted order (by simp) (by simp))

theorem readPrinted (d : CompiledDocument) : CompiledDocument.read (.value d.toJson) = .ok d := by
  have labels : Source.mapOf Source.string (.value (.ofMap .string d.labels)) = .ok d.labels :=
    mapReread (fun _ => rfl) d.labels
  have blocks := mapReread stringsReread d.blockGraph
  have addresses := optionalReread PhysicalGraph.readPrinted (fun _ => rfl) d.physicalGraph
  rw [toJsonFields]
  simp [CompiledDocument.read, FieldReader.readRecord, FieldReader.readObject, Source.members, FieldReader.readMembers,
    fields, FieldReader.defaulted, FieldReader.mandatory, Source.string, labels, blocks, addresses, stringsReread, bind,
    Except.bind]

end CompiledDocument

namespace VdagDocument

theorem toJsonFields (d : VdagDocument) : d.toJson = .object [
    ("assignment_info", .ofMap .string d.assignment),
    ("compiled_graph_data", (d.compiled.map CompiledDocument.toJson).getD .null), ("controller", d.controller),
    ("discoveryTags", .strings d.discoveryTags), ("graph", d.graph.toJson),
    ("nodes", .array (d.nodes.map NodeDocument.toJson)), ("status", .string d.status), ("vdagURI", .string d.uri),
    ("vdag_name", .string d.name), ("vdag_version", d.version.toJson)] := by
  have order : ["assignment_info", "compiled_graph_data", "controller", "discoveryTags", "graph", "nodes", "status",
      "vdagURI", "vdag_name", "vdag_version"].Pairwise KeyOrder.Before := by decide +kernel
  exact congrArg Value.object (SortedMap.ofListSorted order (by simp) (by simp))

theorem readPrinted (d : VdagDocument) (apart : d.graph.extra.find? "connections" = none) :
    readValue VdagDocument.read d.toJson = .ok d := by
  have assignment : Source.mapOf Source.string (.value (.ofMap .string d.assignment)) = .ok d.assignment :=
    mapReread (fun _ => rfl) d.assignment
  have compiled := optionalReread CompiledDocument.readPrinted (fun _ => rfl) d.compiled
  have nodes := listReread NodeDocument.readPrinted d.nodes
  have graph := d.graph.readPrinted apart
  have controller : Source.any (.value d.controller) = .ok d.controller := rfl
  rw [toJsonFields]
  simp [readValue, VdagDocument.read, FieldReader.readRecord, FieldReader.readObject, Source.members,
    FieldReader.readMembers, fields, FieldReader.defaulted, Source.string, Version.readPrinted, stringsReread,
    assignment, compiled, nodes, graph, controller, bind, Except.bind]

end VdagDocument

section Read

def orderedMembers (members : Members) : Prop := ∀ entry ∈ members.entries, entry.2.ordered = true

instance (members : Members) : Decidable (orderedMembers members) :=
  inferInstanceAs (Decidable (∀ entry ∈ members.entries, entry.2.ordered = true))

theorem orderedInsert {members : Members} (ordered : orderedMembers members) (key : String) {value : Value}
    (added : value.ordered = true) : orderedMembers (members.insert key value) :=
  @insertKept Value (·.ordered = true) _ ordered key _ added

theorem keepsMembers : Keeps orderedMembers NodeDocument.memberMap := keepsMap keepsAny

structure NodeDocument.Orderly (d : NodeDocument) : Prop where
  assignmentRule : orderedMembers d.assignmentRule
  preprocessingRule : orderedMembers d.preprocessingRule
  postprocessingRule : orderedMembers d.postprocessingRule
  modelParameters : orderedMembers d.modelParameters
  outputProtocol : orderedMembers d.outputProtocol
  inputProtocol : orderedMembers d.inputProtocol
  ioMap : ∀ value ∈ d.ioMap, value.ordered = true

instance (d : NodeDocument) : Decidable d.Orderly :=
  decidable_of_iff ((∀ members ∈ [d.assignmentRule, d.preprocessingRule, d.postprocessingRule, d.modelParameters,
      d.outputProtocol, d.inputProtocol], orderedMembers members) ∧ ∀ value ∈ d.ioMap, value.ordered = true) (by
    simp only [List.forall_mem_cons]
    exact ⟨fun ⟨⟨a, b, c, d, e, f, _⟩, values⟩ => ⟨a, b, c, d, e, f, values⟩,
      fun orderly => ⟨⟨orderly.assignmentRule, orderly.preprocessingRule, orderly.postprocessingRule,
        orderly.modelParameters, orderly.outputProtocol, orderly.inputProtocol, List.forall_mem_nil _⟩, orderly.ioMap⟩⟩)

theorem NodeDocument.readOrderly : Keeps NodeDocument.Orderly NodeDocument.read := by
  refine readRecordKeeps ?_ ⟨nofun, nofun, nofun, nofun, nofun, nofun, nofun⟩
  simp only [fields, List.forall_mem_cons]
  exact ⟨defaultedSafe keepsNothing (fun _ _ kept _ => { kept with }) _,
    defaultedSafe keepsNothing (fun _ _ kept _ => { kept with }) _,
    defaultedSafe keepsNothing (fun _ _ kept _ => { kept with }) _,
    defaultedSafe keepsMembers (fun _ _ kept assignmentRule => { kept with assignmentRule }) _,
    defaultedSafe keepsMembers (fun _ _ kept preprocessingRule => { kept with preprocessingRule }) _,
    defaultedSafe keepsMembers (fun _ _ kept postprocessingRule => { kept with postprocessingRule }) _,
    defaultedSafe keepsMembers (fun _ _ kept modelParameters => { kept with modelParameters }) _,
    defaultedSafe keepsMembers (fun _ _ kept outputProtocol => { kept with outputProtocol }) _,
    defaultedSafe keepsMembers (fun _ _ kept inputProtocol => { kept with inputProtocol }) _,
    defaultedSafe (keepsList keepsAny) (fun _ _ kept ioMap => { kept with ioMap }) _,
    defaultedSafe keepsNothing (fun _ _ kept _ => { kept with }) _, List.forall_mem_nil _⟩

theorem NodeDocument.Orderly.orderedPrinted {d : NodeDocument} (orderly : d.Orderly) : d.toJson.ordered = true := by
  refine orderedRecord ?_
  simp only [List.forall_mem_cons]
  exact ⟨rfl, rfl, rfl, orderedMap orderly.assignmentRule, orderedMap orderly.preprocessingRule,
    orderedMap orderly.postprocessingRule, orderedMap orderly.modelParameters, orderedMap orderly.outputProtocol,
    orderedMap orderly.inputProtocol, orderedArray.mpr orderly.ioMap, rfl, List.forall_mem_nil _⟩

structure LogicalGraphDocument.Orderly (graph : LogicalGraphDocument) : Prop where
  extra : orderedMembers graph.extra
  apart : graph.extra.find? "connections" = none

instance (graph : LogicalGraphDocument) : Decidable graph.Orderly :=
  decidable_of_iff (orderedMembers graph.extra ∧ graph.extra.find? "connections" = none)
    ⟨fun ⟨extra, apart⟩ => ⟨extra, apart⟩, fun orderly => ⟨orderly.extra, orderly.apart⟩⟩

theorem LogicalGraphDocument.readOrderly : Keeps LogicalGraphDocument.Orderly LogicalGraphDocument.read := by
  refine readObjectKeeps (P := LogicalGraphDocument.Orderly) ?_ ?_ ⟨nofun, rfl⟩
  · simp only [List.forall_mem_cons]
    exact ⟨defaultedSafe keepsNothing (fun _ _ kept _ => { kept with }) _, List.forall_mem_nil _⟩
  · intro key strange source sound before kept after ok
    obtain ⟨value, got, same⟩ := Outcome.bindOk.mp ok
    cases same
    refine ⟨orderedInsert kept.extra key (keepsAny source sound value got), ?_⟩
    have other : "connections" ≠ key := strange connectionsField List.mem_cons_self
    exact (SortedMap.findInsertOther _ _ other).trans kept.apart

theorem LogicalGraphDocument.Orderly.orderedPrinted {graph : LogicalGraphDocument} (orderly : graph.Orderly) :
    graph.toJson.ordered = true := by
  refine orderedMap (orderedInsert orderly.extra _ (orderedList (fun connection _ => orderedRecord ?_)))
  simp only [List.forall_mem_cons]
  refine ⟨rfl, orderedList (fun label _ => orderedRecord ?_), List.forall_mem_nil _⟩
  simp only [List.forall_mem_cons]
  exact ⟨rfl, List.forall_mem_nil _⟩

theorem CompiledDocument.printedOrderly (d : CompiledDocument) : d.toJson.ordered = true := by
  have addresses : ((d.physicalGraph.map PhysicalGraph.toJson).getD .null).ordered = true := by
    cases d.physicalGraph with
    | none => rfl
    | some graph => exact graph.plainPrinted.shapeOfPlain.1
  refine orderedRecord ?_
  simp only [List.forall_mem_cons]
  exact ⟨rfl, orderedList (fun _ _ => rfl), orderedMap (fun _ _ => orderedList (fun _ _ => rfl)), addresses,
    orderedMap (fun _ _ => rfl), List.forall_mem_nil _⟩

structure VdagDocument.Orderly (d : VdagDocument) : Prop where
  controller : d.controller.ordered = true
  nodes : ∀ node ∈ d.nodes, node.Orderly
  graph : d.graph.Orderly

instance (d : VdagDocument) : Decidable d.Orderly :=
  decidable_of_iff (d.controller.ordered = true ∧ (∀ node ∈ d.nodes, node.Orderly) ∧ d.graph.Orderly)
    ⟨fun ⟨controller, nodes, graph⟩ => ⟨controller, nodes, graph⟩,
      fun orderly => ⟨orderly.controller, orderly.nodes, orderly.graph⟩⟩

theorem VdagDocument.readOrderly : Keeps VdagDocument.Orderly VdagDocument.read := by
  refine readRecordKeeps ?_ ⟨rfl, nofun, ⟨nofun, rfl⟩⟩
  simp only [fields, List.forall_mem_cons]
  exact ⟨defaultedSafe keepsNothing (fun _ _ kept _ => { kept with }) _,
    defaultedSafe keepsNothing (fun _ _ kept _ => { kept with }) _,
    defaultedSafe keepsNothing (fun _ _ kept _ => { kept with }) _,
    defaultedSafe keepsNothing (fun _ _ kept _ => { kept with }) _,
    defaultedSafe keepsAny (fun _ _ kept controller => { kept with controller }) _,
    defaultedSafe (keepsList NodeDocument.readOrderly) (fun _ _ kept nodes => { kept with nodes }) _,
    defaultedSafe LogicalGraphDocument.readOrderly (fun _ _ kept graph => { kept with graph }) _,
    defaultedSafe keepsNothing (fun _ _ kept _ => { kept with }) _,
    defaultedSafe keepsNothing (fun _ _ kept _ => { kept with }) _,
    defaultedSafe keepsNothing (fun _ _ kept _ => { kept with }) _, List.forall_mem_nil _⟩

theorem VdagDocument.Orderly.orderedPrinted {d : VdagDocument} (orderly : d.Orderly) : d.toJson.ordered = true := by
  have compiled : ((d.compiled.map CompiledDocument.toJson).getD .null).ordered = true := by
    cases d.compiled with
    | none => rfl
    | some compiled => exact compiled.printedOrderly
  refine orderedRecord ?_
  simp only [List.forall_mem_cons]
  refine ⟨rfl, orderedRecord ?_, rfl, orderedList (fun _ _ => rfl), orderly.controller,
    orderedList (fun node member => (orderly.nodes node member).orderedPrinted), orderly.graph.orderedPrinted,
    orderedMap (fun _ _ => rfl), rfl, compiled, List.forall_mem_nil _⟩
  simp only [List.forall_mem_cons]
  exact ⟨rfl, rfl, List.forall_mem_nil _⟩

end Read

end Vdag
