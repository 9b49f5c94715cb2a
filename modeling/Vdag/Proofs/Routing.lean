import Vdag.Proofs.Json.RoundTrip
import Vdag.Router

/-! A graph of addresses survives its way through the output pointer of a packet, and gives a block the hops it has in
it. -/
namespace Vdag
open Json

namespace Json

theorem listReread {α : Type} {read : Source → Reading α} {f : α → Value} (each : ∀ a, read (.value (f a)) = .ok a)
    (list : List α) : Source.listOf read (.value (.array (list.map f))) = .ok list := by
  rw [Source.listOf, Source.items]
  simp only [List.map_map, bind, Except.bind]
  induction list with
  | nil => rfl
  | cons a rest ih =>
    rw [List.map_cons, List.mapM_cons, ih]
    simp only [Function.comp_apply, each, bind, Except.bind]
    rfl

theorem entriesReread {α : Type} {read : Source → Reading α} {f : α → Value} (each : ∀ a, read (.value (f a)) = .ok a)
    (list : List (String × α)) (found : SortedMap String α) :
    Source.readEntries read (list.map (fun entry => (some entry.1, .value (f entry.2)))) found =
      .ok (list.foldl (fun map entry => map.insert entry.1 entry.2) found) := by
  induction list generalizing found with
  | nil => rfl
  | cons entry rest ih =>
    rw [List.map_cons, Source.readEntries, each]
    exact ih (found.insert entry.1 entry.2)

theorem mapReread {α : Type} {read : Source → Reading α} {f : α → Value} (each : ∀ a, read (.value (f a)) = .ok a)
    (map : SortedMap String α) : Source.mapOf read (.value (.ofMap f map)) = .ok map := by
  have reread := entriesReread each map.entries .empty
  rw [← SortedMap.ofList, SortedMap.ofListEntries] at reread
  rw [Source.mapOf, Value.ofMap, Source.members]
  simp only [SortedMap.mapValues, List.map_map, bind, Except.bind]
  exact reread

theorem word16Reread (n : UInt16) : Source.word16 (.value (.ofNat n.toNat)) = .ok n := by
  have small := n.toNat_lt
  have fits : -0x8000000000000000 ≤ (n.toNat : Int) ∧ (n.toNat : Int) < 0x10000000000000000 := by omega
  have number : Value.ofNat n.toNat = .number (.integer n.toNat fits) := by
    rw [Value.ofNat, Number.ofNat, Number.ofInt, dif_pos fits]
  have inside : (0 : Int) ≤ n.toNat ∧ (n.toNat : Int) ≤ 0xffff := by omega
  rw [number, Source.word16, Source.integer, Source.number]
  simp [bind, Except.bind, inside]

end Json

namespace Destination

/- The port is left open here, so that nothing is computed with the bounds of numbers. -/
theorem readsFields (host queue : String) {port : Value} {number : UInt16}
    (read : Source.word16 (.value port) = .ok number) :
    Destination.read (.value (.object [("host", .string host), ("port", port), ("queue_name", .string queue)])) =
      .ok ⟨host, number, queue, none⟩ := by
  simp [Destination.read, FieldReader.readRecord, FieldReader.readObject, Source.members, FieldReader.readMembers,
    Destination.fields, FieldReader.defaulted, Source.string, read, bind, Except.bind]

theorem readsBlock (host queue block : String) {port : Value} {number : UInt16}
    (read : Source.word16 (.value port) = .ok number) :
    Destination.read (.value (.object [("block_id", .string block), ("host", .string host), ("port", port),
      ("queue_name", .string queue)])) = .ok ⟨host, number, queue, some block⟩ := by
  simp [Destination.read, FieldReader.readRecord, FieldReader.readObject, Source.members, FieldReader.readMembers,
    Destination.fields, FieldReader.defaulted, Source.optional, Source.isNull, Source.string, read, bind, Except.bind]

theorem toJsonFields (d : Destination) :
    d.toJson = .object (d.block.toList.map (fun block => ("block_id", .string block)) ++
    [("host", .string d.host), ("port", .ofNat d.port.toNat), ("queue_name", .string d.queue)]) := by
  have order : ["block_id", "host", "port", "queue_name"].Pairwise KeyOrder.Before := by decide +kernel
  obtain ⟨host, port, queue, block⟩ := d
  cases block with
  | none => exact congrArg Value.object (SortedMap.ofListAscending order.tail)
  | some block => exact congrArg Value.object (SortedMap.ofListFirst (Value.string block) order)

theorem readPrinted (d : Destination) : Destination.read (.value d.toJson) = .ok d := by
  rw [toJsonFields]
  obtain ⟨host, port, queue, block⟩ := d
  cases block with
  | none => exact readsFields host queue (word16Reread port)
  | some block => exact readsBlock host queue block (word16Reread port)

theorem plainPrinted (d : Destination) : Plain 1 d.toJson := by
  refine plainRecord (fun entry member => ?_)
  have small := d.port.toNat_lt
  simp only [List.mem_append, List.mem_cons, List.not_mem_nil, or_false, List.mem_map] at member
  rcases member with (rfl | rfl | rfl) | ⟨block, _, rfl⟩
  · exact .string 0 _
  · exact plainNat (by omega)
  · exact .string 0 _
  · exact .string 0 _

end Destination

namespace PhysicalGraph

theorem outputsReread (outputs : List Destination) :
    FieldReader.readRecord [outputsField] [] (.value (.record [("outputs", listJson outputs)])) = .ok outputs := by
  have read := listReread Destination.readPrinted outputs
  have single : Value.record [("outputs", listJson outputs)] = .object [("outputs", listJson outputs)] := rfl
  rw [single]
  simp [FieldReader.readRecord, FieldReader.readObject, Source.members, FieldReader.readMembers, outputsField,
    FieldReader.defaulted, listJson, read, bind, Except.bind]

theorem readPrinted (graph : PhysicalGraph) : readValue PhysicalGraph.read graph.toJson = .ok graph := by
  rw [readValue, PhysicalGraph.read, toJson, mapReread outputsReread]
  rfl

theorem listPlain (outputs : List Destination) : Plain 2 (listJson outputs) := by
  refine .array (fun item listed => ?_)
  obtain ⟨d, _, rfl⟩ := List.mem_map.mp listed
  exact d.plainPrinted

theorem plainPrinted (graph : PhysicalGraph) : Plain 4 graph.toJson :=
  plainMap (fun entry _ => plainRecord (fun _ member => List.mem_singleton.mp member ▸ listPlain entry.2))

end PhysicalGraph

namespace Route

theorem envelopeRecord (value : Value) :
    Value.record [("is_graph", .bool true), ("graph", value)] =
    .object [("graph", value), ("is_graph", .bool true)] := by
  have order : ["graph", "is_graph"].Pairwise KeyOrder.Before := by decide +kernel
  have single : Value.record [("is_graph", .bool true), ("graph", value)] =
      .object (SortedMap.ofList ([("is_graph", .bool true)] ++ [("graph", value)])).entries := rfl
  rw [single, SortedMap.ofListFirst value order]

theorem ofEnvelope (addresses : PhysicalGraph) :
    ofValue (.object [("graph", addresses.toJson), ("is_graph", .bool true)]) = .ok (.graph addresses) := by
  have marked : Value.member? (.object [("graph", addresses.toJson), ("is_graph", .bool true)]) "is_graph" =
      some (.bool true) := by simp [Value.member?]
  have inner : Value.member? (.object [("graph", addresses.toJson), ("is_graph", .bool true)]) "graph" =
      some addresses.toJson := by simp [Value.member?]
  rw [ofValue, if_pos marked, inner]
  dsimp only
  rw [PhysicalGraph.readPrinted]
  rfl

theorem envelopeVisible (members : List (String × Value)) : Text.isBlank (Value.object members).render = false := by
  simp [Text.isBlank, Value.render, Value.chars, Text.isBlankChar]

theorem parseObject {members : List (String × Value)} (plain : Plain nestingLimit (.object members)) :
    parse (Value.object members).render = ofValue (.object members) := by
  rw [parse, envelopeVisible, plain.renderReread]
  rfl

theorem parseGraph (addresses : PhysicalGraph) : parse (Route.graph addresses).pointer = .ok (.graph addresses) := by
  have plain : Plain 5 (.record [("is_graph", .bool true), ("graph", addresses.toJson)]) := by
    refine plainRecord (fun entry member => ?_)
    simp only [List.mem_cons, List.not_mem_nil, or_false] at member
    rcases member with rfl | rfl
    · exact .bool 4 true
    · exact addresses.plainPrinted
  rw [envelopeRecord] at plain
  rw [pointer, envelopeRecord, parseObject (plain.mono (by decide))]
  exact ofEnvelope addresses

theorem ofOutputs (outputs : List Destination) :
    ofValue (.object [("outputs", PhysicalGraph.listJson outputs)]) = .ok (.direct outputs) := by
  have unmarked : Value.member? (.object [("outputs", PhysicalGraph.listJson outputs)]) "is_graph" ≠ some
    (.bool true) := by
    simp [Value.member?]
  have listed : outputsOf (.object [("outputs", PhysicalGraph.listJson outputs)]) =
    .ok (PhysicalGraph.listJson outputs) := by
    simp [outputsOf, Value.member?]
  have reread : readValue (Source.listOf Destination.read) (PhysicalGraph.listJson outputs) = .ok outputs :=
    listReread Destination.readPrinted outputs
  rw [ofValue, if_neg unmarked, listed]
  change (ofReading _ (readValue _ _) >>= _) = _
  rw [reread]
  rfl

theorem parseDirect (outputs : List Destination) : parse (Route.direct outputs).pointer = .ok (.direct outputs) := by
  have plain : Plain 3 (.record [("outputs", PhysicalGraph.listJson outputs)]) :=
    plainRecord (fun entry member => List.mem_singleton.mp member ▸ PhysicalGraph.listPlain outputs)
  have single : Value.record [("outputs", PhysicalGraph.listJson outputs)] =
      .object [("outputs", PhysicalGraph.listJson outputs)] := rfl
  rw [single] at plain
  rw [pointer, single, parseObject (plain.mono (by decide))]
  exact ofOutputs outputs

/- No kind of envelope is taken for another, whatever stands in it. -/
theorem parsePointer (route : Route) : parse route.pointer = .ok route := by
  cases route with
  | adhoc => rfl
  | graph addresses => exact parseGraph addresses
  | direct outputs => exact parseDirect outputs

example : parse "\x7b\"outputs\":[]\x7d" = .ok (.direct []) := by decide +kernel

end Route

theorem PhysicalGraph.hopsFinal {addresses : PhysicalGraph} {block : BlockId} {outputs sink : List Destination}
    (listed : addresses.find? block.text = some outputs) (named : block.text ≠ finalKey) (somewhere : sink ≠ []) :
    (addresses.withFinal sink).hops block = .ok (if outputs = [] then sink else outputs) := by
  have kept : (addresses.withFinal sink).find? block.text = some outputs :=
    (SortedMap.findInsertOther _ _ named).trans listed
  have final : (addresses.withFinal sink).final? = some sink := SortedMap.findInsertSelf _ _ _
  rw [hops, kept]
  cases outputs with
  | cons output others => rfl
  | nil =>
    rw [final]
    cases sink with
    | nil => exact absurd rfl somewhere
    | cons output others => rfl

theorem nextHopsGraph {block : BlockId} {packet : Packet} {addresses : PhysicalGraph} {destinations : List Destination}
    (carried : packet.outputPointer = (Route.graph addresses).pointer)
    (hops : addresses.hops block = .ok destinations) : nextHops block packet = .ok (some destinations) := by
  rw [nextHops, carried, Route.parseGraph]
  change (addresses.hops block >>= _) = _
  rw [hops]
  rfl

end Vdag
