import Vdag.Ingress
import Vdag.Proofs.Routing

/-! The first packet of a session, as the blocks of the graph read it. The sink travels with the graph as its entry
`final`, so that a block of this name finds the sink where its own outputs were. -/
namespace Vdag

namespace PhysicalGraph

def onward (outputs sink : List Destination) : List Destination := if outputs = [] then sink else outputs

def planned (block : BlockId) : List Destination → Outcome (Option (List Destination))
  | [] => .error (.routing (.deadEnd block))
  | destination :: others => .ok (some (destination :: others))

variable {addresses : PhysicalGraph} {block : BlockId} {outputs sink : List Destination}

theorem plannedOnce {a b : List Destination} (same : planned block a = planned block b) : a = b := by
  cases a with
  | nil =>
    cases b with
    | nil => rfl
    | cons first others => cases same
  | cons first others =>
    cases b with
    | nil => cases same
    | cons second more =>
      cases same
      rfl

theorem onwardSink : onward sink sink = sink := by
  rw [onward]
  split
  · rfl
  · rfl

theorem sinkOnward : sink = onward outputs sink ↔ outputs = [] ∨ outputs = sink := by
  rw [onward]
  split
  · rename_i none
    exact ⟨fun _ => .inl none, fun _ => rfl⟩
  · rename_i some
    exact ⟨fun same => .inr same.symm, fun given => (given.resolve_left some).symm⟩

theorem findSunk (listed : addresses.find? block.text = some outputs) :
    (addresses.withFinal sink).find? block.text = some (if block.text = finalKey then sink else outputs) := by
  rw [find?, withFinal, insert, SortedMap.findInsert]
  split
  · rfl
  · exact listed

theorem hopsSunk {own : List Destination} (found : (addresses.withFinal sink).find? block.text = some own) :
    (do return some (← (addresses.withFinal sink).hops block)) = planned block (onward own sink) := by
  have final : (addresses.withFinal sink).final? = some sink := SortedMap.findInsertSelf _ _ _
  rw [hops, found, onward]
  cases own with
  | cons output others => rfl
  | nil =>
    rw [final]
    cases sink with
    | nil => rfl
    | cons output others => rfl

end PhysicalGraph

open PhysicalGraph

variable {compiled : CompiledGraph} {uri : VdagUri} {session data : String} {sink outputs : List Destination}
  {timestamp : Binary64} {block : BlockId}

theorem sunkHops (listed : compiled.addresses.find? block.text = some outputs) :
    nextHops block (compiled.entry uri session data sink timestamp).packet =
      planned block (onward (if block.text = finalKey then sink else outputs) sink) := by
  have carried : (compiled.entry uri session data sink timestamp).packet.outputPointer =
      (Route.graph (compiled.addresses.withFinal sink)).pointer := rfl
  rw [nextHops, carried, Route.parseGraph]
  exact hopsSunk (findSunk listed)

/- A block plans its own outputs, or else the sink, unless it is called `final` and its outputs differ from the sink. -/
theorem entryHops (listed : compiled.addresses.find? block.text = some outputs) :
    nextHops block (compiled.entry uri session data sink timestamp).packet = planned block (onward outputs sink) ↔
      (block.text = finalKey → outputs = [] ∨ outputs = sink) := by
  rw [sunkHops listed]
  constructor
  · intro same named
    have sunk := plannedOnce same
    rw [if_pos named, onwardSink] at sunk
    exact sinkOnward.mp sunk
  · intro apart
    split
    · rename_i named
      rw [onwardSink, ← sinkOnward.mpr (apart named)]
    · rfl

def sampleHead : BlockId := ⟨"read"⟩

def sampleCompiled : CompiledGraph where
  blocks := ⟨sampleHead, [⟨finalKey⟩], .ofList [(sampleHead, [⟨finalKey⟩]), (⟨finalKey⟩, [])]⟩
  addresses := ⟨.ofList [("read", [{ queue := "final_inputs" }]), (finalKey, [{ queue := "ARCHIVE" }])]⟩
  labels := .empty

def sampleSink : List Destination := [{ host := "sink" }]

theorem sampleHeadHops :
    sampleCompiled.addresses.find? sampleHead.text = some [{ queue := "final_inputs" }] ∧
      nextHops sampleHead (sampleCompiled.entry ⟨"flow"⟩ "s-1" "data" sampleSink ⟨0⟩).packet =
        .ok (some [{ queue := "final_inputs" }]) := by
  have listed : sampleCompiled.addresses.find? sampleHead.text = some [{ queue := "final_inputs" }] := by decide +kernel
  exact ⟨listed, (entryHops listed).mpr (fun named => absurd named (by decide))⟩

theorem finalOutputsLost :
    sampleCompiled.addresses.find? finalKey = some [{ queue := "ARCHIVE" }] ∧
      nextHops ⟨finalKey⟩ (sampleCompiled.entry ⟨"flow"⟩ "s-1" "data" sampleSink ⟨0⟩).packet = .ok (some sampleSink) ∧
        sampleSink ≠ [{ queue := "ARCHIVE" }] := by
  have listed : sampleCompiled.addresses.find? (⟨finalKey⟩ : BlockId).text = some [{ queue := "ARCHIVE" }] := by
    decide +kernel
  exact ⟨listed, sunkHops listed, by decide⟩

end Vdag
