import Vdag.BlockGraph.Basic
import Vdag.Proofs.SortedMap

/-! Adjacency maps as graphs: which edges and which blocks each construction step adds. -/
namespace Vdag.Adjacency

def targets (adjacency : Adjacency) (block : BlockId) : List BlockId := (adjacency.find? block).getD []

def Edge (adjacency : Adjacency) (source sink : BlockId) : Prop := sink ∈ adjacency.targets source

structure WellFormed (adjacency : Adjacency) : Prop where
  closed : ∀ {source sink}, adjacency.Edge source sink → sink ∈ adjacency.keys
  distinct : ∀ block, (adjacency.targets block).Nodup

def Closed (adjacency : Adjacency) : Prop := ∀ source sink, adjacency.Edge source sink → sink ∈ adjacency.keys

theorem WellFormed.isClosed {adjacency : Adjacency} (ok : adjacency.WellFormed) : adjacency.Closed :=
  fun _ _ => ok.closed

theorem edgeOfEntry {adjacency : Adjacency} {block sinks} (entry : (block, sinks) ∈ adjacency.entries) :
    adjacency.targets block = sinks := by
  rw [targets, (SortedMap.findSomeIff adjacency).mpr entry, Option.getD_some]

theorem edgeIff {adjacency : Adjacency} {source sink : BlockId} :
    adjacency.Edge source sink ↔ ∃ sinks, (source, sinks) ∈ adjacency.entries ∧ sink ∈ sinks := by
  constructor
  · intro edge
    cases found : adjacency.find? source with
    | none => simp [Edge, targets, found] at edge
    | some sinks =>
      rw [Edge, targets, found] at edge
      exact ⟨sinks, (SortedMap.findSomeIff adjacency).mp found, edge⟩
  · intro given
    obtain ⟨sinks, entry, member⟩ := given
    rwa [Edge, edgeOfEntry entry]

theorem edgeSource {adjacency : Adjacency} {source sink : BlockId} (edge : adjacency.Edge source sink) :
    source ∈ adjacency.keys := by
  obtain ⟨sinks, entry, _⟩ := edgeIff.mp edge
  exact List.mem_map.mpr ⟨(source, sinks), entry, rfl⟩

theorem emptyEdge {source sink : BlockId} : ¬ Edge .empty source sink := by
  simp [Edge, targets]

theorem wellFormedEmpty : WellFormed .empty :=
  ⟨fun edge => absurd edge emptyEdge, fun block => by simp [targets]⟩

theorem targetsAddBlock (adjacency : Adjacency) (added block : BlockId) :
    (adjacency.addBlock added).targets block = adjacency.targets block := by
  rw [targets, addBlock, SortedMap.findModify]
  split
  · subst block; rfl
  · rfl

theorem keysAddBlock {adjacency : Adjacency} {added block : BlockId} :
    block ∈ (adjacency.addBlock added).keys ↔ block ∈ adjacency.keys ∨ block = added := by
  rw [SortedMap.memKeys, SortedMap.memKeys, addBlock, SortedMap.findModify]
  by_cases same : block = added <;> simp [same]

theorem edgeAddBlock {adjacency : Adjacency} {added source sink : BlockId} :
    (adjacency.addBlock added).Edge source sink ↔ adjacency.Edge source sink := by
  rw [Edge, targetsAddBlock, Edge]

theorem targetsAddEdge (adjacency : Adjacency) (source sink block : BlockId) :
    (adjacency.addEdge source sink).targets block =
      if block = source then
        if sink ∈ adjacency.targets source then adjacency.targets source else adjacency.targets source ++ [sink]
      else adjacency.targets block := by
  have before : ((adjacency.addBlock sink).find? source).getD [] = adjacency.targets source :=
    targetsAddBlock adjacency sink source
  rw [targets, addEdge, SortedMap.findModify, before]
  split
  · rw [Option.getD_some]
  · exact targetsAddBlock adjacency sink block

theorem keysAddEdge {adjacency : Adjacency} {source sink block : BlockId} :
    block ∈ (adjacency.addEdge source sink).keys ↔ block ∈ adjacency.keys ∨ block = source ∨ block = sink := by
  have before := @keysAddBlock adjacency sink block
  rw [SortedMap.memKeys] at before ⊢
  rw [addEdge, SortedMap.findModify]
  by_cases same : block = source
  · simp [same]
  · simpa [same] using before

theorem edgeAddEdge {adjacency : Adjacency} {source sink a b : BlockId} :
    (adjacency.addEdge source sink).Edge a b ↔ adjacency.Edge a b ∨ a = source ∧ b = sink := by
  rw [Edge, targetsAddEdge]
  by_cases same : a = source
  · subst a
    by_cases known : sink ∈ adjacency.targets source
    · rw [if_pos rfl, if_pos known]
      exact ⟨.inl, fun h => h.elim id (fun h => h.2 ▸ known)⟩
    · rw [if_pos rfl, if_neg known, List.mem_append, List.mem_singleton]
      simp [Edge]
  · simp [same, Edge]

theorem WellFormed.addBlock {adjacency : Adjacency} (ok : adjacency.WellFormed) (block : BlockId) :
    (adjacency.addBlock block).WellFormed where
  closed edge := keysAddBlock.mpr (.inl (ok.closed (edgeAddBlock.mp edge)))
  distinct other := by rw [targetsAddBlock]; exact ok.distinct other

theorem WellFormed.addEdge {adjacency : Adjacency} (ok : adjacency.WellFormed) (source sink : BlockId) :
    (adjacency.addEdge source sink).WellFormed where
  closed edge := by
    rcases edgeAddEdge.mp edge with old | ⟨_, rfl⟩
    · exact keysAddEdge.mpr (.inl (ok.closed old))
    · exact keysAddEdge.mpr (.inr (.inr rfl))
  distinct block := by
    rw [targetsAddEdge]
    split
    · split
      · exact ok.distinct source
      · rename_i fresh
        exact List.nodup_append.mpr ⟨ok.distinct source, List.nodup_singleton sink, fun x member y last same =>
          fresh (List.mem_singleton.mp last ▸ same ▸ member)⟩
    · exact ok.distinct block

def addEdges (adjacency : Adjacency) (source : BlockId) (sinks : List BlockId) : Adjacency :=
  sinks.foldl (fun found sink => found.addEdge source sink) adjacency

theorem edgeAddEdges {adjacency : Adjacency} {source : BlockId} {sinks : List BlockId} {a b : BlockId} :
    (adjacency.addEdges source sinks).Edge a b ↔ adjacency.Edge a b ∨ a = source ∧ b ∈ sinks := by
  induction sinks generalizing adjacency with
  | nil => simp [addEdges]
  | cons sink rest ih =>
    have step := @ih (adjacency.addEdge source sink)
    rw [edgeAddEdge, or_assoc, ← and_or_left, ← List.mem_cons] at step
    exact step

theorem keysAddEdges {adjacency : Adjacency} {source : BlockId} {sinks : List BlockId} {block : BlockId} :
    block ∈ ((adjacency.addEdges source sinks).addBlock source).keys ↔
      block ∈ adjacency.keys ∨ block = source ∨ block ∈ sinks := by
  induction sinks generalizing adjacency with
  | nil => simp [addEdges, keysAddBlock]
  | cons sink rest ih =>
    have step := @ih (adjacency.addEdge source sink)
    rw [keysAddEdge] at step
    refine step.trans ?_
    rw [List.mem_cons]
    tauto

theorem WellFormed.addEdges {adjacency : Adjacency} (ok : adjacency.WellFormed) (source : BlockId)
    (sinks : List BlockId) : (adjacency.addEdges source sinks).WellFormed := by
  induction sinks generalizing adjacency with
  | nil => exact ok
  | cons sink rest ih => exact ih (ok.addEdge source sink)

def absorbEntries (adjacency : Adjacency) (entries : List (BlockId × List BlockId)) : Adjacency :=
  entries.foldl (fun found entry => (found.addEdges entry.1 entry.2).addBlock entry.1) adjacency

theorem edgeAbsorbEntries {adjacency : Adjacency} {entries : List (BlockId × List BlockId)} {a b : BlockId} :
    (adjacency.absorbEntries entries).Edge a b ↔
      adjacency.Edge a b ∨ ∃ sinks, (a, sinks) ∈ entries ∧ b ∈ sinks := by
  induction entries generalizing adjacency with
  | nil => simp [absorbEntries]
  | cons entry rest ih =>
    have step := @ih ((adjacency.addEdges entry.1 entry.2).addBlock entry.1)
    rw [edgeAddBlock, edgeAddEdges, or_assoc] at step
    refine step.trans (or_congr_right ?_)
    obtain ⟨source, sinks⟩ := entry
    simp [or_and_right, exists_or]

theorem keysAbsorbEntries {adjacency : Adjacency} {entries : List (BlockId × List BlockId)} {block : BlockId} :
    block ∈ (adjacency.absorbEntries entries).keys ↔
      block ∈ adjacency.keys ∨ ∃ entry ∈ entries, block = entry.1 ∨ block ∈ entry.2 := by
  induction entries generalizing adjacency with
  | nil => simp [absorbEntries]
  | cons entry rest ih =>
    have step := @ih ((adjacency.addEdges entry.1 entry.2).addBlock entry.1)
    rw [keysAddEdges, or_assoc] at step
    refine step.trans (or_congr_right ?_)
    simp

theorem WellFormed.wellFormedAbsorb {adjacency : Adjacency} (ok : adjacency.WellFormed) (other : Adjacency) :
    (adjacency.absorb other).WellFormed := by
  suffices ∀ entries, (adjacency.absorbEntries entries).WellFormed from this other.entries
  intro entries
  induction entries generalizing adjacency with
  | nil => exact ok
  | cons entry rest ih => exact ih ((ok.addEdges entry.1 entry.2).addBlock entry.1)

theorem edgeAbsorb {adjacency other : Adjacency} {a b : BlockId} :
    (adjacency.absorb other).Edge a b ↔ adjacency.Edge a b ∨ other.Edge a b :=
  edgeAbsorbEntries.trans (or_congr_right edgeIff.symm)

theorem keysAbsorb {adjacency other : Adjacency} (closed : other.WellFormed) {block : BlockId} :
    block ∈ (adjacency.absorb other).keys ↔ block ∈ adjacency.keys ∨ block ∈ other.keys := by
  refine keysAbsorbEntries.trans (or_congr_right ⟨?_, fun key => ?_⟩)
  · intro given
    obtain ⟨⟨source, sinks⟩, entry, same | sink⟩ := given
    · exact List.mem_map.mpr ⟨(source, sinks), entry, same.symm⟩
    · exact closed.closed (edgeIff.mpr ⟨sinks, entry, sink⟩)
  · obtain ⟨entry, member, rfl⟩ := List.mem_map.mp key
    exact ⟨entry, member, .inl rfl⟩

end Vdag.Adjacency
