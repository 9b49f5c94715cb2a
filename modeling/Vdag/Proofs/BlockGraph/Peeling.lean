import Mathlib.Data.List.Count
import Vdag.Proofs.BlockGraph.Edges

/-! Peeling takes exactly the blocks that no infinite way backwards starts from. The invariant: each count is the
number of listed edges from blocks not yet taken, and what is ready is what has none and has not been taken. -/
namespace Vdag

namespace Adjacency

def Listed (adjacency : Adjacency) (block : BlockId) : Prop :=
  block ∈ adjacency.keys ∨ block ∈ adjacency.values.flatten

instance (adjacency : Adjacency) (block : BlockId) : Decidable (adjacency.Listed block) := by
  unfold Listed; infer_instance

theorem memFlatten {adjacency : Adjacency} {block : BlockId} :
    block ∈ adjacency.values.flatten ↔ ∃ source, adjacency.Edge source block := by
  rw [List.mem_flatten, SortedMap.values]
  constructor
  · intro given
    obtain ⟨sinks, list, member⟩ := given
    obtain ⟨⟨source, sinks⟩, entry, rfl⟩ := List.mem_map.mp list
    exact ⟨source, edgeIff.mpr ⟨sinks, entry, member⟩⟩
  · intro given
    obtain ⟨source, edge⟩ := given
    obtain ⟨sinks, entry, member⟩ := edgeIff.mp edge
    exact ⟨sinks, List.mem_map.mpr ⟨(source, sinks), entry, rfl⟩, member⟩

theorem edgeListed {adjacency : Adjacency} {source sink : BlockId} (edge : adjacency.Edge source sink) :
    adjacency.Listed source ∧ adjacency.Listed sink :=
  ⟨.inl (edgeSource edge), .inr (memFlatten.mpr ⟨source, edge⟩)⟩

theorem Closed.listedIffKey {adjacency : Adjacency} (closed : adjacency.Closed) {block : BlockId} :
    adjacency.Listed block ↔ block ∈ adjacency.keys := by
  refine ⟨fun listed => listed.elim id (fun member => ?_), .inl⟩
  obtain ⟨source, edge⟩ := memFlatten.mp member
  exact closed source block edge

def openEdges (taken : List BlockId) : List (BlockId × List BlockId) → BlockId → Nat
  | [], _ => 0
  | entry :: rest, block => (if entry.1 ∈ taken then 0 else entry.2.count block) + openEdges taken rest block

theorem openEdgesSkip {taken : List BlockId} {entries : List (BlockId × List BlockId)} {block : BlockId}
    (absent : block ∉ entries.map Prod.fst) (sink : BlockId) :
    openEdges (block :: taken) entries sink = openEdges taken entries sink := by
  induction entries with
  | nil => rfl
  | cons entry rest ih =>
    obtain ⟨different, absent⟩ := not_or.mp (fun h => absent (List.mem_cons.mpr h))
    simp only [openEdges, ih absent, List.mem_cons, Ne.symm different, false_or]

theorem openEdgesTake {taken : List BlockId} {entries : List (BlockId × List BlockId)} {block : BlockId}
    {sinks : List BlockId} (unique : (entries.map Prod.fst).Nodup) (entry : (block, sinks) ∈ entries)
    (fresh : block ∉ taken) (sink : BlockId) :
    openEdges taken entries sink = openEdges (block :: taken) entries sink + sinks.count sink := by
  induction entries with
  | nil => cases entry
  | cons head rest ih =>
    obtain ⟨absent, unique⟩ := List.nodup_cons.mp unique
    rcases List.mem_cons.mp entry with rfl | later
    · simp only [openEdges, openEdgesSkip absent, if_neg fresh, List.mem_cons, true_or, if_true]
      omega
    · have different : head.1 ≠ block := fun same => absent (same ▸ List.mem_map.mpr ⟨_, later, rfl⟩)
      simp only [openEdges, ih unique later, List.mem_cons, different, false_or]
      omega

theorem openEdgesTargets (adjacency : Adjacency) {taken : List BlockId} {block : BlockId} (fresh : block ∉ taken)
    (sink : BlockId) : openEdges taken adjacency.entries sink =
      openEdges (block :: taken) adjacency.entries sink + (adjacency.targets block).count sink := by
  by_cases key : block ∈ adjacency.keys
  · obtain ⟨⟨block, sinks⟩, entry, rfl⟩ := List.mem_map.mp key
    rw [edgeOfEntry entry]
    exact openEdgesTake (SortedMap.keysNodup adjacency) entry fresh sink
  · have bare : adjacency.targets block = [] := by
      cases found : adjacency.find? block with
      | none => rw [targets, found, Option.getD_none]
      | some sinks => exact absurd (SortedMap.memOfFind found) key
    rw [bare, openEdgesSkip key, List.count_nil, Nat.add_zero]

theorem openEdgesZero {adjacency : Adjacency} {taken : List BlockId} {block : BlockId} :
    openEdges taken adjacency.entries block = 0 ↔ ∀ source, adjacency.Edge source block → source ∈ taken := by
  have zero : ∀ entries : List (BlockId × List BlockId), openEdges taken entries block = 0 ↔
      ∀ entry ∈ entries, block ∈ entry.2 → entry.1 ∈ taken := by
    intro entries
    induction entries with
    | nil => simp [openEdges]
    | cons entry rest ih =>
      rw [openEdges, Nat.add_eq_zero_iff, ih, List.forall_mem_cons]
      refine and_congr_left (fun _ => ?_)
      split
      · simp [*]
      · simp [List.count_eq_zero, *]
  rw [zero]
  constructor
  · intro all source edge
    obtain ⟨sinks, entry, member⟩ := edgeIff.mp edge
    exact all _ entry member
  · intro all entry member sink
    exact all entry.1 (edgeIff.mpr ⟨entry.2, member, sink⟩)

end Adjacency

namespace Indegrees

theorem findTally (list : List BlockId) (counts : Indegrees) (block : BlockId) :
    (list.foldl (fun counts block => counts.modify block 0 (· + 1)) counts).find? block =
      if block ∈ list then some ((counts.find? block).getD 0 + list.count block) else counts.find? block := by
  induction list generalizing counts with
  | nil => rfl
  | cons head rest ih =>
    rw [List.foldl_cons, ih, SortedMap.findModify]
    by_cases same : block = head
    · subst head
      by_cases again : block ∈ rest
      · simp only [again, if_true, Option.getD_some, List.mem_cons, true_or, List.count_cons_self]
        congr 1
        omega
      · simp [again, List.count_eq_zero.mpr again]
    · have apart : (head == block) = false := by simpa using Ne.symm same
      simp [same, List.count_cons, apart]

theorem findOfAdjacency (adjacency : Adjacency) (block : BlockId) :
    (ofAdjacency adjacency).find? block =
      if adjacency.Listed block then some (Adjacency.openEdges [] adjacency.entries block) else none := by
  have total : ∀ entries : List (BlockId × List BlockId),
      Adjacency.openEdges [] entries block = (entries.map Prod.snd).flatten.count block := by
    intro entries
    induction entries with
    | nil => rfl
    | cons entry rest ih => simp [Adjacency.openEdges, ih, List.count_append]
  have key : block ∈ adjacency.keys ↔ (adjacency.find? block).isSome := SortedMap.memKeys
  rw [ofAdjacency, findTally, SortedMap.findMapValues, total]
  by_cases member : block ∈ adjacency.values.flatten
  · have listed : adjacency.Listed block := .inr member
    rw [if_pos member, if_pos listed]
    cases adjacency.find? block <;> simp [SortedMap.values]
  · have none : (adjacency.entries.map Prod.snd).flatten.count block = 0 := List.count_eq_zero.mpr member
    rw [if_neg member, none]
    cases found : adjacency.find? block <;> simp [Adjacency.Listed, key, found, member]

theorem memSources {adjacency : Adjacency} {block : BlockId} :
    block ∈ (ofAdjacency adjacency).sources ↔
      adjacency.Listed block ∧ Adjacency.openEdges [] adjacency.entries block = 0 := by
  have found := findOfAdjacency adjacency block
  rw [sources, List.mem_map]
  constructor
  · intro given
    obtain ⟨⟨block, count⟩, member, rfl⟩ := given
    obtain ⟨entry, zero⟩ := List.mem_filter.mp member
    rw [(SortedMap.findSomeIff _).mpr entry] at found
    split at found
    · rename_i listed
      exact ⟨listed, (Option.some.inj found).symm.trans (by simpa using zero)⟩
    · cases found
  · intro given
    obtain ⟨listed, zero⟩ := given
    rw [if_pos listed, zero] at found
    exact ⟨(block, 0), List.mem_filter.mpr ⟨(SortedMap.findSomeIff _).mp found, rfl⟩, rfl⟩

theorem sourcesAscending (counts : Indegrees) : counts.sources.Pairwise KeyOrder.Before :=
  SortedMap.pickedAscending counts _

theorem sourcesNodup (counts : Indegrees) : counts.sources.Nodup :=
  (sourcesAscending counts).imp KeyOrder.neOfBefore

theorem waitingAscending (counts : Indegrees) : counts.waiting.Pairwise KeyOrder.Before :=
  SortedMap.pickedAscending counts _

theorem memWaiting {counts : Indegrees} {block : BlockId} :
    block ∈ counts.waiting ↔ ∃ count, counts.find? block = some count ∧ 0 < count := by
  rw [waiting, List.mem_map]
  constructor
  · intro given
    obtain ⟨⟨block, count⟩, member, rfl⟩ := given
    obtain ⟨entry, positive⟩ := List.mem_filter.mp member
    exact ⟨count, (SortedMap.findSomeIff counts).mpr entry, by simpa using positive⟩
  · intro given
    obtain ⟨count, found, positive⟩ := given
    exact ⟨(block, count), List.mem_filter.mpr
      ⟨(SortedMap.findSomeIff counts).mp found, by simpa using positive⟩, rfl⟩

end Indegrees

namespace Peeling
open Adjacency

/- The edges of the last taken block are removed one by one, so the numbers in between belong to no set of taken
blocks; `left` stands for them. -/
structure Tracks (adjacency : Adjacency) (taken : List BlockId) (left : BlockId → Nat) (p : Peeling) : Prop where
  counts : ∀ block, p.counts.find? block = if adjacency.Listed block then some (left block) else none
  ready : ∀ block, block ∈ p.ready ↔ adjacency.Listed block ∧ left block = 0 ∧ block ∉ taken
  distinct : p.ready.Nodup
  settled : ∀ block ∈ taken, left block = 0

theorem Tracks.trackedAfterRelease {adjacency taken left p block} (tracks : Tracks adjacency taken left p)
    (listed : adjacency.Listed block) (positive : 0 < left block) :
    Tracks adjacency taken (fun other => left other - [block].count other) (p.release block) := by
  have fresh : block ∉ taken := fun member => Nat.ne_of_gt positive (tracks.settled block member)
  have waiting : block ∉ p.ready := fun member => Nat.ne_of_gt positive ((tracks.ready block).mp member).2.1
  obtain ⟨count, last⟩ : ∃ count, left block = count + 1 := ⟨left block - 1, by omega⟩
  have found : p.counts.find? block = some (count + 1) := by rw [tracks.counts, if_pos listed, last]
  have self : left block - [block].count block = count := by simp [last]
  have other : ∀ {b}, b ≠ block → left b - [block].count b = left b := by
    intro b ne
    simp [Ne.symm ne]
  simp only [Peeling.release, found]
  -- In the order of the fields: the counts, the ready blocks, that none is ready twice, and the blocks taken before.
  refine ⟨fun b => ?_, fun b => ?_, ?_, fun b member => ?_⟩
  · rw [SortedMap.findInsert]
    split
    · subst b; rw [if_pos listed, self]
    · rename_i ne
      rw [tracks.counts, other ne]
  · by_cases same : b = block
    · subst b
      rw [self]
      split <;> simp [*]
    · rw [other same]
      split
      · simpa [same] using tracks.ready b
      · exact tracks.ready b
  · split
    · exact List.nodup_cons.mpr ⟨waiting, tracks.distinct⟩
    · exact tracks.distinct
  · rw [tracks.settled b member, Nat.zero_sub]

theorem Tracks.releaseAll {adjacency taken left p} {sinks : List BlockId} (tracks : Tracks adjacency taken left p)
    (listed : ∀ sink ∈ sinks, adjacency.Listed sink) (enough : ∀ block, sinks.count block ≤ left block) :
    Tracks adjacency taken (fun block => left block - sinks.count block) (p.releaseAll sinks) := by
  induction sinks generalizing left p with
  | nil =>
    simp only [List.count_nil, Nat.sub_zero]
    exact tracks
  | cons sink rest ih =>
    have split : ∀ block, (sink :: rest).count block = [sink].count block + rest.count block := by
      intro block
      rw [← List.count_append, List.singleton_append]
    have positive : 0 < left sink := by
      have := enough sink
      rw [List.count_cons_self] at this
      omega
    have step := ih (tracks.trackedAfterRelease (listed sink List.mem_cons_self) positive)
      (fun other member => listed other (List.mem_cons_of_mem sink member))
      (fun block => by have := enough block; rw [split] at this; omega)
    simp only [Nat.sub_sub, ← split] at step
    exact step

abbrev AtRest (adjacency : Adjacency) (taken : List BlockId) (p : Peeling) : Prop :=
  Tracks adjacency taken (openEdges taken adjacency.entries) p

abbrev begun (adjacency : Adjacency) (order : List BlockId) : Peeling := ⟨order, Indegrees.ofAdjacency adjacency⟩

theorem startAtRest {adjacency : Adjacency} {order : List BlockId}
    (perm : order.Perm (Indegrees.ofAdjacency adjacency).sources) : AtRest adjacency [] (begun adjacency order) where
  counts := Indegrees.findOfAdjacency adjacency
  ready block := by simpa [perm.mem_iff] using Indegrees.memSources
  distinct := perm.nodup_iff.mpr (Indegrees.sourcesNodup _)
  settled block member := by cases member

theorem Tracks.trackedWhenOpened {adjacency taken p} {block : BlockId} {rest : List BlockId}
    (atRest : AtRest adjacency taken p) (ready : p.ready = block :: rest) :
    Tracks adjacency (block :: taken) (openEdges taken adjacency.entries) { p with ready := rest } := by
  obtain ⟨_, zero, _⟩ := (atRest.ready block).mp (ready ▸ List.mem_cons_self)
  have distinct := atRest.distinct
  rw [ready] at distinct
  obtain ⟨once, distinct⟩ := List.nodup_cons.mp distinct
  refine ⟨atRest.counts, fun other => ?_, distinct, fun other member => ?_⟩
  · have before := atRest.ready other
    rw [ready, List.mem_cons] at before
    rw [List.mem_cons, not_or]
    by_cases same : other = block
    · subst other; simp [once]
    · simpa [same] using before
  · exact (List.mem_cons.mp member).elim (fun same => same ▸ zero) (atRest.settled other)

/- No block has more edges from the one that was taken than it has edges left. -/
theorem Tracks.openEdgesSplit {adjacency taken p} {block : BlockId} {rest : List BlockId}
    (atRest : AtRest adjacency taken p)
    (ready : p.ready = block :: rest) (sink : BlockId) : openEdges taken adjacency.entries sink =
      openEdges (block :: taken) adjacency.entries sink + (adjacency.targets block).count sink :=
  openEdgesTargets adjacency ((atRest.ready block).mp (ready ▸ List.mem_cons_self)).2.2 sink

theorem Tracks.trackedPartway {adjacency taken p} {block : BlockId} {rest removed others : List BlockId}
    (atRest : AtRest adjacency taken p) (ready : p.ready = block :: rest)
    (split : adjacency.targets block = removed ++ others) :
    Tracks adjacency (block :: taken) (fun sink => openEdges taken adjacency.entries sink - removed.count sink)
      (({ p with ready := rest } : Peeling).releaseAll removed) := by
  have among : ∀ sink ∈ removed, adjacency.Edge block sink := by
    intro sink member
    rw [Edge, split]
    exact List.mem_append_left others member
  refine (Tracks.trackedWhenOpened atRest ready).releaseAll (fun sink member => (edgeListed (among sink member)).2)
    (fun sink => ?_)
  have enough := Tracks.openEdgesSplit atRest ready sink
  rw [split, List.count_append] at enough
  omega

theorem Tracks.restAfterTake {adjacency taken p} {block : BlockId} {rest : List BlockId}
    (atRest : AtRest adjacency taken p) (ready : p.ready = block :: rest) :
    AtRest adjacency (block :: taken) (({ p with ready := rest } : Peeling).releaseAll (adjacency.targets block)) := by
  have removed := Tracks.trackedPartway atRest ready (List.append_nil (adjacency.targets block)).symm
  have same : (fun sink => openEdges taken adjacency.entries sink - (adjacency.targets block).count sink) =
      openEdges (block :: taken) adjacency.entries := by
    funext sink
    rw [Tracks.openEdgesSplit atRest ready, Nat.add_sub_cancel]
  rwa [same] at removed

theorem runRest (adjacency : Adjacency) {p : Peeling} (ready : p.ready = []) : run adjacency p = ([], p.counts) := by
  rw [run]
  split
  · rfl
  · rename_i block rest found
    rw [ready] at found
    cases found

theorem runTake (adjacency : Adjacency) {p : Peeling} {block : BlockId} {rest : List BlockId}
    (ready : p.ready = block :: rest) :
    run adjacency p =
      (block :: (run adjacency (({ p with ready := rest } : Peeling).releaseAll (adjacency.targets block))).1,
        (run adjacency (({ p with ready := rest } : Peeling).releaseAll (adjacency.targets block))).2) := by
  rw [run]
  split
  · rename_i found
    rw [ready] at found
    cases found
  · rename_i head tail found
    rw [ready] at found
    cases found
    rfl

structure Taken (adjacency : Adjacency) (taken : List BlockId) : Prop where
  distinct : taken.Nodup
  listed : ∀ block ∈ taken, adjacency.Listed block
  grounded : ∀ block ∈ taken, Acc adjacency.Edge block

theorem Taken.takenAfterTake {adjacency taken p block rest} (before : Taken adjacency taken)
    (atRest : AtRest adjacency taken p) (ready : p.ready = block :: rest) : Taken adjacency (block :: taken) := by
  obtain ⟨listed, zero, fresh⟩ := (atRest.ready block).mp (ready ▸ List.mem_cons_self)
  refine ⟨List.nodup_cons.mpr ⟨fresh, before.distinct⟩, ?_, ?_⟩
  · exact List.forall_mem_cons.mpr ⟨listed, before.listed⟩
  · refine List.forall_mem_cons.mpr ⟨Acc.intro block (fun source edge => ?_), before.grounded⟩
    exact before.grounded source (openEdgesZero.mp zero source edge)

/- Where the loop is after some rounds, with what it has taken in them, the last block first. -/
inductive After (adjacency : Adjacency) (start : Peeling) : List BlockId → Peeling → Prop
  | begin : After adjacency start [] start
  | round {taken : List BlockId} {p : Peeling} {block : BlockId} {rest : List BlockId}
      (before : After adjacency start taken p) (ready : p.ready = block :: rest) :
      After adjacency start (block :: taken) (({ p with ready := rest } : Peeling).releaseAll (adjacency.targets block))

theorem runAfter {adjacency start taken p} (after : After adjacency start taken p) :
    After adjacency start ((run adjacency p).1.reverse ++ taken) ⟨[], (run adjacency p).2⟩ := by
  induction p using Peeling.run.induct adjacency generalizing taken with
  | case1 p ready =>
    rw [runRest adjacency ready]
    obtain ⟨ready', counts⟩ := p
    cases ready
    exact after
  | case2 p block rest ready =>
    rename_i ih
    rw [runTake adjacency ready, List.reverse_cons, List.append_assoc]
    exact ih (after.round ready)

theorem runEnds (adjacency : Adjacency) (start : Peeling) :
    After adjacency start (run adjacency start).1.reverse ⟨[], (run adjacency start).2⟩ := by
  have begins : After adjacency start [] start := .begin
  simpa using runAfter begins

section Order

variable {adjacency : Adjacency} {order taken : List BlockId} {p : Peeling} {block : BlockId}

theorem After.accountedAfter (perm : order.Perm (Indegrees.ofAdjacency adjacency).sources)
    (after : After adjacency (begun adjacency order) taken p) :
    Taken adjacency taken ∧ AtRest adjacency taken p := by
  induction after with
  | begin => exact ⟨⟨List.nodup_nil, by simp, by simp⟩, startAtRest perm⟩
  | round _ ready ih => exact ⟨ih.1.takenAfterTake ih.2 ready, ih.2.restAfterTake ready⟩

variable (perm : order.Perm (Indegrees.ofAdjacency adjacency).sources)
include perm

theorem runTaken : Taken adjacency (run adjacency (begun adjacency order)).1.reverse ∧
    AtRest adjacency (run adjacency (begun adjacency order)).1.reverse
    ⟨[], (run adjacency (begun adjacency order)).2⟩ :=
  (runEnds adjacency _).accountedAfter perm

theorem runDistinct : (run adjacency (begun adjacency order)).1.Nodup :=
  List.nodup_reverse.mp (runTaken perm).1.distinct

theorem memRun : block ∈ (run adjacency (begun adjacency order)).1 ↔
    adjacency.Listed block ∧ Acc adjacency.Edge block := by
  obtain ⟨taken, atRest⟩ := runTaken perm
  constructor
  · intro member
    have member := List.mem_reverse.mpr member
    exact ⟨taken.listed block member, taken.grounded block member⟩
  · intro given
    obtain ⟨listed, grounded⟩ := given
    rw [← List.mem_reverse]
    induction grounded with
    | intro block _ ih =>
      -- A block left over would have an edge from another one left over.
      by_contra left
      have zero := openEdgesZero.mpr (fun source edge => ih source edge (edgeListed edge).1)
      have ready := (atRest.ready block).mpr ⟨listed, zero, left⟩
      cases ready

theorem waitsRun : block ∈ (run adjacency (begun adjacency order)).2.waiting ↔
    adjacency.Listed block ∧ ¬ Acc adjacency.Edge block := by
  obtain ⟨taken, atRest⟩ := runTaken perm
  have counted := atRest.counts block
  have done := atRest.ready block
  dsimp only at counted done
  rw [Indegrees.memWaiting, counted]
  constructor
  · intro given
    obtain ⟨count, found, positive⟩ := given
    split at found
    · rename_i listed
      cases found
      refine ⟨listed, fun grounded => Nat.ne_of_gt positive (atRest.settled block ?_)⟩
      exact List.mem_reverse.mpr ((memRun perm).mpr ⟨listed, grounded⟩)
    · cases found
  · intro given
    obtain ⟨listed, endless⟩ := given
    rw [if_pos listed]
    refine ⟨_, rfl, Nat.pos_of_ne_zero (fun zero => ?_)⟩
    have left : block ∉ (run adjacency (begun adjacency order)).1.reverse := fun member =>
      endless ((memRun perm).mp (List.mem_reverse.mp member)).2
    exact List.not_mem_nil (done.mpr ⟨listed, zero, left⟩)

end Order

def peel (adjacency : Adjacency) : List BlockId × Indegrees :=
  run adjacency (begun adjacency (Indegrees.ofAdjacency adjacency).sources)

theorem peelDistinct (adjacency : Adjacency) : (peel adjacency).1.Nodup := runDistinct (.refl _)

theorem memPeel {adjacency : Adjacency} {block : BlockId} :
    block ∈ (peel adjacency).1 ↔ adjacency.Listed block ∧ Acc adjacency.Edge block := memRun (.refl _)

theorem waitsPeel {adjacency : Adjacency} {block : BlockId} :
    block ∈ (peel adjacency).2.waiting ↔ adjacency.Listed block ∧ ¬ Acc adjacency.Edge block := waitsRun (.refl _)

end Peeling

end Vdag
