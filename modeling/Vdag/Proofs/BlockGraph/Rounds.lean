import Mathlib.Data.List.Dedup
import Vdag.Proofs.BlockGraph.Verdict

/-! Peeling a round at a time. The blocks that are ready at first come in no order of their own; whatever order they are
found in, no count is taken below zero, no block is taken twice, and the same is told in the end. -/
namespace Vdag

namespace Adjacency

def everyBlock (adjacency : Adjacency) : List BlockId := (adjacency.keys ++ adjacency.values.flatten).dedup

theorem memEveryBlock {adjacency : Adjacency} {block : BlockId} :
    block ∈ adjacency.everyBlock ↔ adjacency.Listed block := by
  rw [everyBlock, List.mem_dedup, List.mem_append, Listed]

def toldInOrder (adjacency : Adjacency) (order : List BlockId) : Outcome Unit :=
  let ran := Peeling.run adjacency (Peeling.begun adjacency order)
  if ran.1.length = adjacency.size then .ok () else .error (.definition (.cycle ran.2.waiting))

end Adjacency

namespace Peeling
open Adjacency

/- The loop is about to take one off the count of a block: another one has been taken, and some of the edges it is
listed with are removed. -/
inductive Lowers (adjacency : Adjacency) (start : Peeling) : Peeling → BlockId → Prop
  | edge {taken : List BlockId} {p : Peeling} {block sink : BlockId} {rest removed others : List BlockId}
      (after : After adjacency start taken p) (ready : p.ready = block :: rest)
      (split : adjacency.targets block = removed ++ sink :: others) :
      Lowers adjacency start (({ p with ready := rest } : Peeling).releaseAll removed) sink

section Order

variable {adjacency : Adjacency} {order taken : List BlockId} {p : Peeling} {block sink : BlockId}
variable (perm : order.Perm (Indegrees.ofAdjacency adjacency).sources)
include perm

theorem lowersPositive (lowers : Lowers adjacency (begun adjacency order) p sink) :
    ∃ count, p.counts.find? sink = some (count + 1) := by
  obtain @⟨taken, p, block, _, rest, removed, others, after, ready, split⟩ := lowers
  obtain ⟨_, atRest⟩ := after.accountedAfter perm
  have edge : adjacency.Edge block sink := by simp [Edge, split]
  have counted := (Tracks.trackedPartway atRest ready split).counts sink
  have enough := Tracks.openEdgesSplit atRest ready sink
  rw [split, List.count_append, List.count_cons_self] at enough
  rw [if_pos (edgeListed edge).2] at counted
  refine ⟨openEdges taken adjacency.entries sink - removed.count sink - 1, counted.trans (congrArg some ?_)⟩
  omega

theorem fewRounds (after : After adjacency (begun adjacency order) taken p) :
    taken.length ≤ adjacency.everyBlock.length := by
  obtain ⟨taken, _⟩ := after.accountedAfter perm
  exact (taken.distinct.subperm (fun block member => memEveryBlock.mpr (taken.listed block member))).length_le

theorem memRunFree : block ∈ (run adjacency (begun adjacency order)).1 ↔
    adjacency.Listed block ∧ ¬ adjacency.Stuck block := by
  rw [memRun perm, groundedIff]

theorem toldAlike : adjacency.toldInOrder order = adjacency.checkAcyclic (Indegrees.ofAdjacency adjacency) := by
  have taken : (run adjacency (begun adjacency order)).1.Perm (peel adjacency).1 :=
    (List.perm_ext_iff_of_nodup (runDistinct perm) (peelDistinct adjacency)).mpr
      (fun block => (memRun perm).trans memPeel.symm)
  have waiting : (run adjacency (begun adjacency order)).2.waiting = (peel adjacency).2.waiting :=
    SortedMap.ascendingSame (Indegrees.waitingAscending _) (Indegrees.waitingAscending _)
      (fun block => (waitsRun perm).trans waitsPeel.symm)
  rw [toldInOrder, BlockGraph.checkedPeel, taken.length_eq, waiting]

end Order

structure Orderless (adjacency : Adjacency) (order : List BlockId) : Prop where
  positive : ∀ {p sink}, Lowers adjacency (begun adjacency order) p sink →
    ∃ count, p.counts.find? sink = some (count + 1)
  once : ∀ {taken p}, After adjacency (begun adjacency order) taken p → taken.Nodup
  few : ∀ {taken p}, After adjacency (begun adjacency order) taken p → taken.length ≤ adjacency.everyBlock.length
  ends : After adjacency (begun adjacency order) (run adjacency (begun adjacency order)).1.reverse
    ⟨[], (run adjacency (begun adjacency order)).2⟩
  taken : ∀ block, block ∈ (run adjacency (begun adjacency order)).1 ↔ adjacency.Listed block ∧ ¬ adjacency.Stuck block
  told : adjacency.toldInOrder order = adjacency.checkAcyclic (Indegrees.ofAdjacency adjacency)

theorem peelsInAnyOrder {adjacency : Adjacency} {order : List BlockId}
    (perm : order.Perm (Indegrees.ofAdjacency adjacency).sources) : Orderless adjacency order where
  positive := lowersPositive perm
  once after := (after.accountedAfter perm).1.distinct
  few := fewRounds perm
  ends := runEnds adjacency _
  taken _ := memRunFree perm
  told := toldAlike perm

def sampleTangle : Adjacency := .ofList
  [(⟨"a"⟩, [⟨"c"⟩, ⟨"c"⟩, ⟨"x"⟩]), (⟨"b"⟩, [⟨"c"⟩]), (⟨"c"⟩, []), (⟨"l"⟩, [⟨"l"⟩, ⟨"m"⟩]), (⟨"m"⟩, [])]

theorem sampleOrderless :
    (Indegrees.ofAdjacency sampleTangle).sources = [⟨"a"⟩, ⟨"b"⟩] ∧ Orderless sampleTangle [⟨"b"⟩, ⟨"a"⟩] ∧
      sampleTangle.toldInOrder [⟨"b"⟩, ⟨"a"⟩] = .error (.definition (.cycle [⟨"l"⟩, ⟨"m"⟩])) := by
  have sources : (Indegrees.ofAdjacency sampleTangle).sources = [⟨"a"⟩, ⟨"b"⟩] := by decide +kernel
  have perm : [⟨"b"⟩, ⟨"a"⟩].Perm (Indegrees.ofAdjacency sampleTangle).sources := sources ▸ .swap ..
  have orderless := peelsInAnyOrder perm
  exact ⟨sources, orderless, orderless.told.trans (by decide +kernel)⟩

end Peeling

end Vdag
