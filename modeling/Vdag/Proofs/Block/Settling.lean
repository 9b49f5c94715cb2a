import Vdag.Proofs.Block.Crew

/-! When the blocks of a rooted graph have come to rest: as soon as each has taken one packet for every way that leads
to it, not earlier, and in the end under every schedule that leaves no block out. -/
namespace Vdag.Crew
open Vdag.Action BlockGraph

variable {ω π : Type} {crew : Crew ω π} {graph : BlockGraph} {standing : Standing} {habits : Habits π} {payload : Bytes}
  {out : String → String → Nat} {before : String → String → List Bytes} {floor : Floor ω π}

def total (graph : BlockGraph) (floor : Floor ω π) : Nat := ∑ block ∈ graph.blocks.toFinset, floor.taken block

/- What there is to see of the payloads at any time: what waits, what has been taken, and what has been passed out. -/
structure Delivers (crew : Crew ω π) (graph : BlockGraph) (payload : Bytes) (out : String → String → Nat)
    (before : String → String → List Bytes) (floor : Floor ω π) : Prop where
  looks : ∀ block ∈ graph.blocks, (crew.look floor block).1 = .ok (!(crew.waiting floor block).isEmpty)
  alike : ∀ block ∈ graph.blocks, ∀ other ∈ crew.waiting floor block, other = payload
  bounded : ∀ block ∈ graph.blocks, floor.taken block ≤ graph.ways block
  idle : crew.Idle graph floor ↔ total graph floor = ∑ block ∈ graph.blocks.toFinset, graph.ways block
  settled : crew.Idle graph floor → ∀ block ∈ graph.blocks, floor.taken block = graph.ways block
  left : ∀ endpoint queue, crew.Outer graph endpoint queue → floor.plant.2.1.waiting endpoint queue =
    before endpoint queue ++
      List.replicate (out endpoint queue * ∑ block ∈ graph.tail.toFinset, floor.taken block) payload
  arrived : crew.Idle graph floor → ∀ endpoint queue, crew.Outer graph endpoint queue →
    floor.plant.2.1.waiting endpoint queue = before endpoint queue ++
      List.replicate (out endpoint queue * ∑ block ∈ graph.tail.toFinset, graph.ways block) payload

section Counting

variable (rooted : RootedDag graph) (flowing : crew.Flowing graph standing habits payload out before floor)
include rooted flowing

theorem Flowing.takenBounded : ∀ block ∈ graph.blocks, floor.taken block ≤ graph.ways block := by
  refine rooted.boundedByWays (fun block member => ?_)
  obtain ⟨count, _, shared⟩ := flowing.queued block member
  omega

theorem Flowing.idleTakenWays (idle : crew.Idle graph floor) :
    ∀ block ∈ graph.blocks, floor.taken block = graph.ways block := by
  refine rooted.equalsWays (fun block member => ?_)
  obtain ⟨count, queued, shared⟩ := flowing.queued block member
  have none : count = 0 := by simpa using congrArg List.length (queued.symm.trans (idle block member))
  omega

theorem Flowing.idleIffTotal :
    crew.Idle graph floor ↔ total graph floor = ∑ block ∈ graph.blocks.toFinset, graph.ways block := by
  have bounded := flowing.takenBounded rooted
  rw [total, Finset.sum_eq_sum_iff_of_le (fun block member => bounded block (List.mem_toFinset.mp member))]
  refine ⟨fun idle block member => flowing.idleTakenWays rooted idle block (List.mem_toFinset.mp member), fun all => ?_⟩
  have all : ∀ block ∈ graph.blocks, floor.taken block = graph.ways block :=
    fun block member => all block (List.mem_toFinset.mpr member)
  intro block member
  obtain ⟨count, queued, shared⟩ := flowing.queued block member
  have parents : ∑ parent ∈ graph.parents block, floor.taken parent =
      ∑ parent ∈ graph.parents block, graph.ways parent :=
    Finset.sum_congr rfl (fun parent edge => all parent (Adjacency.edgeSource (memParents.mp edge)))
  rw [all block member, parents, ← rooted.waysStep block] at shared
  have none : count = 0 := by omega
  rw [queued, none]
  rfl

end Counting

theorem Flowing.lookAnswers (flowing : crew.Flowing graph standing habits payload out before floor)
    (routes : crew.Routes graph standing habits payload out) {block : BlockId} (member : block ∈ graph.blocks) :
    (crew.look floor block).1 = .ok (!(crew.waiting floor block).isEmpty) := by
  obtain ⟨count, queued, _⟩ := flowing.queued block member
  cases count with
  | zero => rw [looksIdle queued, queued]; rfl
  | succ count =>
    obtain ⟨plant, memory, looked, _⟩ := flowing.lookTakesOne routes member queued
    rw [looked, queued]
    rfl

theorem Flowing.deliversGraph (flowing : crew.Flowing graph standing habits payload out before floor)
    (rooted : RootedDag graph)
    (routes : crew.Routes graph standing habits payload out) : crew.Delivers graph payload out before floor where
  looks _ member := flowing.lookAnswers routes member
  alike block member other waits := by
    obtain ⟨count, queued, _⟩ := flowing.queued block member
    exact List.eq_of_mem_replicate (queued ▸ waits)
  bounded := flowing.takenBounded rooted
  idle := flowing.idleIffTotal rooted
  settled := flowing.idleTakenWays rooted
  left := flowing.left
  arrived idle endpoint queue outer := by
    have all : ∑ block ∈ graph.tail.toFinset, floor.taken block = ∑ block ∈ graph.tail.toFinset, graph.ways block := by
      refine Finset.sum_congr rfl (fun block last => flowing.idleTakenWays rooted idle block ?_)
      exact ((rooted.tail block).mp (List.mem_toFinset.mp last)).1
    rw [flowing.left endpoint queue outer, all]

section Fairness

theorem takenMove (crew : Crew ω π) (floor : Floor ω π) (move : Move) (block : BlockId) :
    floor.taken block ≤ (crew.move floor move).taken block := by
  cases move with
  | serve other => exact Nat.le_add_right _ _
  | file registry => exact Nat.le_refl _

theorem takenAfter (crew : Crew ω π) (floor : Floor ω π) (schedule : Nat → Move) {time later : Nat} (le : time ≤ later)
    (block : BlockId) :
    (crew.after floor schedule time).taken block ≤ (crew.after floor schedule later).taken block := by
  induction later, le using Nat.le_induction with
  | base => exact Nat.le_refl _
  | succ later _ ih => exact ih.trans (crew.takenMove _ _ block)

theorem totalAfter (crew : Crew ω π) (floor : Floor ω π) (schedule : Nat → Move) {time later : Nat}
    (le : time ≤ later) :
    total graph (crew.after floor schedule time) ≤ total graph (crew.after floor schedule later) :=
  Finset.sum_le_sum (fun block _ => crew.takenAfter floor schedule le block)

theorem Flowing.totalAdvances {schedule : Nat → Move} {time later : Nat} (le : time ≤ later)
    (flowing : ∀ time, crew.Flowing graph standing habits payload out before (crew.after floor schedule time))
    (routes : crew.Routes graph standing habits payload out) {block : BlockId} (member : block ∈ graph.blocks)
    (waits : crew.waiting (crew.after floor schedule time) block ≠ []) (served : schedule later = .serve block) :
    total graph (crew.after floor schedule time) < total graph (crew.after floor schedule (later + 1)) := by
  suffices (crew.after floor schedule time).taken block < (crew.after floor schedule (later + 1)).taken block from
    Finset.sum_lt_sum (fun other _ => crew.takenAfter floor schedule (Nat.le_succ_of_le le) other)
      ⟨block, List.mem_toFinset.mpr member, this⟩
  have before := crew.takenAfter floor schedule le
  obtain ⟨count, queued, shared⟩ := (flowing time).queued block member
  obtain ⟨count', queued', shared'⟩ := (flowing later).queued block member
  have more := Finset.sum_le_sum (fun parent (_ : parent ∈ graph.parents block) => before parent)
  have own := before block
  have some : count ≠ 0 := by
    rintro rfl
    exact waits queued
  -- What was waiting has either been taken in the meantime or is taken by this move.
  cases count' with
  | zero =>
    have next := crew.takenMove (crew.after floor schedule later) (schedule later) block
    change _ < (crew.move (crew.after floor schedule later) (schedule later)).taken block
    omega
  | succ count' =>
    obtain ⟨plant, memory, looked, _⟩ := (flowing later).lookTakesOne routes member queued'
    change _ < (crew.move (crew.after floor schedule later) (schedule later)).taken block
    rw [served]
    have taken : (crew.move (crew.after floor schedule later) (.serve block)).taken block =
        (crew.after floor schedule later).taken block + 1 := by
      change _ + (if block = block then took (crew.look _ block).1 else 0) = _
      rw [if_pos rfl, looked]
      rfl
    omega

theorem Flowing.eventuallyIdle (rooted : RootedDag graph) {schedule : Nat → Move}
    (flowing : ∀ time, crew.Flowing graph standing habits payload out before (crew.after floor schedule time))
    (routes : crew.Routes graph standing habits payload out)
    (fair : ∀ block ∈ graph.blocks, ∀ time, ∃ later, time ≤ later ∧ schedule later = .serve block) :
    ∃ time, ∀ later, time ≤ later → crew.Idle graph (crew.after floor schedule later) := by
  obtain ⟨time, idle⟩ : ∃ time, crew.Idle graph (crew.after floor schedule time) := by
    by_contra never
    -- Otherwise the number of packets taken would grow beyond all bounds.
    have grows : ∀ count, ∃ time, count ≤ total graph (crew.after floor schedule time) := by
      intro count
      induction count with
      | zero => exact ⟨0, Nat.zero_le _⟩
      | succ count ih =>
        obtain ⟨time, reached⟩ := ih
        have busy : ¬ crew.Idle graph (crew.after floor schedule time) := fun idle => never ⟨time, idle⟩
        rw [Idle] at busy
        push Not at busy
        obtain ⟨block, member, waits⟩ := busy
        obtain ⟨later, le, served⟩ := fair block member time
        exact ⟨later + 1, Nat.lt_of_le_of_lt reached (totalAdvances le flowing routes member waits served)⟩
    obtain ⟨time, beyond⟩ := grows (∑ block ∈ graph.blocks.toFinset, graph.ways block + 1)
    have bounded : total graph (crew.after floor schedule time) ≤ ∑ block ∈ graph.blocks.toFinset, graph.ways block :=
      Finset.sum_le_sum (fun block member => (flowing time).takenBounded rooted block (List.mem_toFinset.mp member))
    omega
  refine ⟨time, fun later le => ((flowing later).idleIffTotal rooted).mpr (Nat.le_antisymm ?_ ?_)⟩
  · exact Finset.sum_le_sum (fun block member => (flowing later).takenBounded rooted block
      (List.mem_toFinset.mp member))
  · rw [← ((flowing time).idleIffTotal rooted).mp idle]
    exact crew.totalAfter floor schedule le

end Fairness

end Vdag.Crew
