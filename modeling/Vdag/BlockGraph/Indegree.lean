import Vdag.Id
import Vdag.SortedMap

/-! Taking blocks away from a graph in dependency order: a block is ready when nothing that is left leads to
it. What can never be taken lies behind a cycle. -/
namespace Vdag

abbrev Adjacency := SortedMap BlockId (List BlockId)

abbrev Indegrees := SortedMap BlockId Nat

namespace SortedMap

variable {κ : Type} [KeyOrder κ]

def sumValues : List (κ × Nat) → Nat
  | [] => 0
  | entry :: rest => entry.2 + sumValues rest

def total (counts : SortedMap κ Nat) : Nat := sumValues counts.entries

theorem sumValuesInsertEntry {key : κ} {old : Nat} (value : Nat) {list : List (κ × Nat)}
    (found : lookup key list = some old) :
    sumValues (insertEntry key value list) + old = sumValues list + value := by
  induction list with
  | nil => simp [lookup] at found
  | cons head rest ih =>
      simp only [lookup] at found
      unfold insertEntry
      split at found
      · cases found
      · split at found
        · rename_i before after
          simp only [before, after, if_true, if_false, sumValues] at ih ⊢
          have := ih found
          omega
        · rename_i before after
          cases found
          simp only [before, after, if_false, sumValues]
          omega

theorem totalInsert {counts : SortedMap κ Nat} {key : κ} {old : Nat} (value : Nat)
    (found : counts.find? key = some old) : (counts.insert key value).total + old = counts.total + value :=
  sumValuesInsertEntry value found

end SortedMap

namespace Indegrees

def ofAdjacency (adjacency : Adjacency) : Indegrees :=
  adjacency.values.flatten.foldl (fun counts block => counts.modify block 0 (· + 1))
    (adjacency.mapValues (fun _ => 0))

def sources (counts : Indegrees) : List BlockId := (counts.entries.filter (fun entry => entry.2 == 0)).map (·.1)

def waiting (counts : Indegrees) : List BlockId := (counts.entries.filter (fun entry => 0 < entry.2)).map (·.1)

end Indegrees

structure Peeling where
  ready : List BlockId
  counts : Indegrees

namespace Peeling

def size (p : Peeling) : Nat := p.counts.total + p.ready.length

def release (p : Peeling) (block : BlockId) : Peeling :=
  match p.counts.find? block with
  | some (count + 1) =>
      { ready := if count = 0 then block :: p.ready else p.ready, counts := p.counts.insert block count }
  | _ => p

theorem sizeRelease (p : Peeling) (block : BlockId) : (p.release block).size ≤ p.size := by
  unfold release
  split
  · rename_i count found
    have := SortedMap.totalInsert count found
    simp only [size]
    split <;> simp <;> omega
  · exact Nat.le_refl _

def releaseAll (p : Peeling) (blocks : List BlockId) : Peeling := blocks.foldl release p

theorem sizeReleaseAll (p : Peeling) (blocks : List BlockId) : (p.releaseAll blocks).size ≤ p.size := by
  induction blocks generalizing p with
  | nil => exact Nat.le_refl _
  | cons block rest ih => exact Nat.le_trans (ih (p.release block)) (sizeRelease p block)

/- Takes one ready block after the other. Answers the blocks in the order taken, and the counts that stay. -/
def run (adjacency : Adjacency) (p : Peeling) : List BlockId × Indegrees :=
  match _ready : p.ready with
  | [] => ([], p.counts)
  | block :: rest =>
      let next := ({ p with ready := rest } : Peeling).releaseAll ((adjacency.find? block).getD [])
      let (taken, counts) := run adjacency next
      (block :: taken, counts)
termination_by p.size
decreasing_by
  refine Nat.lt_of_le_of_lt (sizeReleaseAll _ _) ?_
  simp only [size, _ready, List.length_cons]
  omega

end Peeling

end Vdag
