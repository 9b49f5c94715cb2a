import Mathlib.Data.List.Count
import Vdag.RecencyCache

/-! Caching said with a list, the entry used last in front: what a call moves, drops and answers, without stamps. -/
namespace Vdag

structure Remembered (κ ν : Type) where
  key : κ
  value : ν
  insertedAt : Nat
  deriving DecidableEq, Repr

structure RecencyList (κ ν : Type) where
  capacity : Nat
  timeToLive : Option Nat
  entries : List (Remembered κ ν)
  deriving DecidableEq, Repr

namespace RecencyList

variable {κ ν : Type}

def new (capacity : Nat) (timeToLive : Option Nat) : RecencyList κ ν := ⟨capacity, timeToLive, []⟩

def isLive (list : RecencyList κ ν) (now : Nat) (entry : Remembered κ ν) : Bool :=
  list.timeToLive.all (fun limit => now - entry.insertedAt < limit)

def invalidateWhere (list : RecencyList κ ν) (dropped : κ → Bool) : Nat × RecencyList κ ν :=
  (list.entries.countP (fun entry => dropped entry.key),
    { list with entries := list.entries.filter (fun entry => !dropped entry.key) })

def clear (list : RecencyList κ ν) : RecencyList κ ν := { list with entries := [] }

variable [DecidableEq κ]

def find? (list : RecencyList κ ν) (key : κ) : Option (Remembered κ ν) :=
  list.entries.find? (fun entry => entry.key == key)

def others (list : RecencyList κ ν) (key : κ) : List (Remembered κ ν) :=
  list.entries.filter (fun entry => entry.key != key)

def get (list : RecencyList κ ν) (now : Nat) (key : κ) : Option ν × RecencyList κ ν :=
  match list.find? key with
  | none => (none, list)
  | some entry =>
      if list.isLive now entry then (some entry.value, { list with entries := entry :: list.others key })
      else (none, { list with entries := list.others key })

def insert (list : RecencyList κ ν) (now : Nat) (key : κ) (value : ν) : RecencyList κ ν :=
  let kept :=
    if (list.find? key).isSome ∨ list.capacity = 0 then list.others key
    else (list.entries.filter (list.isLive now)).take (list.capacity - 1)
  { list with entries := ⟨key, value, now⟩ :: kept }

def invalidate (list : RecencyList κ ν) (key : κ) : Option ν × RecencyList κ ν :=
  ((list.find? key).map Remembered.value, { list with entries := list.others key })

end RecencyList

namespace RecencyCache

inductive Call (κ ν : Type) where
  | get (key : κ)
  | insert (key : κ) (value : ν)
  | invalidate (key : κ)
  | invalidateWhere (dropped : κ → Bool)
  | clear
  | size

inductive Answer (ν : Type) where
  | found (value : Option ν)
  | removed (value : Option ν)
  | count (n : Nat)
  | done
  deriving DecidableEq, Repr

variable {κ ν : Type}

def serveAll {σ : Type} (serve : σ → Nat → Call κ ν → Answer ν × σ) : σ → List (Nat × Call κ ν) → List (Answer ν) × σ
  | state, [] => ([], state)
  | state, (now, call) :: rest =>
      let (answer, next) := serve state now call
      let (later, last) := serveAll serve next rest
      (answer :: later, last)

def Call.forgets : Call κ ν → κ → Prop
  | .get _, _ => False
  | .insert key _, other => key = other
  | .invalidate key, other => key = other
  | .invalidateWhere dropped, other => dropped other
  | .clear, _ => True
  | .size, _ => False

variable [DecidableEq κ]

def serve (cache : RecencyCache κ ν) (now : Nat) : Call κ ν → Answer ν × RecencyCache κ ν
  | .get key => ((cache.get now key).map .found id)
  | .insert key value => (.done, cache.insert now key value)
  | .invalidate key => (cache.invalidate key).map .removed id
  | .invalidateWhere dropped => (cache.invalidateWhere dropped).map .count id
  | .clear => (.done, cache.clear)
  | .size => (.count cache.size, cache)

end RecencyCache

namespace RecencyList

variable {κ ν : Type} {list : RecencyList κ ν}

/- An entry put in by one of the calls, with nothing later that forgets it. -/
def Stands (history : List (Nat × RecencyCache.Call κ ν)) (entry : Remembered κ ν) : Prop :=
  ∃ before later, history = before ++ (entry.insertedAt, .insert entry.key entry.value) :: later ∧
    ∀ call ∈ later, ¬ call.2.forgets entry.key

theorem newStands (capacity : Nat) (timeToLive : Option Nat) :
    ∀ entry ∈ (new capacity timeToLive : RecencyList κ ν).entries, Stands [] entry := by
  intro entry member
  cases member

def Bounded (list : RecencyList κ ν) : Prop := 0 < list.capacity → list.entries.length ≤ list.capacity

theorem newBounded (capacity : Nat) (timeToLive : Option Nat) : (new capacity timeToLive : RecencyList κ ν).Bounded :=
  fun _ => Nat.zero_le _

theorem Bounded.boundedFewer (bounded : list.Bounded) {entries : List (Remembered κ ν)}
    (fewer : entries.length ≤ list.entries.length) : Bounded { list with entries } :=
  fun limited => Nat.le_trans fewer (bounded limited)

variable [DecidableEq κ]

def serve (list : RecencyList κ ν) (now : Nat) : RecencyCache.Call κ ν → RecencyCache.Answer ν × RecencyList κ ν
  | .get key => (list.get now key).map .found id
  | .insert key value => (.done, list.insert now key value)
  | .invalidate key => (list.invalidate key).map .removed id
  | .invalidateWhere dropped => (list.invalidateWhere dropped).map .count id
  | .clear => (.done, list.clear)
  | .size => (.count list.entries.length, list)

theorem serveLimits (list : RecencyList κ ν) (now : Nat) (call : RecencyCache.Call κ ν) :
    (list.serve now call).2.capacity = list.capacity ∧ (list.serve now call).2.timeToLive = list.timeToLive := by
  cases call with
  | get key =>
    change (list.get now key).2.capacity = _ ∧ (list.get now key).2.timeToLive = _
    unfold get
    split
    · exact ⟨rfl, rfl⟩
    · split
      · exact ⟨rfl, rfl⟩
      · exact ⟨rfl, rfl⟩
  | _ => exact ⟨rfl, rfl⟩

theorem serveAllLimits (list : RecencyList κ ν) (calls : List (Nat × RecencyCache.Call κ ν)) :
    (RecencyCache.serveAll serve list calls).2.capacity = list.capacity ∧
      (RecencyCache.serveAll serve list calls).2.timeToLive = list.timeToLive := by
  induction calls generalizing list with
  | nil => exact ⟨rfl, rfl⟩
  | cons head rest ih =>
    obtain ⟨capacity, timeToLive⟩ := serveLimits list head.1 head.2
    exact ⟨(ih _).1.trans capacity, (ih _).2.trans timeToLive⟩

theorem memOthers {key : κ} {entry : Remembered κ ν} :
    entry ∈ list.others key ↔ entry ∈ list.entries ∧ entry.key ≠ key := by
  simp [others]

theorem findMem {key : κ} {entry : Remembered κ ν} (found : list.find? key = some entry) :
    entry ∈ list.entries ∧ entry.key = key :=
  ⟨List.mem_of_find?_eq_some found, by simpa using List.find?_some found⟩

theorem getLive {now : Nat} {key : κ} {value : ν} (found : (list.get now key).1 = some value) :
    ∃ entry, list.find? key = some entry ∧ entry.value = value ∧ list.isLive now entry := by
  unfold get at found
  split at found
  · cases found
  · rename_i entry known
    split at found
    · rename_i live
      exact ⟨entry, known, Option.some.inj found, live⟩
    · cases found

theorem serveEntries {now : Nat} {call : RecencyCache.Call κ ν} {entry : Remembered κ ν}
    (member : entry ∈ (list.serve now call).2.entries) :
    call = .insert entry.key entry.value ∧ entry.insertedAt = now ∨
      entry ∈ list.entries ∧ ¬ call.forgets entry.key := by
  cases call with
  | get key =>
    refine .inr ⟨?_, id⟩
    change entry ∈ (list.get now key).2.entries at member
    unfold get at member
    split at member
    · exact member
    · rename_i found known
      split at member
      · rcases List.mem_cons.mp member with rfl | other
        · exact (findMem known).1
        · exact (memOthers.mp other).1
      · exact (memOthers.mp member).1
  | insert key value =>
    rcases List.mem_cons.mp member with rfl | kept
    · exact .inl ⟨rfl, rfl⟩
    · refine .inr ?_
      split at kept
      · obtain ⟨old, apart⟩ := memOthers.mp kept
        exact ⟨old, fun same => apart same.symm⟩
      · rename_i room
        have old := (List.mem_filter.mp (List.mem_of_mem_take kept)).1
        refine ⟨old, fun same => room (.inl ?_)⟩
        exact List.find?_isSome.mpr ⟨entry, old, beq_iff_eq.mpr same.symm⟩
  | invalidate key =>
    obtain ⟨old, apart⟩ := memOthers.mp member
    exact .inr ⟨old, fun same => apart same.symm⟩
  | invalidateWhere dropped =>
    obtain ⟨old, apart⟩ := List.mem_filter.mp member
    exact .inr ⟨old, by simpa [RecencyCache.Call.forgets] using apart⟩
  | clear => cases member
  | size => exact .inr ⟨member, id⟩

theorem standsServe {history : List (Nat × RecencyCache.Call κ ν)}
    (stands : ∀ entry ∈ list.entries, Stands history entry) (now : Nat) (call : RecencyCache.Call κ ν) :
    ∀ entry ∈ (list.serve now call).2.entries, Stands (history ++ [(now, call)]) entry := by
  intro entry member
  rcases serveEntries member with ⟨rfl, rfl⟩ | ⟨old, kept⟩
  · exact ⟨history, [], rfl, nofun⟩
  · obtain ⟨before, later, rfl, quiet⟩ := stands entry old
    refine ⟨before, later ++ [(now, call)], by rw [List.append_assoc, List.cons_append], fun other within => ?_⟩
    rcases List.mem_append.mp within with earlier | last
    · exact quiet other earlier
    · exact List.mem_singleton.mp last ▸ kept

theorem standsAll {history : List (Nat × RecencyCache.Call κ ν)} (calls : List (Nat × RecencyCache.Call κ ν))
    (stands : ∀ entry ∈ list.entries, Stands history entry) :
    ∀ entry ∈ (RecencyCache.serveAll serve list calls).2.entries, Stands (history ++ calls) entry := by
  induction calls generalizing list history with
  | nil => rwa [List.append_nil]
  | cons head rest ih =>
    have later := ih (standsServe stands head.1 head.2)
    rwa [List.append_assoc] at later

theorem othersLength {key : κ} {entry : Remembered κ ν} (found : list.find? key = some entry) :
    (list.others key).length < list.entries.length :=
  List.length_filter_lt_length_iff_exists.mpr ⟨entry, (findMem found).1, by simp [(findMem found).2]⟩

theorem Bounded.boundedServe (bounded : list.Bounded) (now : Nat) (call : RecencyCache.Call κ ν) :
    (list.serve now call).2.Bounded := by
  cases call with
  | get key =>
    change (list.get now key).2.Bounded
    unfold get
    split
    · exact bounded
    · rename_i entry found
      split
      · exact bounded.boundedFewer (othersLength found)
      · exact bounded.boundedFewer (List.length_filter_le ..)
  | insert key value =>
    change (list.insert now key value).Bounded
    unfold insert
    dsimp only
    split
    · rename_i kept
      intro limited
      have present := kept.resolve_right (Nat.ne_of_gt limited)
      obtain ⟨entry, found⟩ := Option.isSome_iff_exists.mp present
      exact Nat.le_trans (othersLength found) (bounded limited)
    · intro limited
      have room := List.length_take_le (list.capacity - 1) (list.entries.filter (list.isLive now))
      change 0 < list.capacity at limited
      change _ + 1 ≤ list.capacity
      omega
  | invalidate key => exact bounded.boundedFewer (List.length_filter_le ..)
  | invalidateWhere dropped => exact bounded.boundedFewer (List.length_filter_le ..)
  | clear => exact bounded.boundedFewer (Nat.zero_le _)
  | size => exact bounded

theorem Bounded.serveAll (bounded : list.Bounded) (calls : List (Nat × RecencyCache.Call κ ν)) :
    (RecencyCache.serveAll RecencyList.serve list calls).2.Bounded := by
  induction calls generalizing list with
  | nil => exact bounded
  | cons head rest ih => exact ih (bounded.boundedServe head.1 head.2)

end RecencyList

end Vdag
