import Vdag.Proofs.Recency.List
import Vdag.Proofs.Recency.Ordering

/-! A cache answers as the list does that it stands for, whatever is asked of it and in whatever order it keeps its
entries. -/
namespace Vdag

def Remembered.ofEntry {κ ν : Type} (entry : κ × CacheEntry ν) : Remembered κ ν :=
  ⟨entry.1, entry.2.value, entry.2.insertedAt⟩

namespace RecencyCache

variable {κ ν : Type}

structure Mirrors (cache : RecencyCache κ ν) (list : RecencyList κ ν) : Prop where
  capacity : cache.capacity = list.capacity
  timeToLive : cache.timeToLive = list.timeToLive
  entries : ∃ byUse, cache.Ordered byUse ∧ list.entries = byUse.map Remembered.ofEntry

variable {cache : RecencyCache κ ν} {list : RecencyList κ ν}

theorem Mirrors.liveAlike (mirrors : cache.Mirrors list) (now : Nat) (entry : κ × CacheEntry ν) :
    list.isLive now (.ofEntry entry) = !cache.hasExpired now entry.2 := by
  rw [RecencyList.isLive, hasExpired, mirrors.timeToLive]
  cases list.timeToLive with
  | none => rfl
  | some limit =>
    change decide (now - entry.2.insertedAt < limit) = !decide (limit ≤ now - entry.2.insertedAt)
    rw [← decide_not, decide_eq_decide, Nat.not_le]

theorem newMirrors (capacity : Nat) (timeToLive : Option Nat) :
    Mirrors (new capacity timeToLive : RecencyCache κ ν) (.new capacity timeToLive) where
  capacity := rfl
  timeToLive := rfl
  entries := ⟨[], ⟨.nil, .nil, nofun, .nil⟩, rfl⟩

theorem filterMirrors {byUse : List (κ × CacheEntry ν)} (keep : Remembered κ ν → Bool) :
    (byUse.map Remembered.ofEntry).filter keep = (byUse.filter (keep ∘ Remembered.ofEntry)).map Remembered.ofEntry :=
  List.filter_map

theorem Mirrors.sizeAlike (mirrors : cache.Mirrors list) : cache.size = list.entries.length := by
  obtain ⟨byUse, ordered, same⟩ := mirrors.entries
  rw [RecencyCache.size, same, List.length_map, ordered.same.length_eq]

theorem Mirrors.invalidateWhere (mirrors : cache.Mirrors list) (dropped : κ → Bool) :
    (cache.invalidateWhere dropped).1 = (list.invalidateWhere dropped).1 ∧
      (cache.invalidateWhere dropped).2.Mirrors (list.invalidateWhere dropped).2 := by
  obtain ⟨byUse, ordered, same⟩ := mirrors.entries
  refine ⟨?_, mirrors.capacity, mirrors.timeToLive, _, ordered.orderedFilter _, ?_⟩
  · have parts := List.length_eq_countP_add_countP (l := byUse) (fun entry => dropped entry.1)
    rw [RecencyCache.invalidateWhere, RecencyList.invalidateWhere, same, List.countP_map]
    dsimp only
    rw [← ordered.same.length_eq, ← (ordered.same.filter _).length_eq, ← List.countP_eq_length_filter]
    simp only [Bool.not_eq_true, Bool.decide_eq_false] at parts
    exact Nat.sub_eq_of_eq_add parts
  · rw [RecencyList.invalidateWhere, same]
    exact filterMirrors _

theorem Ordered.stampsDistinct {byUse : List (κ × CacheEntry ν)} (ordered : cache.Ordered byUse) :
    (cache.entries.map (fun entry => entry.2.lastUse)).Nodup := by
  have apart : (byUse.map (fun entry => entry.2.lastUse)).Nodup :=
    List.pairwise_map.mpr (ordered.recent.imp (fun later => (Nat.ne_of_lt later).symm))
  exact (ordered.same.map _).nodup_iff.mp apart

variable [DecidableEq κ]

theorem Mirrors.findAlike (mirrors : cache.Mirrors list) (key : κ) :
    list.find? key = (cache.entry? key).map (fun entry => .ofEntry (key, entry)) := by
  obtain ⟨byUse, ordered, same⟩ := mirrors.entries
  rw [RecencyList.find?, entry?, same, List.find?_map, ordered.findByUse key]
  change (byUse.find? (fun entry => entry.1 == key)).map _ = _
  cases found : byUse.find? (fun entry => entry.1 == key) with
  | none => rfl
  | some entry =>
    have own : entry.1 = key := by simpa using List.find?_some found
    exact own ▸ rfl

theorem othersMirror {byUse : List (κ × CacheEntry ν)} (same : list.entries = byUse.map Remembered.ofEntry) (key : κ) :
    list.others key = (byUse.filter (fun entry => entry.1 != key)).map Remembered.ofEntry := by
  rw [RecencyList.others, same]
  exact filterMirrors _

theorem Mirrors.mirrorsWithout (mirrors : cache.Mirrors list) (key : κ) :
    (cache.without key).Mirrors { list with entries := list.others key } := by
  obtain ⟨byUse, ordered, same⟩ := mirrors.entries
  exact ⟨mirrors.capacity, mirrors.timeToLive, _, ordered.orderedWithout key, othersMirror same key⟩

theorem Mirrors.mirrorsGet (mirrors : cache.Mirrors list) (now : Nat) (key : κ) :
    (cache.get now key).1 = (list.get now key).1 ∧ (cache.get now key).2.Mirrors (list.get now key).2 := by
  obtain ⟨byUse, ordered, same⟩ := mirrors.entries
  rw [RecencyCache.get, RecencyList.get, mirrors.findAlike key]
  cases found : cache.entry? key with
  | none => exact ⟨rfl, mirrors.capacity, mirrors.timeToLive, byUse,
      { ordered with counted := fun entry member => Nat.le_succ_of_le (ordered.counted entry member) }, same⟩
  | some entry =>
    dsimp only [Option.map_some]
    rw [mirrors.liveAlike now (key, entry)]
    cases cache.hasExpired now entry with
    | true => exact ⟨rfl, mirrors.mirrorsWithout key⟩
    | false =>
      obtain ⟨⟨own, _⟩, known, rfl⟩ := Option.map_eq_some_iff.mp found
      rw [ordered.findByUse, findByKey ordered.unique] at known
      obtain ⟨member, rfl⟩ := known
      exact ⟨rfl, mirrors.capacity, mirrors.timeToLive, _,
        (ordered.orderedWithout own).orderedUsed (freshFiltered own) rfl (ordered.touchedPerm member _),
        congrArg (List.cons _) (othersMirror same own)⟩

theorem dropOldestLimits (count : Nat) :
    (cache.dropOldest count).capacity = cache.capacity ∧ (cache.dropOldest count).timeToLive = cache.timeToLive := by
  induction count generalizing cache with
  | zero => exact ⟨rfl, rfl⟩
  | succ count ih =>
    rw [RecencyCache.dropOldest, ih.1, ih.2, RecencyCache.dropLeastRecent]
    split
    · exact ⟨rfl, rfl⟩
    · exact ⟨rfl, rfl⟩

theorem Mirrors.makeRoom (mirrors : cache.Mirrors list) (limited : cache.capacity ≠ 0) (now : Nat) :
    (cache.makeRoom now).Mirrors
      { list with entries := (list.entries.filter (list.isLive now)).take (list.capacity - 1) } := by
  obtain ⟨byUse, ordered, same⟩ := mirrors.entries
  have limits := @dropOldestLimits κ ν (cache.dropExpired now) _
    ((cache.dropExpired now).entries.length + 1 - cache.capacity)
  have live : list.isLive now ∘ Remembered.ofEntry = fun entry => !cache.hasExpired now entry.2 :=
    funext (mirrors.liveAlike now)
  refine ⟨?_, ?_, _, ordered.makeRoom limited now, ?_⟩
  · rw [RecencyCache.makeRoom, if_neg limited]
    exact limits.1.trans mirrors.capacity
  · rw [RecencyCache.makeRoom, if_neg limited]
    exact limits.2.trans mirrors.timeToLive
  · rw [same, filterMirrors, live, List.map_take, mirrors.capacity]

theorem Mirrors.mirrorsRoom (mirrors : cache.Mirrors list) (now : Nat) (key : κ) :
    ((if (cache.entry? key).isSome then cache else cache.makeRoom now).without key).Mirrors
      { list with entries :=
          if (list.find? key).isSome ∨ list.capacity = 0 then list.others key
          else (list.entries.filter (list.isLive now)).take (list.capacity - 1) } := by
  by_cases known : (list.find? key).isSome
  · have present : (cache.entry? key).isSome := by rwa [mirrors.findAlike, Option.isSome_map] at known
    rw [if_pos present, if_pos (Or.inl known)]
    exact mirrors.mirrorsWithout key
  have absent : ¬ (cache.entry? key).isSome := by rwa [mirrors.findAlike, Option.isSome_map] at known
  rw [if_neg absent]
  by_cases unlimited : list.capacity = 0
  · rw [if_pos (.inr unlimited), RecencyCache.makeRoom, if_pos (mirrors.capacity.trans unlimited)]
    exact mirrors.mirrorsWithout key
  · rw [if_neg (not_or.mpr ⟨known, unlimited⟩)]
    have room := (mirrors.makeRoom (mirrors.capacity ▸ unlimited) now).mirrorsWithout key
    have apart : ∀ entry ∈ list.entries, entry.key != key := by
      simpa [RecencyList.find?] using known
    rwa [RecencyList.others, List.filter_eq_self.mpr (fun entry member =>
      apart entry (List.mem_of_mem_filter (List.mem_of_mem_take member)))] at room

theorem Mirrors.mirrorsInsert (mirrors : cache.Mirrors list) (now : Nat) (key : κ) (value : ν) :
    (cache.insert now key value).Mirrors (list.insert now key value) := by
  have roomy := mirrors.mirrorsRoom now key
  obtain ⟨byUse, ordered, same⟩ := roomy.entries
  have fresh : key ∉ byUse.map Prod.fst := fun member =>
    freshFiltered key ((ordered.same.map Prod.fst).mem_iff.mp member)
  exact ⟨roomy.capacity, roomy.timeToLive, _, ordered.orderedUsed fresh rfl (ordered.same.cons _),
    congrArg (List.cons _) same⟩

theorem Mirrors.mirrorsServe (mirrors : cache.Mirrors list) (now : Nat) (call : Call κ ν) :
    (cache.serve now call).1 = (list.serve now call).1 ∧ (cache.serve now call).2.Mirrors (list.serve now call).2 := by
  cases call with
  | get key =>
    obtain ⟨answer, next⟩ := mirrors.mirrorsGet now key
    exact ⟨congrArg Answer.found answer, next⟩
  | insert key value => exact ⟨rfl, mirrors.mirrorsInsert now key value⟩
  | invalidate key =>
    have answer : (cache.invalidate key).1 = (list.invalidate key).1 := by
      rw [RecencyCache.invalidate, RecencyList.invalidate, mirrors.findAlike key, Option.map_map]
      rfl
    exact ⟨congrArg Answer.removed answer, mirrors.mirrorsWithout key⟩
  | invalidateWhere dropped =>
    obtain ⟨answer, next⟩ := mirrors.invalidateWhere dropped
    exact ⟨congrArg Answer.count answer, next⟩
  | clear => exact ⟨rfl, mirrors.capacity, mirrors.timeToLive, [], ⟨.nil, .nil, nofun, .nil⟩, rfl⟩
  | size => exact ⟨congrArg Answer.count mirrors.sizeAlike, mirrors⟩

theorem Mirrors.serveAll (mirrors : cache.Mirrors list) (calls : List (Nat × Call κ ν)) :
    (RecencyCache.serveAll RecencyCache.serve cache calls).1 = (RecencyCache.serveAll RecencyList.serve list calls).1 ∧
      (RecencyCache.serveAll RecencyCache.serve cache calls).2.Mirrors
      (RecencyCache.serveAll RecencyList.serve list calls).2 := by
  induction calls generalizing cache list with
  | nil => exact ⟨rfl, mirrors⟩
  | cons head rest ih =>
    obtain ⟨answer, next⟩ := mirrors.mirrorsServe head.1 head.2
    obtain ⟨later, last⟩ := ih next
    exact ⟨congrArg₂ List.cons answer later, last⟩

structure Remembers (capacity : Nat) (timeToLive : Option Nat) (calls : List (Nat × Call κ ν))
    (cache : RecencyCache κ ν) (list : RecencyList κ ν) : Prop where
  distinct : (list.entries.map Remembered.key).Nodup
  same : cache.size = list.entries.length
  bounded : 0 < capacity → cache.size ≤ capacity
  stamps : (cache.entries.map (fun entry => entry.2.lastUse)).Nodup
  oldest : leastRecent? cache.entries = list.entries.getLast?.map Remembered.key
  orderless : ∀ (keep : κ × CacheEntry ν → Bool) order, order.Perm (cache.entries.filter keep) →
    leastRecent? order = leastRecent? (cache.entries.filter keep)
  fresh : ∀ now key value, (cache.get now key).1 = some value → ∃ insertedAt,
    RecencyList.Stands calls ⟨key, value, insertedAt⟩ ∧ ∀ limit, timeToLive = some limit → now - insertedAt < limit

/- Times are the caller's, and nothing is asked of them. -/
theorem cacheRemembers (capacity : Nat) (timeToLive : Option Nat) (calls : List (Nat × Call κ ν)) :
    (serveAll serve (new capacity timeToLive) calls).1 =
        (serveAll RecencyList.serve (.new capacity timeToLive) calls).1 ∧
      Remembers capacity timeToLive calls (serveAll serve (new capacity timeToLive) calls).2
        (serveAll RecencyList.serve (.new capacity timeToLive) calls).2 := by
  obtain ⟨same, mirrors⟩ := (newMirrors capacity timeToLive).serveAll calls
  obtain ⟨byUse, ordered, entries⟩ := mirrors.entries
  have limits := RecencyList.serveAllLimits (.new capacity timeToLive : RecencyList κ ν) calls
  have stands := RecencyList.standsAll calls (RecencyList.newStands capacity timeToLive)
  have bounded := RecencyList.Bounded.serveAll (RecencyList.newBounded capacity timeToLive) calls
  rw [RecencyList.Bounded, limits.1] at bounded
  refine ⟨same, ?_, mirrors.sizeAlike, fun limited => mirrors.sizeAlike ▸ bounded limited, ordered.stampsDistinct, ?_,
    ?_, ?_⟩
  · rw [entries, List.map_map]
    exact ordered.unique
  · rw [ordered.leastRecent (.refl _), entries, List.getLast?_map, Option.map_map]
    rfl
  · intro keep order other
    rw [(ordered.orderedFilter keep).leastRecent other, (ordered.orderedFilter keep).leastRecent (.refl _)]
  · intro now key value found
    rw [(mirrors.mirrorsGet now key).1] at found
    obtain ⟨entry, known, rfl, live⟩ := RecencyList.getLive found
    obtain ⟨member, rfl⟩ := RecencyList.findMem known
    refine ⟨entry.insertedAt, stands entry member, fun limit expires => ?_⟩
    rw [RecencyList.isLive, limits.2] at live
    change timeToLive.all _ = true at live
    rw [expires] at live
    exact of_decide_eq_true live

end RecencyCache

end Vdag
