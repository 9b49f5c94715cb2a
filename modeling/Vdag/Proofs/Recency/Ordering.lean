import Mathlib.Data.List.Nodup
import Mathlib.Data.List.Perm.Basic
import Vdag.RecencyCache

/-! The order of use, which only the stamps of a cache tell. No two are the same, so the entry used longest ago is one
and the same in whatever order a cache keeps its entries. -/
namespace Vdag.RecencyCache

variable {κ ν : Type}

structure Ordered (cache : RecencyCache κ ν) (byUse : List (κ × CacheEntry ν)) : Prop where
  same : byUse.Perm cache.entries
  recent : byUse.Pairwise (fun a b => b.2.lastUse < a.2.lastUse)
  counted : ∀ entry ∈ byUse, entry.2.lastUse ≤ cache.uses
  unique : (byUse.map Prod.fst).Nodup

variable {cache : RecencyCache κ ν} {byUse : List (κ × CacheEntry ν)}

theorem Ordered.orderedFilter (ordered : cache.Ordered byUse) (keep : κ × CacheEntry ν → Bool) :
    { cache with entries := cache.entries.filter keep }.Ordered (byUse.filter keep) where
  same := ordered.same.filter keep
  recent := ordered.recent.filter keep
  counted entry member := ordered.counted entry (List.mem_of_mem_filter member)
  unique := ordered.unique.sublist (List.filter_sublist.map Prod.fst)

theorem Ordered.orderedUsed (ordered : cache.Ordered byUse) {key : κ} {entry : CacheEntry ν}
    {entries : List (κ × CacheEntry ν)} (fresh : key ∉ byUse.map Prod.fst) (now : entry.lastUse = cache.uses + 1)
    (same : ((key, entry) :: byUse).Perm entries) :
    { cache with entries, uses := cache.uses + 1 }.Ordered ((key, entry) :: byUse) where
  same := same
  recent := List.pairwise_cons.mpr
    ⟨fun other member => now ▸ Nat.lt_succ_of_le (ordered.counted other member), ordered.recent⟩
  counted := List.forall_mem_cons.mpr
    ⟨Nat.le_of_eq now, fun other member => Nat.le_succ_of_le (ordered.counted other member)⟩
  unique := List.nodup_cons.mpr ⟨fresh, ordered.unique⟩

/- One entry at most is used least recently, so looking for it in another order finds the same. -/
theorem leastOf {start : κ × CacheEntry ν} {list : List (κ × CacheEntry ν)} :
    ∃ least ∈ start :: list, leastRecent? (start :: list) = some least.1 ∧
      ∀ other ∈ start :: list, least.2.lastUse ≤ other.2.lastUse := by
  rw [leastRecent?]
  induction list generalizing start with
  | nil => exact ⟨start, List.mem_cons_self, rfl, by simp⟩
  | cons head rest ih =>
    rw [List.foldl_cons]
    obtain ⟨least, member, found, smallest⟩ :=
      @ih (if head.2.lastUse < start.2.lastUse then head else start)
    obtain ⟨first, later⟩ := List.forall_mem_cons.mp smallest
    refine ⟨least, ?_, found, ?_⟩
    · rcases List.mem_cons.mp member with same | member
      · rw [same]
        split <;> simp
      · exact List.mem_cons_of_mem _ (List.mem_cons_of_mem _ member)
    · refine List.forall_mem_cons.mpr ⟨?_, List.forall_mem_cons.mpr ⟨?_, later⟩⟩
      all_goals
        split at first
        all_goals omega

theorem Ordered.leastRecent (ordered : cache.Ordered byUse) {order : List (κ × CacheEntry ν)}
    (same : order.Perm cache.entries) : leastRecent? order = byUse.getLast?.map Prod.fst := by
  have alike : byUse.Perm order := ordered.same.trans same.symm
  cases order with
  | nil => rw [List.perm_nil.mp alike]; rfl
  | cons start rest =>
    obtain ⟨least, member, found, smallest⟩ := @leastOf κ ν start rest
    rcases List.eq_nil_or_concat byUse with rfl | ⟨before, last, rfl⟩
    · cases List.nil_perm.mp alike
    · rw [List.concat_eq_append] at *
      have least' := (List.mem_append.mp (alike.mem_iff.mpr member)).resolve_left (fun earlier => by
        have later := (List.pairwise_append.mp ordered.recent).2.2 least earlier last (List.mem_singleton.mpr rfl)
        have := smallest last (alike.mem_iff.mp (by simp))
        omega)
      rw [found, List.getLast?_concat, List.mem_singleton.mp least']
      rfl

variable [DecidableEq κ]

theorem Ordered.dropLeastRecent (ordered : cache.Ordered byUse) : cache.dropLeastRecent.Ordered byUse.dropLast := by
  unfold RecencyCache.dropLeastRecent
  rw [ordered.leastRecent (.refl _)]
  rcases List.eq_nil_or_concat byUse with rfl | ⟨before, last, rfl⟩
  · exact ordered
  · rw [List.concat_eq_append] at *
    have unique := ordered.unique
    rw [List.map_append] at unique
    have others : (before ++ [last]).filter (fun entry => entry.1 != last.1) = before := by
      rw [List.filter_append, List.filter_eq_self.mpr (fun entry member => ?_)]
      · simp
      · have apart := (List.nodup_append.mp unique).2.2 entry.1 (List.mem_map_of_mem member) last.1 (by simp)
        simpa using apart
    rw [List.getLast?_concat, List.dropLast_concat]
    exact others ▸ ordered.orderedFilter (fun entry => entry.1 != last.1)

theorem Ordered.dropOldest (ordered : cache.Ordered byUse) (count : Nat) :
    (cache.dropOldest count).Ordered (byUse.take (byUse.length - count)) := by
  induction count generalizing cache byUse with
  | zero => rwa [Nat.sub_zero, List.take_length]
  | succ count ih =>
    have fewer := ih ordered.dropLeastRecent
    rw [List.length_dropLast, List.dropLast_eq_take, List.take_take] at fewer
    rwa [show byUse.length - (count + 1) = min (byUse.length - 1 - count) (byUse.length - 1) by omega]

theorem Ordered.makeRoom (ordered : cache.Ordered byUse) (limited : cache.capacity ≠ 0) (now : Nat) :
    (cache.makeRoom now).Ordered
      ((byUse.filter (fun entry => !cache.hasExpired now entry.2)).take (cache.capacity - 1)) := by
  have live : (cache.dropExpired now).Ordered (byUse.filter (fun entry => !cache.hasExpired now entry.2)) :=
    ordered.orderedFilter _
  have roomy := live.dropOldest ((cache.dropExpired now).entries.length + 1 - cache.capacity)
  rw [← live.same.length_eq] at roomy
  rw [RecencyCache.makeRoom, if_neg limited]
  dsimp only
  rw [← live.same.length_eq]
  generalize byUse.filter (fun entry => !cache.hasExpired now entry.2) = left at roomy ⊢
  rcases Nat.le_total left.length (cache.capacity - 1) with all | more
  · rw [List.take_of_length_le all]
    rwa [List.take_of_length_le (by omega)] at roomy
  · rwa [show left.length - (left.length + 1 - cache.capacity) = cache.capacity - 1 by omega] at roomy

theorem findByKey {list : List (κ × CacheEntry ν)} (unique : (list.map Prod.fst).Nodup) {key : κ}
    {entry : κ × CacheEntry ν} :
    list.find? (fun other => other.1 == key) = some entry ↔ entry ∈ list ∧ entry.1 = key := by
  refine ⟨fun found => ⟨List.mem_of_find?_eq_some found, by simpa using List.find?_some found⟩, fun given => ?_⟩
  obtain ⟨member, rfl⟩ := given
  cases found : list.find? (fun other => other.1 == entry.1) with
  | none => simpa using List.find?_eq_none.mp found entry member
  | some other =>
    have same : other.1 = entry.1 := by simpa using List.find?_some found
    exact congrArg some (List.inj_on_of_nodup_map unique (List.mem_of_find?_eq_some found) member same)

theorem Ordered.findByUse (ordered : cache.Ordered byUse) (key : κ) :
    cache.entries.find? (fun other => other.1 == key) = byUse.find? (fun other => other.1 == key) := by
  have unique : (cache.entries.map Prod.fst).Nodup := (ordered.same.map Prod.fst).nodup_iff.mp ordered.unique
  ext entry
  rw [findByKey unique, findByKey ordered.unique, ordered.same.mem_iff]

theorem Ordered.orderedWithout (ordered : cache.Ordered byUse) (key : κ) :
    (cache.without key).Ordered (byUse.filter (fun entry => entry.1 != key)) := ordered.orderedFilter _

theorem freshFiltered (key : κ) : key ∉ (byUse.filter (fun entry => entry.1 != key)).map Prod.fst := by
  simp

theorem Ordered.touchedPerm (ordered : cache.Ordered byUse) {key : κ} {entry : CacheEntry ν}
    (member : (key, entry) ∈ byUse) (changed : CacheEntry ν) :
    ((key, changed) :: byUse.filter (fun other => other.1 != key)).Perm
      (cache.entries.map (fun other => if other.1 = key then (key, changed) else other)) := by
  refine List.Perm.trans ?_ (ordered.same.map _)
  have unique := ordered.unique
  clear ordered
  induction byUse with
  | nil => cases member
  | cons head rest ih =>
    obtain ⟨absent, unique⟩ := List.nodup_cons.mp unique
    by_cases own : head.1 = key
    · have apart : ∀ other ∈ rest, other.1 ≠ key := fun other within same =>
        absent (own ▸ same ▸ List.mem_map_of_mem within)
      have kept : rest.filter (fun other => other.1 != key) = rest :=
        List.filter_eq_self.mpr (fun other within => by simpa using apart other within)
      have still : rest.map (fun other => if other.1 = key then (key, changed) else other) = rest :=
        (List.map_congr_left (fun other within => if_neg (apart other within))).trans (List.map_id rest)
      rw [List.map_cons, if_pos own, still, List.filter_cons_of_neg (by simpa using own), kept]
    · have later : (key, entry) ∈ rest := (List.mem_cons.mp member).resolve_left (fun same => own (same ▸ rfl))
      rw [List.map_cons, if_neg own, List.filter_cons_of_pos (by simpa using own)]
      exact (List.Perm.swap head _ _).trans ((ih later unique).cons head)

end Vdag.RecencyCache
