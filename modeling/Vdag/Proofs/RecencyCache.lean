import Vdag.RecencyCache

/-! Caches remember nothing of their own: whatever holds of all that is put in holds of all that stays. -/
namespace Vdag.RecencyCache

variable {κ ν : Type}

def Holds (P : κ → ν → Prop) (cache : RecencyCache κ ν) : Prop := ∀ entry ∈ cache.entries, P entry.1 entry.2.value

variable {P : κ → ν → Prop} {cache : RecencyCache κ ν}

theorem holdsNew (capacity : Nat) (timeToLive : Option Nat) : Holds P (new capacity timeToLive) := by
  simp [Holds, new]

theorem Holds.holdsFewer (holds : cache.Holds P) {fewer : RecencyCache κ ν} (subset : fewer.entries ⊆ cache.entries) :
    fewer.Holds P := fun entry member => holds entry (subset member)

theorem Holds.mono {Q : κ → ν → Prop} (holds : cache.Holds P) (weaker : ∀ key value, P key value → Q key value) :
    cache.Holds Q := fun entry member => weaker _ _ (holds entry member)

theorem Holds.holdsBoth {Q : κ → ν → Prop} (holds : cache.Holds P) (holds' : cache.Holds Q) :
    cache.Holds (fun key value => P key value ∧ Q key value) :=
      fun entry member => ⟨holds entry member, holds' entry member⟩

theorem Holds.dropWhere {dropped : κ → Bool}
    (holds : cache.Holds (fun key value => dropped key = false → P key value)) :
    (cache.invalidateWhere dropped).2.Holds P := by
  intro entry member
  obtain ⟨known, kept⟩ := List.mem_filter.mp member
  exact holds entry known (by simpa using kept)

theorem Holds.invalidateWhere (holds : cache.Holds P) (dropped : κ → Bool) :
    (cache.invalidateWhere dropped).2.Holds P :=
  Holds.dropWhere (holds.mono (fun _ _ own _ => own))

variable [DecidableEq κ]

theorem Holds.holdsEntry (holds : cache.Holds P) {key : κ} {entry : CacheEntry ν}
    (found : cache.entry? key = some entry) : P key entry.value := by
  obtain ⟨⟨own, _⟩, member, rfl⟩ := Option.map_eq_some_iff.mp found
  have same : own = key := by simpa using List.find?_some member
  exact same ▸ holds _ (List.mem_of_find?_eq_some member)

theorem Holds.holdsWithout (holds : cache.Holds P) (key : κ) : (cache.without key).Holds P :=
  holds.holdsFewer List.filter_sublist.subset

theorem Holds.holdsGet (holds : cache.Holds P) (now : Nat) (key : κ) :
    (cache.get now key).2.Holds P ∧ ∀ value, (cache.get now key).1 = some value → P key value := by
  unfold RecencyCache.get
  cases found : cache.entry? key with
  | none => exact ⟨holds, nofun⟩
  | some entry =>
    dsimp only
    split
    · exact ⟨holds.holdsWithout key, nofun⟩
    · have own := holds.holdsEntry found
      refine ⟨fun other member => ?_, fun value same => Option.some.inj same ▸ own⟩
      obtain ⟨before, known, rfl⟩ := List.mem_map.mp member
      split
      · exact own
      · exact holds before known

theorem Holds.dropOldest (holds : cache.Holds P) (count : Nat) : (cache.dropOldest count).Holds P := by
  induction count generalizing cache with
  | zero => exact holds
  | succ count ih =>
    refine ih ?_
    unfold dropLeastRecent
    split
    · exact holds.holdsWithout _
    · exact holds

theorem Holds.makeRoom (holds : cache.Holds P) (now : Nat) : (cache.makeRoom now).Holds P := by
  unfold RecencyCache.makeRoom
  split
  · exact holds
  · exact Holds.dropOldest (holds.holdsFewer List.filter_sublist.subset) _

theorem Holds.holdsReplace {key : κ} (holds : cache.Holds (fun other value => other ≠ key → P other value)) (now : Nat)
    {value : ν} (own : P key value) : (cache.insert now key value).Holds P := by
  have roomy : (if (cache.entry? key).isSome then cache else cache.makeRoom now).Holds
      (fun other value => other ≠ key → P other value) := by
    split
    · exact holds
    · exact holds.makeRoom now
  intro entry member
  rcases List.mem_cons.mp member with rfl | member
  · exact own
  · obtain ⟨known, other⟩ := List.mem_filter.mp member
    exact roomy entry known (by simpa using other)

theorem Holds.holdsInsert (holds : cache.Holds P) (now : Nat) {key : κ} {value : ν} (own : P key value) :
    (cache.insert now key value).Holds P :=
  Holds.holdsReplace (holds.mono (fun _ _ kept _ => kept)) now own

theorem Holds.holdsInvalidate (holds : cache.Holds P) (key : κ) : (cache.invalidate key).2.Holds P :=
  holds.holdsWithout key

theorem entryDropped (cache : RecencyCache κ ν) (dropped : κ → Bool) (key : κ) :
    entry? (cache.invalidateWhere dropped).2 key = if dropped key then none else cache.entry? key := by
  rw [RecencyCache.invalidateWhere, entry?, List.find?_filter]
  split
  · rename_i gone
    rw [List.find?_eq_none.mpr, Option.map_none]
    intro entry _
    by_cases own : entry.1 = key
    · simp [own, gone]
    · simp [own]
  · rename_i kept
    have same : (fun entry : κ × CacheEntry ν => decide ((!dropped entry.1) = true ∧ (entry.1 == key) = true)) =
        fun entry => entry.1 == key := by
      funext entry
      by_cases own : entry.1 = key
      · simp [own, kept]
      · simp [own]
    rw [same, entry?]

theorem entryWithout (cache : RecencyCache κ ν) (key other : κ) :
    entry? (cache.without key) other = if other = key then none else cache.entry? other := by
  have dropped := entryDropped cache (fun known => known == key) other
  simp only [beq_iff_eq] at dropped
  exact dropped

theorem entryGot (cache : RecencyCache κ ν) (now : Nat) {key other : κ} (apart : other ≠ key) :
    entry? (cache.get now key).2 other = cache.entry? other := by
  unfold RecencyCache.get
  cases found : cache.entry? key with
  | none => rfl
  | some entry =>
    dsimp only
    split
    · rw [entryWithout, if_neg apart]
    · unfold entry?
      rw [List.find?_map, Option.map_map]
      have same : (fun known : κ × CacheEntry ν => known.1 == other) ∘ (fun known =>
          if known.1 = key then (key, { entry with lastUse := cache.uses + 1 }) else known) =
            fun known => known.1 == other := by
        funext known
        by_cases own : known.1 = key
        · simp [own]
        · simp [own]
      rw [same]
      cases looked : cache.entries.find? (fun known => known.1 == other) with
      | none => rfl
      | some known =>
        have own : known.1 = other := by simpa using List.find?_some looked
        simp [own, apart]

theorem entryNone {key : κ} : cache.entry? key = none ↔ cache.Holds (fun other _ => other ≠ key) := by
  unfold entry?
  rw [Option.map_eq_none_iff, List.find?_eq_none]
  simp [Holds]

theorem getFound {now : Nat} {key : κ} {value : ν} : (cache.get now key).1 = some value ↔
    ∃ entry, cache.entry? key = some entry ∧ cache.hasExpired now entry = false ∧ entry.value = value := by
  unfold RecencyCache.get
  cases found : cache.entry? key with
  | none => simp
  | some entry => cases expired : cache.hasExpired now entry <;> simp [expired]

theorem getLost {now : Nat} {key : κ} (lost : (cache.get now key).1 = none) :
    entry? (cache.get now key).2 key = none := by
  unfold RecencyCache.get at lost ⊢
  cases found : cache.entry? key with
  | none => exact found
  | some entry =>
    simp only [found] at lost ⊢
    split at lost
    · rename_i expired
      rw [if_pos expired, entryWithout, if_pos rfl]
    · cases lost

end Vdag.RecencyCache
