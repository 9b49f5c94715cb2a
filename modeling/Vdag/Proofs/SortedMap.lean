import Mathlib.Data.List.Nodup
import Mathlib.Data.List.Perm.Subperm
import Vdag.SortedMap

/-! Sorted maps read through `find?`: what every operation does to every key. -/
namespace Vdag.SortedMap
open KeyOrder

variable {κ ν : Type} [KeyOrder κ]

theorem findInsert [DecidableEq κ] (map : SortedMap κ ν) (key other : κ) (value : ν) :
    (map.insert key value).find? other = if other = key then some value else map.find? other := by
  split
  · subst other; exact findInsertSelf map key value
  · exact findInsertOther map value (by assumption)

theorem findModify [DecidableEq κ] (map : SortedMap κ ν) (key other : κ) (blank : ν) (f : ν → ν) :
    (map.modify key blank f).find? other =
      if other = key then some (f ((map.find? key).getD blank)) else map.find? other :=
  findInsert map key other _

theorem memKeys {map : SortedMap κ ν} {key : κ} : key ∈ map.keys ↔ (map.find? key).isSome := by
  rw [Option.isSome_iff_exists, keys, List.mem_map]
  constructor
  · intro given
    obtain ⟨entry, member, rfl⟩ := given
    exact ⟨entry.2, (findSomeIff map).mpr member⟩
  · intro given
    obtain ⟨value, found⟩ := given
    exact ⟨(key, value), (findSomeIff map).mp found, rfl⟩

theorem keyFound {map : SortedMap κ ν} {key : κ} : key ∈ map.keys ↔ ∃ value, map.find? key = some value :=
  memKeys.trans Option.isSome_iff_exists

theorem keysInsert [DecidableEq κ] {map : SortedMap κ ν} {key other : κ} {value : ν} :
    other ∈ (map.insert key value).keys ↔ other = key ∨ other ∈ map.keys := by
  rw [memKeys, memKeys, findInsert]
  by_cases same : other = key <;> simp [same]

theorem keysAscending (map : SortedMap κ ν) : map.keys.Pairwise Before := List.pairwise_map.mpr map.ascending

theorem keysNodup (map : SortedMap κ ν) : map.keys.Nodup := (keysAscending map).imp neOfBefore

theorem pickedAscending (map : SortedMap κ ν) (pick : κ × ν → Bool) :
    ((map.entries.filter pick).map Prod.fst).Pairwise Before :=
  (keysAscending map).sublist (List.filter_sublist.map _)

theorem ascendingSame {list other : List κ} (ascending : list.Pairwise Before) (ascending' : other.Pairwise Before)
    (same : ∀ key, key ∈ list ↔ key ∈ other) : list = other := by
  have perm : list.Perm other :=
    (List.perm_ext_iff_of_nodup (ascending.imp neOfBefore) (ascending'.imp neOfBefore)).mpr same
  exact perm.eq_of_pairwise (fun a b _ _ before after => absurd after (KeyOrder.asymm before)) ascending ascending'

theorem sizeKeys (map : SortedMap κ ν) : map.size = map.keys.length := (List.length_map _).symm

theorem emptyKeys {map : SortedMap κ ν} : map.isEmpty = true ↔ map.keys = [] := by
  rw [isEmpty, List.isEmpty_iff, keys, List.map_eq_nil_iff]

theorem findErase [DecidableEq κ] (map : SortedMap κ ν) (key other : κ) :
    (map.erase key).find? other = if other = key then none else map.find? other := by
  have apart : ¬ (Before key key ∨ Before key key) := by simp [KeyOrder.irrefl]
  ext value
  rw [findSomeIff, erase, List.mem_filter, decide_eq_true_eq]
  split
  · subst other
    exact ⟨fun h => absurd h.2 apart, by simp⟩
  · rename_i ne
    have sides : Before other key ∨ Before key other := by
      by_contra neither
      exact ne (connected (fun h => neither (.inl h)) (fun h => neither (.inr h)))
    rw [findSomeIff]
    exact ⟨And.left, fun h => ⟨h, sides⟩⟩

theorem memOfFind {map : SortedMap κ ν} {key : κ} {value : ν} (found : map.find? key = some value) :
    key ∈ map.keys := memKeys.mpr (by simp [found])

theorem memOfList {list : List (κ × ν)} {entry : κ × ν} (member : entry ∈ (ofList list).entries) : entry ∈ list := by
  suffices ∀ map : SortedMap κ ν, entry ∈ (list.foldl (fun map entry => map.insert entry.1 entry.2) map).entries →
      entry ∈ list ∨ entry ∈ map.entries from (this empty member).resolve_right List.not_mem_nil
  clear member
  intro map member
  induction list generalizing map with
  | nil => exact .inr member
  | cons head rest ih =>
    rcases ih _ member with later | first
    · exact .inl (List.mem_cons_of_mem head later)
    · exact (memInsertEntry first).imp_left (fun same => List.mem_cons.mpr (.inl same))

theorem insertLast {list : List (κ × ν)} {key : κ} (value : ν) (last : ∀ entry ∈ list, Before entry.1 key) :
    insertEntry key value list = list ++ [(key, value)] := by
  induction list with
  | nil => rfl
  | cons entry rest ih =>
    have first := last entry List.mem_cons_self
    rw [insertEntry, if_neg (asymm first), if_pos first,
      ih (fun other member => last other (List.mem_cons_of_mem _ member))]
    rfl

theorem ofListAscending {list : List (κ × ν)} (ascending : (list.map Prod.fst).Pairwise Before) :
    (ofList list).entries = list := by
  suffices ∀ map : SortedMap κ ν, (map.entries ++ list).Pairwise (fun a b => Before a.1 b.1) →
      (list.foldl (fun map entry => map.insert entry.1 entry.2) map).entries = map.entries ++ list from
    this empty (List.pairwise_map.mp ascending)
  clear ascending
  intro map ascending
  induction list generalizing map with
  | nil => exact (List.append_nil _).symm
  | cons head rest ih =>
    have last : ∀ entry ∈ map.entries, Before entry.1 head.1 := fun entry member =>
      (List.pairwise_append.mp ascending).2.2 entry member head List.mem_cons_self
    have inserted : (map.insert head.1 head.2).entries = map.entries ++ [head] := insertLast head.2 last
    rw [List.foldl_cons, ih (map.insert head.1 head.2) (by rwa [inserted, List.append_assoc]), inserted,
      List.append_assoc]
    rfl

theorem ofListEntries (map : SortedMap κ ν) : ofList map.entries = map :=
  ext (ofListAscending (List.pairwise_map.mpr map.ascending))

theorem ofListFirst {list : List (κ × ν)} {key : κ} (value : ν)
    (ascending : (key :: list.map Prod.fst).Pairwise Before) :
    (ofList (list ++ [(key, value)])).entries = (key, value) :: list := by
  obtain ⟨first, later⟩ := List.pairwise_cons.mp ascending
  have known := ofListAscending later
  have inserted : (ofList (list ++ [(key, value)])).entries = insertEntry key value (ofList list).entries := by
    rw [ofList, List.foldl_append]
    rfl
  rw [inserted, known]
  cases list with
  | nil => rfl
  | cons entry rest => exact if_pos (first entry.1 List.mem_cons_self)

theorem insertPerm {list : List (κ × ν)} {key : κ} (value : ν) (fresh : ∀ entry ∈ list, entry.1 ≠ key) :
    (insertEntry key value list).Perm ((key, value) :: list) := by
  induction list with
  | nil => exact .refl _
  | cons entry rest ih =>
    obtain ⟨first, later⟩ := List.forall_mem_cons.mp fresh
    rw [insertEntry]
    split
    · exact .refl _
    · rename_i before
      split
      · exact ((ih later).cons entry).trans (.swap _ _ _)
      · rename_i after
        exact absurd (connected after before) first

theorem ofListPerm {list : List (κ × ν)} (unique : (list.map Prod.fst).Nodup) : (ofList list).entries.Perm list := by
  suffices ∀ map : SortedMap κ ν, (∀ entry ∈ list, ∀ other ∈ map.entries, other.1 ≠ entry.1) →
      (list.foldl (fun map entry => map.insert entry.1 entry.2) map).entries.Perm (list ++ map.entries) by
    have listed := this empty nofun
    rwa [show (empty : SortedMap κ ν).entries = [] from rfl, List.append_nil] at listed
  intro map fresh
  induction list generalizing map with
  | nil => exact .refl _
  | cons head rest ih =>
    obtain ⟨apart, unique⟩ := List.nodup_cons.mp unique
    obtain ⟨here, there⟩ := List.forall_mem_cons.mp fresh
    have inserted := insertPerm head.2 here
    refine (ih unique (map.insert head.1 head.2) (fun entry member other known => ?_)).trans ?_
    · rcases memInsertEntry known with rfl | old
      · exact fun same => apart (same ▸ List.mem_map_of_mem member)
      · exact there entry member other old
    · exact (inserted.append_left rest).trans List.perm_middle

theorem ofListReordered {list : List (κ × ν)} {map : SortedMap κ ν} (perm : list.Perm map.entries) :
    ofList list = map := by
  have unique : (list.map Prod.fst).Nodup := (perm.map Prod.fst).nodup_iff.mpr (keysNodup map)
  exact ext (((ofListPerm unique).trans perm).eq_of_pairwise
    (fun a b _ _ before after => absurd after (KeyOrder.asymm before)) (SortedMap.ascending (ofList list))
    map.ascending)

theorem ofListSorted {list sorted : List (κ × ν)} (ascending : (sorted.map Prod.fst).Pairwise Before)
    (listed : sorted ⊆ list) (size : list.length ≤ sorted.length) : (ofList list).entries = sorted := by
  have ordered : sorted.Pairwise (fun a b => Before a.1 b.1) := List.pairwise_map.mp ascending
  have distinct : sorted.Nodup := ordered.imp (fun before same => neOfBefore before (congrArg Prod.fst same))
  have perm : sorted.Perm list := (distinct.subperm listed).perm_of_length_le size
  exact congrArg entries (ofListReordered (show list.Perm (SortedMap.mk sorted ordered).entries from perm.symm))

theorem mapValuesSame {map : SortedMap κ ν} {f : ν → ν} :
    map.mapValues f = map ↔ ∀ entry ∈ map.entries, f entry.2 = entry.2 := by
  constructor
  · intro same entry member
    have listed : map.entries.map (fun entry => (entry.1, f entry.2)) = map.entries.map id :=
      (congrArg SortedMap.entries same).trans (List.map_id _).symm
    exact congrArg Prod.snd (List.map_inj_left.mp listed entry member)
  · intro each
    refine ext ((List.map_congr_left (fun entry member => ?_)).trans (List.map_id map.entries))
    exact Prod.ext rfl (each entry member)

theorem ofListRelisted {μ ω : Type} [KeyOrder μ] (map : SortedMap κ ν) (name : κ → μ) (key : μ → κ) (word : ν → ω)
    (value : ω → ν) (named : ∀ entry ∈ map.entries, key (name entry.1) = entry.1) :
    ofList ((ofList (map.entries.map (fun entry => (name entry.1, word entry.2)))).entries.map
      (fun entry => (key entry.1, value entry.2))) = map.mapValues (fun held => value (word held)) := by
  have unique : ((map.entries.map (fun entry => (name entry.1, word entry.2))).map Prod.fst).Nodup := by
    have back : ∀ a ∈ map.keys, key (name a) = a := List.forall_mem_map.mpr named
    have distinct : (map.keys.map name).Nodup :=
      (keysNodup map).map_on (fun a first b second same => by rw [← back a first, ← back b second, same])
    rw [List.map_map]
    rwa [SortedMap.keys, List.map_map] at distinct
  refine ofListReordered (((ofListPerm unique).map _).trans (.of_eq ?_))
  rw [List.map_map]
  exact List.map_congr_left (fun entry member => Prod.ext (named entry member) rfl)

theorem keyUnlisted {map : SortedMap κ ν} {key : κ} (fresh : map.find? key = none) :
    ∀ entry ∈ map.entries, entry.1 ≠ key := by
  intro entry member same
  have found := (findSomeIff map).mpr (show (key, entry.2) ∈ map.entries from same ▸ member)
  rw [fresh] at found
  cases found

theorem insertBetween {map : SortedMap κ ν} {key : κ} (value : ν) (fresh : map.find? key = none) :
    ∃ before after, map.entries = before ++ after ∧
    (map.insert key value).entries = before ++ (key, value) :: after := by
  suffices ∀ list : List (κ × ν), (∀ entry ∈ list, entry.1 ≠ key) →
      ∃ before after, list = before ++ after ∧ insertEntry key value list = before ++ (key, value) :: after from
    this map.entries (keyUnlisted fresh)
  intro list unlisted
  induction list with
  | nil => exact ⟨[], [], rfl, rfl⟩
  | cons entry rest ih =>
    obtain ⟨first, later⟩ := List.forall_mem_cons.mp unlisted
    rw [insertEntry]
    split
    · exact ⟨[], entry :: rest, rfl, rfl⟩
    · rename_i before
      split
      · obtain ⟨front, back, split, inserted⟩ := ih later
        exact ⟨entry :: front, back, congrArg (entry :: ·) split, congrArg (entry :: ·) inserted⟩
      · rename_i after
        exact absurd (connected after before) first

theorem findMapValues {μ : Type} (map : SortedMap κ ν) (f : ν → μ) (key : κ) :
    (map.mapValues f).find? key = (map.find? key).map f := by
  ext value
  rw [findSomeIff, mapValues, List.mem_map, Option.map_eq_some_iff]
  constructor
  · intro given
    obtain ⟨entry, member, same⟩ := given
    cases same
    exact ⟨entry.2, (findSomeIff map).mpr member, rfl⟩
  · intro given
    obtain ⟨old, found, rfl⟩ := given
    exact ⟨(key, old), (findSomeIff map).mp found, rfl⟩

end Vdag.SortedMap
