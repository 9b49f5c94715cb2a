import Vdag.Order

/-! Finite maps kept as lists in strictly ascending key order, so that two maps with the same entries
are the same value and iteration order is the key order. -/
namespace Vdag

structure SortedMap (κ ν : Type) [KeyOrder κ] where
  entries : List (κ × ν)
  ascending : entries.Pairwise (fun a b => KeyOrder.Before a.1 b.1)

namespace SortedMap

open KeyOrder

section Lists
variable {κ ν : Type} [KeyOrder κ]

def insertEntry (key : κ) (value : ν) : List (κ × ν) → List (κ × ν)
  | [] => [(key, value)]
  | entry :: rest =>
      if Before key entry.1 then (key, value) :: entry :: rest
      else if Before entry.1 key then entry :: insertEntry key value rest
      else (key, value) :: rest

theorem memInsertEntry {key : κ} {value : ν} {list : List (κ × ν)} {entry : κ × ν}
    (h : entry ∈ insertEntry key value list) : entry = (key, value) ∨ entry ∈ list := by
  induction list with
  | nil => simpa [insertEntry] using h
  | cons head rest ih =>
      unfold insertEntry at h
      split at h
      · simpa using h
      · split at h
        · rcases List.mem_cons.mp h with h | h
          · exact .inr (h ▸ List.mem_cons_self)
          · exact (ih h).imp_right (List.mem_cons_of_mem head)
        · rcases List.mem_cons.mp h with h | h
          · exact .inl h
          · exact .inr (List.mem_cons_of_mem head h)

theorem ascendingInsertEntry {key : κ} {value : ν} {list : List (κ × ν)}
    (h : list.Pairwise (fun a b => Before a.1 b.1)) :
    (insertEntry key value list).Pairwise (fun a b => Before a.1 b.1) := by
  induction list with
  | nil => simp [insertEntry]
  | cons head rest ih =>
      obtain ⟨first, tail⟩ := List.pairwise_cons.mp h
      unfold insertEntry
      split
      · rename_i before
        refine List.pairwise_cons.mpr ⟨fun entry member => ?_, h⟩
        rcases List.mem_cons.mp member with rfl | member
        · exact before
        · exact trans before (first entry member)
      · split
        · rename_i after
          refine List.pairwise_cons.mpr ⟨fun entry member => ?_, ih tail⟩
          rcases memInsertEntry member with rfl | member
          · exact after
          · exact first entry member
        · rename_i before after
          have same : key = head.1 := connected before after
          exact List.pairwise_cons.mpr ⟨fun entry member => same ▸ first entry member, tail⟩

def lookup (key : κ) : List (κ × ν) → Option ν
  | [] => none
  | entry :: rest =>
      if Before key entry.1 then none
      else if Before entry.1 key then lookup key rest
      else some entry.2

theorem lookupInsertSelf (key : κ) (value : ν) (list : List (κ × ν)) :
    lookup key (insertEntry key value list) = some value := by
  induction list with
  | nil => simp [insertEntry, lookup, KeyOrder.irrefl]
  | cons head rest ih =>
      unfold insertEntry
      split
      · simp [lookup, KeyOrder.irrefl]
      · split
        · rename_i before after
          simp [lookup, before, after, ih]
        · simp [lookup, KeyOrder.irrefl]

theorem lookupInsertOther {key other : κ} (value : ν) (list : List (κ × ν)) (ne : other ≠ key) :
    lookup other (insertEntry key value list) = lookup other list := by
  induction list with
  | nil =>
      simp only [insertEntry, lookup]
      split
      · rfl
      · split
        · rfl
        · rename_i before after; exact absurd (connected before after) ne
  | cons head rest ih =>
      unfold insertEntry
      split
      · rename_i keyFirst
        by_cases before : Before other key
        · have : Before other head.1 := trans before keyFirst
          simp [lookup, before, this]
        · by_cases after : Before key other
          · simp [lookup, before, after]
          · exact absurd (connected before after) ne
      · split
        · simp only [lookup, ih]
        · rename_i before after
          have same : key = head.1 := connected before after
          by_cases first : Before other key
          · simp [lookup, first, ← same]
          · by_cases second : Before key other
            · simp [lookup, first, second, ← same]
            · exact absurd (connected first second) ne

theorem lookupSomeIff {key : κ} {value : ν} {list : List (κ × ν)}
    (h : list.Pairwise (fun a b => Before a.1 b.1)) :
    lookup key list = some value ↔ (key, value) ∈ list := by
  induction list with
  | nil => simp [lookup]
  | cons head rest ih =>
      obtain ⟨first, tail⟩ := List.pairwise_cons.mp h
      unfold lookup
      split
      · rename_i before
        constructor
        · intro none; cases none
        · intro member
          rcases List.mem_cons.mp member with same | member
          · exact absurd before (same ▸ KeyOrder.irrefl _)
          · exact absurd (first _ member) (asymm before)
      · rename_i before
        split
        · rename_i after
          rw [ih tail, List.mem_cons]
          constructor
          · exact .inr
          · rintro (same | member)
            · exact absurd after (same ▸ KeyOrder.irrefl _)
            · exact member
        · rename_i after
          have same : key = head.1 := connected before after
          constructor
          · intro found
            cases found
            exact List.mem_cons.mpr (.inl (Prod.ext same rfl))
          · intro member
            rcases List.mem_cons.mp member with found | member
            · rw [← found]
            · exact absurd (first _ member) after

end Lists

variable {κ ν : Type} [KeyOrder κ]

theorem ext {a b : SortedMap κ ν} (h : a.entries = b.entries) : a = b := by
  cases a; cases b; cases h; rfl

instance [DecidableEq κ] [DecidableEq ν] : DecidableEq (SortedMap κ ν) := fun a b =>
  decidable_of_iff (a.entries = b.entries) ⟨ext, congrArg entries⟩

instance [Repr κ] [Repr ν] : Repr (SortedMap κ ν) := ⟨fun map n => reprPrec map.entries n⟩

def empty : SortedMap κ ν := ⟨[], .nil⟩

instance : Inhabited (SortedMap κ ν) := ⟨empty⟩

def insert (map : SortedMap κ ν) (key : κ) (value : ν) : SortedMap κ ν :=
  ⟨insertEntry key value map.entries, ascendingInsertEntry map.ascending⟩

def ofList (list : List (κ × ν)) : SortedMap κ ν :=
  list.foldl (fun map entry => map.insert entry.1 entry.2) empty

def find? (map : SortedMap κ ν) (key : κ) : Option ν := lookup key map.entries

def contains (map : SortedMap κ ν) (key : κ) : Bool := (map.find? key).isSome

def erase (map : SortedMap κ ν) (key : κ) : SortedMap κ ν :=
  ⟨map.entries.filter (fun entry => Before entry.1 key ∨ Before key entry.1), map.ascending.filter _⟩

def filter (map : SortedMap κ ν) (keep : κ → ν → Bool) : SortedMap κ ν :=
  ⟨map.entries.filter (fun entry => keep entry.1 entry.2), map.ascending.filter _⟩

def mapValues {μ : Type} (map : SortedMap κ ν) (f : ν → μ) : SortedMap κ μ :=
  ⟨map.entries.map (fun entry => (entry.1, f entry.2)), List.pairwise_map.mpr map.ascending⟩

def keys (map : SortedMap κ ν) : List κ := map.entries.map (·.1)

def values (map : SortedMap κ ν) : List ν := map.entries.map (·.2)

def size (map : SortedMap κ ν) : Nat := map.entries.length

def isEmpty (map : SortedMap κ ν) : Bool := map.entries.isEmpty

def modify (map : SortedMap κ ν) (key : κ) (blank : ν) (f : ν → ν) : SortedMap κ ν :=
  map.insert key (f ((map.find? key).getD blank))

@[simp] theorem findEmpty (key : κ) : (empty : SortedMap κ ν).find? key = none := rfl

@[simp] theorem findInsertSelf (map : SortedMap κ ν) (key : κ) (value : ν) :
    (map.insert key value).find? key = some value := lookupInsertSelf key value map.entries

theorem findInsertOther (map : SortedMap κ ν) {key other : κ} (value : ν) (ne : other ≠ key) :
    (map.insert key value).find? other = map.find? other := lookupInsertOther value map.entries ne

theorem findSomeIff (map : SortedMap κ ν) {key : κ} {value : ν} :
    map.find? key = some value ↔ (key, value) ∈ map.entries := lookupSomeIff map.ascending

end SortedMap

def sortedKeys {κ : Type} [KeyOrder κ] (keys : List κ) : List κ :=
  (SortedMap.ofList (keys.map (·, ()))).keys

end Vdag
