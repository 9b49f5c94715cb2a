import Mathlib.Data.List.Forall2
import Mathlib.Data.List.Nodup
import Vdag.Json.Reading
import Vdag.Proofs.Outcome

/-! Which values a record is read from, when none of its parts may be left out: an object that has each part once, among
members that are no parts, or the list of the parts. -/
namespace Vdag.Json

def Value.Comprises (document : Value) (parts : List (String × (Value → Prop))) : Prop :=
  match document with
  | .object members => ∀ part ∈ parts, ∃ value,
      members.filter (fun entry => entry.1 == part.1) = [(part.1, value)] ∧ part.2 value
  | .array items => List.Forall₂ (fun part item => part.2 item) parts items
  | _ => False

structure RecordPart (ρ : Type) where
  {α : Type}
  name : String
  read : Source → Reading α
  put : ρ → α → ρ
  get : ρ → α

namespace RecordPart

variable {ρ : Type}

def field (part : RecordPart ρ) : FieldReader ρ := .mandatory part.name part.read part.put

def Stands (part : RecordPart ρ) (record : ρ) (value : Value) : Prop := part.read (.value value) = .ok (part.get record)

def Readable (part : RecordPart ρ) (value : Value) : Prop := ∃ a, part.read (.value value) = .ok a

structure Lawful (parts : List (RecordPart ρ)) : Prop where
  names : (parts.map RecordPart.name).Nodup
  own : ∀ part ∈ parts, ∀ record a, part.get (part.put record a) = a
  apart : ∀ part ∈ parts, ∀ other ∈ parts, other.name ≠ part.name →
    ∀ record a, other.get (part.put record a) = other.get record
  whole : ∀ {record other : ρ}, (∀ part ∈ parts, part.get record = part.get other) → record = other

variable {parts : List (RecordPart ρ)}

def among (part : RecordPart ρ) (members : List (String × Value)) : List (String × Value) :=
  members.filter (fun entry => entry.1 == part.name)

@[simp] theorem amongOwn (part : RecordPart ρ) (value : Value) (rest : List (String × Value)) :
    part.among ((part.name, value) :: rest) = (part.name, value) :: part.among rest := by simp [among]

theorem amongOther {part : RecordPart ρ} {key : String} (apart : part.name ≠ key) (value : Value)
    (rest : List (String × Value)) : part.among ((key, value) :: rest) = part.among rest := by
  simp [among, Ne.symm apart]

def Fits (part : RecordPart ρ) (members : List (String × Value)) (seen : List String) : Prop :=
  part.among members = [] ∨
    part.name ∉ seen ∧ ∃ value, part.among members = [(part.name, value)] ∧ part.Readable value

theorem readOk {part : RecordPart ρ} {source : Source} {before after : ρ} :
    part.field.read source before = .ok after ↔ ∃ a, part.read source = .ok a ∧ part.put before a = after := by
  show (part.read source >>= fun a => .ok (part.put before a)) = .ok after ↔ _
  rw [Outcome.bindOk]
  simp

theorem noPart {key : String} (strange : ∀ part ∈ parts, part.name ≠ key) :
    (parts.map RecordPart.field).find? (fun field => field.name == key) = none :=
  List.find?_eq_none.mpr (List.forall_mem_map.mpr fun part member => by
    rw [beq_iff_eq]
    exact strange part member)

namespace Lawful

variable (lawful : Lawful parts)
include lawful

theorem sameName {part other : RecordPart ρ} (member : part ∈ parts) (member' : other ∈ parts)
    (same : other.name = part.name) : other = part :=
  List.inj_on_of_nodup_map lawful.names member' member same

theorem fieldNamed {part : RecordPart ρ} (member : part ∈ parts) :
    (parts.map RecordPart.field).find? (fun field => field.name == part.name) = some part.field := by
  cases found : (parts.map RecordPart.field).find? (fun field => field.name == part.name) with
  | none =>
    have absent := List.find?_eq_none.mp found part.field (List.mem_map_of_mem member)
    exact absurd (beq_self_eq_true part.name) absent
  | some field =>
    obtain ⟨other, member', rfl⟩ := List.mem_map.mp (List.mem_of_find?_eq_some found)
    have same : other.name = part.name := beq_iff_eq.mp (List.find?_some found :)
    rw [lawful.sameName member member' same]

theorem memberIff {key : String} {source : Source} {rest : List (Option String × Source)} {seen : List String}
    {before : ρ} {result : List String × ρ} :
    FieldReader.readMembers (parts.map RecordPart.field) FieldReader.ignore ((some key, source) :: rest) seen before =
        .ok result ↔
      ((∀ part ∈ parts, part.name ≠ key) ∧
        FieldReader.readMembers (parts.map RecordPart.field) FieldReader.ignore rest seen before = .ok result) ∨
      ∃ part ∈ parts, part.name = key ∧ key ∉ seen ∧ ∃ a, part.read source = .ok a ∧
        FieldReader.readMembers (parts.map RecordPart.field) FieldReader.ignore rest (key :: seen) (part.put before a) =
          .ok result := by
  rw [FieldReader.readMembers]
  by_cases known : ∃ part ∈ parts, part.name = key
  · obtain ⟨part, member, rfl⟩ := known
    rw [lawful.fieldNamed member]
    dsimp only
    constructor
    · intro ok
      split at ok
      · cases ok
      · rename_i fresh
        obtain ⟨next, read, ok⟩ := Outcome.bindOk.mp ok
        obtain ⟨a, got, rfl⟩ := readOk.mp read
        exact .inr ⟨part, member, rfl, fresh, a, got, ok⟩
    · rintro (⟨strange, -⟩ | ⟨other, member', same, fresh, a, got, ok⟩)
      · exact absurd rfl (strange part member)
      · obtain rfl := lawful.sameName member member' same
        rw [if_neg fresh]
        exact Outcome.bindOk.mpr ⟨_, readOk.mpr ⟨a, got, rfl⟩, ok⟩
  · have strange : ∀ part ∈ parts, part.name ≠ key := fun part member same => known ⟨part, member, same⟩
    rw [noPart strange]
    constructor
    · exact fun ok => .inl ⟨strange, ok⟩
    · rintro (⟨-, ok⟩ | ⟨part, member, same, -⟩)
      · exact ok
      · exact absurd same (strange part member)

theorem foundOnce {members : List (String × Value)} {seen : List String} {before : ρ} {result : List String × ρ}
    (ok : FieldReader.readMembers (parts.map RecordPart.field) FieldReader.ignore
      (members.map (fun entry => (some entry.1, .value entry.2))) seen before = .ok result)
    {part : RecordPart ρ} (member : part ∈ parts) :
    (part.among members = [] ∧ part.get result.2 = part.get before ∧ (part.name ∈ result.1 ↔ part.name ∈ seen)) ∨
      part.name ∉ seen ∧ part.name ∈ result.1 ∧
        ∃ value, part.among members = [(part.name, value)] ∧ part.Stands result.2 value := by
  induction members generalizing seen before with
  | nil =>
    cases ok
    exact .inl ⟨rfl, rfl, Iff.rfl⟩
  | cons entry rest ih =>
    obtain ⟨key, value⟩ := entry
    rcases lawful.memberIff.mp ok with ⟨strange, ok⟩ | ⟨other, member', rfl, fresh, a, got, ok⟩
    · rw [amongOther (strange part member)]
      exact ih ok
    · by_cases same : other = part
      · subst other
        rcases ih ok with ⟨none, stays, taken⟩ | ⟨unseen, -⟩
        · have stands : part.Stands result.2 value := by rw [Stands, stays, lawful.own part member, got]
          exact .inr ⟨fresh, taken.mpr List.mem_cons_self, value, by rw [amongOwn, none], stands⟩
        · exact absurd List.mem_cons_self unseen
      · have differs : part.name ≠ other.name := fun named => same (lawful.sameName member member' named.symm)
        have later := ih ok
        rw [lawful.apart other member' part member differs, List.mem_cons, or_iff_right differs] at later
        rwa [amongOther differs]

theorem readsFitting {members : List (String × Value)} {seen : List String}
    (fit : ∀ part ∈ parts, part.Fits members seen)
    (before : ρ) : ∃ result, FieldReader.readMembers (parts.map RecordPart.field) FieldReader.ignore
      (members.map (fun entry => (some entry.1, .value entry.2))) seen before = .ok result := by
  induction members generalizing seen before with
  | nil => exact ⟨_, rfl⟩
  | cons entry rest ih =>
    obtain ⟨key, value⟩ := entry
    by_cases known : ∃ part ∈ parts, part.name = key
    · obtain ⟨part, member, rfl⟩ := known
      obtain ⟨fresh, alone, a, got⟩ : part.name ∉ seen ∧ part.among rest = [] ∧ part.Readable value := by
        rcases fit part member with none | ⟨fresh, first, only, readable⟩
        · simp at none
        · obtain ⟨rfl, alone⟩ : value = first ∧ part.among rest = [] := by simpa using only
          exact ⟨fresh, alone, readable⟩
      have later : ∀ other ∈ parts, other.Fits rest (part.name :: seen) := by
        intro other member'
        by_cases same : other.name = part.name
        · rw [lawful.sameName member member' same]
          exact .inl alone
        · rw [Fits, List.mem_cons, or_iff_right same, ← amongOther same value]
          exact fit other member'
      obtain ⟨result, ok⟩ := ih later (part.put before a)
      exact ⟨result, lawful.memberIff.mpr (.inr ⟨part, member, rfl, fresh, a, got, ok⟩)⟩
    · have strange : ∀ part ∈ parts, part.name ≠ key := fun part member same => known ⟨part, member, same⟩
      have later : ∀ part ∈ parts, part.Fits rest seen := fun part member => by
        rw [Fits, ← amongOther (strange part member) value]
        exact fit part member
      obtain ⟨result, ok⟩ := ih later before
      exact ⟨result, lawful.memberIff.mpr (.inl ⟨strange, ok⟩)⟩

theorem objectIff {members : List (String × Value)} {blank record : ρ} :
    FieldReader.readObject (parts.map RecordPart.field) FieldReader.ignore blank (.value (.object members)) =
      .ok record ↔ ∀ part ∈ parts, ∃ value, part.among members = [(part.name, value)] ∧ part.Stands record value := by
  constructor
  · intro ok part member
    obtain ⟨listed, taken, ok⟩ := Outcome.bindOk.mp ok
    cases taken
    obtain ⟨⟨seen, found⟩, read, ok⟩ := Outcome.bindOk.mp ok
    dsimp only at ok
    split at ok
    · rename_i complete
      cases ok
      have there : part.name ∈ seen := by
        have filled : decide (part.name ∈ seen) = true :=
          List.all_eq_true.mp complete part.field (List.mem_map_of_mem member)
        exact of_decide_eq_true filled
      rcases lawful.foundOnce read member with ⟨-, -, taken⟩ | ⟨-, -, stands⟩
      · exact absurd (taken.mp there) List.not_mem_nil
      · exact stands
    · cases ok
  · intro once
    have fit : ∀ part ∈ parts, part.Fits members [] := fun part member =>
      .inr ⟨List.not_mem_nil, (once part member).imp fun _ stands => ⟨stands.1, _, stands.2⟩⟩
    obtain ⟨⟨seen, other⟩, read⟩ := lawful.readsFitting fit blank
    have each : ∀ part ∈ parts, part.name ∈ seen ∧ part.get other = part.get record := by
      intro part member
      obtain ⟨value, only, stands⟩ := once part member
      rcases lawful.foundOnce read member with ⟨none, -⟩ | ⟨-, there, value', only', stands'⟩
      · simp [only] at none
      · obtain rfl : value' = value := by simpa [only] using only'.symm
        exact ⟨there, Except.ok.inj (stands'.symm.trans stands)⟩
    have complete : (parts.map RecordPart.field).all (fun field => !field.required || field.name ∈ seen) = true :=
      List.all_eq_true.mpr (List.forall_mem_map.mpr fun part member => by
        simp [field, FieldReader.mandatory, each part member])
    refine Outcome.bindOk.mpr ⟨_, rfl, Outcome.bindOk.mpr ⟨_, read, ?_⟩⟩
    dsimp only
    rw [if_pos complete, lawful.whole fun part member => (each part member).2]

theorem itemsFound {some : List (RecordPart ρ)} (names : (some.map RecordPart.name).Nodup)
    (own : ∀ part ∈ some, part ∈ parts) {items : List Value} {before after : ρ}
    (ok : FieldReader.readItems (some.map RecordPart.field) (items.map .value) before = .ok after) :
    List.Forall₂ (fun part item => part.Stands after item) some items ∧
      ∀ part ∈ parts, part.name ∉ some.map RecordPart.name → part.get after = part.get before := by
  induction some generalizing items before with
  | nil =>
    cases items with
    | nil =>
      cases ok
      exact ⟨.nil, fun _ _ _ => rfl⟩
    | cons item items => cases ok
  | cons part rest ih =>
    obtain ⟨member, own⟩ := List.forall_mem_cons.mp own
    obtain ⟨fresh, names⟩ := List.nodup_cons.mp names
    cases items with
    | nil => cases ok
    | cons item items =>
      obtain ⟨next, read, ok⟩ := Outcome.bindOk.mp ok
      obtain ⟨a, got, rfl⟩ := readOk.mp read
      obtain ⟨stand, others⟩ := ih names own ok
      have stands : part.Stands after item := by
        rw [Stands, others part member fresh, lawful.own part member, got]
      refine ⟨.cons stands stand, fun other member' absent => ?_⟩
      obtain ⟨differs, absent⟩ := not_or.mp (List.mem_cons.not.mp absent)
      rw [others other member' absent, lawful.apart part member other member' differs]

omit lawful in
theorem itemsRun {some : List (RecordPart ρ)} {items : List Value}
    (fine : List.Forall₂ (fun part item => part.Readable item) some items) (before : ρ) :
    ∃ after, FieldReader.readItems (some.map RecordPart.field) (items.map .value) before = .ok after := by
  induction fine generalizing before with
  | nil => exact ⟨before, rfl⟩
  | @cons part item some items readable _ ih =>
    obtain ⟨a, got⟩ := readable
    obtain ⟨after, ok⟩ := ih (part.put before a)
    exact ⟨after, Outcome.bindOk.mpr ⟨_, readOk.mpr ⟨a, got, rfl⟩, ok⟩⟩

theorem arrayIff {items : List Value} {blank record : ρ} :
    FieldReader.readItems (parts.map RecordPart.field) (items.map .value) blank = .ok record ↔
      List.Forall₂ (fun part item => part.Stands record item) parts items := by
  constructor
  · exact fun ok => (lawful.itemsFound lawful.names (fun _ => id) ok).1
  · intro stand
    obtain ⟨other, ok⟩ := itemsRun (stand.imp fun _ _ stands => ⟨_, stands⟩) blank
    have stand' := (lawful.itemsFound lawful.names (fun _ => id) ok).1
    have each : List.Forall₂ (fun part item => part.get other = part.get record ∧ part.Stands record item) parts
        items :=
      List.Forall₂.mp (fun _ _ stands stands' => ⟨Except.ok.inj (stands'.symm.trans stands), stands⟩) stand stand'
    rw [ok, lawful.whole ((List.forall₂_and_left _ _).mp each).1]

theorem readsIff {document : Value} {blank record : ρ} :
    FieldReader.readRecord (parts.map RecordPart.field) blank (.value document) = .ok record ↔
      document.Comprises (parts.map fun part =>
        (part.name, fun value => part.read (.value value) = .ok (part.get record))) := by
  cases document with
  | object members =>
    show FieldReader.readObject (parts.map RecordPart.field) FieldReader.ignore blank _ = _ ↔ _
    rw [lawful.objectIff, Value.Comprises, List.forall_mem_map]
    rfl
  | array items =>
    show FieldReader.readItems (parts.map RecordPart.field) (items.map .value) blank = _ ↔ _
    rw [lawful.arrayIff, Value.Comprises, List.forall₂_map_left_iff]
    rfl
  | null | bool _ | number _ | string _ => exact ⟨nofun, nofun⟩

end Lawful

end RecordPart

end Vdag.Json
