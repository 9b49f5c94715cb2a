import Vdag.Proofs.Json.Nesting
import Vdag.Proofs.Outcome

/-! What is read keeps what holds of everything there is to read: members in key order, in text and in values that are
in order themselves. -/
namespace Vdag.Json

section Ordered

theorem orderedRecord {members : List (String × Value)} (each : ∀ entry ∈ members, entry.2.ordered = true) :
    (Value.record members).ordered = true :=
  orderedObject.mpr ⟨SortedMap.keysAscending _, fun entry member => each entry (SortedMap.memOfList member)⟩

theorem orderedMap {α : Type} {f : α → Value} {map : SortedMap String α}
    (each : ∀ entry ∈ map.entries, (f entry.2).ordered = true) : (Value.ofMap f map).ordered = true := by
  refine orderedObject.mpr ⟨SortedMap.keysAscending _, fun entry member => ?_⟩
  obtain ⟨before, known, rfl⟩ := List.mem_map.mp member
  exact each before known

theorem orderedList {α : Type} {f : α → Value} {list : List α} (each : ∀ a ∈ list, (f a).ordered = true) :
    (Value.array (list.map f)).ordered = true :=
  orderedArray.mpr (List.forall_mem_map.mpr each)

end Ordered

/- Text puts what it holds in order; a value has to be in order already. -/
def Source.sound : Source → Prop
  | .text _ _ => True
  | .value found => found.ordered = true

def Keeps {α : Type} (P : α → Prop) (read : Source → Reading α) : Prop :=
  ∀ source, source.sound → ∀ found, read source = .ok found → P found

theorem insertKept {α : Type} {P : α → Prop} {map : SortedMap String α} (kept : ∀ entry ∈ map.entries, P entry.2)
    (key : String) {value : α} (added : P value) : ∀ entry ∈ (map.insert key value).entries, P entry.2 := by
  intro entry member
  rcases SortedMap.memInsertEntry member with rfl | old
  · exact added
  · exact kept entry old

section Trees

mutual

theorem treeOrdered : (tree : Tree) → ∀ levels value, tree.value levels = .ok value → value.ordered = true
  | .null, levels, value, read => by
    rw [Tree.value] at read
    cases read
    rfl
  | .bool held, levels, value, read => by
    rw [Tree.value] at read
    cases read
    rfl
  | .number (some held), levels, value, read => by
    rw [Tree.value] at read
    cases read
    rfl
  | .string (some text), levels, value, read => by
    rw [Tree.value] at read
    cases read
    rfl
  | .array items, levels + 1, value, read => by
    rw [Tree.value] at read
    obtain ⟨values, listed, same⟩ := Outcome.bindOk.mp read
    cases same
    exact orderedArray.mpr (itemsOrdered items levels values listed)
  | .object members, levels + 1, value, read => by
    rw [Tree.value] at read
    obtain ⟨map, listed, same⟩ := Outcome.bindOk.mp read
    cases same
    exact orderedObject.mpr ⟨SortedMap.keysAscending map, membersOrdered members levels .empty map nofun listed⟩
  | .array items, 0, value, read | .object members, 0, value, read => by cases read
  | .number none, levels, value, read | .string none, levels, value, read | .broken, levels, value, read => by
    cases levels <;> cases read

theorem itemsOrdered : (items : List Tree) → ∀ levels values, itemValues levels items = .ok values →
    ∀ value ∈ values, value.ordered = true
  | [], levels, values, read => by
    cases read
    nofun
  | item :: rest, levels, values, read => by
    rw [itemValues] at read
    obtain ⟨value, first, read⟩ := Outcome.bindOk.mp read
    obtain ⟨others, later, same⟩ := Outcome.bindOk.mp read
    cases same
    exact List.forall_mem_cons.mpr ⟨treeOrdered item levels value first, itemsOrdered rest levels others later⟩

theorem membersOrdered : (members : List (Option String × Tree)) → ∀ levels (found map : SortedMap String Value),
    (∀ entry ∈ found.entries, entry.2.ordered = true) → memberValues levels members found = .ok map →
      ∀ entry ∈ map.entries, entry.2.ordered = true
  | [], levels, found, map, kept, read => by
    cases read
    exact kept
  | (none, _) :: _, levels, found, map, kept, read => by cases read
  | (some key, tree) :: rest, levels, found, map, kept, read => by
    rw [memberValues] at read
    obtain ⟨value, first, read⟩ := Outcome.bindOk.mp read
    have added := @insertKept Value (·.ordered = true) _ kept key _ (treeOrdered tree levels value first)
    exact membersOrdered rest levels (found.insert key value) map added read

end

end Trees

section Readers

variable {α : Type} {P : α → Prop} {read : Source → Reading α} {source : Source}

theorem itemsSound (sound : source.sound) {items : List Source} (listed : source.items = .ok items) :
    ∀ item ∈ items, item.sound := by
  unfold Source.items at listed
  split at listed
  · cases listed
    exact List.forall_mem_map.mpr (fun _ _ => trivial)
  · cases listed
  · cases listed
    exact List.forall_mem_map.mpr (orderedArray.mp sound)
  · cases listed

theorem membersSound (sound : source.sound) {members : List (Option String × Source)}
    (listed : source.members = .ok members) : ∀ entry ∈ members, entry.2.sound := by
  unfold Source.members at listed
  split at listed
  · cases listed
    exact List.forall_mem_map.mpr (fun _ _ => trivial)
  · cases listed
  · cases listed
    exact List.forall_mem_map.mpr (orderedObject.mp sound).2
  · cases listed

theorem keepsNothing : Keeps (fun _ => True) read := fun _ _ _ _ => trivial

theorem keepsAny : Keeps (·.ordered = true) Source.any := by
  intro source sound found ok
  cases source with
  | text levels tree => exact treeOrdered tree levels found ok
  | value held =>
    cases ok
    exact sound

theorem keepsList (keeps : Keeps P read) : Keeps (∀ value ∈ ·, P value) (Source.listOf read) := by
  intro source sound found ok
  rw [Source.listOf, Outcome.bindOk] at ok
  obtain ⟨items, listed, ok⟩ := ok
  have sources := itemsSound sound listed
  have made := Outcome.mapMEach ok
  clear listed ok
  induction made with
  | nil => nofun
  | cons first _ ih =>
    obtain ⟨here, there⟩ := List.forall_mem_cons.mp sources
    exact List.forall_mem_cons.mpr ⟨keeps _ here _ first, ih there⟩

theorem keepsMap (keeps : Keeps P read) : Keeps (fun map => ∀ entry ∈ map.entries, P entry.2) (Source.mapOf read) := by
  intro source sound found ok
  rw [Source.mapOf, Outcome.bindOk] at ok
  obtain ⟨members, listed, ok⟩ := ok
  have sources := membersSound sound listed
  have kept : ∀ entry ∈ (SortedMap.empty : SortedMap String α).entries, P entry.2 := nofun
  clear listed
  generalize (SortedMap.empty : SortedMap String α) = before at ok kept
  induction members generalizing before with
  | nil =>
    cases ok
    exact kept
  | cons member rest ih =>
    obtain ⟨key, held⟩ := member
    obtain ⟨here, there⟩ := List.forall_mem_cons.mp sources
    cases key with
    | none => cases ok
    | some key =>
      rw [Source.readEntries] at ok
      obtain ⟨value, first, ok⟩ := Outcome.bindOk.mp ok
      exact ih there (before.insert key value) ok (insertKept kept key (keeps held here value first))

theorem readTextKeeps (keeps : Keeps P read) {text : String} {found : α} (ok : readText read text = .ok found) :
    P found := by
  rw [readText] at ok
  cases parsed : Tree.ofText text with
  | mk tree left =>
    rw [parsed] at ok
    obtain ⟨value, got, whole⟩ := Outcome.bindOk.mp ok
    have kept := keeps (.text nestingLimit tree) trivial value got
    split at whole
    · cases whole
      exact kept
    · cases whole

end Readers

section Records

variable {ρ α : Type} {P : ρ → Prop}

def FieldReader.Safe (P : ρ → Prop) (field : FieldReader ρ) : Prop :=
  ∀ source, source.sound → ∀ before, P before → ∀ after, field.read source before = .ok after → P after

theorem defaultedSafe {Q : α → Prop} {read : Source → Reading α} (keeps : Keeps Q read) {put : ρ → α → ρ}
    (puts : ∀ record value, P record → Q value → P (put record value)) (name : String) :
    (FieldReader.defaulted name read put).Safe P := by
  intro source sound before kept after ok
  obtain ⟨value, got, same⟩ := Outcome.bindOk.mp ok
  cases same
  exact puts before value kept (keeps source sound value got)

def OtherSafe (P : ρ → Prop) (fields : List (FieldReader ρ)) (other : String → Source → ρ → Reading ρ) : Prop :=
  ∀ key, (∀ field ∈ fields, field.name ≠ key) → ∀ source, source.sound → ∀ before, P before →
    ∀ after, other key source before = .ok after → P after

theorem ignoreSafe (fields : List (FieldReader ρ)) : OtherSafe P fields FieldReader.ignore := by
  intro key _ source _ before kept after ok
  cases ok
  exact kept

variable {fields : List (FieldReader ρ)} (safe : ∀ field ∈ fields, field.Safe P)
include safe

theorem readItemsKeeps {sources : List Source} (sound : ∀ source ∈ sources, source.sound) {before after : ρ}
    (kept : P before) (ok : FieldReader.readItems fields sources before = .ok after) : P after := by
  induction fields generalizing sources before with
  | nil =>
    cases sources with
    | nil =>
      cases ok
      exact kept
    | cons source rest => cases ok
  | cons field fields ih =>
    obtain ⟨first, others⟩ := List.forall_mem_cons.mp safe
    cases sources with
    | nil =>
      rw [FieldReader.readItems] at ok
      split at ok
      · cases ok
      · exact ih others (List.forall_mem_nil _) kept ok
    | cons source rest =>
      obtain ⟨here, there⟩ := List.forall_mem_cons.mp sound
      rw [FieldReader.readItems] at ok
      obtain ⟨next, got, ok⟩ := Outcome.bindOk.mp ok
      exact ih others there (first source here before kept next got) ok

theorem readMembersKeeps {other : String → Source → ρ → Reading ρ} (otherSafe : OtherSafe P fields other)
    {members : List (Option String × Source)} (sound : ∀ entry ∈ members, entry.2.sound) {seen : List String}
    {before : ρ} (kept : P before) {result : List String × ρ}
    (ok : FieldReader.readMembers fields other members seen before = .ok result) : P result.2 := by
  induction members generalizing seen before with
  | nil =>
    cases ok
    exact kept
  | cons member rest ih =>
    obtain ⟨key, source⟩ := member
    obtain ⟨here, there⟩ := List.forall_mem_cons.mp sound
    cases key with
    | none => cases ok
    | some key =>
      rw [FieldReader.readMembers] at ok
      cases named : fields.find? (fun field => field.name == key) with
      | none =>
        have strange : ∀ field ∈ fields, field.name ≠ key := fun field member same =>
          List.find?_eq_none.mp named field member (beq_iff_eq.mpr same)
        rw [named] at ok
        obtain ⟨next, got, ok⟩ := Outcome.bindOk.mp ok
        exact ih there (otherSafe key strange source here before kept next got) ok
      | some field =>
        rw [named] at ok
        dsimp only at ok
        split at ok
        · cases ok
        · obtain ⟨next, got, ok⟩ := Outcome.bindOk.mp ok
          exact ih there (safe field (List.mem_of_find?_eq_some named) source here before kept next got) ok

theorem readObjectKeeps {other : String → Source → ρ → Reading ρ} (otherSafe : OtherSafe P fields other) {blank : ρ}
    (kept : P blank) : Keeps P (FieldReader.readObject fields other blank) := by
  intro source sound found ok
  rw [FieldReader.readObject] at ok
  obtain ⟨members, listed, ok⟩ := Outcome.bindOk.mp ok
  obtain ⟨result, got, ok⟩ := Outcome.bindOk.mp ok
  dsimp only at ok
  split at ok
  · cases ok
    exact readMembersKeeps safe otherSafe (membersSound sound listed) kept got
  · cases ok

theorem readRecordKeeps {blank : ρ} (kept : P blank) : Keeps P (FieldReader.readRecord fields blank) := by
  intro source sound found ok
  have listed : (do FieldReader.readItems fields (← source.items) blank) = .ok found → P found := by
    intro ok
    obtain ⟨items, listed, ok⟩ := Outcome.bindOk.mp ok
    exact readItemsKeeps safe (itemsSound sound listed) kept ok
  unfold FieldReader.readRecord at ok
  split at ok
  · exact listed ok
  · exact listed ok
  · exact readObjectKeeps safe (ignoreSafe fields) kept source sound found ok

end Records

end Vdag.Json
