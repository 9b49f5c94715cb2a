import Vdag.Proofs.Json.RoundTrip

/-! How deep a value goes, and what holds of its numbers and objects at every level. A value with its members in order
and its numbers faithful is read back where it is printed, if it is not too deep there, and is refused if it is. -/
namespace Vdag.Json

section Parts

variable {P : Value → Prop}

mutual

theorem Value.ofParts (null : P .null) (bool : ∀ value, P (.bool value)) (number : ∀ value, P (.number value))
    (string : ∀ text, P (.string text)) (array : ∀ items, (∀ item ∈ items, P item) → P (.array items))
    (object : ∀ members, (∀ entry ∈ members, P entry.2) → P (.object members)) : (value : Value) → P value
  | .null => null
  | .bool value => bool value
  | .number value => number value
  | .string text => string text
  | .array items => array items (itemsOfParts null bool number string array object items)
  | .object members => object members (membersOfParts null bool number string array object members)

theorem itemsOfParts (null : P .null) (bool : ∀ value, P (.bool value)) (number : ∀ value, P (.number value))
    (string : ∀ text, P (.string text)) (array : ∀ items, (∀ item ∈ items, P item) → P (.array items))
    (object : ∀ members, (∀ entry ∈ members, P entry.2) → P (.object members)) :
    (items : List Value) → ∀ item ∈ items, P item
  | [] => nofun
  | item :: rest => List.forall_mem_cons.mpr
      ⟨item.ofParts null bool number string array object, itemsOfParts null bool number string array object rest⟩

theorem membersOfParts (null : P .null) (bool : ∀ value, P (.bool value)) (number : ∀ value, P (.number value))
    (string : ∀ text, P (.string text)) (array : ∀ items, (∀ item ∈ items, P item) → P (.array items))
    (object : ∀ members, (∀ entry ∈ members, P entry.2) → P (.object members)) :
    (members : List (String × Value)) → ∀ entry ∈ members, P entry.2
  | [] => nofun
  | (_, value) :: rest => List.forall_mem_cons.mpr
      ⟨value.ofParts null bool number string array object, membersOfParts null bool number string array object rest⟩

end

end Parts

section Depth

mutual

def Value.depth : Value → Nat
  | .array items => itemsDepth items + 1
  | .object members => membersDepth members + 1
  | _ => 0

def itemsDepth : List Value → Nat
  | [] => 0
  | item :: rest => max item.depth (itemsDepth rest)

def membersDepth : List (String × Value) → Nat
  | [] => 0
  | (_, value) :: rest => max value.depth (membersDepth rest)

end

theorem itemsDepthLe {items : List Value} {levels : Nat} :
    itemsDepth items ≤ levels ↔ ∀ item ∈ items, item.depth ≤ levels := by
  induction items with
  | nil => simp [itemsDepth]
  | cons item rest ih => rw [itemsDepth, Nat.max_le, ih, List.forall_mem_cons]

theorem membersDepthLe {members : List (String × Value)} {levels : Nat} :
    membersDepth members ≤ levels ↔ ∀ entry ∈ members, entry.2.depth ≤ levels := by
  induction members with
  | nil => simp [membersDepth]
  | cons entry rest ih => rw [membersDepth, Nat.max_le, ih, List.forall_mem_cons]

end Depth

section Every

variable (numbers : Number → Bool) (objects : List String → Bool)

mutual

def Value.every : Value → Bool
  | .number value => numbers value
  | .array items => itemsEvery items
  | .object members => objects (members.map (·.1)) && membersEvery members
  | _ => true

def itemsEvery : List Value → Bool
  | [] => true
  | item :: rest => item.every && itemsEvery rest

def membersEvery : List (String × Value) → Bool
  | [] => true
  | (_, value) :: rest => value.every && membersEvery rest

end

theorem itemsEveryIff {items : List Value} :
    itemsEvery numbers objects items = true ↔ ∀ item ∈ items, item.every numbers objects = true := by
  induction items with
  | nil => simp [itemsEvery]
  | cons item rest ih => rw [itemsEvery, Bool.and_eq_true, ih, List.forall_mem_cons]

theorem membersEveryIff {members : List (String × Value)} :
    membersEvery numbers objects members = true ↔ ∀ entry ∈ members, entry.2.every numbers objects = true := by
  induction members with
  | nil => simp [membersEvery]
  | cons entry rest ih => rw [membersEvery, Bool.and_eq_true, ih, List.forall_mem_cons]

end Every

def ascendingKeys (keys : List String) : Bool := decide (keys.Pairwise KeyOrder.Before)

def Value.ordered (value : Value) : Bool := value.every (fun _ => true) ascendingKeys

def Value.faithful (value : Value) : Bool := value.every Number.faithful (fun _ => true)

theorem orderedArray {items : List Value} :
    (Value.array items).ordered = true ↔ ∀ item ∈ items, item.ordered = true := itemsEveryIff _ _

theorem orderedObject {members : List (String × Value)} : (Value.object members).ordered = true ↔
    (members.map (·.1)).Pairwise KeyOrder.Before ∧ ∀ entry ∈ members, entry.2.ordered = true := by
  rw [Value.ordered, Value.every, Bool.and_eq_true, membersEveryIff]
  exact and_congr_left (fun _ => decide_eq_true_iff)

theorem faithfulArray {items : List Value} :
    (Value.array items).faithful = true ↔ ∀ item ∈ items, item.faithful = true := itemsEveryIff _ _

theorem faithfulObject {members : List (String × Value)} :
    (Value.object members).faithful = true ↔ ∀ entry ∈ members, entry.2.faithful = true := membersEveryIff _ _

theorem Value.plainOfShape (value : Value) (ordered : value.ordered = true) (faithful : value.faithful = true)
    {levels : Nat} (shallow : value.depth ≤ levels) : Plain levels value := by
  induction value using Value.ofParts generalizing levels with
  | null => exact .null levels
  | bool value => exact .bool levels value
  | number value => exact .number levels value faithful
  | string text => exact .string levels text
  | array items each =>
    rw [Value.depth] at shallow
    obtain ⟨levels, rfl⟩ := Nat.exists_eq_add_of_le' shallow
    have inside := itemsDepthLe.mp (Nat.le_add_left (itemsDepth items) levels)
    exact .array (fun item member =>
      each item member (orderedArray.mp ordered item member) (faithfulArray.mp faithful item member)
        (inside item member))
  | object members each =>
    rw [Value.depth] at shallow
    obtain ⟨levels, rfl⟩ := Nat.exists_eq_add_of_le' shallow
    have inside := membersDepthLe.mp (Nat.le_add_left (membersDepth members) levels)
    obtain ⟨ascending, later⟩ := orderedObject.mp ordered
    exact .object (List.pairwise_map.mp ascending) (fun entry member =>
      each entry member (later entry member) (faithfulObject.mp faithful entry member) (inside entry member))

theorem Plain.shapeOfPlain {levels : Nat} {value : Value} (plain : Plain levels value) :
    value.ordered = true ∧ value.faithful = true ∧ value.depth ≤ levels := by
  induction plain with
  | null | bool | string => exact ⟨rfl, rfl, Nat.zero_le _⟩
  | number levels number faithful => exact ⟨rfl, faithful, Nat.zero_le _⟩
  | array each ih =>
    exact ⟨orderedArray.mpr (fun item member => (ih item member).1),
      faithfulArray.mpr (fun item member => (ih item member).2.1),
      Nat.succ_le_succ (itemsDepthLe.mpr (fun item member => (ih item member).2.2))⟩
  | object ascending each ih =>
    exact ⟨orderedObject.mpr ⟨List.pairwise_map.mpr ascending, fun entry member => (ih entry member).1⟩,
      faithfulObject.mpr (fun entry member => (ih entry member).2.1),
      Nat.succ_le_succ (membersDepthLe.mpr (fun entry member => (ih entry member).2.2))⟩

section Refused

variable {levels : Nat}

theorem itemsRefused {items : List Value} {item : Value} (member : item ∈ items)
    (refused : ∃ fault, item.tree.value levels = .error fault) :
    ∃ fault, itemValues levels (itemTrees items) = .error fault := by
  induction items with
  | nil => cases member
  | cons first rest ih =>
    rw [itemTrees, itemValues]
    cases read : first.tree.value levels with
    | error fault => exact ⟨fault, rfl⟩
    | ok value =>
      rcases List.mem_cons.mp member with same | later
      · obtain ⟨fault, failed⟩ := refused
        rw [same, read] at failed
        cases failed
      · obtain ⟨fault, failed⟩ := ih later
        exact ⟨fault, by rw [failed]; rfl⟩

theorem membersRefused {members : List (String × Value)} {entry : String × Value} (member : entry ∈ members)
    (refused : ∃ fault, entry.2.tree.value levels = .error fault) (found : SortedMap String Value) :
    ∃ fault, memberValues levels (memberTrees members) found = .error fault := by
  induction members generalizing found with
  | nil => cases member
  | cons first rest ih =>
    obtain ⟨key, held⟩ := first
    rw [memberTrees, memberValues]
    cases read : held.tree.value levels with
    | error fault => exact ⟨fault, rfl⟩
    | ok value =>
      rcases List.mem_cons.mp member with same | later
      · obtain ⟨fault, failed⟩ := refused
        rw [same, read] at failed
        cases failed
      · exact ih later (found.insert key value)

theorem Value.refusedTooDeep (value : Value) (deep : levels < value.depth) :
    ∃ fault, value.tree.value levels = .error fault := by
  induction value using Value.ofParts generalizing levels with
  | null | bool value | number value | string text => cases deep
  | array items each =>
    cases levels with
    | zero => exact ⟨.malformed, rfl⟩
    | succ levels =>
      rw [Value.depth] at deep
      have crowded := mt itemsDepthLe.mpr (Nat.not_le.mpr (Nat.lt_of_succ_lt_succ deep))
      simp only [not_forall, Nat.not_le] at crowded
      obtain ⟨item, member, deeper⟩ := crowded
      obtain ⟨fault, failed⟩ := itemsRefused member (each item member deeper)
      exact ⟨fault, by rw [Value.tree, Tree.value, failed]; rfl⟩
  | object members each =>
    cases levels with
    | zero => exact ⟨.malformed, rfl⟩
    | succ levels =>
      rw [Value.depth] at deep
      have crowded := mt membersDepthLe.mpr (Nat.not_le.mpr (Nat.lt_of_succ_lt_succ deep))
      simp only [not_forall, Nat.not_le] at crowded
      obtain ⟨entry, member, deeper⟩ := crowded
      obtain ⟨fault, failed⟩ := membersRefused member (each entry member deeper) .empty
      exact ⟨fault, by rw [Value.tree, Tree.value, failed]; rfl⟩

end Refused

end Vdag.Json
