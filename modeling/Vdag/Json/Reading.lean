import Vdag.Json.Tree

/-! Typed reading of JSON. The same readers work on text, where nesting is limited, members may repeat and the
text may break off, and on finished values. -/
namespace Vdag.Json

/- `malformed`: the text is not JSON where the reader got to. `unfit`: it is, but not of the wanted type. -/
inductive Misfit where
  | malformed
  | unfit
  deriving DecidableEq, Repr

abbrev Reading := Except Misfit

/- What a reader looks at: a place in a text, with the levels of nesting still allowed there, or a value. -/
inductive Source where
  | text (levels : Nat) (tree : Tree)
  | value (value : Value)

def nestingLimit : Nat := 127

namespace Source

def misfit : Source → Misfit
  | .text _ .broken => .malformed
  | .text _ (.number none) => .malformed
  | .text _ (.string none) => .malformed
  | _ => .unfit

def isNull : Source → Bool
  | .text _ .null => true
  | .value .null => true
  | _ => false

def string : Source → Reading String
  | .text _ (.string (some found)) => .ok found
  | .value (.string found) => .ok found
  | other => .error other.misfit

def bool : Source → Reading Bool
  | .text _ (.bool found) => .ok found
  | .value (.bool found) => .ok found
  | other => .error other.misfit

def number : Source → Reading Number
  | .text _ (.number (some found)) => .ok found
  | .value (.number found) => .ok found
  | other => .error other.misfit

def integer (low high : Int) (source : Source) : Reading Int := do
  match ← source.number with
  | .integer found _ => if low ≤ found ∧ found ≤ high then .ok found else .error .unfit
  | .real _ _ => .error .unfit

def word8 (source : Source) : Reading UInt8 := do .ok (UInt8.ofNat (← source.integer 0 0xff).toNat)

def word16 (source : Source) : Reading UInt16 := do .ok (UInt16.ofNat (← source.integer 0 0xffff).toNat)

def word64 (source : Source) : Reading UInt64 := do .ok (UInt64.ofNat (← source.integer 0 0xffffffffffffffff).toNat)

def int64 (source : Source) : Reading Int64 := do
  .ok (Int64.ofInt (← source.integer (-0x8000000000000000) 0x7fffffffffffffff))

def double (source : Source) : Reading Binary64 := do
  match ← source.number with
  | .integer found _ => match Binary64.ofInt? found with
      | some x => .ok x
      | none => .error .unfit
  | .real found _ => .ok found

def items : Source → Reading (List Source)
  | .text (levels + 1) (.array items) => .ok (items.map (.text levels))
  | .text 0 (.array _) => .error .malformed
  | .value (.array items) => .ok (items.map .value)
  | other => .error other.misfit

def members : Source → Reading (List (Option String × Source))
  | .text (levels + 1) (.object members) => .ok (members.map (fun (key, tree) => (key, .text levels tree)))
  | .text 0 (.object _) => .error .malformed
  | .value (.object members) => .ok (members.map (fun (key, member) => (some key, .value member)))
  | other => .error other.misfit

end Source

mutual

def Tree.value : (levels : Nat) → Tree → Reading Value
  | _, .null => .ok .null
  | _, .bool value => .ok (.bool value)
  | _, .number (some value) => .ok (.number value)
  | _, .string (some text) => .ok (.string text)
  | levels + 1, .array items => do .ok (.array (← itemValues levels items))
  | levels + 1, .object members => do .ok (.object (← memberValues levels members .empty).entries)
  | _, _ => .error .malformed

def itemValues (levels : Nat) : List Tree → Reading (List Value)
  | [] => .ok []
  | item :: rest => do
      let value ← item.value levels
      let values ← itemValues levels rest
      .ok (value :: values)

def memberValues (levels : Nat) : List (Option String × Tree) → SortedMap String Value →
    Reading (SortedMap String Value)
  | [], found => .ok found
  | (none, _) :: _, _ => .error .malformed
  | (some key, tree) :: rest, found => do
      let value ← tree.value levels
      memberValues levels rest (found.insert key value)

end

namespace Source

def any : Source → Reading Value
  | .text levels tree => tree.value levels
  | .value found => .ok found

def listOf {α : Type} (read : Source → Reading α) (source : Source) : Reading (List α) := do
  (← source.items).mapM read

def readEntries {α : Type} (read : Source → Reading α) :
    List (Option String × Source) → SortedMap String α → Reading (SortedMap String α)
  | [], found => .ok found
  | (none, _) :: _, _ => .error .malformed
  | (some key, source) :: rest, found => do
      let member ← read source
      readEntries read rest (found.insert key member)

def mapOf {α : Type} (read : Source → Reading α) (source : Source) : Reading (SortedMap String α) := do
  readEntries read (← source.members) .empty

def optional {α : Type} (read : Source → Reading α) (source : Source) : Reading (Option α) :=
  if source.isNull then .ok none else do .ok (some (← read source))

end Source

structure FieldReader (ρ : Type) where
  name : String
  required : Bool
  read : Source → ρ → Reading ρ

namespace FieldReader

variable {ρ α : Type}

def defaulted (name : String) (read : Source → Reading α) (put : ρ → α → ρ) : FieldReader ρ :=
  ⟨name, false, fun source record => do .ok (put record (← read source))⟩

def mandatory (name : String) (read : Source → Reading α) (put : ρ → α → ρ) : FieldReader ρ :=
  ⟨name, true, fun source record => do .ok (put record (← read source))⟩

def readMembers (fields : List (FieldReader ρ)) (other : String → Source → ρ → Reading ρ) :
    List (Option String × Source) → (seen : List String) → ρ → Reading (List String × ρ)
  | [], seen, record => .ok (seen, record)
  | (none, _) :: _, _, _ => .error .malformed
  | (some key, source) :: rest, seen, record =>
      match fields.find? (fun field => field.name == key) with
      | none => do
          let record ← other key source record
          readMembers fields other rest seen record
      | some field =>
          if key ∈ seen then .error .unfit
          else do
            let record ← field.read source record
            readMembers fields other rest (key :: seen) record

def readObject (fields : List (FieldReader ρ)) (other : String → Source → ρ → Reading ρ) (blank : ρ)
    (source : Source) : Reading ρ := do
  let (seen, record) ← readMembers fields other (← source.members) [] blank
  if fields.all (fun field => !field.required || field.name ∈ seen) then .ok record else .error .unfit

def readItems : List (FieldReader ρ) → List Source → ρ → Reading ρ
  | [], [], record => .ok record
  | [], _ :: _, _ => .error .malformed
  | field :: fields, [], record => if field.required then .error .unfit else readItems fields [] record
  | field :: fields, source :: rest, record => do readItems fields rest (← field.read source record)

def ignore (_key : String) (_source : Source) (record : ρ) : Reading ρ := .ok record

def readRecord (fields : List (FieldReader ρ)) (blank : ρ) (source : Source) : Reading ρ :=
  match source with
  | .text _ (.array _) | .value (.array _) => do readItems fields (← source.items) blank
  | _ => readObject fields ignore blank source

end FieldReader

variable {α : Type}

def readFront (read : Source → Reading α) (text : String) : Reading α :=
  read (.text nestingLimit (Tree.ofText text).1)

def readText (read : Source → Reading α) (text : String) : Reading α := do
  let (tree, left) := Tree.ofText text
  let found ← read (.text nestingLimit tree)
  match left with
  | some [] => .ok found
  | _ => .error .malformed

def readValue (read : Source → Reading α) (value : Value) : Reading α := read (.value value)

end Vdag.Json
