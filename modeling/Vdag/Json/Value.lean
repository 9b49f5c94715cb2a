import Vdag.Number.Binary64
import Vdag.SortedMap

/-! JSON values: integers of 64 bits stay integers, other numbers are finite doubles, and the members of an
object are listed in ascending key order. -/
namespace Vdag.Json

/- An integer is one that a signed or an unsigned 64-bit word holds. -/
inductive Number where
  | integer (value : Int) (fits : -0x8000000000000000 ≤ value ∧ value < 0x10000000000000000)
  | real (value : Binary64) (finite : value.isFinite = true)
  deriving DecidableEq, Repr

inductive Value where
  | null
  | bool (value : Bool)
  | number (value : Number)
  | string (value : String)
  | array (items : List Value)
  | object (members : List (String × Value))
  deriving Repr

instance : Inhabited Value := ⟨.null⟩

mutual

def Value.same : Value → Value → Bool
  | .null, .null => true
  | .bool a, .bool b => a == b
  | .number a, .number b => a == b
  | .string a, .string b => a == b
  | .array a, .array b => sameItems a b
  | .object a, .object b => sameMembers a b
  | _, _ => false

def sameItems : List Value → List Value → Bool
  | [], [] => true
  | a :: as, b :: bs => a.same b && sameItems as bs
  | _, _ => false

def sameMembers : List (String × Value) → List (String × Value) → Bool
  | [], [] => true
  | (k, a) :: as, (l, b) :: bs => k == l && (a.same b && sameMembers as bs)
  | _, _ => false

end

mutual

theorem Value.sameSelf : (a : Value) → a.same a = true
  | .null => rfl
  | .bool _ => by simp [Value.same]
  | .number _ => by simp [Value.same]
  | .string _ => by simp [Value.same]
  | .array items => by simp [Value.same, sameItemsSelf items]
  | .object members => by simp [Value.same, sameMembersSelf members]

theorem sameItemsSelf : (a : List Value) → sameItems a a = true
  | [] => rfl
  | a :: as => by simp [sameItems, a.sameSelf, sameItemsSelf as]

theorem sameMembersSelf : (a : List (String × Value)) → sameMembers a a = true
  | [] => rfl
  | (k, a) :: as => by simp [sameMembers, a.sameSelf, sameMembersSelf as]

end

mutual

theorem Value.eqOfSame : (a b : Value) → a.same b = true → a = b
  | .null, b, h => by cases b <;> simp_all [Value.same]
  | .bool _, b, h => by cases b <;> simp_all [Value.same]
  | .number _, b, h => by cases b <;> simp_all [Value.same]
  | .string _, b, h => by cases b <;> simp_all [Value.same]
  | .array items, b, h => by
      cases b <;> simp only [Value.same, Bool.false_eq_true] at h
      rw [eqOfSameItems items _ h]
  | .object members, b, h => by
      cases b <;> simp only [Value.same, Bool.false_eq_true] at h
      rw [eqOfSameMembers members _ h]

theorem eqOfSameItems : (a b : List Value) → sameItems a b = true → a = b
  | [], b, h => by cases b <;> simp_all [sameItems]
  | a :: as, b, h => by
      cases b with
      | nil => simp [sameItems] at h
      | cons b bs =>
          simp only [sameItems, Bool.and_eq_true] at h
          rw [a.eqOfSame b h.1, eqOfSameItems as bs h.2]

theorem eqOfSameMembers : (a b : List (String × Value)) → sameMembers a b = true → a = b
  | [], b, h => by cases b <;> simp_all [sameMembers]
  | (k, a) :: as, b, h => by
      cases b with
      | nil => simp [sameMembers] at h
      | cons b bs =>
          obtain ⟨l, b⟩ := b
          simp only [sameMembers, Bool.and_eq_true, beq_iff_eq] at h
          rw [h.1, a.eqOfSame b h.2.1, eqOfSameMembers as bs h.2.2]

end

instance : DecidableEq Value := fun a b =>
  decidable_of_iff (a.same b = true) ⟨a.eqOfSame b, fun h => h ▸ a.sameSelf⟩

namespace Number

def ofInt (i : Int) : Number :=
  if h : -0x8000000000000000 ≤ i ∧ i < 0x10000000000000000 then .integer i h else .integer 0 (by decide)

def ofNat (n : Nat) : Number := ofInt n

end Number

namespace Value

def emptyObject : Value := .object []

def ofNat (n : Nat) : Value := .number (.ofNat n)

def ofInt (i : Int) : Value := .number (.ofInt i)

def strings (list : List String) : Value := .array (list.map .string)

def record (members : List (String × Value)) : Value := .object (SortedMap.ofList members).entries

def ofMap {α : Type} (f : α → Value) (map : SortedMap String α) : Value := .object (map.mapValues f).entries

def member? (value : Value) (key : String) : Option Value :=
  match value with
  | .object members => (members.find? (fun entry => entry.1 == key)).map (·.2)
  | _ => none

def setMember (value : Value) (key : String) (member : Value) : Value :=
  match value with
  | .object members => record (members ++ [(key, member)])
  | other => other

def eraseMember (value : Value) (key : String) : Value :=
  match value with
  | .object members => .object (members.filter (fun entry => entry.1 != key))
  | other => other

def text? : Value → Option String
  | .string text => some text
  | _ => none

def isNull : Value → Bool
  | .null => true
  | _ => false

end Value

end Vdag.Json
