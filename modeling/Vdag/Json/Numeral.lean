import Vdag.Json.Value

/-! Numbers as JSON text writes them, and the values they stand for. Twenty decimal digits do not fit a word,
so what a word cannot take moves into the exponent. -/
namespace Vdag.Json

structure Numeral where
  negative : Bool
  whole : List Nat
  fraction : Option (List Nat)
  exponent : Option (Bool × List Nat)
  deriving DecidableEq, Repr

namespace Numeral

def wordLimit : Nat := 0x10000000000000000

def gather (limit : Nat) : (significand : Nat) → List Nat → Nat × List Nat
  | significand, [] => (significand, [])
  | significand, digit :: rest =>
      if significand * 10 + digit < limit then gather limit (significand * 10 + digit) rest
      else (significand, digit :: rest)

def largestPower : Nat := 308

/- `significand * 10 ^ exponent` by one multiplication or division in doubles; an exponent below −308 is
reached in steps of 308. Nothing when the result is too large. -/
def scale : (steps : Nat) → Binary64 → Int → Option Binary64
  | 0, value, _ => some value
  | steps + 1, value, exponent => do
      if exponent.natAbs ≤ largestPower then
        let power ← Binary64.powerOfTen? exponent.natAbs
        if 0 ≤ exponent then Fraction.round false (value.magnitude.times power.magnitude)
        else Fraction.round false (value.magnitude.dividedBy power.magnitude)
      else if value.significand = 0 then some value
      else if 0 ≤ exponent then none
      else
        let power ← Binary64.powerOfTen? largestPower
        let smaller ← Fraction.round false (value.magnitude.dividedBy power.magnitude)
        scale steps smaller (exponent + largestPower)

def signed (negative : Bool) (value : Binary64) : Binary64 := if negative then value.negate else value

def ofReal (value : Binary64) : Option Number :=
  if h : value.isFinite = true then some (.real value h) else none

def realOf (negative : Bool) (significand : Nat) (exponent : Int) : Option Number := do
  let value ← Binary64.ofInt? significand
  let scaled ← scale 4 value exponent
  ofReal (signed negative scaled)

/- An exponent of more than 31 bits makes zero of a zero significand or a negative exponent. -/
def withExponent (negative : Bool) (significand : Nat) (start : Int) (below : Bool) (digits : List Nat) :
    Option Number :=
  let (size, left) := gather 0x80000000 0 digits
  if left.isEmpty then
    let shifted := if below then start - size else start + size
    realOf negative significand (max (-0x80000000) (min shifted 0x7fffffff))
  else if significand ≠ 0 ∧ below = false then none
  else ofReal (signed negative .zero)

/- Whole numbers that fit are integers; `-0` and larger ones are doubles. Nothing for what no double holds. -/
def value (n : Numeral) : Option Number :=
  let (significand, left) := gather wordLimit 0 n.whole
  match n.fraction, n.exponent with
  | none, none =>
      if left.isEmpty then
        let signedValue : Int := if n.negative then -significand else significand
        if h : (-0x8000000000000000 ≤ signedValue ∧ signedValue < 0x10000000000000000) ∧
            (n.negative = true → significand ≠ 0) then
          some (.integer signedValue h.1)
        else realOf n.negative significand 0
      else realOf n.negative significand left.length
  | none, some (below, digits) => withExponent n.negative significand left.length below digits
  | some fraction, exponent =>
      let (longer, unused) := gather wordLimit significand fraction
      let start : Int := left.length - (fraction.length - unused.length : Nat)
      match exponent with
      | none => realOf n.negative longer start
      | some (below, digits) => withExponent n.negative longer start below digits

end Numeral

end Vdag.Json
