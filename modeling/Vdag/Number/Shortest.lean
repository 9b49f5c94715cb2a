import Vdag.Number.Binary64

/-! The shortest decimal that reads back as a given double, and the layout it is printed in. -/
namespace Vdag

structure Decimal where
  digits : Nat
  exponent : Int
  deriving DecidableEq, Repr

namespace Decimal

def fraction (d : Decimal) : Fraction :=
  if 0 ≤ d.exponent then ⟨d.digits * Nat.pow 10 d.exponent.toNat, 1⟩ else ⟨d.digits, Nat.pow 10 (-d.exponent).toNat⟩

end Decimal

namespace Fraction

def le (a b : Fraction) : Bool := a.above * b.below ≤ b.above * a.below

def lt (a b : Fraction) : Bool := a.above * b.below < b.above * a.below

def tenfolds (above below : Nat) : (fuel : Nat) → Nat
  | 0 => 0
  | fuel + 1 => if below ≤ above then 0 else tenfolds (above * 10) below fuel + 1

def decimalExponent (q : Fraction) : Int :=
  if q.below ≤ q.above then ((Nat.toDigits 10 (q.above / q.below)).length : Int) - 1
  else -(tenfolds q.above q.below (Nat.log2 q.below + 1) : Int)

end Fraction

namespace Binary64

/- The fractions that round to a positive finite double; the ends count when the significand is even. -/
structure Interval where
  low : Fraction
  high : Fraction
  closed : Bool

def interval (x : Binary64) : Interval :=
  let narrow := x.fractionField = 0 ∧ 1 < x.exponentField
  { low := if narrow then Fraction.scaled (4 * x.significand - 1) (x.power - 2)
           else Fraction.scaled (2 * x.significand - 1) (x.power - 1)
    high := Fraction.scaled (2 * x.significand + 1) (x.power - 1)
    closed := x.significand % 2 = 0 }

def Interval.holds (i : Interval) (q : Fraction) : Bool :=
  if i.closed then i.low.le q && q.le i.high else i.low.lt q && q.lt i.high

/- The nearer of the two neighbours of the value on the grid `10 ^ exponent` that read back, if any does;
a tie goes to the even digit. -/
def onGrid (x : Binary64) (exponent : Int) : Option Decimal :=
  let value := x.magnitude
  let unit := Decimal.fraction ⟨1, exponent⟩
  let cells := value.dividedBy unit
  let down : Decimal := ⟨cells.above / cells.below, exponent⟩
  let up : Decimal := ⟨down.digits + 1, exponent⟩
  let low := x.interval.holds down.fraction
  let high := x.interval.holds up.fraction
  let nearestDigits := cells.nearest
  if low && high then some ⟨nearestDigits, exponent⟩
  else if low then some down
  else if high then some up
  else none

/- Tries grids of 1, 2, … digits. Seventeen always suffice. -/
def searchGrid (x : Binary64) (leading : Int) : (fuel digits : Nat) → Decimal
  | 0, _ => ⟨0, 0⟩
  | fuel + 1, digits =>
      (x.onGrid (leading + 1 - digits)).getD (searchGrid x leading fuel (digits + 1))

def shortest (x : Binary64) : Decimal :=
  let found := searchGrid x x.magnitude.decimalExponent 17 1
  if found.digits % 10 = 0 then ⟨found.digits / 10, found.exponent + 1⟩ else found

/- Positional between 10⁻⁵ and 10¹⁶, always with a fraction; otherwise one digit, the others after a point,
and `e` with the exponent and its sign. -/
def layout (d : Decimal) : String :=
  let digits := Nat.toDigits 10 d.digits
  let count : Int := digits.length
  let point := count + d.exponent
  if 0 ≤ d.exponent ∧ point ≤ 16 then
    String.ofList (digits ++ List.replicate d.exponent.toNat '0') ++ ".0"
  else if 0 < point ∧ point ≤ 16 then
    String.ofList (digits.take point.toNat) ++ "." ++ String.ofList (digits.drop point.toNat)
  else if -5 < point ∧ point ≤ 0 then
    "0." ++ String.ofList (List.replicate (-point).toNat '0' ++ digits)
  else
    let first := String.ofList (digits.take 1)
    let others := digits.drop 1
    let significand := if others.isEmpty then first else first ++ "." ++ String.ofList others
    significand ++ (if 0 < point then "e+" else "e-") ++ toString (point - 1).natAbs

def render (x : Binary64) : String :=
  let sign := if x.isNegative then "-" else ""
  if x.significand = 0 then sign ++ "0.0" else sign ++ layout x.shortest

end Binary64

end Vdag
