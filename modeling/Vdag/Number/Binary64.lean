/-! Doubles as IEEE 754 bit patterns, with exact rounding of quotients. Arithmetic is on naturals, so every
statement about a double is a statement about its bits. -/
namespace Vdag

structure Binary64 where
  bits : UInt64
  deriving DecidableEq, Repr

namespace Binary64

/- Below the sign bit are eleven bits of exponent, and below bit 52, `0x10000000000000`, is the fraction. -/
def signBit : Nat := 0x8000000000000000

def isNegative (x : Binary64) : Bool := signBit ≤ x.bits.toNat

def exponentField (x : Binary64) : Nat := x.bits.toNat / 0x10000000000000 % 2048

def fractionField (x : Binary64) : Nat := x.bits.toNat % 0x10000000000000

def isFinite (x : Binary64) : Bool := x.exponentField != 2047

def significand (x : Binary64) : Nat :=
  if x.exponentField = 0 then x.fractionField else 0x10000000000000 + x.fractionField

def power (x : Binary64) : Int := (max x.exponentField 1 : Int) - 1075

def zero : Binary64 := ⟨0⟩

end Binary64

structure Fraction where
  above : Nat
  below : Nat
  deriving DecidableEq, Repr

namespace Fraction

def times (a b : Fraction) : Fraction := ⟨a.above * b.above, a.below * b.below⟩

def dividedBy (a b : Fraction) : Fraction := ⟨a.above * b.below, a.below * b.above⟩

def scaled (value : Nat) (power : Int) : Fraction :=
  if 0 ≤ power then ⟨value <<< power.toNat, 1⟩ else ⟨value, 1 <<< (-power).toNat⟩

def nearest (q : Fraction) : Nat :=
  let whole := q.above / q.below
  let left := 2 * (q.above % q.below)
  if q.below < left ∨ (left = q.below ∧ whole % 2 = 1) then whole + 1 else whole

def binaryExponent (q : Fraction) : Int :=
  let guess : Int := (Nat.log2 q.above : Int) - Nat.log2 q.below
  let unit := scaled 1 guess
  if unit.above * q.below ≤ q.above * unit.below then guess else guess - 1

def round (negative : Bool) (q : Fraction) : Option Binary64 :=
  let unit : Int := if q.above = 0 then -1074 else max (q.binaryExponent - 52) (-1074)
  let whole := (q.dividedBy (scaled 1 unit)).nearest
  let magnitude := (unit + 1074).toNat * 0x10000000000000 + whole
  if magnitude < 2047 * 0x10000000000000 then
    some ⟨UInt64.ofNat ((if negative then Binary64.signBit else 0) + magnitude)⟩
  else none

end Fraction

namespace Binary64

def magnitude (x : Binary64) : Fraction := Fraction.scaled x.significand x.power

def ofInt? (i : Int) : Option Binary64 := Fraction.round (i < 0) ⟨i.natAbs, 1⟩

def powerOfTen? (n : Nat) : Option Binary64 := Fraction.round false ⟨Nat.pow 10 n, 1⟩

def negate (x : Binary64) : Binary64 := ⟨x.bits ^^^ UInt64.ofNat signBit⟩

end Binary64

end Vdag
