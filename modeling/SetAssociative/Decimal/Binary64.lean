import SetAssociative.Decimal.Power

/-! The exact value of a finite 64-bit floating point number: a sign, a whole
significand and a power of two. Texts of numbers are computed from these whole
numbers, so that no step of the computation rounds by itself. -/
namespace SetAssociative.Decimal

/-- The three fields of the 64-bit format. -/
structure Binary64 where
  negative : Bool
  exponentField : Nat
  fractionField : Nat
  deriving DecidableEq, Repr

namespace Binary64

/-- The fields of a number's bit pattern. -/
def ofBits (bits : UInt64) : Binary64 where
  negative := bits >>> 63 == 1
  exponentField := (bits >>> 52 &&& 0x7FF).toNat
  fractionField := (bits &&& 0xFFFFFFFFFFFFF).toNat

/-- The fields of a number. -/
def ofFloat (x : Float) : Binary64 := ofBits x.toBits

/-- The significand, with the bit that the format leaves out of normal numbers. -/
def significand (b : Binary64) : Nat :=
  if b.exponentField = 0 then b.fractionField else b.fractionField + twoTo 52

/-- The power of two that the significand is multiplied by. -/
def exponent (b : Binary64) : Int := (max b.exponentField 1 : Nat) - 1075

/-- The magnitude as a fraction: a numerator over a denominator that is a power
of two. -/
def ratio (b : Binary64) : Nat × Nat :=
  if 0 ≤ b.exponent then (b.significand * twoTo b.exponent.toNat, 1)
  else (b.significand, twoTo (-b.exponent).toNat)

/-- The next smaller number is half as far away as the next larger one exactly
at the powers of two above the smallest normal number. -/
def narrowBelow (b : Binary64) : Bool := b.fractionField == 0 && 1 < b.exponentField

end Binary64

end SetAssociative.Decimal
