/-! Powers of ten times a whole number, in 64-bit floating point. The whole
number and each power of ten are rounded first, and one more rounding happens
per multiplication or division, so the result can differ from the nearest
number in its last bits. A power of ten above the largest finite one is reached
in steps of that one. -/
namespace SetAssociative.Decimal

/-- The largest power of ten that is a finite number. -/
def maxPowerOfTen : Nat := 308

/-- A power of ten, rounded. -/
def powerOfTen (exponent : Nat) : Float := Float.ofScientific 1 false exponent

/-- Division by a power of ten. It stops early at zero, which stays zero. -/
def scaleDown (x : Float) (exponent : Nat) : Float :=
  if exponent ≤ maxPowerOfTen then x / powerOfTen exponent
  else if x == 0.0 then x
  else scaleDown (x / powerOfTen maxPowerOfTen) (exponent - maxPowerOfTen)
termination_by exponent
decreasing_by
  have : 0 < maxPowerOfTen := by decide
  omega

/-- Multiplication by a power of ten, unless the product is not finite. -/
def scaleUp? (x : Float) (exponent : Nat) : Option Float :=
  if exponent ≤ maxPowerOfTen then
    let product := x * powerOfTen exponent
    if product.isInf then none else some product
  else if x == 0.0 then some x
  else none

/-- The number `significand · 10 ^ exponent`, unless it is too large. -/
def scale? (significand : Nat) (exponent : Int) : Option Float :=
  let x := Float.ofNat significand
  if 0 ≤ exponent then scaleUp? x exponent.toNat
  else some (scaleDown x (-exponent).toNat)

end SetAssociative.Decimal
