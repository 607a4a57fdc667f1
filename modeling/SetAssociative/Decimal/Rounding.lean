import SetAssociative.Decimal.Binary64

/-! Numbers with a fixed count of decimal places. The exact value is rounded to
the nearest multiple of the last place, a half going to the even neighbour. -/
namespace SetAssociative.Decimal

/-- The whole number nearest to a fraction, a half going to the even neighbour. -/
def roundDiv (numerator denominator : Nat) : Nat :=
  let floor := numerator / denominator
  let twice := 2 * (numerator % denominator)
  if twice < denominator then floor
  else if denominator < twice then floor + 1
  else if floor % 2 = 0 then floor
  else floor + 1

/-- Digits of `n`, with zeros before them up to the given width. -/
def padDigits (width n : Nat) : List Char :=
  let digits := Nat.toDigits 10 n
  List.replicate (width - digits.length) '0' ++ digits

/-- A fraction with exactly `places` digits after the point. -/
def fixedRatio (places numerator denominator : Nat) : List Char :=
  let units := roundDiv (numerator * tenTo places) denominator
  Nat.toDigits 10 (units / tenTo places) ++ '.' :: padDigits places (units % tenTo places)

/-- A finite number with exactly `places` digits after the point. -/
def fixed (places : Nat) (x : Float) : String :=
  let b := Binary64.ofFloat x
  let (numerator, denominator) := b.ratio
  let digits := fixedRatio places numerator denominator
  String.ofList (if b.negative then '-' :: digits else digits)

end SetAssociative.Decimal
