import SetAssociative.Decimal.Binary64

/-! The shortest decimal text of a number that reads back as the same number.
The reals that round to a number form an interval around it. For one, two and
more significant digits in turn, the two decimals of that many digits next to
the number are tried; the first count with a decimal inside the interval wins,
of two such decimals the nearer one, and of two equally near ones the even one.

How the digits are laid out is data: `Layout` says which exponents are written
without a power of ten. -/
namespace SetAssociative.Decimal

/-- A positive number and the bounds of the reals that round to it, as
numerators over one denominator. The bounds belong to the interval when the
significand is even. -/
structure RoundingInterval where
  low : Nat
  value : Nat
  high : Nat
  denominator : Nat
  closed : Bool
  deriving DecidableEq, Repr

namespace RoundingInterval

/-- The interval of a number, in quarters of the unit of its significand: half a
unit up, and half a unit down unless the numbers below are denser. -/
def ofBinary64 (b : Binary64) : RoundingInterval :=
  let m := b.significand
  let power := b.exponent - 2
  let scale := twoTo power.toNat
  { low := (4 * m - if b.narrowBelow then 1 else 2) * scale
    value := 4 * m * scale
    high := (4 * m + 2) * scale
    denominator := twoTo (-power).toNat
    closed := m % 2 = 0 }

/-- Membership of `n · 10 ^ place`. -/
def contains (r : RoundingInterval) (place : Int) (n : Nat) : Bool :=
  let candidate := n * tenTo place.toNat * r.denominator
  let low := r.low * tenTo (-place).toNat
  let high := r.high * tenTo (-place).toNat
  if r.closed then low ≤ candidate && candidate ≤ high
  else low < candidate && candidate < high

/-- The whole number of units `10 ^ place` below the value. -/
def below (r : RoundingInterval) (place : Int) : Nat :=
  r.value * tenTo (-place).toNat / (r.denominator * tenTo place.toNat)

/-- Whether `n · 10 ^ place`, below the value, is nearer to it than the next
unit. A tie goes to the even number. -/
def prefersBelow (r : RoundingInterval) (place : Int) (n : Nat) : Bool :=
  let value := 2 * (r.value * tenTo (-place).toNat)
  let middle := (2 * n + 1) * tenTo place.toNat * r.denominator
  value < middle || value == middle && n % 2 == 0

/-- The number of units `10 ^ place` that reads back as the value, if there is one. -/
def onGrid (r : RoundingInterval) (place : Int) : Option Nat :=
  let n := r.below place
  match r.contains place n, r.contains place (n + 1) with
  | true, true => some (if r.prefersBelow place n then n else n + 1)
  | true, false => some n
  | false, true => some (n + 1)
  | false, false => none

/-- The power of ten of the leading digit. -/
def leadingPlace (r : RoundingInterval) : Int :=
  if r.denominator ≤ r.value then
    ((Nat.toDigits 10 (r.value / r.denominator)).length : Int) - 1
  else
    match (List.range 400).find? fun k => r.denominator ≤ r.value * tenTo k with
    | some k => -(k : Int)
    | none => 0

/-- The digits that are tried first to last: one digit, two digits, up to the
seventeen that always suffice. -/
def shortest (r : RoundingInterval) : Nat × Int :=
  let lead := r.leadingPlace
  ((List.range 17).findSome? fun (count : Nat) =>
    let place := lead - (count : Int)
    (r.onGrid place).map fun n => (n, place)).getD (0, 0)

end RoundingInterval

/-- A decimal as digits without zeros at its end, and the power of ten of the
first digit. -/
structure Digits where
  digits : List Char
  leadingPlace : Int
  deriving DecidableEq, Repr

namespace Digits

/-- The digits of `n · 10 ^ place`. -/
def ofUnits (n : Nat) (place : Int) : Digits :=
  let all := Nat.toDigits 10 n
  { digits := (all.reverse.dropWhile (· == '0')).reverse
    leadingPlace := place + all.length - 1 }

end Digits

/-- Where positional writing ends: the powers of ten of the first digit that are
written without an exponent. -/
structure Layout where
  lowestPositional : Int
  highestPositional : Int
  deriving DecidableEq, Repr

namespace Layout

/-- Digits with their point in place, and at least one digit on both sides of it. -/
def positional (d : Digits) : List Char :=
  if d.leadingPlace < 0 then
    ['0', '.'] ++ List.replicate (-d.leadingPlace - 1).toNat '0' ++ d.digits
  else
    let wholeLength := d.leadingPlace.toNat + 1
    let whole := d.digits.take wholeLength
    let fraction := d.digits.drop wholeLength
    whole ++ List.replicate (wholeLength - whole.length) '0' ++ '.' ::
      (if fraction.isEmpty then ['0'] else fraction)

/-- One digit before the point, none of the point if no digit follows, and the
exponent with its sign. -/
def scientific (d : Digits) : List Char :=
  let power := Nat.toDigits 10 d.leadingPlace.natAbs
  d.digits.take 1 ++ (if d.digits.length ≤ 1 then [] else '.' :: d.digits.drop 1) ++
    'e' :: (if d.leadingPlace < 0 then '-' else '+') :: power

/-- Digits in the form that their first place asks for. -/
def write (layout : Layout) (d : Digits) : List Char :=
  if layout.lowestPositional ≤ d.leadingPlace && d.leadingPlace ≤ layout.highestPositional
  then positional d
  else scientific d

/-- The text of a finite number. -/
def text (layout : Layout) (x : Float) : String :=
  let b := Binary64.ofFloat x
  let magnitude :=
    if b.significand = 0 then ['0', '.', '0']
    else
      let (n, place) := (RoundingInterval.ofBinary64 b).shortest
      layout.write (Digits.ofUnits n place)
  String.ofList (if b.negative then '-' :: magnitude else magnitude)

end Layout

end SetAssociative.Decimal
