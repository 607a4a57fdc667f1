/-! Powers of the two bases as whole numbers, in which all texts of numbers are
computed. -/
namespace SetAssociative.Decimal

/-- Two to a power. -/
def twoTo (exponent : Nat) : Nat := Nat.pow 2 exponent

/-- Ten to a power. -/
def tenTo (exponent : Nat) : Nat := Nat.pow 10 exponent

end SetAssociative.Decimal
