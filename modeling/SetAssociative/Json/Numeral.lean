import SetAssociative.Decimal.Scale

/-! Number literals: an optional minus sign, a whole part without needless
zeros, an optional fraction and an optional exponent. A literal with neither
fraction nor exponent is a whole number as long as a signed or unsigned 64-bit
word holds it; every other literal is a floating point number. -/
namespace SetAssociative.Json

/-- The parts of a number literal, each as the digits that spell it. -/
structure Numeral where
  negative : Bool
  whole : List Char
  fraction : Option (List Char)
  /-- Whether the exponent is negative, and its digits. -/
  exponent : Option (Bool × List Char)
  deriving DecidableEq, Repr

/-- A run of at least one digit, and the text after it. -/
def digits? (text : List Char) : Option (List Char × List Char) :=
  match text.takeWhile Char.isDigit with
  | [] => none
  | digits => some (digits, text.dropWhile Char.isDigit)

theorem length_of_digits? {text digits rest : List Char}
    (read : digits? text = some (digits, rest)) : rest.length < text.length := by
  unfold digits? at read
  split at read
  · simp at read
  · rename_i nonempty
    obtain ⟨rfl, rfl⟩ := by simpa using read
    have parts := congrArg List.length (List.takeWhile_append_dropWhile (p := Char.isDigit) (l := text))
    have : (text.takeWhile Char.isDigit).length ≠ 0 := by simpa using nonempty
    simp only [List.length_append] at parts
    omega

namespace Numeral

/-- The sign of a literal, and the text after it. -/
def readSign : List Char → Bool × List Char
  | [] => (false, [])
  | c :: rest => if c = '-' then (true, rest) else (false, c :: rest)

/-- The whole part: a zero on its own, or digits that start with another digit. -/
def readWhole (text : List Char) : Option (List Char × List Char) :=
  match digits? text with
  | none => none
  | some (digits, rest) =>
    if digits.head? = some '0' && 1 < digits.length then none else some (digits, rest)

/-- The fraction, if a point stands here; the point must have a digit after it. -/
def readFraction : List Char → Option (Option (List Char) × List Char)
  | [] => some (none, [])
  | c :: rest =>
    if c = '.' then (digits? rest).map fun (digits, rest) => (some digits, rest)
    else some (none, c :: rest)

/-- The sign of an exponent, which may also be a plus, and the text after it. -/
def readExponentSign : List Char → Bool × List Char
  | [] => (false, [])
  | c :: rest => if c = '-' then (true, rest) else if c = '+' then (false, rest) else (false, c :: rest)

/-- The exponent, if its letter stands here; a digit must follow. -/
def readExponent : List Char → Option (Option (Bool × List Char) × List Char)
  | [] => some (none, [])
  | c :: rest =>
    if c = 'e' || c = 'E' then
      let signed := readExponentSign rest
      (digits? signed.2).map fun (digits, rest) => (some (signed.1, digits), rest)
    else some (none, c :: rest)

/-- The longest number literal at the start of a text, and the text after it. -/
def read? (text : List Char) : Option (Numeral × List Char) :=
  let (negative, text) := readSign text
  match readWhole text with
  | none => none
  | some (whole, text) =>
    match readFraction text with
    | none => none
    | some (fraction, text) =>
      match readExponent text with
      | none => none
      | some (exponent, rest) => some ({ negative, whole, fraction, exponent }, rest)

/-- The value of one digit. -/
def digitValue (c : Char) : Nat := c.toNat - '0'.toNat

/-- The number that decimal digits spell. -/
def digitsValue (digits : List Char) : Nat :=
  digits.foldl (fun value c => value * 10 + digitValue c) 0

/-- Appends digits to a significand as long as it fits a 64-bit word, and gives
back the digits from the first one that does not. -/
def pushDigits (significand : Nat) : List Char → Nat × List Char
  | [] => (significand, [])
  | c :: rest =>
    if significand * 10 + digitValue c < UInt64.size
    then pushDigits (significand * 10 + digitValue c) rest
    else (significand, c :: rest)

/-- The exponent as a number. -/
def exponentValue (n : Numeral) : Int :=
  match n.exponent with
  | none => 0
  | some (true, digits) => -(digitsValue digits : Int)
  | some (false, digits) => digitsValue digits

/-- The literal as a floating point number, unless its magnitude is too large.
Only the leading digits that fit a word count: each further digit of the whole
part still raises the exponent, further digits of the fraction are dropped. -/
def float? (n : Numeral) : Option Float :=
  let fraction := n.fraction.getD []
  let (significand, wholeLeft) := pushDigits 0 n.whole
  let (significand, fractionLeft) := pushDigits significand fraction
  let shift : Int := (wholeLeft.length : Int) - (fraction.length - fractionLeft.length : Nat)
  (Decimal.scale? significand (shift + n.exponentValue)).map fun magnitude =>
    if n.negative then -magnitude else magnitude

/-- The literal as a whole number that a signed or unsigned 64-bit word holds. A
zero with a minus sign is none, as the sign would be lost. -/
def integer? (n : Numeral) : Option Int :=
  if n.fraction.isSome || n.exponent.isSome then none
  else
    let magnitude := digitsValue n.whole
    if n.negative then
      if 0 < magnitude && magnitude ≤ UInt64.size / 2 then some (-(magnitude : Int)) else none
    else if magnitude < UInt64.size then some magnitude
    else none

end Numeral

theorem Numeral.length_of_readWhole {text digits rest : List Char}
    (read : Numeral.readWhole text = some (digits, rest)) : rest.length < text.length := by
  unfold Numeral.readWhole at read
  split at read
  · simp at read
  · rename_i found
    split at read <;> simp at read
    obtain ⟨_, rfl⟩ := read
    exact length_of_digits? found

theorem Numeral.length_of_readFraction {text rest : List Char} {digits : Option (List Char)}
    (read : Numeral.readFraction text = some (digits, rest)) : rest.length ≤ text.length := by
  unfold Numeral.readFraction at read
  split at read
  · obtain ⟨_, rfl⟩ := by simpa using read
    simp
  · split at read
    · obtain ⟨⟨_, _⟩, found, same⟩ := Option.map_eq_some_iff.mp read
      obtain ⟨_, rfl⟩ := by simpa using same
      have := length_of_digits? found
      simp only [List.length_cons]
      omega
    · obtain ⟨_, rfl⟩ := by simpa using read
      simp

theorem Numeral.length_readExponentSign_le (text : List Char) :
    (Numeral.readExponentSign text).2.length ≤ text.length := by
  unfold Numeral.readExponentSign
  split
  · simp
  · split
    · simp
    · split <;> simp

theorem Numeral.length_of_readExponent {text rest : List Char}
    {exponent : Option (Bool × List Char)}
    (read : Numeral.readExponent text = some (exponent, rest)) :
    rest.length ≤ text.length := by
  unfold Numeral.readExponent at read
  split at read
  · obtain ⟨_, rfl⟩ := by simpa using read
    simp
  · rename_i c tail
    split at read
    · obtain ⟨⟨_, _⟩, found, same⟩ := Option.map_eq_some_iff.mp read
      obtain ⟨_, rfl⟩ := by simpa using same
      have := length_of_digits? found
      have := Numeral.length_readExponentSign_le tail
      simp only [List.length_cons]
      omega
    · obtain ⟨_, rfl⟩ := by simpa using read
      simp

theorem Numeral.length_readSign_le (text : List Char) :
    (Numeral.readSign text).2.length ≤ text.length := by
  unfold Numeral.readSign
  split
  · simp
  · split <;> simp

theorem Numeral.length_of_read? {text rest : List Char} {n : Numeral}
    (read : Numeral.read? text = some (n, rest)) : rest.length < text.length := by
  simp only [Numeral.read?] at read
  split at read
  · simp at read
  · rename_i whole
    split at read
    · simp at read
    · rename_i fraction
      split at read
      · simp at read
      · rename_i exponent
        obtain ⟨_, rfl⟩ := by simpa using read
        have := Numeral.length_readSign_le text
        have := Numeral.length_of_readWhole whole
        have := Numeral.length_of_readFraction fraction
        have := Numeral.length_of_readExponent exponent
        omega

end SetAssociative.Json
