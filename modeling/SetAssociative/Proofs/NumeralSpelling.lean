import SetAssociative.Json.Blank
import SetAssociative.Json.Value

/-! Number literals are read back whole. A literal has no end of its own: it is the longest one
that stands here, so what follows it must not go on with it. -/
namespace SetAssociative.Json

/-- No number goes on here: the text is at its end, or has another character next. -/
def Ends (text : List Char) : Prop :=
  ∀ c ∈ text.head?, c.isDigit = false ∧ c ≠ '.' ∧ c ≠ 'e' ∧ c ≠ 'E'

theorem ends_nil : Ends [] := by rintro _ ⟨⟩

theorem Ends.cons {c : Char} {text : List Char}
    (other : c.isDigit = false ∧ c ≠ '.' ∧ c ≠ 'e' ∧ c ≠ 'E') : Ends (c :: text) := by
  rintro d ⟨⟩
  exact other

/-- The tokens that can follow a value end it. -/
theorem ends_token (c : Char) (token : c ∈ [',', ']', '}']) (text : List Char) :
    Ends (c :: text) := by
  have each : ∀ c ∈ [',', ']', '}'], c.isDigit = false ∧ c ≠ '.' ∧ c ≠ 'e' ∧ c ≠ 'E' := by simp
  exact .cons (each c token)

theorem isBlank_of_mem : ∀ c ∈ [' ', '\t', '\n', '\r'], isBlank c = true := by simp [isBlank]

theorem skipBlank_blanks {blanks : List Char} (blank : Blanks blanks) (text : List Char) :
    skipBlank (blanks ++ text) = skipBlank text :=
  skipBlank_append (fun c inside => isBlank_of_mem c (blank c inside)) text

theorem Ends.append {blanks text : List Char} (ends : Ends text) (blank : Blanks blanks) :
    Ends (blanks ++ text) := by
  cases blanks with
  | nil => exact ends
  | cons c blanks =>
    have each : ∀ c ∈ [' ', '\t', '\n', '\r'],
        c.isDigit = false ∧ c ≠ '.' ∧ c ≠ 'e' ∧ c ≠ 'E' := by simp
    exact .cons (each c (blank c List.mem_cons_self))

variable {digits text rest : List Char} {n : Numeral}

theorem digits?_append (proper : Digits digits) (stop : ∀ c ∈ rest.head?, c.isDigit = false) :
    digits? (digits ++ rest) = some (digits, rest) := by
  obtain ⟨nonempty, allDigits⟩ := proper
  have taken : (digits ++ rest).takeWhile Char.isDigit = digits := by
    rw [List.takeWhile_append_of_pos allDigits]
    cases rest with
    | nil => simp
    | cons c rest => simp [stop c rfl]
  have dropped : (digits ++ rest).dropWhile Char.isDigit = rest := by
    rw [List.dropWhile_append_of_pos allDigits]
    cases rest with
    | nil => rfl
    | cons c rest => simp [stop c rfl]
  rw [digits?, taken, dropped]
  split
  · exact absurd rfl nonempty
  · rfl

/-- A run of digits starts with one. -/
theorem Digits.head (proper : Digits digits) :
    ∃ c more, digits = c :: more ∧ c.isDigit = true := by
  cases digits with
  | nil => exact absurd rfl proper.1
  | cons c more => exact ⟨c, more, rfl, proper.2 c (by simp)⟩

/-- A digit is none of the characters that the readers of values look for. -/
theorem ne_of_isDigit {c other : Char} (digit : c.isDigit = true)
    (marked : other.isDigit = false) : c ≠ other := by
  rintro rfl
  exact Bool.eq_false_iff.mp marked digit

namespace Numeral

theorem readWhole_append (proper : Digits digits)
    (needed : digits = ['0'] ∨ digits.head? ≠ some '0')
    (stop : ∀ c ∈ rest.head?, c.isDigit = false) :
    readWhole (digits ++ rest) = some (digits, rest) := by
  rw [readWhole, digits?_append proper stop]
  refine if_neg ?_
  rcases needed with rfl | other
  · decide
  · simp [other]

theorem readFraction_append {fraction : Option (List Char)}
    (spelled : SpellsFraction fraction text)
    (ends : ∀ c ∈ rest.head?, c.isDigit = false ∧ c ≠ '.') :
    readFraction (text ++ rest) = some (fraction, rest) := by
  cases spelled with
  | none =>
    cases rest with
    | nil => rfl
    | cons c rest => simp [readFraction, (ends c rfl).2]
  | some proper =>
    simp only [List.cons_append, readFraction, ↓reduceIte,
      digits?_append proper fun c next => (ends c next).1, Option.map_some]

theorem readExponentSign_append {negative : Bool} {sign : List Char}
    (signs : (negative, sign) ∈ [(true, ['-']), (false, []), (false, ['+'])])
    (proper : Digits digits) (rest : List Char) :
    readExponentSign (sign ++ digits ++ rest) = (negative, digits ++ rest) := by
  obtain ⟨c, more, rfl, digit⟩ := proper.head
  simp only [List.mem_cons, Prod.mk.injEq, List.not_mem_nil, or_false] at signs
  obtain ⟨rfl, rfl⟩ | ⟨rfl, rfl⟩ | ⟨rfl, rfl⟩ := signs
  · simp [readExponentSign]
  · have noMinus : c ≠ '-' := ne_of_isDigit digit rfl
    have noPlus : c ≠ '+' := ne_of_isDigit digit rfl
    simp [readExponentSign, noMinus, noPlus]
  · simp [readExponentSign]

theorem readExponent_append {exponent : Option (Bool × List Char)}
    (spelled : SpellsExponent exponent text) (ends : Ends rest) :
    readExponent (text ++ rest) = some (exponent, rest) := by
  cases spelled with
  | none =>
    cases rest with
    | nil => rfl
    | cons c rest => simp [readExponent, (ends c rfl).2.2]
  | some letters signs proper =>
    rw [List.cons_append, readExponent, if_pos (by simpa using letters),
      readExponentSign_append signs proper]
    simp only [digits?_append proper fun c next => (ends c next).1, Option.map_some]

/-- What can come after the whole part of a number does not go on with its digits. -/
theorem head?_fraction {fraction : Option (List Char)} (spelled : SpellsFraction fraction text)
    (stop : ∀ c ∈ rest.head?, c.isDigit = false) :
    ∀ c ∈ (text ++ rest).head?, c.isDigit = false := by
  cases spelled with
  | none => exact stop
  | some => rintro c ⟨⟩; decide

theorem head?_exponent {exponent : Option (Bool × List Char)}
    (spelled : SpellsExponent exponent text) (ends : Ends rest) :
    ∀ c ∈ (text ++ rest).head?, c.isDigit = false ∧ c ≠ '.' := by
  cases spelled with
  | none => exact fun c next => ⟨(ends c next).1, (ends c next).2.1⟩
  | some letters => rintro c ⟨⟩; rcases letters with rfl | rfl <;> decide

/-- A number is read from its spelling, with the text after it left as it is. -/
theorem read?_of_spells (spelled : SpellsNumeral n text) (ends : Ends rest) :
    read? (text ++ rest) = some (n, rest) := by
  cases spelled with
  | @parts fraction exponent whole needed fractional exponential =>
    have afterFraction := head?_exponent exponential ends
    have afterWhole := head?_fraction fractional fun c next => (afterFraction c next).1
    have signed : readSign ((if n.negative then ['-'] else []) ++
        (n.whole ++ (fraction ++ exponent)) ++ rest) =
          (n.negative, n.whole ++ (fraction ++ (exponent ++ rest))) := by
      obtain ⟨c, more, same, digit⟩ := whole.head
      have noMinus : c ≠ '-' := ne_of_isDigit digit rfl
      cases n.negative <;> simp [readSign, same, noMinus]
    simp only [read?, signed, readWhole_append whole needed afterWhole,
      readFraction_append fractional afterFraction, readExponent_append exponential ends]

end Numeral

/-- Digits without a needless zero are a number on their own. -/
theorem SpellsNumeral.whole {digits : List Char} (proper : Digits digits)
    (needed : digits = ['0'] ∨ digits.head? ≠ some '0') :
    SpellsNumeral ⟨false, digits, none, none⟩ digits := by
  simpa using SpellsNumeral.parts (n := ⟨false, digits, none, none⟩) proper needed .none .none

/-- The first character of a number. -/
theorem SpellsNumeral.head (spelled : SpellsNumeral n text) :
    ∃ c more, text = c :: more ∧ (c = '-' ∨ c.isDigit = true) := by
  cases spelled with
  | parts whole needed fractional exponential =>
    obtain ⟨c, more, same, digit⟩ := whole.head
    cases n.negative with
    | true => exact ⟨_, _, rfl, .inl rfl⟩
    | false =>
      rw [same]
      exact ⟨_, _, rfl, .inr digit⟩

/-- The digits of a number are read as the number they spell. -/
theorem digitsValue_eq (digits : List Char) :
    Numeral.digitsValue digits = Nat.ofDigitChars 10 digits 0 := by
  simp only [Numeral.digitsValue, Nat.ofDigitChars, Numeral.digitValue, Nat.mul_comm]

/-- The literals that stand for a whole number that is not negative: those without a sign,
a fraction and an exponent, as long as a word holds their value. -/
theorem integer?_eq_natCast_iff {value : Nat} :
    n.integer? = some (value : Int) ↔
      n.negative = false ∧ n.fraction = none ∧ n.exponent = none ∧
        Nat.ofDigitChars 10 n.whole 0 = value ∧ value < UInt64.size := by
  obtain ⟨negative, whole, fraction, exponent⟩ := n
  rw [← digitsValue_eq]
  cases fraction <;> cases exponent <;> cases negative <;> simp [Numeral.integer?]
  · omega
  · omega

end SetAssociative.Json
