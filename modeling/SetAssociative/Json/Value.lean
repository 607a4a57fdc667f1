import SetAssociative.Json.Numeral

/-! Values, and the texts that spell them. A value has many texts: blanks may stand around
every token, a character of a string may be written as it is or escaped in several ways, and
the exponent of a number has more than one form. What a text says is stated here without
reading it. -/
namespace SetAssociative.Json

/-- What a string consists of: characters, and halves of surrogate pairs that stand without
the other half, which an escape can spell though no character is meant. -/
inductive Point where
  | char (c : Char)
  | half (unit : Nat)
  deriving DecidableEq, Repr

/-- A value. A number is told by its literal, since literals of equal value can differ in
whether they are whole numbers. -/
inductive Value where
  | null
  | boolean (value : Bool)
  | number (literal : Numeral)
  | text (points : List Point)
  | sequence (elements : List Value)
  | map (members : List (List Point × Value))
  deriving Repr

/-- The points of a text. -/
def Point.ofString (s : String) : List Point := s.toList.map .char

/-- A run of blanks, which may be empty. -/
def Blanks (text : List Char) : Prop := ∀ c ∈ text, c ∈ [' ', '\t', '\n', '\r']

/-- A hexadecimal digit, in small or in capital letters. -/
def HexDigit (value : Nat) (digit : Char) : Prop :=
  ['0', '1', '2', '3', '4', '5', '6', '7', '8', '9', 'a', 'b', 'c', 'd', 'e', 'f'][value]? = digit ∨
  ['0', '1', '2', '3', '4', '5', '6', '7', '8', '9', 'A', 'B', 'C', 'D', 'E', 'F'][value]? = digit

/-- Four digits that spell a 16-bit number. -/
inductive SpellsUnit : Nat → List Char → Prop where
  | digits {a b c d : Nat} {first second third fourth : Char} (hexA : HexDigit a first)
      (hexB : HexDigit b second) (hexC : HexDigit c third) (hexD : HexDigit d fourth) :
      SpellsUnit (a * 0x1000 + b * 0x100 + c * 0x10 + d) [first, second, third, fourth]

/-- The letters of the short escapes, and what they stand for. -/
def letterEscapes : List (Char × Char) :=
  [('"', '"'), ('\\', '\\'), ('/', '/'), ('b', '\x08'), ('f', '\x0c'), ('n', '\n'), ('r', '\r'),
    ('t', '\t')]

/-- One point of a string. A character below the space, a quote or a backslash must be escaped;
a character beyond the 16-bit range is escaped as a pair of surrogates. -/
inductive SpellsPoint : Point → List Char → Prop where
  | plain {c : Char} (shown : ' ' ≤ c) (quote : c ≠ '"') (backslash : c ≠ '\\') :
      SpellsPoint (.char c) [c]
  | letter {letter c : Char} (escape : (letter, c) ∈ letterEscapes) :
      SpellsPoint (.char c) ['\\', letter]
  | numeric {c : Char} {digits : List Char} (unit : SpellsUnit c.toNat digits) :
      SpellsPoint (.char c) ('\\' :: 'u' :: digits)
  | pair {c : Char} {high low : Nat} {digits more : List Char}
      (above : 0xd800 ≤ high ∧ high ≤ 0xdbff) (below : 0xdc00 ≤ low ∧ low ≤ 0xdfff)
      (joined : c.toNat = 0x10000 + (high - 0xd800) * 0x400 + (low - 0xdc00))
      (first : SpellsUnit high digits) (second : SpellsUnit low more) :
      SpellsPoint (.char c) ('\\' :: 'u' :: digits ++ '\\' :: 'u' :: more)
  | half {unit : Nat} {digits : List Char} (surrogate : 0xd800 ≤ unit ∧ unit ≤ 0xdfff)
      (spelled : SpellsUnit unit digits) : SpellsPoint (.half unit) ('\\' :: 'u' :: digits)

/-- Two halves in a row that would mean one character together. -/
def Joins : Point → List Point → Prop
  | .half high, .half low :: _ => high ≤ 0xdbff ∧ 0xdc00 ≤ low
  | _, _ => False

/-- The inside of a string, its quotes left out. -/
inductive SpellsString : List Point → List Char → Prop where
  | nil : SpellsString [] []
  | cons {point : Point} {points : List Point} {text more : List Char}
      (first : SpellsPoint point text) (alone : ¬ Joins point points)
      (rest : SpellsString points more) : SpellsString (point :: points) (text ++ more)

/-- A run of at least one digit. -/
def Digits (text : List Char) : Prop := text ≠ [] ∧ ∀ c ∈ text, c.isDigit = true

/-- The fraction of a number, with its point. -/
inductive SpellsFraction : Option (List Char) → List Char → Prop where
  | none : SpellsFraction none []
  | some {digits : List Char} (proper : Digits digits) :
      SpellsFraction (some digits) ('.' :: digits)

/-- The exponent of a number. It is positive with a plus sign and without any sign. -/
inductive SpellsExponent : Option (Bool × List Char) → List Char → Prop where
  | none : SpellsExponent none []
  | some {letter : Char} {negative : Bool} {sign digits : List Char}
      (letters : letter = 'e' ∨ letter = 'E')
      (signs : (negative, sign) ∈ [(true, ['-']), (false, []), (false, ['+'])])
      (proper : Digits digits) :
      SpellsExponent (some (negative, digits)) (letter :: (sign ++ digits))

/-- A number literal. Its whole part starts with a zero only if it is that zero. -/
inductive SpellsNumeral (n : Numeral) : List Char → Prop where
  | parts {fraction exponent : List Char} (whole : Digits n.whole)
      (needed : n.whole = ['0'] ∨ n.whole.head? ≠ some '0')
      (fractional : SpellsFraction n.fraction fraction)
      (exponential : SpellsExponent n.exponent exponent) :
      SpellsNumeral n ((if n.negative then ['-'] else []) ++ (n.whole ++ (fraction ++ exponent)))

/-- What is spelled on its own: a value, also with blanks around it; the elements of a sequence
and the members of a map up to the closing bracket; and one member, with blanks around its
tokens. -/
inductive Phrase where
  | value (v : Value)
  | padded (v : Value)
  | elements (values : List Value)
  | member (key : List Point) (v : Value)
  | members (members : List (List Point × Value))

/-- The texts of a phrase. -/
inductive Spells : Phrase → List Char → Prop where
  | null : Spells (.value .null) ['n', 'u', 'l', 'l']
  | yes : Spells (.value (.boolean true)) ['t', 'r', 'u', 'e']
  | no : Spells (.value (.boolean false)) ['f', 'a', 'l', 's', 'e']
  | number {n : Numeral} {text : List Char} (spelled : SpellsNumeral n text) :
      Spells (.value (.number n)) text
  | text {points : List Point} {text : List Char} (spelled : SpellsString points text) :
      Spells (.value (.text points)) ('"' :: (text ++ ['"']))
  | emptySequence {blanks : List Char} (blank : Blanks blanks) :
      Spells (.value (.sequence [])) ('[' :: (blanks ++ [']']))
  | sequence {values : List Value} {text : List Char} (inside : Spells (.elements values) text) :
      Spells (.value (.sequence values)) ('[' :: text)
  | emptyMap {blanks : List Char} (blank : Blanks blanks) :
      Spells (.value (.map [])) ('{' :: (blanks ++ ['}']))
  | map {members : List (List Point × Value)} {text : List Char}
      (inside : Spells (.members members) text) : Spells (.value (.map members)) ('{' :: text)
  | padded {v : Value} {before text after : List Char} (leading : Blanks before)
      (spelled : Spells (.value v) text) (trailing : Blanks after) :
      Spells (.padded v) (before ++ (text ++ after))
  | lastElement {v : Value} {text : List Char} (last : Spells (.padded v) text) :
      Spells (.elements [v]) (text ++ [']'])
  | element {v : Value} {values : List Value} {text more : List Char}
      (first : Spells (.padded v) text) (rest : Spells (.elements values) more) :
      Spells (.elements (v :: values)) (text ++ ',' :: more)
  | member {key : List Point} {v : Value} {before name after text : List Char}
      (leading : Blanks before) (spelled : SpellsString key name) (trailing : Blanks after)
      (value : Spells (.padded v) text) :
      Spells (.member key v) (before ++ '"' :: (name ++ '"' :: (after ++ ':' :: text)))
  | lastMember {key : List Point} {v : Value} {text : List Char}
      (last : Spells (.member key v) text) : Spells (.members [(key, v)]) (text ++ ['}'])
  | moreMembers {key : List Point} {v : Value} {members : List (List Point × Value)}
      {text more : List Char} (first : Spells (.member key v) text)
      (rest : Spells (.members members) more) :
      Spells (.members ((key, v) :: members)) (text ++ ',' :: more)

end SetAssociative.Json
