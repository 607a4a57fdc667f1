import SetAssociative.Json.StringLiteral
import SetAssociative.Json.Value

/-! Strings are read back from every text that spells them, whichever escapes were chosen. Only
a half of a surrogate pair without the other cannot be read; a string that is skipped may hold
such halves too. -/
namespace SetAssociative.Json

/-- The characters of a string, if no half of a surrogate pair is among its points. -/
def characters? : List Point → Option (List Char)
  | [] => some []
  | .char c :: points => (characters? points).map (c :: ·)
  | .half _ :: _ => none

theorem characters?_eq_some_iff {points : List Point} {characters : List Char} :
    characters? points = some characters ↔ points = characters.map .char := by
  induction points generalizing characters with
  | nil => cases characters <;> simp [characters?]
  | cons point points ih =>
    cases point with
    | char c =>
      cases characters with
      | nil => simp [characters?]
      | cons d characters =>
        simp only [characters?, Option.map_eq_some_iff, List.cons.injEq, ih, List.map_cons,
          Point.char.injEq]
        constructor
        · rintro ⟨_, same, rfl, rfl⟩
          exact ⟨rfl, same⟩
        · rintro ⟨rfl, same⟩
          exact ⟨_, same, rfl, rfl⟩
    | half unit => cases characters <;> simp [characters?]

/-- The text that a string means, if it means one. -/
def Point.text? (points : List Point) : Option String := (characters? points).map String.ofList

variable {points : List Point} {text rest : List Char} {c : Char} {unit : Nat}

theorem Point.text?_eq_some_iff {s : String} : text? points = some s ↔ points = ofString s := by
  simp only [text?, Option.map_eq_some_iff, characters?_eq_some_iff, ofString]
  constructor
  · rintro ⟨characters, rfl, rfl⟩
    rw [String.toList_ofList]
  · rintro rfl
    exact ⟨s.toList, rfl, String.ofList_toList⟩

theorem hexValue?_of_hexDigit {value : Nat} {digit : Char} (hex : HexDigit value digit) :
    hexValue? digit = some value := by
  have small : ∀ value : Fin 16, hexValue? (['0', '1', '2', '3', '4', '5', '6', '7', '8', '9',
      'a', 'b', 'c', 'd', 'e', 'f'][value]) = some value.val := by decide
  have capital : ∀ value : Fin 16, hexValue? (['0', '1', '2', '3', '4', '5', '6', '7', '8', '9',
      'A', 'B', 'C', 'D', 'E', 'F'][value]) = some value.val := by decide
  rcases hex with hex | hex
  · obtain ⟨inside, rfl⟩ := List.getElem?_eq_some_iff.mp hex
    exact small ⟨value, inside⟩
  · obtain ⟨inside, rfl⟩ := List.getElem?_eq_some_iff.mp hex
    exact capital ⟨value, inside⟩

theorem hexUnit?_of_spells {digits : List Char} (spelled : SpellsUnit unit digits)
    (rest : List Char) : hexUnit? (digits ++ rest) = some (unit, rest) := by
  cases spelled with
  | digits hexA hexB hexC hexD =>
    simp only [hexUnit?, List.cons_append, List.nil_append, hexValue?_of_hexDigit hexA,
      hexValue?_of_hexDigit hexB, hexValue?_of_hexDigit hexC, hexValue?_of_hexDigit hexD,
      Option.bind_eq_bind, Option.bind_some, Option.some.injEq, Prod.mk.injEq, and_true]
    omega

theorem letterEscape?_of_mem {letter : Char} (escape : (letter, c) ∈ letterEscapes) :
    letterEscape? letter = some c ∧ letter ≠ 'u' :=
  (by decide : ∀ e ∈ letterEscapes, letterEscape? e.1 = some e.2 ∧ e.1 ≠ 'u') _ escape

/-- No character has the number of a surrogate. -/
theorem toNat_lt_or_lt (c : Char) : c.toNat < 0xd800 ∨ 0xdfff < c.toNat :=
  c.valid.imp_right And.left

theorem isHighSurrogate_toNat (c : Char) : isHighSurrogate c.toNat = false := by
  have apart := toNat_lt_or_lt c
  simp only [isHighSurrogate, Bool.and_eq_false_iff, decide_eq_false_iff_not]
  omega

theorem isLowSurrogate_toNat (c : Char) : isLowSurrogate c.toNat = false := by
  have apart := toNat_lt_or_lt c
  simp only [isLowSurrogate, Bool.and_eq_false_iff, decide_eq_false_iff_not]
  omega

/-- A character is read from each of its spellings. -/
theorem readUnit?_of_spells (spelled : SpellsPoint (.char c) text) (rest : List Char) :
    readUnit? (text ++ rest) = some (c, rest) := by
  cases spelled with
  | plain shown quote backslash =>
    simp only [List.cons_append, List.nil_append, readUnit?, if_neg backslash,
      if_neg (Char.not_lt.mpr shown)]
  | letter escape =>
    obtain ⟨meant, short⟩ := letterEscape?_of_mem escape
    simp only [List.cons_append, List.nil_append, readUnit?, ↓reduceIte, if_neg short, meant,
      Option.map_some]
  | numeric unit =>
    simp only [List.cons_append, readUnit?, ↓reduceIte, numericEscape?, hexUnit?_of_spells unit,
      isHighSurrogate_toNat, isLowSurrogate_toNat, Bool.false_eq_true, Char.ofNat_toNat]
  | @pair _ high low _ _ above below joined first second =>
    have isHigh : isHighSurrogate high = true := by simpa [isHighSurrogate] using above
    have isLow : isLowSurrogate low = true := by simpa [isLowSurrogate] using below
    simp only [List.cons_append, List.append_assoc, readUnit?, ↓reduceIte, numericEscape?,
      hexUnit?_of_spells first, isHigh, afterWord?, Option.bind_some, hexUnit?_of_spells second,
      isLow, joinSurrogates, ← joined, Char.ofNat_toNat]

/-- After a half at the start of a pair, the other half follows only where they join. -/
theorem not_isLowSurrogate_of_spells {low : Nat} {after : List Char}
    (spelled : SpellsString points text)
    (read : (afterWord? ['\\', 'u'] (text ++ '"' :: rest)).bind hexUnit? = some (low, after))
    (alone : ∀ rest, points ≠ .half low :: rest) : isLowSurrogate low = false := by
  cases spelled with
  | nil => simp [afterWord?] at read
  | cons first joinless more =>
    cases first with
    | plain shown quote backslash => simp [afterWord?, Ne.symm backslash] at read
    | letter escape => simp [afterWord?, Ne.symm (letterEscape?_of_mem escape).2] at read
    | numeric unit =>
      simp only [List.cons_append, List.append_assoc, afterWord?, ↓reduceIte, Option.bind_some,
        hexUnit?_of_spells unit, Option.some.injEq, Prod.mk.injEq] at read
      rw [← read.1]
      exact isLowSurrogate_toNat _
    | pair above below joined one two =>
      simp only [List.cons_append, List.append_assoc, afterWord?, ↓reduceIte, Option.bind_some,
        hexUnit?_of_spells one, Option.some.injEq, Prod.mk.injEq] at read
      rw [← read.1]
      simp only [isLowSurrogate, Bool.and_eq_false_iff, decide_eq_false_iff_not]
      omega
    | half surrogate unit =>
      simp only [List.cons_append, List.append_assoc, afterWord?, ↓reduceIte, Option.bind_some,
        hexUnit?_of_spells unit, Option.some.injEq, Prod.mk.injEq] at read
      rw [← read.1] at alone
      exact absurd rfl (alone _)

/-- A half that stands alone cannot be read. -/
theorem readUnit?_of_half {half : List Char} (spelled : SpellsPoint (.half unit) half)
    (alone : ¬ Joins (.half unit) points) (more : SpellsString points text) (rest : List Char) :
    readUnit? (half ++ (text ++ '"' :: rest)) = none := by
  cases spelled with
  | half surrogate digits =>
    simp only [List.cons_append, readUnit?, ↓reduceIte, numericEscape?, hexUnit?_of_spells digits]
    cases high : isHighSurrogate unit with
    | true =>
      simp only [↓reduceIte]
      split
      · rfl
      · rename_i low after read
        -- an escape does follow, but of no low half, which would join with this one
        have apart : isLowSurrogate low = false := by
          refine Bool.eq_false_iff.mpr fun joined => ?_
          have other := not_isLowSurrogate_of_spells more read ?_
          · exact Bool.eq_false_iff.mp other joined
          · rintro others rfl
            simp only [isHighSurrogate, isLowSurrogate, Bool.and_eq_true, decide_eq_true_eq]
              at high joined
            exact alone ⟨high.2, joined.1⟩
        simp [apart]
    | false =>
      have low : isLowSurrogate unit = true := by
        simp only [isHighSurrogate, Bool.and_eq_false_iff, decide_eq_false_iff_not] at high
        simp only [isLowSurrogate, Bool.and_eq_true, decide_eq_true_eq]
        omega
      simp [low]

/-- The first character of a spelled point, which is never the closing quote. -/
theorem SpellsPoint.head {point : Point} (spelled : SpellsPoint point text) :
    ∃ first more, text = first :: more ∧ first ≠ '"' := by
  cases spelled with
  | plain shown quote backslash => exact ⟨_, _, rfl, quote⟩
  | letter | numeric | pair | half => exact ⟨_, _, rfl, by decide⟩

theorem readUnits_of_unit {first c : Char} {tail after : List Char} (open_quote : first ≠ '"')
    (found : readUnit? (first :: tail) = some (c, after)) (read : List Char) :
    readUnits read (first :: tail) = readUnits (c :: read) after := by
  rw [readUnits, if_neg open_quote]
  split <;> rename_i other
  · cases found.symm.trans other
  · cases found.symm.trans other
    rfl

theorem readUnits_of_no_unit {first : Char} {tail : List Char} (open_quote : first ≠ '"')
    (found : readUnit? (first :: tail) = none) (read : List Char) :
    readUnits read (first :: tail) = none := by
  rw [readUnits, if_neg open_quote]
  split <;> rename_i other
  · rfl
  · cases found.symm.trans other

theorem readUnits_of_spells (spelled : SpellsString points text) (read rest : List Char) :
    readUnits read (text ++ '"' :: rest) =
      (characters? points).map fun characters => (read.reverse ++ characters, rest) := by
  induction spelled generalizing read with
  | nil => simp [readUnits, characters?]
  | @cons point points text more first alone others ih =>
    obtain ⟨start, tail, rfl, open_quote⟩ := first.head
    rw [List.append_assoc, List.cons_append]
    cases point with
    | char c =>
      have found := readUnit?_of_spells first (more ++ '"' :: rest)
      rw [List.cons_append] at found
      rw [readUnits_of_unit open_quote found]
      simp only [ih, characters?, Option.map_map, List.reverse_cons, List.append_assoc]
      rfl
    | half unit =>
      have unread := readUnit?_of_half first alone others rest
      rw [List.cons_append] at unread
      rw [readUnits_of_no_unit open_quote unread]
      rfl

/-- A string is read as the text that it means. -/
theorem readString?_of_spells (spelled : SpellsString points text) (rest : List Char) :
    readString? (text ++ '"' :: rest) = (Point.text? points).map fun s => (s, rest) := by
  rw [readString?, readUnits_of_spells spelled, Point.text?, Option.map_map, Option.map_map]
  rfl

theorem skipString?_of_unit {first : Char} {tail after : List Char} (open_quote : first ≠ '"')
    (skipped : skipUnit? (first :: tail) = some after) :
    skipString? (first :: tail) = skipString? after := by
  rw [skipString?, if_neg open_quote]
  split <;> rename_i found
  · cases skipped.symm.trans found
  · cases skipped.symm.trans found
    rfl

theorem skipString?_numeric {digits : List Char} (spelled : SpellsUnit unit digits)
    (rest : List Char) : skipString? ('\\' :: 'u' :: digits ++ rest) = skipString? rest := by
  rw [List.cons_append, List.cons_append]
  apply skipString?_of_unit (by decide)
  simp only [skipUnit?, ↓reduceIte, hexUnit?_of_spells spelled, Option.map_some]

theorem skipString?_append {point : Point} (spelled : SpellsPoint point text) (rest : List Char) :
    skipString? (text ++ rest) = skipString? rest := by
  cases spelled with
  | plain shown quote backslash =>
    rw [List.cons_append, List.nil_append]
    apply skipString?_of_unit quote
    simp only [skipUnit?, if_neg backslash, if_neg (Char.not_lt.mpr shown)]
  | letter escape =>
    obtain ⟨meant, short⟩ := letterEscape?_of_mem escape
    rw [List.cons_append, List.cons_append, List.nil_append]
    apply skipString?_of_unit (by decide)
    simp only [skipUnit?, ↓reduceIte, if_neg short, meant, Option.map_some]
  | numeric unit => exact skipString?_numeric unit rest
  | pair above below joined first second =>
    rw [List.append_assoc, skipString?_numeric first, skipString?_numeric second]
  | half surrogate unit => exact skipString?_numeric unit rest

/-- Characters that need no escape spell themselves. -/
theorem SpellsString.plain {s : String}
    (bare : ∀ c ∈ s.toList, ' ' ≤ c ∧ c ≠ '"' ∧ c ≠ '\\') :
    SpellsString (Point.ofString s) s.toList := by
  rw [Point.ofString]
  generalize s.toList = characters at bare ⊢
  induction characters with
  | nil => exact .nil
  | cons c characters ih =>
    obtain ⟨⟨shown, quote, backslash⟩, others⟩ := List.forall_mem_cons.mp bare
    exact .cons (.plain shown quote backslash) id (ih others)

/-- A string is skipped whatever it consists of. -/
theorem skipString?_of_spells (spelled : SpellsString points text) (rest : List Char) :
    skipString? (text ++ '"' :: rest) = some rest := by
  induction spelled with
  | nil => simp [skipString?]
  | cons first alone others ih => rw [List.append_assoc, skipString?_append first, ih]

end SetAssociative.Json
