import SetAssociative.Json.Blank

/-! String literals. A literal is a run of units up to the closing quote; a unit
is a plain character or an escape. Reading decodes the units and asks that the
surrogates of escapes pair up, so that every value is a text. Skipping only
asks that each unit is well formed. -/
namespace SetAssociative.Json

/-- The value of one hexadecimal digit, in either case. -/
def hexValue? (c : Char) : Option Nat :=
  if '0' ≤ c ∧ c ≤ '9' then some (c.toNat - '0'.toNat)
  else if 'a' ≤ c ∧ c ≤ 'f' then some (c.toNat - 'a'.toNat + 10)
  else if 'A' ≤ c ∧ c ≤ 'F' then some (c.toNat - 'A'.toNat + 10)
  else none

/-- The 16-bit number that four hexadecimal digits spell, and the text after them. -/
def hexUnit? : List Char → Option (Nat × List Char)
  | a :: b :: c :: d :: rest => do
    let a ← hexValue? a
    let b ← hexValue? b
    let c ← hexValue? c
    let d ← hexValue? d
    some (((a * 16 + b) * 16 + c) * 16 + d, rest)
  | _ => none

/-- The character that a one-letter escape stands for. -/
def letterEscape? : Char → Option Char
  | '"' => some '"'
  | '\\' => some '\\'
  | '/' => some '/'
  | 'b' => some '\x08'
  | 'f' => some '\x0c'
  | 'n' => some '\n'
  | 'r' => some '\r'
  | 't' => some '\t'
  | _ => none

/-- First half of a pair that spells a character beyond the 16-bit range. -/
def isHighSurrogate (unit : Nat) : Bool := 0xd800 ≤ unit && unit ≤ 0xdbff

/-- Second half of such a pair. -/
def isLowSurrogate (unit : Nat) : Bool := 0xdc00 ≤ unit && unit ≤ 0xdfff

/-- The character that a pair of surrogates spells. -/
def joinSurrogates (high low : Nat) : Char :=
  Char.ofNat (0x10000 + (high - 0xd800) * 0x400 + (low - 0xdc00))

/-- The character that a numeric escape spells, the text being what follows its
letter. A high surrogate must be followed by the escape of a low one. -/
def numericEscape? (text : List Char) : Option (Char × List Char) :=
  match hexUnit? text with
  | none => none
  | some (unit, rest) =>
    if isHighSurrogate unit then
      match (afterWord? ['\\', 'u'] rest).bind hexUnit? with
      | none => none
      | some (low, rest) =>
        if isLowSurrogate low then some (joinSurrogates unit low, rest) else none
    else if isLowSurrogate unit then none
    else some (Char.ofNat unit, rest)

/-- One unit of a literal. Characters below the space must be escaped. -/
def readUnit? : List Char → Option (Char × List Char)
  | [] => none
  | c :: rest =>
    if c = '\\' then
      match rest with
      | [] => none
      | letter :: rest =>
        if letter = 'u' then numericEscape? rest
        else (letterEscape? letter).map fun meant => (meant, rest)
    else if c < ' ' then none
    else some (c, rest)

/-- The text after one unit, whatever the unit would decode to. -/
def skipUnit? : List Char → Option (List Char)
  | [] => none
  | c :: rest =>
    if c = '\\' then
      match rest with
      | [] => none
      | letter :: rest =>
        if letter = 'u' then (hexUnit? rest).map fun (_, rest) => rest
        else (letterEscape? letter).map fun _ => rest
    else if c < ' ' then none
    else some rest

theorem length_of_hexUnit? {text rest : List Char} {unit : Nat}
    (read : hexUnit? text = some (unit, rest)) : rest.length < text.length := by
  unfold hexUnit? at read
  split at read
  · simp only [Option.bind_eq_bind, Option.bind_eq_some_iff, Option.some.injEq,
      Prod.mk.injEq] at read
    obtain ⟨_, _, _, _, _, _, _, _, _, rfl⟩ := read
    simp only [List.length_cons]
    omega
  · simp at read

theorem length_of_numericEscape? {text rest : List Char} {c : Char}
    (read : numericEscape? text = some (c, rest)) : rest.length < text.length := by
  unfold numericEscape? at read
  split at read
  · simp at read
  · rename_i first
    have shorter := length_of_hexUnit? first
    split at read
    · split at read
      · simp at read
      · rename_i second
        obtain ⟨middle, word, unit⟩ := Option.bind_eq_some_iff.mp second
        have shorterAgain := length_of_hexUnit? unit
        have parts := congrArg List.length (eq_append_of_afterWord? word)
        simp only [List.length_append, List.length_cons, List.length_nil] at parts
        split at read <;> simp at read
        obtain ⟨_, rfl⟩ := read
        omega
    · split at read <;> simp at read
      obtain ⟨_, rfl⟩ := read
      exact shorter

theorem length_of_readUnit? {text rest : List Char} {c : Char}
    (read : readUnit? text = some (c, rest)) : rest.length < text.length := by
  unfold readUnit? at read
  split at read
  · simp at read
  · split at read
    · split at read
      · simp at read
      · split at read
        · have shorter := length_of_numericEscape? read
          simp only [List.length_cons]
          omega
        · simp only [Option.map_eq_some_iff, Prod.mk.injEq] at read
          obtain ⟨_, _, _, rfl⟩ := read
          simp only [List.length_cons]
          omega
    · split at read <;> simp at read
      obtain ⟨_, rfl⟩ := read
      simp

theorem length_of_skipUnit? {text rest : List Char}
    (skipped : skipUnit? text = some rest) : rest.length < text.length := by
  unfold skipUnit? at skipped
  split at skipped
  · simp at skipped
  · split at skipped
    · split at skipped
      · simp at skipped
      · split at skipped
        · obtain ⟨⟨unit, _⟩, read, rfl⟩ := Option.map_eq_some_iff.mp skipped
          have shorter := length_of_hexUnit? read
          simp only [List.length_cons]
          omega
        · obtain ⟨_, _, rfl⟩ := Option.map_eq_some_iff.mp skipped
          simp only [List.length_cons]
          omega
    · split at skipped <;> simp at skipped
      subst skipped
      simp

/-- Reads units up to the closing quote. `read` holds the characters decoded so
far, the last one first. -/
def readUnits (read text : List Char) : Option (List Char × List Char) :=
  match text with
  | [] => none
  | c :: rest =>
    if c = '"' then some (read.reverse, rest)
    else
      match _ : readUnit? (c :: rest) with
      | none => none
      | some (d, after) => readUnits (d :: read) after
termination_by text.length
decreasing_by exact length_of_readUnit? (by assumption)

/-- The text of a literal whose opening quote has been read, and what follows
its closing quote. -/
def readString? (text : List Char) : Option (String × List Char) :=
  (readUnits [] text).map fun (read, rest) => (String.ofList read, rest)

/-- The text after a literal whose opening quote has been read. -/
def skipString? (text : List Char) : Option (List Char) :=
  match text with
  | [] => none
  | c :: rest =>
    if c = '"' then some rest
    else
      match _ : skipUnit? (c :: rest) with
      | none => none
      | some after => skipString? after
termination_by text.length
decreasing_by exact length_of_skipUnit? (by assumption)

theorem length_of_readUnits {read text decoded rest : List Char}
    (done : readUnits read text = some (decoded, rest)) : rest.length < text.length := by
  fun_induction readUnits read text with
  | case1 => simp at done
  | case2 read rest =>
    obtain ⟨_, rfl⟩ := by simpa using done
    simp
  | case3 => simp at done
  | case4 read c rest _ d after found ih =>
    have shorter := length_of_readUnit? found
    have := ih done
    omega

theorem length_of_readString? {text rest : List Char} {s : String}
    (done : readString? text = some (s, rest)) : rest.length < text.length := by
  obtain ⟨⟨_, _⟩, read, same⟩ := Option.map_eq_some_iff.mp done
  obtain ⟨_, rfl⟩ := by simpa using same
  exact length_of_readUnits read

theorem length_of_skipString? {text rest : List Char}
    (done : skipString? text = some rest) : rest.length < text.length := by
  fun_induction skipString? text with
  | case1 => simp at done
  | case2 rest =>
    obtain rfl := by simpa using done
    simp
  | case3 => simp at done
  | case4 c rest _ after found ih =>
    have shorter := length_of_skipUnit? found
    have := ih done
    omega

end SetAssociative.Json
