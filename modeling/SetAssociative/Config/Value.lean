import SetAssociative.Config.Fault
import SetAssociative.Config.Field

/-! Reading the value of one field. A value is judged by its first token, before
anything that follows it is read, so the fault that is reported is the first one
in the text. -/
namespace SetAssociative.Config

/-- What was read, and the text after it; or the fault that was met first. -/
abbrev Reading (α : Type) := Except Fault (α × List Char)

/-- The head of the value that comes next. -/
def readHead (text : List Char) : Reading Json.Head :=
  match Json.Head.read? (Json.skipBlank text) with
  | none => .error .illFormed
  | some head => .ok head

/-- The text after a character that must come next, blanks before it aside. -/
def readToken (token : Char) (text : List Char) : Except Fault (List Char) :=
  match Json.skipBlank text with
  | [] => .error .illFormed
  | c :: rest => if c = token then .ok rest else .error .illFormed

/-- The key of a map, which must be a string. -/
def readKey (text : List Char) : Reading String :=
  match readToken '"' text with
  | .error fault => .error fault
  | .ok rest =>
    match Json.readString? rest with
    | none => .error .illFormed
    | some (key, rest) => .ok (key, rest)

/-- A whole number that a word holds. -/
def readWord (wanted : Wanted) (text : List Char) : Reading UInt64 :=
  match readHead text with
  | .error fault => .error fault
  | .ok (.integer value, rest) =>
    if 0 ≤ value then .ok (UInt64.ofNat value.toNat, rest)
    else .error (.wrongValue value wanted)
  | .ok (head, _) => .error (.wrongType head wanted)

/-- The value of a name, judged against the names that are known. -/
def lookUp {α : Type} (names : List (String × α)) (name : String) : Except Fault α :=
  match names.lookup name with
  | none => .error (.unknownName name (names.map Prod.fst))
  | some value => .ok value

/-- A null and the bracket that closes the map around it, after a colon. -/
def readUnit (text : List Char) : Except Fault (List Char) :=
  match readToken ':' text with
  | .error fault => .error fault
  | .ok rest =>
    match readHead rest with
    | .error fault => .error fault
    | .ok (.null, rest) => readToken '}' rest
    | .ok (head, _) => .error (.wrongType head .nothing)

/-- A name on its own, or a map with the name as its only key and null as value.
The name is judged before what follows it. -/
def readName {α : Type} (names : List (String × α)) (text : List Char) : Reading α :=
  match readHead text with
  | .error fault => .error fault
  | .ok (.text name, rest) =>
    match lookUp names name with
    | .error fault => .error fault
    | .ok value => .ok (value, rest)
  | .ok (.map, rest) =>
    match readKey rest with
    | .error fault => .error fault
    | .ok (name, rest) =>
      match lookUp names name with
      | .error fault => .error fault
      | .ok value =>
        match readUnit rest with
        | .error fault => .error fault
        | .ok rest => .ok (value, rest)
  | .ok _ => .error .illFormed

/-- A reading whose value is put to use, the text after it left as it is. -/
def stored {α β : Type} (use : α → β) : Reading α → Reading β
  | .error fault => .error fault
  | .ok (value, rest) => .ok (use value, rest)

/-- The configuration with one field replaced by the value that comes next. -/
def readField (field : Field) (c : Config) (text : List Char) : Reading Config :=
  match field with
  | .cacheType => stored ({ c with cacheType := · }) (readName cacheTypeNames text)
  | .sizeBytes => stored ({ c with sizeBytes := · }) (readWord .size text)
  | .lineBytes => stored ({ c with lineBytes := · }) (readWord .size text)
  | .ways => stored ({ c with ways := · }) (readWord .size text)
  | .policy => stored ({ c with policy := · }) (readName policyNames text)
  | .seed => stored ({ c with seed := · }) (readWord .word text)
  | .contract => stored ({ c with contract := · }) (readName contractNames text)

theorem length_of_readHead {text rest : List Char} {head : Json.Head}
    (read : readHead text = .ok (head, rest)) : rest.length < text.length := by
  unfold readHead at read
  split at read
  · simp at read
  · rename_i found
    obtain rfl := by simpa using read
    exact Nat.lt_of_lt_of_le (Json.Head.length_of_read? found) (Json.length_skipBlank_le text)

theorem length_of_readToken {token : Char} {text rest : List Char}
    (read : readToken token text = .ok rest) : rest.length < text.length := by
  have blanks := Json.length_skipBlank_le text
  unfold readToken at read
  split at read
  · simp at read
  · rename_i start
    rw [start, List.length_cons] at blanks
    split at read <;> simp at read
    subst read
    omega

theorem length_of_readKey {text rest : List Char} {key : String}
    (read : readKey text = .ok (key, rest)) : rest.length < text.length := by
  unfold readKey at read
  split at read
  · simp at read
  · rename_i opened
    have := length_of_readToken opened
    split at read
    · simp at read
    · rename_i found
      have := Json.length_of_readString? found
      obtain ⟨_, rfl⟩ := by simpa using read
      omega

theorem length_of_readWord {wanted : Wanted} {text rest : List Char} {value : UInt64}
    (read : readWord wanted text = .ok (value, rest)) : rest.length < text.length := by
  unfold readWord at read
  split at read
  · simp at read
  · rename_i found
    split at read <;> simp at read
    obtain ⟨_, rfl⟩ := read
    exact length_of_readHead found
  · simp at read

theorem length_of_readUnit {text rest : List Char}
    (read : readUnit text = .ok rest) : rest.length < text.length := by
  unfold readUnit at read
  split at read
  · simp at read
  · rename_i colon
    have := length_of_readToken colon
    split at read
    · simp at read
    · rename_i null
      have := length_of_readHead null
      have := length_of_readToken read
      omega
    · simp at read

theorem length_of_readName {α : Type} {names : List (String × α)} {text rest : List Char}
    {value : α} (read : readName names text = .ok (value, rest)) :
    rest.length < text.length := by
  unfold readName at read
  split at read
  · simp at read
  · rename_i found
    split at read <;> simp at read
    obtain ⟨_, rfl⟩ := read
    exact length_of_readHead found
  · rename_i opened
    have := length_of_readHead opened
    split at read
    · simp at read
    · rename_i found
      have := length_of_readKey found
      split at read
      · simp at read
      · split at read
        · simp at read
        · rename_i closed
          have := length_of_readUnit closed
          obtain ⟨_, rfl⟩ := by simpa using read
          omega
  · simp at read

theorem eq_ok_of_stored {α β : Type} {use : α → β} {reading : Reading α} {value : β}
    {rest : List Char} (same : stored use reading = .ok (value, rest)) :
    ∃ found, reading = .ok (found, rest) ∧ use found = value := by
  cases reading with
  | error => simp [stored] at same
  | ok found =>
    obtain ⟨rfl, rfl⟩ := by simpa [stored] using same
    exact ⟨_, rfl, rfl⟩

theorem length_of_readField {field : Field} {c c' : Config} {text rest : List Char}
    (read : readField field c text = .ok (c', rest)) : rest.length < text.length := by
  cases field <;> obtain ⟨_, found, _⟩ := eq_ok_of_stored read
  case cacheType => exact length_of_readName found
  case sizeBytes => exact length_of_readWord found
  case lineBytes => exact length_of_readWord found
  case ways => exact length_of_readWord found
  case policy => exact length_of_readName found
  case seed => exact length_of_readWord found
  case contract => exact length_of_readName found

end SetAssociative.Config
