import SetAssociative.Config.Value
import SetAssociative.Error
import SetAssociative.Json.Skip

/-! Reading a configuration from a JSON document. The document is a map that names
fields, or a sequence that gives them in their order; fields it does not give
keep their defaults, and both forms read the value of a field in one way. -/
namespace SetAssociative.Config

/-- The elements of a sequence, for the fields that are still to come. -/
def readElements : List Field → Config → List Char → Reading Config
  | [], _, _ => .error .illFormed
  | field :: fields, c, text =>
    match readField field c text with
    | .error fault => .error fault
    | .ok (c, rest) =>
      match Json.skipBlank rest with
      | [] => .error .illFormed
      | d :: rest =>
        if d = ',' then readElements fields c rest
        else if d = ']' then .ok (c, rest)
        else .error .illFormed

/-- The fields that were given so far, and the configuration that they make. -/
abbrev Given := List Field × Config

/-- The value of a key, and its colon. A field that was given before is refused
at its key; the value of an unknown key is skipped. -/
def readValue (key : String) (given : Given) (text : List Char) : Reading Given :=
  match Field.ofKey? key with
  | none =>
    match readToken ':' text with
    | .error fault => .error fault
    | .ok rest =>
      match Json.skipValue? rest with
      | none => .error .illFormed
      | some rest => .ok (given, rest)
  | some field =>
    if field ∈ given.1 then .error (.duplicateField key)
    else
      match readToken ':' text with
      | .error fault => .error fault
      | .ok rest => stored (field :: given.1, ·) (readField field given.2 rest)

/-- One member of a map. -/
def readMember (given : Given) (text : List Char) : Reading Given :=
  match readKey text with
  | .error fault => .error fault
  | .ok (key, rest) => readValue key given rest

theorem length_of_readValue {key : String} {given given' : Given} {text rest : List Char}
    (read : readValue key given text = .ok (given', rest)) : rest.length < text.length := by
  unfold readValue at read
  split at read
  · split at read
    · simp at read
    · rename_i colon
      have := length_of_readToken colon
      split at read
      · simp at read
      · rename_i skipped
        have := Json.length_of_skipValue? skipped
        obtain ⟨_, rfl⟩ := by simpa using read
        omega
  · split at read
    · simp at read
    · split at read
      · simp at read
      · rename_i colon
        have := length_of_readToken colon
        obtain ⟨_, found, _⟩ := eq_ok_of_stored read
        have := length_of_readField found
        omega

theorem length_of_readMember {given given' : Given} {text rest : List Char}
    (read : readMember given text = .ok (given', rest)) : rest.length < text.length := by
  unfold readMember at read
  split at read
  · simp at read
  · rename_i found
    have := length_of_readKey found
    have := length_of_readValue read
    omega

/-- The members of a map from the first or the next one on, up to its closing
bracket. -/
def readMembers (given : Given) (text : List Char) : Reading Config :=
  match _ : readMember given text with
  | .error fault => .error fault
  | .ok (given, rest) =>
    match _ : Json.skipBlank rest with
    | [] => .error .illFormed
    | d :: after =>
      if d = ',' then readMembers given after
      else if d = '}' then .ok (given.2, after)
      else .error .illFormed
termination_by text.length
decreasing_by
  rename_i member next _
  have := length_of_readMember member
  have blanks := Json.length_skipBlank_le rest
  rw [next, List.length_cons] at blanks
  omega

/-- A configuration in either form, blanks after it left unread. -/
def readConfig (text : List Char) : Reading Config :=
  match readHead text with
  | .error fault => .error fault
  | .ok (.map, rest) =>
    match Json.skipBlank rest with
    | [] => .error .illFormed
    | c :: after => if c = '}' then .ok ({}, after) else readMembers ([], {}) (c :: after)
  | .ok (.sequence, rest) =>
    match Json.skipBlank rest with
    | [] => .error .illFormed
    | c :: after => if c = ']' then .ok ({}, after) else readElements Field.all {} (c :: after)
  | .ok (head, _) => .error (.wrongType head .configuration)

/-- The configuration of a whole document, after which only blanks may come. -/
def ofDocument (document : String) : Except ConfigError Config :=
  match readConfig document.toList with
  | .error fault => .error (.malformed fault)
  | .ok (c, rest) =>
    if (Json.skipBlank rest).isEmpty then .ok c else .error (.malformed .illFormed)

end SetAssociative.Config
