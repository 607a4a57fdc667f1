import SetAssociative.Json.StringLiteral
import SetAssociative.Json.Numeral

/-! The head of a value: a scalar in full, or the bracket that opens a sequence
or a map. It is all that has to be read to tell whether a value is of the
expected type. -/
namespace SetAssociative.Json

/-- What a value turns out to be at its first token. -/
inductive Head where
  | null
  | boolean (value : Bool)
  | integer (value : Int)
  | float (value : Float)
  | text (value : String)
  | sequence
  | map
  deriving Inhabited, Repr

namespace Head

/-- A number literal as a head: a whole number where it is one. -/
def ofNumeral? (n : Numeral) : Option Head :=
  match n.integer? with
  | some value => some (.integer value)
  | none => n.float?.map .float

/-- The head at the start of a text that does not start with a blank. -/
def read? (text : List Char) : Option (Head × List Char) :=
  match text with
  | [] => none
  | c :: rest =>
    if c = '{' then some (.map, rest)
    else if c = '[' then some (.sequence, rest)
    else if c = '"' then (readString? rest).map fun (s, rest) => (.text s, rest)
    else if c = 'n' then (afterWord? ['u', 'l', 'l'] rest).map fun rest => (.null, rest)
    else if c = 't' then (afterWord? ['r', 'u', 'e'] rest).map fun rest => (.boolean true, rest)
    else if c = 'f' then
      (afterWord? ['a', 'l', 's', 'e'] rest).map fun rest => (.boolean false, rest)
    else
      match Numeral.read? (c :: rest) with
      | none => none
      | some (n, rest) => (ofNumeral? n).map fun head => (head, rest)

end Head

theorem Head.length_of_read? {text rest : List Char} {head : Head}
    (read : Head.read? text = some (head, rest)) : rest.length < text.length := by
  have word {w tail : List Char} {h : Head} {d : Char}
      (mapped : ((afterWord? w tail).map fun after => (h, after)) = some (head, rest)) :
      rest.length < (d :: tail).length := by
    obtain ⟨_, found, same⟩ := Option.map_eq_some_iff.mp mapped
    obtain ⟨_, rfl⟩ := by simpa using same
    have := length_le_of_afterWord? found
    simp only [List.length_cons]
    omega
  unfold Head.read? at read
  split at read
  · simp at read
  · rename_i c tail
    split at read
    · obtain ⟨_, rfl⟩ := by simpa using read
      simp
    split at read
    · obtain ⟨_, rfl⟩ := by simpa using read
      simp
    split at read
    · obtain ⟨⟨_, _⟩, found, same⟩ := Option.map_eq_some_iff.mp read
      obtain ⟨_, rfl⟩ := by simpa using same
      have := length_of_readString? found
      simp only [List.length_cons]
      omega
    split at read
    · exact word read
    split at read
    · exact word read
    split at read
    · exact word read
    split at read
    · simp at read
    · rename_i found
      obtain ⟨_, _, same⟩ := Option.map_eq_some_iff.mp read
      obtain ⟨_, rfl⟩ := by simpa using same
      exact Numeral.length_of_read? found

end SetAssociative.Json
