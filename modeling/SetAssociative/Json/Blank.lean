/-! The blanks that may stand between the tokens of a document: space, tab, line
feed and carriage return, and no other character. -/
namespace SetAssociative.Json

/-- The four characters that separate tokens. -/
def isBlank (c : Char) : Bool :=
  c == ' ' || c == '\t' || c == '\n' || c == '\r'

/-- The text from its first character that is no blank. -/
def skipBlank (text : List Char) : List Char := text.dropWhile isBlank

theorem length_skipBlank_le (text : List Char) : (skipBlank text).length ≤ text.length :=
  (List.dropWhile_sublist isBlank).length_le

/-- Leading blanks change nothing for a reader that skips them. -/
theorem skipBlank_append {blanks : List Char} (allBlank : ∀ c ∈ blanks, isBlank c = true)
    (text : List Char) : skipBlank (blanks ++ text) = skipBlank text := by
  induction blanks with
  | nil => rfl
  | cons c rest ih =>
    have head : isBlank c = true := allBlank c (by simp)
    simpa [skipBlank, head] using ih fun d hd => allBlank d (by simp [hd])

/-- The text after a given word, if it starts with that word. -/
def afterWord? : List Char → List Char → Option (List Char)
  | [], text => some text
  | c :: word, d :: text => if c = d then afterWord? word text else none
  | _ :: _, [] => none

theorem eq_append_of_afterWord? {word text rest : List Char}
    (found : afterWord? word text = some rest) : text = word ++ rest := by
  fun_induction afterWord? word text with
  | case1 => simpa using found
  | case2 d word text ih => simp [ih found]
  | case3 => simp at found
  | case4 => simp at found

theorem length_le_of_afterWord? {word text rest : List Char}
    (found : afterWord? word text = some rest) : rest.length ≤ text.length := by
  rw [eq_append_of_afterWord? found]
  simp

end SetAssociative.Json
