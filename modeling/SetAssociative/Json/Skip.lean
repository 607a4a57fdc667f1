import SetAssociative.Json.StringLiteral
import SetAssociative.Json.Numeral

/-! Skipping a value that nobody asked for. The value must be well formed, but
numbers of any size, escapes of lone surrogates and brackets of any depth are
all accepted. The walk keeps the brackets that are open as a stack of frames, so
that depth costs no recursion. -/
namespace SetAssociative.Json

/-- A bracket that is still open. -/
inductive Frame where
  | sequence
  | map
  deriving DecidableEq, Repr

/-- What has to come next: a value, a member (a key, a colon and a value), or
what may follow a finished value. -/
inductive Expected where
  | value
  | member
  | follow
  deriving DecidableEq, Repr

/-- The text after a scalar. -/
def skipScalar? (text : List Char) : Option (List Char) :=
  match text with
  | [] => none
  | c :: rest =>
    if c = '"' then skipString? rest
    else if c = 'n' then afterWord? ['u', 'l', 'l'] rest
    else if c = 't' then afterWord? ['r', 'u', 'e'] rest
    else if c = 'f' then afterWord? ['a', 'l', 's', 'e'] rest
    else (Numeral.read? (c :: rest)).map fun (_, rest) => rest

/-- The text after a key and its colon. -/
def skipKey? (text : List Char) : Option (List Char) :=
  match skipBlank text with
  | [] => none
  | c :: rest =>
    if c = '"' then
      match skipString? rest with
      | none => none
      | some rest =>
        match skipBlank rest with
        | [] => none
        | c :: rest => if c = ':' then some rest else none
    else none

/-- One step of the walk: what comes next, the open brackets and the text after
the tokens that the step has read. The walk is over when a value is finished and
no bracket is open. -/
def skipStep? (next : Expected) (frames : List Frame) (text : List Char) :
    Option (Expected × List Frame × List Char) :=
  match next with
  | .value =>
    match skipBlank text with
    | [] => none
    | c :: rest =>
      if c = '[' then
        match skipBlank rest with
        | [] => none
        | d :: after =>
          if d = ']' then some (.follow, frames, after)
          else some (.value, .sequence :: frames, d :: after)
      else if c = '{' then
        match skipBlank rest with
        | [] => none
        | d :: after =>
          if d = '}' then some (.follow, frames, after)
          else some (.member, .map :: frames, d :: after)
      else (skipScalar? (c :: rest)).map fun rest => (.follow, frames, rest)
  | .member => (skipKey? text).map fun rest => (.value, frames, rest)
  | .follow =>
    match frames, skipBlank text with
    | .sequence :: outer, c :: rest =>
      if c = ',' then some (.value, frames, rest)
      else if c = ']' then some (.follow, outer, rest)
      else none
    | .map :: outer, c :: rest =>
      if c = ',' then some (.member, frames, rest)
      else if c = '}' then some (.follow, outer, rest)
      else none
    | _, _ => none

theorem length_of_skipScalar? {text rest : List Char}
    (skipped : skipScalar? text = some rest) : rest.length < text.length := by
  unfold skipScalar? at skipped
  split at skipped
  · simp at skipped
  · split at skipped
    · have := length_of_skipString? skipped
      simp only [List.length_cons]
      omega
    split at skipped
    · exact Nat.lt_succ_of_le (length_le_of_afterWord? skipped)
    split at skipped
    · exact Nat.lt_succ_of_le (length_le_of_afterWord? skipped)
    split at skipped
    · exact Nat.lt_succ_of_le (length_le_of_afterWord? skipped)
    · obtain ⟨⟨_, _⟩, read, rfl⟩ := Option.map_eq_some_iff.mp skipped
      exact Numeral.length_of_read? read

theorem length_of_skipKey? {text rest : List Char}
    (skipped : skipKey? text = some rest) : rest.length < text.length := by
  have blanks := length_skipBlank_le text
  unfold skipKey? at skipped
  split at skipped
  · simp at skipped
  · rename_i start
    rw [start, List.length_cons] at blanks
    split at skipped
    · split at skipped
      · simp at skipped
      · rename_i key
        have := length_of_skipString? key
        split at skipped
        · simp at skipped
        · rename_i middle _ _ _ colon
          have := length_skipBlank_le middle
          rw [colon, List.length_cons] at this
          split at skipped <;> simp at skipped
          subst skipped
          omega
    · simp at skipped

theorem length_of_skipStep? {next next' : Expected} {frames frames' : List Frame}
    {text rest : List Char}
    (step : skipStep? next frames text = some (next', frames', rest)) :
    rest.length < text.length := by
  have blanks := length_skipBlank_le text
  unfold skipStep? at step
  split at step
  · split at step
    · simp at step
    · rename_i tail start
      rw [start, List.length_cons] at blanks
      have inner := length_skipBlank_le tail
      split at step
      · split at step
        · simp at step
        · rename_i opened
          rw [opened, List.length_cons] at inner
          split at step
          · obtain ⟨_, _, rfl⟩ := by simpa using step
            omega
          · obtain ⟨_, _, rfl⟩ := by simpa using step
            rw [List.length_cons]
            omega
      split at step
      · split at step
        · simp at step
        · rename_i opened
          rw [opened, List.length_cons] at inner
          split at step
          · obtain ⟨_, _, rfl⟩ := by simpa using step
            omega
          · obtain ⟨_, _, rfl⟩ := by simpa using step
            rw [List.length_cons]
            omega
      · obtain ⟨_, skipped, same⟩ := Option.map_eq_some_iff.mp step
        have shorter := length_of_skipScalar? skipped
        simp only [List.length_cons] at shorter
        obtain ⟨_, _, rfl⟩ := by simpa using same
        omega
  · obtain ⟨_, skipped, same⟩ := Option.map_eq_some_iff.mp step
    have shorter := length_of_skipKey? skipped
    obtain ⟨_, _, rfl⟩ := by simpa using same
    exact shorter
  · split at step
    · rename_i start
      rw [start, List.length_cons] at blanks
      split at step
      · obtain ⟨_, _, rfl⟩ := by simpa using step
        omega
      split at step
      · obtain ⟨_, _, rfl⟩ := by simpa using step
        omega
      · simp at step
    · rename_i start
      rw [start, List.length_cons] at blanks
      split at step
      · obtain ⟨_, _, rfl⟩ := by simpa using step
        omega
      split at step
      · obtain ⟨_, _, rfl⟩ := by simpa using step
        omega
      · simp at step
    · simp at step

/-- Walks on until a value is finished and no bracket is open. -/
def skipFrom? (next : Expected) (frames : List Frame) (text : List Char) : Option (List Char) :=
  if next = .follow ∧ frames = [] then some text
  else
    match _ : skipStep? next frames text with
    | none => none
    | some (next, frames, rest) => skipFrom? next frames rest
termination_by text.length
decreasing_by exact length_of_skipStep? (by assumption)

/-- The text after a well-formed value, blanks before it included. -/
def skipValue? (text : List Char) : Option (List Char) := skipFrom? .value [] text

theorem length_of_skipFrom? {next : Expected} {frames : List Frame} {text rest : List Char}
    (skipped : skipFrom? next frames text = some rest) : rest.length ≤ text.length := by
  fun_induction skipFrom? next frames text with
  | case1 =>
    obtain rfl := by simpa using skipped
    exact Nat.le_refl _
  | case2 => simp at skipped
  | case3 next frames text _ next' frames' after step ih =>
    have := length_of_skipStep? step
    have := ih skipped
    omega

theorem length_of_skipValue? {text rest : List Char}
    (skipped : skipValue? text = some rest) : rest.length ≤ text.length :=
  length_of_skipFrom? skipped

end SetAssociative.Json
