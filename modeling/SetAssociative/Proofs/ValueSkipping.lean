import SetAssociative.Json.Skip
import SetAssociative.Proofs.NumeralSpelling
import SetAssociative.Proofs.StringSpelling

/-! A value that nobody asked for is skipped to its end, whichever value it is and whichever of
its texts stands there. The walk keeps a stack where the grammar nests, so that the induction is
on the spelling, for every stack of brackets that may be open around it. -/
namespace SetAssociative.Json

variable {c : Char} {phrase : Phrase} {v : Value} {points : List Point} {key : List Point}
  {values : List Value} {members : List (List Point × Value)} {text rest blanks : List Char}
  {next next' : Expected} {frame : Frame} {frames frames' : List Frame}

/-- What a phrase may start with: no blank and no closing bracket. -/
def Opening (c : Char) : Prop := c ∉ [' ', '\t', '\n', '\r', ']', '}']

theorem skipBlank_cons (full : isBlank c = false) (text : List Char) :
    skipBlank (c :: text) = c :: text := by
  simp [skipBlank, full]

theorem Opening.skipBlank (opening : Opening c) (text : List Char) :
    skipBlank (c :: text) = c :: text := by
  simp only [Opening, List.mem_cons, List.not_mem_nil, or_false, not_or] at opening
  exact skipBlank_cons (by simp [isBlank, opening]) text

theorem skipBlank_skipBlank (text : List Char) : skipBlank (skipBlank text) = skipBlank text := by
  induction text with
  | nil => rfl
  | cons c text ih =>
    cases full : isBlank c with
    | true => simpa [skipBlank, full] using ih
    | false => rw [skipBlank_cons full, skipBlank_cons full]

theorem SpellsNumeral.opening {n : Numeral} (spelled : SpellsNumeral n text) :
    ∃ c more, text = c :: more ∧ c ∉ ['{', '[', '"', 'n', 't', 'f'] ∧ Opening c := by
  obtain ⟨c, more, rfl, minus | digit⟩ := spelled.head
  · exact ⟨c, more, rfl, by subst minus; decide, by subst minus; unfold Opening; decide⟩
  · refine ⟨c, more, rfl, ?_, ?_⟩ <;>
      simp only [Opening, List.mem_cons, List.not_mem_nil, or_false, not_or] <;>
      refine ⟨?_, ?_, ?_, ?_, ?_, ?_⟩ <;> exact ne_of_isDigit digit rfl

/-- A value may stand without blanks around it. -/
theorem Spells.alone (spelled : Spells (.value v) text) : Spells (.padded v) text := by
  simpa using Spells.padded (List.forall_mem_nil _) spelled (List.forall_mem_nil _)

/-- Digits without a needless zero are a value. -/
theorem Spells.whole {digits : List Char} (proper : Digits digits)
    (needed : digits = ['0'] ∨ digits.head? ≠ some '0') :
    Spells (.value (.number ⟨false, digits, none, none⟩)) digits :=
  .number (.whole proper needed)

/-- A string that needs no escape is a value in quotes. -/
theorem Spells.plainText {s : String} (bare : ∀ c ∈ s.toList, ' ' ≤ c ∧ c ≠ '"' ∧ c ≠ '\\') :
    Spells (.value (.text (Point.ofString s))) ('"' :: (s.toList ++ ['"'])) :=
  .text (.plain bare)

/-- A member without blanks, with a key that needs no escape. -/
theorem Spells.plainMember {key : String}
    (bare : ∀ c ∈ key.toList, ' ' ≤ c ∧ c ≠ '"' ∧ c ≠ '\\') (spelled : Spells (.value v) text) :
    Spells (.member (Point.ofString key) v) ('"' :: (key.toList ++ '"' :: ':' :: text)) :=
  .member (List.forall_mem_nil _) (.plain bare) (List.forall_mem_nil _) spelled.alone

theorem Spells.value_opening (spelled : Spells (.value v) text) :
    ∃ c more, Opening c ∧ text = c :: more := by
  cases spelled with
  | null | yes | no | text | emptySequence | sequence | emptyMap | map =>
    exact ⟨_, _, by unfold Opening; decide, rfl⟩
  | number spelled =>
    obtain ⟨c, more, rfl, _, opening⟩ := spelled.opening
    exact ⟨c, more, opening, rfl⟩

theorem Spells.padded_opening (spelled : Spells (.padded v) text) (rest : List Char) :
    ∃ blanks c more, Blanks blanks ∧ Opening c ∧ text ++ rest = blanks ++ c :: more := by
  cases spelled with
  | @padded _ before _ after leading value =>
    obtain ⟨c, more, opening, rfl⟩ := value.value_opening
    exact ⟨before, c, more ++ after ++ rest, leading, opening, by simp⟩

theorem Spells.member_opening (spelled : Spells (.member key v) text) (rest : List Char) :
    ∃ blanks c more, Blanks blanks ∧ Opening c ∧ text ++ rest = blanks ++ c :: more := by
  cases spelled with
  | @member _ _ before _ _ _ leading =>
    rw [List.append_assoc, List.cons_append]
    exact ⟨before, '"', _, leading, by unfold Opening; decide, rfl⟩

/-- Every phrase starts with a character that shows that the bracket around it is not closed,
after blanks at most. -/
theorem Spells.opening (spelled : Spells phrase text) :
    ∃ blanks c more, Blanks blanks ∧ Opening c ∧ text = blanks ++ c :: more := by
  cases phrase with
  | value v =>
    obtain ⟨c, more, opening, rfl⟩ := spelled.value_opening
    exact ⟨[], c, more, List.forall_mem_nil _, opening, rfl⟩
  | padded v => simpa using spelled.padded_opening []
  | elements values =>
    cases spelled with | lastElement first | element first => exact first.padded_opening _
  | member key v => simpa using spelled.member_opening []
  | members members =>
    cases spelled with | lastMember first | moreMembers first => exact first.member_opening _

/-- What a reader finds behind the blanks at the start of a phrase. -/
theorem Spells.skipBlank (spelled : Spells phrase text) (rest : List Char) :
    ∃ c more, Opening c ∧ Json.skipBlank (text ++ rest) = c :: more := by
  obtain ⟨blanks, c, more, blank, opening, rfl⟩ := spelled.opening
  refine ⟨c, more ++ rest, opening, ?_⟩
  rw [List.append_assoc, skipBlank_blanks blank, List.cons_append, opening.skipBlank]

/-- The step that reads the start of a value. -/
theorem skipStep?_value (frames : List Frame) (text : List Char) :
    skipStep? .value frames text =
      match skipBlank text with
      | [] => none
      | c :: rest =>
        if c = '[' then
          match skipBlank rest with
          | [] => none
          | d :: after =>
            if d = ']' then some (.follow, frames, after)
            else some (.value, .sequence :: frames, d :: after)
        else if c = '{' then
          match skipBlank rest with
          | [] => none
          | d :: after =>
            if d = '}' then some (.follow, frames, after)
            else some (.member, .map :: frames, d :: after)
        else (skipScalar? (c :: rest)).map fun rest => (.follow, frames, rest) := rfl

/-- The step that reads what follows a value inside a bracket. -/
theorem skipStep?_follow (frame : Frame) (frames : List Frame) (text : List Char) :
    skipStep? .follow (frame :: frames) text =
      match skipBlank text with
      | [] => none
      | c :: rest =>
        if c = ',' then
          some (match frame with | .sequence => .value | .map => .member, frame :: frames, rest)
        else if c = (match frame with | .sequence => ']' | .map => '}') then
          some (.follow, frames, rest)
        else none := by
  unfold skipStep?
  cases frame <;> cases skipBlank text <;> rfl

theorem skipFrom?_of_step (step : skipStep? next frames text = some (next', frames', rest)) :
    skipFrom? next frames text = skipFrom? next' frames' rest := by
  rw [skipFrom?, if_neg]
  · split <;> rename_i found
    · cases step.symm.trans found
    · cases step.symm.trans found
      rfl
  · rintro ⟨rfl, rfl⟩
    simp [skipStep?] at step

theorem skipFrom?_of_stuck (going : ¬ (next = .follow ∧ frames = []))
    (stuck : skipStep? next frames text = none) : skipFrom? next frames text = none := by
  rw [skipFrom?, if_neg going]
  split <;> rename_i found
  · rfl
  · cases stuck.symm.trans found

theorem skipStep?_skipBlank (next : Expected) (frames : List Frame) (text : List Char) :
    skipStep? next frames (skipBlank text) = skipStep? next frames text := by
  cases next <;> simp only [skipStep?, skipKey?, skipBlank_skipBlank]

/-- Blanks do not matter as long as the walk is not over. -/
theorem skipFrom?_blanks (blank : Blanks blanks) (going : ¬ (next = .follow ∧ frames = []))
    (text : List Char) : skipFrom? next frames (blanks ++ text) = skipFrom? next frames text := by
  have same : skipStep? next frames (blanks ++ text) = skipStep? next frames text := by
    rw [← skipStep?_skipBlank next frames (blanks ++ text), skipBlank_blanks blank,
      skipStep?_skipBlank]
  cases step : skipStep? next frames text with
  | none => rw [skipFrom?_of_stuck going step, skipFrom?_of_stuck going (same.trans step)]
  | some => rw [skipFrom?_of_step step, skipFrom?_of_step (same.trans step)]

theorem skipFrom?_scalar (opening : Opening c) (sequence : c ≠ '[') (map : c ≠ '{')
    (skipped : skipScalar? (c :: text) = some rest) :
    skipFrom? .value frames (c :: text) = skipFrom? .follow frames rest := by
  apply skipFrom?_of_step
  simp only [skipStep?_value, opening.skipBlank, if_neg sequence, if_neg map, skipped, Option.map_some]

/-- A bracket that is closed at once, whose inside is blank. -/
theorem skipFrom?_empty (blank : Blanks blanks) (rest : List Char) :
    skipFrom? .value frames ('[' :: (blanks ++ ']' :: rest)) = skipFrom? .follow frames rest ∧
      skipFrom? .value frames ('{' :: (blanks ++ '}' :: rest)) = skipFrom? .follow frames rest := by
  constructor <;> apply skipFrom?_of_step
  · simp [skipStep?_value, skipBlank_blanks blank, skipBlank_cons (c := '[') rfl,
      skipBlank_cons (c := ']') rfl]
  · simp [skipStep?_value, skipBlank_blanks blank, skipBlank_cons (c := '{') rfl,
      skipBlank_cons (c := '}') rfl]

/-- A bracket opens the phrases inside it. -/
theorem skipFrom?_open (inside : Spells phrase text) (rest : List Char) :
    skipFrom? .value frames ('[' :: (text ++ rest)) =
        skipFrom? .value (.sequence :: frames) (text ++ rest) ∧
      skipFrom? .value frames ('{' :: (text ++ rest)) =
        skipFrom? .member (.map :: frames) (text ++ rest) := by
  obtain ⟨blanks, c, more, blank, opening, rfl⟩ := inside.opening
  have open_sequence : c ≠ ']' := by rintro rfl; exact opening (by decide)
  have open_map : c ≠ '}' := by rintro rfl; exact opening (by decide)
  rw [List.append_assoc, List.cons_append, skipFrom?_blanks blank (by simp),
    skipFrom?_blanks blank (by simp)]
  constructor <;> apply skipFrom?_of_step
  · simp [skipStep?_value, skipBlank_blanks blank, opening.skipBlank, open_sequence,
      skipBlank_cons (c := '[') rfl]
  · simp [skipStep?_value, skipBlank_blanks blank, opening.skipBlank, open_map,
      skipBlank_cons (c := '{') rfl]

theorem skipFrom?_separator (frame : Frame) (frames : List Frame) (rest : List Char) :
    skipFrom? .follow (frame :: frames) (',' :: rest) =
      skipFrom? (match frame with | .sequence => .value | .map => .member) (frame :: frames)
        rest := by
  apply skipFrom?_of_step
  cases frame <;> simp [skipStep?_follow, skipBlank_cons (c := ',') rfl]

theorem skipFrom?_close (frame : Frame) (frames : List Frame) (rest : List Char) :
    skipFrom? .follow (frame :: frames)
        ((match frame with | .sequence => ']' | .map => '}') :: rest) =
      skipFrom? .follow frames rest := by
  apply skipFrom?_of_step
  cases frame <;>
    simp [skipStep?_follow, skipBlank_cons (c := ']') rfl, skipBlank_cons (c := '}') rfl]

/-- A key and its colon are skipped, with blanks around them. -/
theorem skipKey?_of_spells {before name after : List Char} (leading : Blanks before)
    (spelled : SpellsString key name) (trailing : Blanks after) (rest : List Char) :
    skipKey? (before ++ '"' :: (name ++ '"' :: (after ++ ':' :: rest))) = some rest := by
  simp only [skipKey?, skipBlank_blanks leading, skipBlank_cons (c := '"') rfl, ↓reduceIte,
    skipString?_of_spells spelled, skipBlank_blanks trailing, skipBlank_cons (c := ':') rfl]

/-- What the walk does with a phrase: it comes out behind it, with the same brackets open around
it. The elements of a sequence and the members of a map end with the bracket that is closed. -/
def Skips : Phrase → List Char → Prop
  | .value _, text => ∀ frames rest, Ends rest →
      skipFrom? .value frames (text ++ rest) = skipFrom? .follow frames rest
  | .padded _, text => ∀ frame frames rest, Ends rest →
      skipFrom? .value (frame :: frames) (text ++ rest) = skipFrom? .follow (frame :: frames) rest
  | .elements _, text => ∀ frames rest,
      skipFrom? .value (.sequence :: frames) (text ++ rest) = skipFrom? .follow frames rest
  | .member _ _, text => ∀ frame frames rest, Ends rest →
      skipFrom? .member (frame :: frames) (text ++ rest) = skipFrom? .follow (frame :: frames) rest
  | .members _, text => ∀ frames rest,
      skipFrom? .member (.map :: frames) (text ++ rest) = skipFrom? .follow frames rest

theorem skips_of_spells (spelled : Spells phrase text) : Skips phrase text := by
  induction spelled with
  | null | yes | no =>
    intro frames rest ends
    refine skipFrom?_scalar (by unfold Opening; decide) (by decide) (by decide) ?_
    simp [skipScalar?, afterWord?]
  | text spelled =>
    intro frames rest ends
    rw [List.cons_append, List.append_assoc]
    refine skipFrom?_scalar (by unfold Opening; decide) (by decide) (by decide) ?_
    exact skipString?_of_spells spelled rest
  | number spelled =>
    intro frames rest ends
    have read := Numeral.read?_of_spells spelled ends
    obtain ⟨c, more, rfl, other, opening⟩ := spelled.opening
    simp only [List.mem_cons, List.not_mem_nil, or_false, not_or] at other
    obtain ⟨map, sequence, quote, null, yes, no⟩ := other
    rw [List.cons_append] at read ⊢
    refine skipFrom?_scalar opening sequence map ?_
    simp only [skipScalar?, if_neg quote, if_neg null, if_neg yes, if_neg no, read, Option.map_some]
  | emptySequence blank =>
    intro frames rest ends
    simpa using (skipFrom?_empty blank rest).1
  | emptyMap blank =>
    intro frames rest ends
    simpa using (skipFrom?_empty blank rest).2
  | sequence inside ih =>
    intro frames rest ends
    rw [List.cons_append, (skipFrom?_open inside rest).1]
    exact ih frames rest
  | map inside ih =>
    intro frames rest ends
    rw [List.cons_append, (skipFrom?_open inside rest).2]
    exact ih frames rest
  | padded leading spelled trailing ih =>
    -- the value ends at the blanks behind it; these are skipped since a bracket is open
    intro frame frames rest ends
    rw [List.append_assoc, List.append_assoc, skipFrom?_blanks leading (by simp),
      ih _ _ (ends.append trailing), skipFrom?_blanks trailing (by simp)]
  | lastElement last ih =>
    intro frames rest
    rw [List.append_assoc, List.cons_append, ih _ _ _ (ends_token ']' (by decide) _)]
    exact skipFrom?_close .sequence frames rest
  | element first others ih ihOthers =>
    intro frames rest
    rw [List.append_assoc, List.cons_append, ih _ _ _ (ends_token ',' (by decide) _),
      skipFrom?_separator]
    exact ihOthers frames rest
  | member leading spelled trailing value ih =>
    intro frame frames rest ends
    rw [← ih frame frames rest ends]
    apply skipFrom?_of_step
    simp only [List.append_assoc, List.cons_append, skipStep?,
      skipKey?_of_spells leading spelled trailing, Option.map_some]
  | lastMember last ih =>
    intro frames rest
    rw [List.append_assoc, List.cons_append, ih _ _ _ (ends_token '}' (by decide) _)]
    exact skipFrom?_close .map frames rest
  | moreMembers first others ih ihOthers =>
    intro frames rest
    rw [List.append_assoc, List.cons_append, ih _ _ _ (ends_token ',' (by decide) _),
      skipFrom?_separator]
    exact ihOthers frames rest

/-- A value is skipped to its end, the blanks behind it left. -/
theorem skipValue?_of_spells {before : List Char} (leading : Blanks before)
    (spelled : Spells (.value v) text) (ends : Ends rest) :
    skipValue? (before ++ (text ++ rest)) = some rest := by
  rw [skipValue?, skipFrom?_blanks leading (by simp), skips_of_spells spelled [] rest ends,
    skipFrom?, if_pos ⟨rfl, rfl⟩]

end SetAssociative.Json
