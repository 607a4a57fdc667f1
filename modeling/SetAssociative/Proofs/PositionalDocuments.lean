import SetAssociative.Proofs.KeyedDocuments

/-! What a document in the form of a sequence means. Its values go to the fields in their order,
and each is judged as it would be in a map, as the member with the key of its field. Fields past
the last value keep their defaults, and values past the last field are refused. -/
namespace SetAssociative.Config
open Json

/-- The members of a map that give the fields the same values as a sequence does. -/
def positional (fields : List Field) (values : List Value) : List Member :=
  fields.zipWith (fun f v => (f.key, v)) values

variable {f : Field} {fields : List Field} {values : List Value} {v : Value} {given : Given}
  {c c' : Config} {text rest r : List Char}

theorem readField_skipBlank (f : Field) (c : Config) (text : List Char) :
    readField f c (skipBlank text) = readField f c text := by
  have head : readHead (skipBlank text) = readHead text := by
    rw [readHead, skipBlank_skipBlank, readHead]
  cases f <;> simp only [readField, readWord, readName, head]

theorem readElements_skipBlank (fields : List Field) (c : Config) (text : List Char) :
    readElements fields c (skipBlank text) = readElements fields c text := by
  cases fields with
  | nil => rfl
  | cons f fields => rw [readElements, readField_skipBlank, readElements]

/-- The reader of the elements takes one for the next field, and what follows it decides whether
it goes on. -/
theorem readElements_eq_ok_iff_next :
    readElements (f :: fields) c text = .ok (c', r) ↔
      ∃ d after, readField f c text = .ok (d, after) ∧
        ((∃ more, skipBlank after = ',' :: more ∧ readElements fields d more = .ok (c', r)) ∨
          (skipBlank after = ']' :: r ∧ c' = d)) := by
  rw [readElements]
  constructor
  · intro read
    split at read
    · cases read
    · rename_i d after first
      split at read
      · cases read
      · rename_i t more next
        refine ⟨d, after, first, ?_⟩
        split at read
        · rename_i comma
          exact .inl ⟨more, comma ▸ next, read⟩
        · split at read
          · rename_i closed
            cases read
            exact .inr ⟨closed ▸ next, rfl⟩
          · cases read
  · rintro ⟨d, after, first, ⟨more, next, read⟩ | ⟨next, rfl⟩⟩
    · simp only [first, next, ↓reduceIte, read]
    · simp only [first, next]
      rfl

/-- A value in its place does what the member with the key of the field does, and the reader
stops behind it. -/
theorem readField_of_padded (fresh : f ∉ given.1) (spelled : Spells (.padded v) text)
    (ends : Ends rest) :
    ∃ behind, Blanks behind ∧ ∀ c r, readField f given.2 (text ++ rest) = .ok (c, r) ↔
      Takes given (f.key, v) (f :: given.1, c) ∧ r = behind ++ rest := by
  cases spelled with
  | @padded _ before text behind leading spelled follow =>
    refine ⟨behind, follow, fun c r => ?_⟩
    rw [List.append_assoc, List.append_assoc,
      readField_eq_ok_iff leading spelled (ends.append follow)]
    simp only [takes_key, fresh, not_false_eq_true, true_and]
    exact and_right_comm

theorem takesAll_positional_cons :
    TakesAll given (positional (f :: fields) (v :: values)) c ↔
      ∃ d, Takes given (f.key, v) (f :: given.1, d) ∧
        TakesAll (f :: given.1, d) (positional fields values) c := by
  simp only [positional, List.zipWith_cons_cons, TakesAll]
  constructor
  · rintro ⟨⟨fields, d⟩, takes, all⟩
    obtain ⟨-, rfl, -⟩ := takes_key.mp takes
    exact ⟨d, takes, all⟩
  · rintro ⟨d, takes, all⟩
    exact ⟨_, takes, all⟩

/-- Elements are read as the members in their place are taken, as long as there are fields. -/
theorem readElements_of_spells (given : Given) (spelled : Spells (.elements values) text)
    (distinct : fields.Nodup) (fresh : ∀ f ∈ fields, f ∉ given.1) :
    readElements fields given.2 (text ++ rest) = .ok (c, r) ↔
      (values.length ≤ fields.length ∧ TakesAll given (positional fields values) c) ∧
        r = rest := by
  induction values generalizing text fields given with
  | nil => cases spelled
  | cons v values ih =>
    cases fields with
    | nil => simp [readElements]
    | cons f fields =>
      obtain ⟨another, distinct⟩ := List.nodup_cons.mp distinct
      obtain ⟨unseen, fresh⟩ := List.forall_mem_cons.mp fresh
      have later (d : Config) : ∀ g ∈ fields, g ∉ (f :: given.1, d).1 := by
        intro g inside again
        rcases List.mem_cons.mp again with rfl | again
        · exact another inside
        · exact fresh g inside again
      rw [readElements_eq_ok_iff_next, takesAll_positional_cons, List.length_cons,
        List.length_cons, Nat.add_le_add_iff_right]
      cases spelled with
      | lastElement last =>
        obtain ⟨behind, blank, exact⟩ :=
          readField_of_padded unseen last (ends_token ']' (by decide) rest)
        have closed : skipBlank (behind ++ ']' :: rest) = ']' :: rest := by
          rw [skipBlank_blanks blank, skipBlank_cons (c := ']') rfl]
        rw [List.append_assoc, List.cons_append, List.nil_append, positional,
          List.zipWith_nil_right]
        constructor
        · rintro ⟨d, after, read, next⟩
          obtain ⟨takes, rfl⟩ := (exact d after).mp read
          simp only [closed, List.cons.injEq, Char.reduceEq, false_and, exists_false, false_or,
            true_and] at next
          exact ⟨⟨Nat.zero_le _, d, takes, next.2⟩, next.1.symm⟩
        · rintro ⟨⟨-, d, takes, same⟩, rfl⟩
          exact ⟨d, _, (exact d _).mpr ⟨takes, rfl⟩, .inr ⟨closed, same⟩⟩
      | @element _ _ text more first others =>
        obtain ⟨behind, blank, exact⟩ :=
          readField_of_padded unseen first (ends_token ',' (by decide) (more ++ rest))
        have going : skipBlank (behind ++ ',' :: (more ++ rest)) = ',' :: (more ++ rest) := by
          rw [skipBlank_blanks blank, skipBlank_cons (c := ',') rfl]
        rw [List.append_assoc, List.cons_append]
        constructor
        · rintro ⟨d, after, read, next⟩
          obtain ⟨takes, rfl⟩ := (exact d after).mp read
          simp only [going, List.cons.injEq, Char.reduceEq, false_and, or_false, true_and,
            exists_eq_left'] at next
          obtain ⟨⟨few, all⟩, rfl⟩ := (ih (f :: given.1, d) others distinct (later d)).mp next
          exact ⟨⟨few, d, takes, all⟩, rfl⟩
        · rintro ⟨⟨few, d, takes, all⟩, rfl⟩
          exact ⟨d, _, (exact d _).mpr ⟨takes, rfl⟩,
            .inl ⟨_, going, (ih (f :: given.1, d) others distinct (later d)).mpr ⟨⟨few, all⟩, rfl⟩⟩⟩

theorem readConfig_of_sequence {before after : List Char} (leading : Blanks before)
    (spelled : Spells (.value (.sequence values)) text) (trailing : Blanks after) :
    readConfig (before ++ (text ++ after)) = .ok (c, r) ↔
      (values.length ≤ Field.all.length ∧ TakesAll ([], {}) (positional Field.all values) c) ∧
        r = after := by
  have ends : Ends after := by simpa using ends_nil.append trailing
  have head := readHead_of_spells leading spelled ends
  simp only [readConfig, head, Head.ofValue?, Value.inside]
  cases spelled with
  | emptySequence blank =>
    have closed : skipBlank (']' :: after) = ']' :: after := skipBlank_cons (c := ']') rfl after
    simp [skipBlank_blanks blank, closed, positional, TakesAll, eq_comm]
  | sequence inside =>
    obtain ⟨d, more, opening, start⟩ := inside.skipBlank after
    have going : d ≠ ']' := by rintro rfl; exact opening (by decide)
    have distinct : Field.all.Nodup := by decide
    rw [List.tail_cons, start]
    simp only [if_neg going]
    rw [← start, readElements_skipBlank]
    exact readElements_of_spells ([], {}) inside distinct fun f _ => List.not_mem_nil

/-- A document in the form of a sequence is read as the map whose members its values stand for,
unless it has more values than there are fields. -/
theorem ofDocument_of_sequence {document : String}
    (spelled : Spells (.padded (.sequence values)) document.toList) :
    ofDocument document = .ok c ↔
      values.length ≤ Field.all.length ∧ TakesAll ([], {}) (positional Field.all values) c :=
  ofDocument_of_padded spelled fun leading spelled trailing _ _ =>
    readConfig_of_sequence leading spelled trailing

/-- A document that is not accepted is refused as malformed. -/
theorem exists_fault_of_ne_ok {document : String} (refused : ∀ c, ofDocument document ≠ .ok c) :
    ∃ fault, ofDocument document = .error (.malformed fault) := by
  unfold ofDocument at refused ⊢
  split at refused
  · exact ⟨_, rfl⟩
  · split at refused
    · exact absurd rfl (refused _)
    · rename_i open_end
      rw [if_neg open_end]
      exact ⟨_, rfl⟩

/-- The members that values stand for are named by the keys of the fields in their order. -/
theorem positional_all (values : List Value) :
    positional Field.all values =
      ["cache_type", "size_bytes", "line_bytes", "ways", "policy", "seed", "contract"].zip
        values := by
  have keys : Field.all.map Field.key =
      ["cache_type", "size_bytes", "line_bytes", "ways", "policy", "seed", "contract"] := rfl
  rw [positional, ← keys, List.zip, List.zipWith_map_left]

/-- A sequence of up to seven values and the map that gives the same values to the keys in their
order are accepted alike, with the same configuration, and no longer sequence is accepted. -/
theorem positional_documents_agree_with_keyed (values : List Value) (listed : String)
    (spelled : Spells (.padded (.sequence values)) listed.toList) :
    (values.length ≤ 7 →
      ∀ keyed : String,
        Spells (.padded (.map
          ((["cache_type", "size_bytes", "line_bytes", "ways", "policy", "seed", "contract"].zip
            values).map Member.keyed))) keyed.toList →
        ∀ c, ofDocument listed = .ok c ↔ ofDocument keyed = .ok c) ∧
      (7 < values.length → ∃ fault, ofDocument listed = .error (.malformed fault)) := by
  constructor
  · intro few keyed spelledKeyed c
    rw [← positional_all] at spelledKeyed
    rw [ofDocument_of_sequence spelled, ofDocument_of_spells spelledKeyed]
    exact and_iff_right few
  · intro many
    refine exists_fault_of_ne_ok fun c read => ?_
    obtain ⟨few, -⟩ := (ofDocument_of_sequence spelled).mp read
    exact Nat.not_le.mpr many few

/-- All seven fields, in their order and by their keys, where a name may stand for itself in a map
of its own; and of eight values one is too many. -/
theorem seven_values_are_seven_members :
    ∃ c : Config,
      c = { cacheType := .data, sizeBytes := 8192, lineBytes := 32, ways := 8, policy := .mru
            seed := 7, contract := .strict } ∧
      ofDocument "[\x7b\"Data\":null\x7d,8192,32,8,\"MRU\",7,\"Strict\"]" = .ok c ∧
      ofDocument ("\x7b\"cache_type\":\x7b\"Data\":null\x7d,\"size_bytes\":8192,\"line_bytes\":32" ++
        ",\"ways\":8,\"policy\":\"MRU\",\"seed\":7,\"contract\":\"Strict\"\x7d") = .ok c ∧
      ∃ fault, ofDocument "[4,4,4,4,4,4,4,4]" = .error (.malformed fault) := by
  have data : Spells (.value (.map [(Point.ofString "Data", .null)]))
      "\x7b\"Data\":null\x7d".toList :=
    .map (.lastMember (.plainMember (by simp) .null))
  have size : Spells (.value (.number ⟨false, ['8', '1', '9', '2'], none, none⟩))
      ['8', '1', '9', '2'] := .whole (by simp [Digits]) (.inr (by simp))
  have line : Spells (.value (.number ⟨false, ['3', '2'], none, none⟩)) ['3', '2'] :=
    .whole (by simp [Digits]) (.inr (by simp))
  have ways : Spells (.value (.number ⟨false, ['8'], none, none⟩)) ['8'] :=
    .whole (by simp [Digits]) (.inr (by simp))
  have seed : Spells (.value (.number ⟨false, ['7'], none, none⟩)) ['7'] :=
    .whole (by simp [Digits]) (.inr (by simp))
  have four : Spells (.value (.number ⟨false, ['4'], none, none⟩)) ['4'] :=
    .whole (by simp [Digits]) (.inr (by simp))
  have policy : Spells (.value (.text (Point.ofString "MRU"))) "\"MRU\"".toList :=
    .plainText (by simp)
  have contract : Spells (.value (.text (Point.ofString "Strict"))) "\"Strict\"".toList :=
    .plainText (by simp)
  have listed : Spells (.value (.sequence _))
      "[\x7b\"Data\":null\x7d,8192,32,8,\"MRU\",7,\"Strict\"]".toList :=
    .sequence (.element data.alone (.element size.alone (.element line.alone
      (.element ways.alone (.element policy.alone (.element seed.alone
        (.lastElement contract.alone)))))))
  have eight : Spells (.value (.sequence _)) "[4,4,4,4,4,4,4,4]".toList :=
    .sequence (.element four.alone (.element four.alone (.element four.alone
      (.element four.alone (.element four.alone (.element four.alone (.element four.alone
        (.lastElement four.alone))))))))
  obtain ⟨text, same, keyed⟩ : ∃ text,
      ("\x7b\"cache_type\":\x7b\"Data\":null\x7d,\"size_bytes\":8192,\"line_bytes\":32" ++
        ",\"ways\":8,\"policy\":\"MRU\",\"seed\":7,\"contract\":\"Strict\"\x7d").toList = text ∧
      Spells (.value (.map (List.map Member.keyed
        [("cache_type", .map [(Point.ofString "Data", .null)]),
          ("size_bytes", .number ⟨false, ['8', '1', '9', '2'], none, none⟩),
          ("line_bytes", .number ⟨false, ['3', '2'], none, none⟩),
          ("ways", .number ⟨false, ['8'], none, none⟩),
          ("policy", .text (Point.ofString "MRU")),
          ("seed", .number ⟨false, ['7'], none, none⟩),
          ("contract", .text (Point.ofString "Strict"))]))) text := by
    refine ⟨_, ?_, .map (.moreMembers (.plainMember (by simp) data)
      (.moreMembers (.plainMember (by simp) size)
      (.moreMembers (.plainMember (by simp) line)
      (.moreMembers (.plainMember (by simp) ways)
      (.moreMembers (.plainMember (by simp) policy)
      (.moreMembers (.plainMember (by simp) seed)
      (.lastMember (.plainMember (by simp) contract))))))))⟩
    simp
  rw [← same] at keyed
  have worth : Nat.ofDigitChars 10 ['8', '1', '9', '2'] 0 = 8192 ∧
      Nat.ofDigitChars 10 ['3', '2'] 0 = 32 ∧ Nat.ofDigitChars 10 ['8'] 0 = 8 ∧
      Nat.ofDigitChars 10 ['7'] 0 = 7 := by decide
  have role : SpellsName NamesRole (.map [(Point.ofString "Data", .null)]) .data :=
    ⟨_, .data, .inr rfl⟩
  have kind : SpellsName NamesKind (.text (Point.ofString "MRU")) .mru :=
    ⟨_, .capitals .mru, .inl rfl⟩
  have mode : SpellsName NamesMode (.text (Point.ofString "Strict")) .strict :=
    ⟨_, .strict, .inl rfl⟩
  have read := (ofDocument_eq_ok_iff (c := { cacheType := .data, sizeBytes := 8192
                                             lineBytes := 32, ways := 8, policy := .mru
                                             seed := 7, contract := .strict }) keyed.alone).mpr
    ⟨by rintro (_ | _) <;> decide, by
      rintro (_ | _) <;>
        simp [Settled, Field.key, Field.entry, Field.Gives, SpellsWord, worth, role, kind, mode]⟩
  obtain ⟨agree, -⟩ := positional_documents_agree_with_keyed _ _ listed.alone
  obtain ⟨-, refused⟩ := positional_documents_agree_with_keyed _ _ eight.alone
  exact ⟨_, rfl, (agree (by simp) _ keyed.alone _).mpr read, read, refused (by simp)⟩

end SetAssociative.Config
