import SetAssociative.Config.Value
import SetAssociative.Proofs.ValueSkipping

/-! Which values a field accepts, and what they give it. A value is judged at its head, so the
readers of words and of names are compared here with the values that were spelled: they accept
exactly those that stand for a word or for a name, and come out right behind them. -/
namespace SetAssociative.Json

variable {v : Value} {text rest : List Char}

/-- The head of a value, if it can be read. -/
def Head.ofValue? : Value → Option Head
  | .null => some .null
  | .boolean value => some (.boolean value)
  | .number n => ofNumeral? n
  | .text points => (Point.text? points).map .text
  | .sequence _ => some .sequence
  | .map _ => some .map

/-- What is left of the text of a value behind its head. -/
def Value.inside : Value → List Char → List Char
  | .sequence _, text | .map _, text => text.tail
  | _, _ => []

theorem Head.read?_of_spells (spelled : Spells (.value v) text) (ends : Ends rest) :
    Head.read? (text ++ rest) =
      (Head.ofValue? v).map fun head => (head, v.inside text ++ rest) := by
  cases spelled with
  | null | yes | no => simp [Head.read?, afterWord?, Head.ofValue?, Value.inside]
  | number spelled =>
    have read := Numeral.read?_of_spells spelled ends
    obtain ⟨c, more, rfl, other, opening⟩ := spelled.opening
    simp only [List.mem_cons, List.not_mem_nil, or_false, not_or] at other
    obtain ⟨map, sequence, quote, null, yes, no⟩ := other
    rw [List.cons_append] at read ⊢
    simp only [Head.read?, if_neg map, if_neg sequence, if_neg quote, if_neg null, if_neg yes,
      if_neg no, read]
    rfl
  | text spelled =>
    simp [Head.read?, readString?_of_spells spelled, Head.ofValue?, Value.inside, Function.comp_def]
  | emptySequence | sequence | emptyMap | map => simp [Head.read?, Head.ofValue?, Value.inside]

end SetAssociative.Json

namespace SetAssociative.Config
open Json

variable {α : Type} {names : List (String × α)} {Names : String → α → Prop} {v : Value}
  {wanted : Wanted} {name : String} {value : α} {before text rest r : List Char}

/-- A whole number without a sign, a fraction and an exponent, and the word that is its value. -/
def SpellsWord (v : Value) (w : UInt64) : Prop :=
  ∃ whole, v = .number ⟨false, whole, none, none⟩ ∧ Nat.ofDigitChars 10 whole 0 = w.toNat

/-- A name on its own, or as the only key of a map with null as its value. -/
def SpellsName (Names : String → α → Prop) (v : Value) (value : α) : Prop :=
  ∃ name, Names name value ∧
    (v = .text (Point.ofString name) ∨ v = .map [(Point.ofString name, .null)])

/-- The names of the roles. -/
inductive NamesRole : String → CacheType → Prop where
  | instruction : NamesRole "Instruction" .instruction
  | data : NamesRole "Data" .data
  | unified : NamesRole "Unified" .unified

/-- The names of the contracts. -/
inductive NamesMode : String → Contract → Prop where
  | lenient : NamesMode "Lenient" .lenient
  | strict : NamesMode "Strict" .strict

/-- The names of the disciplines: each has its title, as it is and in capitals, and one of them
has its short name, too. -/
inductive NamesKind : String → Kind → Prop where
  | title (kind : Kind) : NamesKind kind.title kind
  | capitals (kind : Kind) : NamesKind kind.capitals kind
  | short : NamesKind "rr" .roundRobin

theorem mem_cacheTypeNames {role : CacheType} :
    (name, role) ∈ cacheTypeNames ↔ NamesRole name role := by
  constructor
  · intro listed
    obtain ⟨role, -, same⟩ := List.mem_map.mp listed
    obtain ⟨rfl, rfl⟩ := Prod.mk.inj same
    cases role
    · exact .instruction
    · exact .data
    · exact .unified
  · rintro (_ | _ | _) <;> simp [cacheTypeNames, CacheType.all, CacheType.title]

theorem mem_contractNames {mode : Contract} :
    (name, mode) ∈ contractNames ↔ NamesMode name mode := by
  constructor
  · intro listed
    obtain ⟨mode, -, same⟩ := List.mem_map.mp listed
    obtain ⟨rfl, rfl⟩ := Prod.mk.inj same
    cases mode
    · exact .lenient
    · exact .strict
  · rintro (_ | _) <;> simp [contractNames, Contract.all, Contract.title]

/-- The list of names that is searched has the names of the disciplines, and no others. -/
theorem mem_policyNames {kind : Kind} : (name, kind) ∈ policyNames ↔ NamesKind name kind := by
  constructor
  · intro listed
    have each : ∀ entry ∈ policyNames, entry.1 = entry.2.title ∨ entry.1 = entry.2.capitals ∨
        entry = ("rr", .roundRobin) := by decide
    rcases each _ listed with same | same | same
    · obtain rfl : name = kind.title := same
      exact .title kind
    · obtain rfl : name = kind.capitals := same
      exact .capitals kind
    · obtain ⟨rfl, rfl⟩ := Prod.mk.inj same
      exact .short
  · have both : ∀ kind ∈ Kind.all,
        (kind.title, kind) ∈ policyNames ∧ (kind.capitals, kind) ∈ policyNames := by decide
    rintro (_ | _ | _)
    · exact (both kind kind.mem_all).1
    · exact (both kind kind.mem_all).2
    · simp [policyNames]

theorem readHead_of_spells (leading : Blanks before) (spelled : Spells (.value v) text)
    (ends : Ends rest) :
    readHead (before ++ (text ++ rest)) =
      match Head.ofValue? v with
      | none => .error .illFormed
      | some head => .ok (head, v.inside text ++ rest) := by
  have shown : skipBlank (before ++ (text ++ rest)) = text ++ rest := by
    obtain ⟨c, more, opening, rfl⟩ := spelled.value_opening
    rw [skipBlank_blanks leading, List.cons_append, opening.skipBlank]
  rw [readHead, shown, Head.read?_of_spells spelled ends]
  cases Head.ofValue? v <;> rfl

theorem readToken_blanks (leading : Blanks before) (token : Char) (rest : List Char) :
    readToken token (before ++ rest) = readToken token rest := by
  rw [readToken, skipBlank_blanks leading, readToken]

theorem readToken_cons {c : Char} (full : isBlank c = false) (token : Char) (rest : List Char) :
    readToken token (c :: rest) = if c = token then .ok rest else .error .illFormed := by
  rw [readToken, skipBlank_cons full]

theorem readToken_self {c : Char} (full : isBlank c = false) (rest : List Char) :
    readToken c (c :: rest) = .ok rest := by
  rw [readToken_cons full, if_pos rfl]

theorem readKey_of_spells {key : List Point} {name : List Char} (leading : Blanks before)
    (spelled : SpellsString key name) (rest : List Char) :
    readKey (before ++ '"' :: (name ++ '"' :: rest)) =
      match Point.text? key with
      | none => .error .illFormed
      | some name => .ok (name, rest) := by
  rw [readKey, readToken_blanks leading, readToken_self (c := '"') rfl]
  simp only [readString?_of_spells spelled]
  cases Point.text? key <;> rfl

theorem ofValue?_eq_integer_iff {k : Nat} :
    Head.ofValue? v = some (.integer k) ↔
      ∃ whole, v = .number ⟨false, whole, none, none⟩ ∧ Nat.ofDigitChars 10 whole 0 = k ∧
        k < UInt64.size := by
  cases v with
  | number n =>
    obtain ⟨negative, whole, fraction, exponent⟩ := n
    have judged : Head.ofValue? (.number ⟨negative, whole, fraction, exponent⟩) =
        some (.integer k) ↔
          Numeral.integer? ⟨negative, whole, fraction, exponent⟩ = some (k : Int) := by
      rw [Head.ofValue?, Head.ofNumeral?]
      split <;> rename_i found <;> simp [found]
    simp only [judged, integer?_eq_natCast_iff, Value.number.injEq, Numeral.mk.injEq]
    constructor
    · rintro ⟨rfl, rfl, rfl, worth, small⟩
      exact ⟨whole, ⟨rfl, rfl, rfl, rfl⟩, worth, small⟩
    · rintro ⟨_, ⟨rfl, rfl, rfl, rfl⟩, worth, small⟩
      exact ⟨rfl, rfl, rfl, worth, small⟩
  | null | boolean | sequence | map => simp [Head.ofValue?]
  | text points => cases found : Point.text? points <;> simp [Head.ofValue?, found]

/-- A word is read from exactly the values that stand for one. -/
theorem readWord_eq_ok_iff {w : UInt64} (leading : Blanks before)
    (spelled : Spells (.value v) text) (ends : Ends rest) :
    readWord wanted (before ++ (text ++ rest)) = .ok (w, r) ↔ SpellsWord v w ∧ r = rest := by
  rw [readWord, readHead_of_spells leading spelled ends]
  constructor
  · intro read
    split at read
    · simp at read
    · rename_i i after judged
      split at judged <;> simp only [Except.ok.injEq, Prod.mk.injEq, reduceCtorEq] at judged
      obtain ⟨rfl, rfl⟩ := judged
      split at read <;>
        simp only [Except.ok.injEq, Prod.mk.injEq, reduceCtorEq] at read
      rename_i found nonneg
      obtain ⟨rfl, rfl⟩ := read
      obtain ⟨k, rfl⟩ := Int.eq_ofNat_of_zero_le nonneg
      obtain ⟨whole, rfl, worth, small⟩ := ofValue?_eq_integer_iff.mp found
      refine ⟨⟨whole, rfl, ?_⟩, rfl⟩
      rw [worth, Int.toNat_natCast, UInt64.toNat_ofNat_of_lt' small]
    · simp at read
  · rintro ⟨⟨whole, rfl, worth⟩, rfl⟩
    have judged := ofValue?_eq_integer_iff.mpr ⟨whole, rfl, worth, w.toNat_lt⟩
    simp [judged, Value.inside]

theorem lookUp_eq_ok_iff (distinct : (names.map Prod.fst).Nodup) :
    lookUp names name = .ok value ↔ (name, value) ∈ names := by
  have found : names.lookup name = some value ↔ (name, value) ∈ names := by
    induction names with
    | nil => simp
    | cons entry names ih =>
      obtain ⟨first, given⟩ := entry
      obtain ⟨fresh, others⟩ := List.nodup_cons.mp distinct
      rw [List.lookup_cons, List.mem_cons, Prod.mk.injEq]
      by_cases same : name = first
      · subst same
        have absent : (name, value) ∉ names :=
          fun inside => fresh (List.mem_map.mpr ⟨_, inside, rfl⟩)
        simp [absent, eq_comm]
      · rw [beq_eq_false_iff_ne.mpr same]
        simpa [same] using ih others
  rw [← found, lookUp]
  cases names.lookup name <;> simp

theorem readName_of_text (head : readHead text = .ok (.text name, rest)) :
    readName names text = .ok (value, r) ↔ lookUp names name = .ok value ∧ r = rest := by
  simp only [readName, head]
  cases lookUp names name <;> simp [eq_comm]

theorem readName_of_map (head : readHead text = .ok (.map, rest)) :
    readName names text = .ok (value, r) ↔
      ∃ name tail, readKey rest = .ok (name, tail) ∧ lookUp names name = .ok value ∧
        readUnit tail = .ok r := by
  simp only [readName, head]
  constructor
  · intro read
    split at read
    · cases read
    · rename_i name tail key
      split at read
      · cases read
      · rename_i known
        split at read
        · cases read
        · rename_i unit
          cases read
          exact ⟨name, tail, key, known, unit⟩
  · rintro ⟨name, tail, key, known, unit⟩
    simp only [key, known, unit]

/-- The null of a name in a map, and the token that must close the map behind it. -/
theorem readUnit_eq_ok_iff {after : List Char} (trailing : Blanks after)
    (spelled : Spells (.padded v) text) (ends : Ends rest) :
    readUnit (after ++ ':' :: (text ++ rest)) = .ok r ↔ v = .null ∧ readToken '}' rest = .ok r := by
  cases spelled with
  | @padded _ before text behind leading spelled follow =>
    rw [readUnit, readToken_blanks trailing, readToken_self (c := ':') rfl, List.append_assoc,
      List.append_assoc]
    simp only [readHead_of_spells leading spelled (ends.append follow)]
    cases v with
    | null => simp [Head.ofValue?, Value.inside, readToken_blanks follow]
    | boolean | sequence | map => simp [Head.ofValue?]
    | number n =>
      rw [Head.ofValue?, Head.ofNumeral?]
      cases n.integer? <;> cases n.float? <;> simp
    | text points => cases found : Point.text? points <;> simp [Head.ofValue?, found]

/-- The first member of a map in place of a name: its key must be the name and its value null,
and the map must be closed behind it. -/
theorem readUnit_of_member {key : List Point} (spelled : Spells (.member key v) text)
    (ends : Ends rest) :
    (∃ name tail, readKey (text ++ rest) = .ok (name, tail) ∧ lookUp names name = .ok value ∧
        readUnit tail = .ok r) ↔
      ∃ name, lookUp names name = .ok value ∧ key = Point.ofString name ∧ v = .null ∧
        readToken '}' rest = .ok r := by
  cases spelled with
  | member leading spelled trailing given =>
    simp only [List.append_assoc, List.cons_append, readKey_of_spells leading spelled,
      ← Point.text?_eq_some_iff]
    cases Point.text? key with
    | none => simp
    | some name =>
      simp only [Except.ok.injEq, Prod.mk.injEq, Option.some.injEq]
      constructor
      · rintro ⟨_, _, ⟨rfl, rfl⟩, known, unit⟩
        exact ⟨name, known, rfl, (readUnit_eq_ok_iff trailing given ends).mp unit⟩
      · rintro ⟨_, known, rfl, unit⟩
        exact ⟨name, _, ⟨rfl, rfl⟩, known, (readUnit_eq_ok_iff trailing given ends).mpr unit⟩

/-- A name is read from exactly the values that give it. -/
theorem readName_eq_ok_iff (listed : ∀ {name value}, (name, value) ∈ names ↔ Names name value)
    (distinct : (names.map Prod.fst).Nodup) (leading : Blanks before)
    (spelled : Spells (.value v) text) (ends : Ends rest) :
    readName names (before ++ (text ++ rest)) = .ok (value, r) ↔
      SpellsName Names v value ∧ r = rest := by
  simp only [SpellsName, ← listed, ← lookUp_eq_ok_iff distinct]
  have head := readHead_of_spells leading spelled ends
  cases spelled with
  | null | yes | no | emptySequence | sequence =>
    simp only [readName, head]
    simp [Head.ofValue?]
  | @number n =>
    simp only [readName, head, Head.ofValue?, Head.ofNumeral?]
    cases n.integer? <;> cases n.float? <;> simp
  | @text points =>
    simp only [Value.text.injEq, reduceCtorEq, or_false, ← Point.text?_eq_some_iff]
    cases found : Point.text? points with
    | none =>
      simp only [readName, head]
      simp [Head.ofValue?, found]
    | some name =>
      rw [readName_of_text (by simpa [Head.ofValue?, found] using head)]
      simp [Value.inside]
  | emptyMap blank =>
    rw [readName_of_map head]
    simp [Value.inside, readKey, readToken_blanks blank, readToken_cons (c := '}') rfl]
  | map inside =>
    rw [readName_of_map head, Value.inside, List.tail_cons]
    cases inside with
    | lastMember last =>
      rw [List.append_assoc, List.cons_append, List.nil_append,
        readUnit_of_member last (ends_token '}' (by decide) rest),
        readToken_self (c := '}') rfl]
      simp only [reduceCtorEq, false_or, Value.map.injEq, List.cons.injEq, Prod.mk.injEq, and_true,
        Except.ok.injEq]
      constructor
      · rintro ⟨name, known, key, null, rfl⟩
        exact ⟨⟨name, known, key, null⟩, rfl⟩
      · rintro ⟨⟨name, known, key, null⟩, rfl⟩
        exact ⟨name, known, key, null, rfl⟩
    | moreMembers first more =>
      have several : ∀ {text : List Char}, ¬ Spells (.members []) text := by rintro _ ⟨⟩
      rw [List.append_assoc, List.cons_append,
        readUnit_of_member first (ends_token ',' (by decide) _),
        readToken_cons (c := ',') rfl, if_neg (by decide)]
      simp only [reduceCtorEq, and_false, exists_false, false_or, Value.map.injEq, List.cons.injEq,
        false_iff, not_and]
      rintro ⟨name, known, _, rfl⟩
      exact absurd more several

/-- The value of a field. -/
inductive Entry where
  | cacheType (role : CacheType)
  | word (w : UInt64)
  | policy (kind : Kind)
  | contract (mode : Contract)
  deriving DecidableEq, Repr

/-- What a configuration has in a field. -/
def Field.entry (c : Config) : Field → Entry
  | .cacheType => .cacheType c.cacheType
  | .sizeBytes => .word c.sizeBytes
  | .lineBytes => .word c.lineBytes
  | .ways => .word c.ways
  | .policy => .policy c.policy
  | .seed => .word c.seed
  | .contract => .contract c.contract

/-- What a value gives a field. Sizes and the seed take words, the other fields take names of
what they hold; no field takes anything else. -/
def Field.Gives : Field → Value → Entry → Prop
  | .cacheType, v, .cacheType role => SpellsName NamesRole v role
  | .sizeBytes, v, .word w | .lineBytes, v, .word w | .ways, v, .word w | .seed, v, .word w =>
    SpellsWord v w
  | .policy, v, .policy kind => SpellsName NamesKind v kind
  | .contract, v, .contract mode => SpellsName NamesMode v mode
  | _, _, _ => False

/-- A configuration is told by what it has in its fields. -/
theorem eq_of_entry {c d : Config} (same : ∀ f : Field, f.entry c = f.entry d) : c = d := by
  have role := same .cacheType
  have size := same .sizeBytes
  have line := same .lineBytes
  have ways := same .ways
  have policy := same .policy
  have seed := same .seed
  have contract := same .contract
  cases c
  cases d
  simp_all [Field.entry]

/-- Whatever a value gives a field, some configuration has it there. -/
theorem Field.Gives.exists_config {f : Field} {entry : Entry} (gives : f.Gives v entry) :
    ∃ c : Config, f.entry c = entry := by
  cases f <;> cases entry <;> try exact gives.elim
  case cacheType.cacheType role => exact ⟨{ cacheType := role }, rfl⟩
  case sizeBytes.word w => exact ⟨{ sizeBytes := w }, rfl⟩
  case lineBytes.word w => exact ⟨{ lineBytes := w }, rfl⟩
  case ways.word w => exact ⟨{ ways := w }, rfl⟩
  case policy.policy kind => exact ⟨{ policy := kind }, rfl⟩
  case seed.word w => exact ⟨{ seed := w }, rfl⟩
  case contract.contract mode => exact ⟨{ contract := mode }, rfl⟩

/-- A reading that is put into one field, and leaves the others. -/
theorem stored_eq_ok_iff {f : Field} {c c' : Config} {use : α → Config} {reading : Reading α}
    (others : ∀ x, ∀ g ≠ f, g.entry (use x) = g.entry c) :
    stored use reading = .ok (c', r) ↔
      (∃ x, reading = .ok (x, r) ∧ f.entry c' = f.entry (use x)) ∧
        ∀ g ≠ f, g.entry c' = g.entry c := by
  constructor
  · intro read
    obtain ⟨x, found, rfl⟩ := eq_ok_of_stored read
    exact ⟨⟨x, found, rfl⟩, others x⟩
  · rintro ⟨⟨x, rfl, here⟩, elsewhere⟩
    have same : use x = c' := by
      refine eq_of_entry fun g => ?_
      by_cases at_field : g = f
      · rw [at_field, here]
      · rw [others x g at_field, elsewhere g at_field]
    rw [stored, same]

/-- A field is read from exactly the values that give it something, and nothing else changes. -/
theorem readField_eq_ok_iff {f : Field} {c c' : Config} (leading : Blanks before)
    (spelled : Spells (.value v) text) (ends : Ends rest) :
    readField f c (before ++ (text ++ rest)) = .ok (c', r) ↔
      (f.Gives v (f.entry c') ∧ r = rest) ∧ ∀ g ≠ f, g.entry c' = g.entry c := by
  have roles : (cacheTypeNames.map Prod.fst).Nodup := by decide
  have policies : (policyNames.map Prod.fst).Nodup := by decide
  have contracts : (contractNames.map Prod.fst).Nodup := by decide
  cases f <;>
    rw [readField, stored_eq_ok_iff fun x g other => by
      cases g <;> first | rfl | exact absurd rfl other] <;>
    simp [Field.entry, Field.Gives, readWord_eq_ok_iff leading spelled ends,
      readName_eq_ok_iff mem_cacheTypeNames roles leading spelled ends,
      readName_eq_ok_iff mem_policyNames policies leading spelled ends,
      readName_eq_ok_iff mem_contractNames contracts leading spelled ends]

end SetAssociative.Config
