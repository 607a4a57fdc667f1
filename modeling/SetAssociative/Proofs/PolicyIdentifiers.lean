import Mathlib.Logic.Relation
import SetAssociative.Proofs.KeyedDocuments
import SetAssociative.Proofs.VictimSelection

/-! Which texts name a discipline. An identifier may be respelled: hyphens and underscores come
and go, and letters change their case. Respelling never changes what an identifier names, and an
identifier names a discipline exactly if it respells one of its spellings. The names in documents
are fewer, and each of them is an identifier of the same discipline. -/
namespace SetAssociative

/-- The letters without accents, small and capital. -/
def letters : List (Char × Char) :=
  [('a', 'A'), ('b', 'B'), ('c', 'C'), ('d', 'D'), ('e', 'E'), ('f', 'F'), ('g', 'G'), ('h', 'H'),
    ('i', 'I'), ('j', 'J'), ('k', 'K'), ('l', 'L'), ('m', 'M'), ('n', 'N'), ('o', 'O'), ('p', 'P'),
    ('q', 'Q'), ('r', 'R'), ('s', 'S'), ('t', 'T'), ('u', 'U'), ('v', 'V'), ('w', 'W'), ('x', 'X'),
    ('y', 'Y'), ('z', 'Z')]

/-- The characters that stand between the words of an identifier. -/
def separators : List Char := ['-', '_']

/-- One change of a spelling: a separator comes or goes, or a letter changes its case. -/
inductive Respells : List Char → List Char → Prop where
  | insert {before after : List Char} {mark : Char} (separates : mark ∈ separators) :
      Respells (before ++ after) (before ++ mark :: after)
  | delete {before after : List Char} {mark : Char} (separates : mark ∈ separators) :
      Respells (before ++ mark :: after) (before ++ after)
  | raise {before after : List Char} {small capital : Char} (letter : (small, capital) ∈ letters) :
      Respells (before ++ small :: after) (before ++ capital :: after)
  | lower {before after : List Char} {small capital : Char} (letter : (small, capital) ∈ letters) :
      Respells (before ++ capital :: after) (before ++ small :: after)

/-- An identifier comes out of another by any number of changes of the spelling. -/
def Respelled (id other : String) : Prop := Relation.ReflTransGen Respells id.toList other.toList

/-- What is left of a spelling when separators and case are taken away. -/
def bareLetters (text : List Char) : List Char :=
  (text.filter fun c => c != '-' && c != '_').map Char.toLower

variable {text other : List Char} {c : Char}

theorem bareLetters_append (text other : List Char) :
    bareLetters (text ++ other) = bareLetters text ++ bareLetters other := by
  rw [bareLetters, List.filter_append, List.map_append, bareLetters, bareLetters]

theorem bareLetters_separator (separates : c ∈ separators) (text : List Char) :
    bareLetters (c :: text) = bareLetters text := by
  simp only [separators, List.mem_cons, List.not_mem_nil, or_false] at separates
  rcases separates with rfl | rfl <;> rfl

theorem bareLetters_other (ordinary : c ∉ separators) (text : List Char) :
    bareLetters (c :: text) = c.toLower :: bareLetters text := by
  simp only [separators, List.mem_cons, List.not_mem_nil, or_false, not_or] at ordinary
  simp [bareLetters, ordinary]

theorem bareLetters_letter {small capital : Char} (letter : (small, capital) ∈ letters)
    (text : List Char) :
    bareLetters (small :: text) = small :: bareLetters text ∧
      bareLetters (capital :: text) = small :: bareLetters text := by
  have each : ∀ p ∈ letters, p.1 ∉ separators ∧ p.2 ∉ separators ∧
      p.1.toLower = p.1 ∧ p.2.toLower = p.1 := by decide
  obtain ⟨ordinary, capital_ordinary, same, lowered⟩ := each _ letter
  rw [bareLetters_other ordinary, bareLetters_other capital_ordinary, same, lowered]
  exact ⟨rfl, rfl⟩

/-- A capital is among the letters, and any other character is its own lowercase form. -/
theorem toLower_eq_or_mem_letters (c : Char) : c.toLower = c ∨ (c.toLower, c) ∈ letters := by
  by_cases capital : 65 ≤ c.toNat ∧ c.toNat ≤ 90
  · have each : ∀ i : Fin 26, ((Char.ofNat (65 + i)).toLower, Char.ofNat (65 + i)) ∈ letters := by
      decide
    have place : 65 + (c.toNat - 65) = c.toNat := Nat.add_sub_cancel' capital.1
    have letter := each ⟨c.toNat - 65, by omega⟩
    rw [place, Char.ofNat_toNat] at letter
    exact .inr letter
  · exact .inl (dif_neg capital)

theorem Respells.bareLetters_eq (step : Respells text other) :
    bareLetters text = bareLetters other := by
  cases step with
  | insert separates => rw [bareLetters_append, bareLetters_append, bareLetters_separator separates]
  | delete separates => rw [bareLetters_append, bareLetters_append, bareLetters_separator separates]
  | raise letter =>
    rw [bareLetters_append, bareLetters_append, (bareLetters_letter letter _).1,
      (bareLetters_letter letter _).2]
  | lower letter =>
    rw [bareLetters_append, bareLetters_append, (bareLetters_letter letter _).1,
      (bareLetters_letter letter _).2]

theorem Respells.symm (step : Respells text other) : Respells other text := by
  cases step with
  | insert separates => exact .delete separates
  | delete separates => exact .insert separates
  | raise letter => exact .lower letter
  | lower letter => exact .raise letter

instance : Std.Symm Respells := ⟨fun _ _ => Respells.symm⟩

theorem Respells.cons (c : Char) (step : Respells text other) :
    Respells (c :: text) (c :: other) := by
  cases step with
  | @insert before _ _ separates => exact @insert (c :: before) _ _ separates
  | @delete before _ _ separates => exact @delete (c :: before) _ _ separates
  | @raise before _ _ _ letter => exact @raise (c :: before) _ _ _ letter
  | @lower before _ _ _ letter => exact @lower (c :: before) _ _ _ letter

/-- Every text is respelled to its letters without separators and capitals. -/
theorem respells_bareLetters (text : List Char) :
    Relation.ReflTransGen Respells text (bareLetters text) := by
  induction text with
  | nil => exact .refl
  | cons c text ih =>
    by_cases separates : c ∈ separators
    · rw [bareLetters_separator separates]
      exact .head (@Respells.delete [] text c separates) ih
    · rw [bareLetters_other separates]
      have rest : Relation.ReflTransGen Respells (c.toLower :: text)
          (c.toLower :: bareLetters text) :=
        ih.lift (c.toLower :: ·) fun _ _ step => step.cons _
      rcases toLower_eq_or_mem_letters c with same | letter
      · rwa [same] at rest ⊢
      · exact .head (@Respells.lower [] text _ c letter) rest

/-- Two texts are respelled to each other exactly if the same letters are left of both. -/
theorem reflTransGen_respells_iff :
    Relation.ReflTransGen Respells text other ↔ bareLetters text = bareLetters other := by
  constructor
  · intro changes
    induction changes with
    | refl => rfl
    | tail _ step ih => exact ih.trans step.bareLetters_eq
  · intro same
    have back := symm_of (Relation.ReflTransGen Respells) (respells_bareLetters other)
    exact (respells_bareLetters text).trans (same ▸ back)

namespace Kind
variable {id : String} {kind : Kind}

theorem normalize_eq_iff {id other : String} :
    normalize id = normalize other ↔ Respelled id other := by
  rw [Respelled, reflTransGen_respells_iff]
  exact String.ofList_inj

theorem ofIdentifier?_eq_some_iff_normalize :
    ofIdentifier? id = some kind ↔ normalize id ∈ kind.spellings := by
  have found : ∀ kind ∈ all, ∀ spelling ∈ kind.spellings,
      (all.find? fun other => other.spellings.contains spelling) = some kind := by decide
  constructor
  · intro named
    simpa using List.find?_some named
  · exact found kind kind.mem_all _

theorem normalize_spelling : ∀ kind ∈ all, ∀ spelling ∈ kind.spellings,
    normalize spelling = spelling := by decide

/-- An identifier names a discipline exactly if it respells one of its spellings. -/
theorem ofIdentifier?_eq_some_iff :
    ofIdentifier? id = some kind ↔ ∃ spelling ∈ kind.spellings, Respelled spelling id := by
  simp only [ofIdentifier?_eq_some_iff_normalize, ← normalize_eq_iff]
  constructor
  · intro spelled
    exact ⟨_, spelled, normalize_spelling kind kind.mem_all _ spelled⟩
  · rintro ⟨spelling, spelled, same⟩
    rwa [← same, normalize_spelling kind kind.mem_all _ spelled]

/-- An identifier that is refused is given back as it came. -/
theorem ofIdentifier_eq_error_iff {cause : ConfigError} :
    ofIdentifier id = .error cause ↔ ofIdentifier? id = none ∧ cause = .unknownPolicy id := by
  rw [ofIdentifier]
  cases ofIdentifier? id <;> simp [eq_comm]

theorem ofIdentifier_eq_ok_iff : ofIdentifier id = .ok kind ↔ ofIdentifier? id = some kind := by
  rw [ofIdentifier]
  cases ofIdentifier? id <;> simp

end Kind

namespace Config
open Json

/-- The names in documents are identifiers, each of its own discipline. -/
theorem NamesKind.ofIdentifier? {name : String} {kind : Kind} (names : NamesKind name kind) :
    Kind.ofIdentifier? name = some kind := by
  have each : ∀ kind ∈ Kind.all, Kind.ofIdentifier? kind.title = some kind ∧
      Kind.ofIdentifier? kind.capitals = some kind := by decide
  cases names with
  | title => exact (each kind kind.mem_all).1
  | capitals => exact (each kind kind.mem_all).2
  | short => rfl

/-- A document that gives the discipline alone, as a string, has it by its identifier. -/
theorem ofIdentifier?_of_document {id document : String} {c : Config}
    (spelled : Spells (.padded (.map [(Point.ofString "policy", .text (Point.ofString id))]))
      document.toList)
    (read : ofDocument document = .ok c) : Kind.ofIdentifier? id = some c.policy := by
  have keyed : [(Field.policy.key, Value.text (Point.ofString id))].map Member.keyed =
      [(Point.ofString "policy", .text (Point.ofString id))] := rfl
  rw [← keyed] at spelled
  obtain ⟨given, takes, rfl⟩ := (ofDocument_of_spells spelled).mp read
  have gives : SpellsName NamesKind (.text (Point.ofString id)) given.2.policy :=
    (takes_key (f := .policy)).mp takes |>.2.2.1
  obtain ⟨name, known, same | inMap⟩ := gives
  · have text := Point.text?_eq_some_iff.mpr (Value.text.inj same)
    obtain rfl := Option.some.inj (text.symm.trans (Point.text?_eq_some_iff.mpr rfl))
    exact known.ofIdentifier?
  · cases inMap

end Config

namespace Policy

theorem ofIdentifier_of_ok {id : String} {kind : Kind} (named : Kind.ofIdentifier id = .ok kind)
    (ways lineBytes : Nat) (seed : UInt64) :
    ofIdentifier id ways lineBytes seed = ofSizes kind ways lineBytes seed := by
  rw [ofIdentifier, named]

theorem ofIdentifier_of_error {id : String} {cause : ConfigError}
    (unknown : Kind.ofIdentifier id = .error cause) (ways lineBytes : Nat) (seed : UInt64) :
    ofIdentifier id ways lineBytes seed = .error cause := by
  rw [ofIdentifier, unknown]

end Policy

/-- An identifier names a discipline exactly if it respells one of its spellings, so respelling
it changes neither whether it is accepted nor what it names; one that is refused is reported as
it was given. What a document accepts as the name of a discipline is an identifier of it, by which
a policy is built for all sound sizes; and an unknown identifier is refused whatever the sizes. -/
theorem identifiers_name_one_discipline :
    (∀ id kind, Kind.ofIdentifier id = .ok kind ↔
      ∃ spelling ∈ kind.spellings, Respelled spelling id) ∧
    (∀ id other, Respelled id other →
      ∀ kind, Kind.ofIdentifier id = .ok kind ↔ Kind.ofIdentifier other = .ok kind) ∧
    (∀ id cause, Kind.ofIdentifier id = .error cause → cause = .unknownPolicy id) ∧
    (∀ (id document : String) (c : Config),
      Json.Spells (.padded (.map [(Json.Point.ofString "policy",
        .text (Json.Point.ofString id))])) document.toList →
      Config.ofDocument document = .ok c →
        Kind.ofIdentifier id = .ok c.policy ∧
        ∀ (ways lineBytes : Nat) (seed : UInt64),
          0 < ways → ways ≤ maxWays → lineBytes.isPowerOfTwo →
          ∃ p, Policy.ofIdentifier id ways lineBytes seed = .ok p ∧ p.kind = c.policy ∧
            p.ways = ways) ∧
    (∀ id cause, Kind.ofIdentifier id = .error cause → ∀ (ways lineBytes : Nat) (seed : UInt64),
      Policy.ofIdentifier id ways lineBytes seed = .error (.unknownPolicy id)) := by
  have verbatim {id : String} {cause : ConfigError} (unknown : Kind.ofIdentifier id = .error cause) :
      cause = .unknownPolicy id := (Kind.ofIdentifier_eq_error_iff.mp unknown).2
  refine ⟨fun id kind => ?_, fun id other changes kind => ?_, fun id cause => verbatim, ?_, ?_⟩
  · rw [Kind.ofIdentifier_eq_ok_iff, Kind.ofIdentifier?_eq_some_iff]
  · rw [Kind.ofIdentifier_eq_ok_iff, Kind.ofIdentifier_eq_ok_iff,
      Kind.ofIdentifier?_eq_some_iff_normalize, Kind.ofIdentifier?_eq_some_iff_normalize,
      Kind.normalize_eq_iff.mpr changes]
  · intro id document c spelled read
    have named := Kind.ofIdentifier_eq_ok_iff.mpr (Config.ofIdentifier?_of_document spelled read)
    refine ⟨named, fun ways lineBytes seed some_way fit power => ?_⟩
    rw [Policy.ofIdentifier_of_ok named, Policy.ofSizes_eq_fresh _ _ some_way fit power]
    exact ⟨_, rfl, Policy.kind_fresh .., Policy.ways_fresh ..⟩
  · intro id cause unknown ways lineBytes seed
    rw [Policy.ofIdentifier_of_error unknown, verbatim unknown]

/-- A respelled short name, the name of a document, and a letter that only looks like another
case of one. -/
theorem names_are_respelled_but_not_guessed :
    Kind.ofIdentifier "R_r" = .ok .roundRobin ∧
      (∃ p, Policy.ofIdentifier "RoundRobin" 8 64 0 = .ok p ∧ p.kind = .roundRobin ∧
        p.ways = 8) ∧
      Policy.ofIdentifier "P\u017feudoLRU" 0 3 0 = .error (.unknownPolicy "P\u017feudoLRU") := by
  obtain ⟨-, respelled, -, documents, unknown⟩ := identifiers_name_one_discipline
  have changes : Respelled "rr" "R_r" := Kind.normalize_eq_iff.mp rfl
  have name : Json.Spells (.value (.text (Json.Point.ofString "RoundRobin")))
      "\"RoundRobin\"".toList := .plainText (by simp)
  have spelled : Json.Spells (.padded (.map ([(Config.Field.policy.key,
      Json.Value.text (Json.Point.ofString "RoundRobin"))].map Config.Member.keyed)))
      "\x7b\"policy\":\"RoundRobin\"\x7d".toList :=
    .alone (.map (.lastMember (.plainMember (by simp [Config.Field.key]) name)))
  have title : Config.SpellsName Config.NamesKind (.text (Json.Point.ofString "RoundRobin"))
      .roundRobin := ⟨_, .title .roundRobin, .inl rfl⟩
  have read := (Config.ofDocument_eq_ok_iff (c := { policy := .roundRobin }) spelled).mpr
    ⟨by rintro (_ | _) <;> decide, by
      rintro (_ | _) <;>
        simp [Config.Settled, Config.Field.key, Config.Field.entry, Config.Field.Gives, title]⟩
  obtain ⟨-, built⟩ := documents _ _ _ spelled read
  exact ⟨(respelled _ _ changes _).mp rfl, built 8 64 0 (by simp) (by decide) ⟨6, rfl⟩,
    unknown _ _ rfl 0 3 0⟩

end SetAssociative
