import SetAssociative.Config.Document
import SetAssociative.Proofs.FieldValues

/-! What a document in the form of a map means. The members are read one after the other into
the configuration of the defaults, and every member touches only its own field. So the document
is accepted when no field is given twice and each is given a value that it accepts, and neither
the order of the members nor those that no field has the key of can be seen in the result. -/
namespace SetAssociative.Config
open Json

/-- A member of a document, with its key as a text. -/
abbrev Member := String × Value

/-- The member of a map that a member of a document is. -/
def Member.keyed (m : Member) : List Point × Value := (Point.ofString m.1, m.2)

/-- What reading one member does: a field that is given for the first time gets what the value
gives it, and a member that no field has the key of does nothing. -/
def Takes (given : Given) (m : Member) (given' : Given) : Prop :=
  match Field.ofKey? m.1 with
  | none => given' = given
  | some f => f ∉ given.1 ∧ given'.1 = f :: given.1 ∧ f.Gives m.2 (f.entry given'.2) ∧
      ∀ g ≠ f, g.entry given'.2 = g.entry given.2

/-- What reading all members does, in their order. -/
def TakesAll : Given → List Member → Config → Prop
  | given, [], c => c = given.2
  | given, m :: members, c => ∃ given', Takes given m given' ∧ TakesAll given' members c

variable {m : Member} {members : List Member} {given given' : Given} {c c' : Config} {f : Field}
  {text rest r : List Char}

theorem Field.ofKey?_eq_some_iff {key : String} : ofKey? key = some f ↔ f.key = key := by
  constructor
  · intro found
    simpa using List.find?_some found
  · rintro rfl
    cases f <;> decide

theorem Field.ofKey?_key (f : Field) : ofKey? f.key = some f := ofKey?_eq_some_iff.mpr rfl

theorem Field.key_inj {g : Field} : f.key = g.key ↔ f = g := by
  rw [← ofKey?_eq_some_iff, ofKey?_key, Option.some.injEq, eq_comm]

theorem takes_key {v : Value} :
    Takes given (f.key, v) given' ↔ f ∉ given.1 ∧ given'.1 = f :: given.1 ∧
      f.Gives v (f.entry given'.2) ∧ ∀ g ≠ f, g.entry given'.2 = g.entry given.2 := by
  rw [Takes, Field.ofKey?_key]

theorem readValue_eq_ok_iff {after : List Char} (trailing : Blanks after)
    (spelled : Spells (.padded m.2) text) (ends : Ends rest) :
    ∃ behind, Blanks behind ∧ ∀ given' r,
      readValue m.1 given (after ++ ':' :: (text ++ rest)) = .ok (given', r) ↔
        Takes given m given' ∧ r = behind ++ rest := by
  obtain ⟨key, v⟩ := m
  cases spelled with
  | @padded _ before text behind leading spelled follow =>
    refine ⟨behind, follow, fun given' r => ?_⟩
    have colon : readToken ':' (after ++ ':' :: (before ++ (text ++ behind) ++ rest)) =
        .ok (before ++ (text ++ (behind ++ rest))) := by
      rw [readToken_blanks trailing, readToken_self (c := ':') rfl]
      simp
    have going := ends.append follow
    simp only [readValue, Takes, colon]
    cases Field.ofKey? key with
    | none =>
      simp only [skipValue?_of_spells leading spelled going, Except.ok.injEq, Prod.mk.injEq]
      simp only [eq_comm]
    | some f =>
      by_cases again : f ∈ given.1
      · simp [again]
      · simp only [again, ↓reduceIte, not_false_eq_true, true_and]
        constructor
        · intro read
          obtain ⟨c, found, rfl⟩ := eq_ok_of_stored read
          obtain ⟨⟨gives, rfl⟩, others⟩ := (readField_eq_ok_iff leading spelled going).mp found
          exact ⟨⟨rfl, gives, others⟩, rfl⟩
        · rintro ⟨⟨fields, gives, others⟩, rfl⟩
          rw [(readField_eq_ok_iff leading spelled going).mpr ⟨⟨gives, rfl⟩, others⟩, stored,
            ← fields]

theorem readMember_eq_ok_iff (spelled : Spells (.member (Point.ofString m.1) m.2) text)
    (ends : Ends rest) (given : Given) :
    ∃ behind, Blanks behind ∧ ∀ given' r,
      readMember given (text ++ rest) = .ok (given', r) ↔
        Takes given m given' ∧ r = behind ++ rest := by
  obtain ⟨key, v⟩ := m
  cases spelled with
  | member leading spelled trailing value =>
    simp only [readMember, List.append_assoc, List.cons_append, readKey_of_spells leading spelled,
      Point.text?_eq_some_iff.mpr rfl]
    exact readValue_eq_ok_iff (m := (key, v)) trailing value ends

/-- The reader of the members takes one, and what follows it decides whether it goes on. -/
theorem readMembers_eq_ok_iff_next :
    readMembers given text = .ok (c, r) ↔
      ∃ given' after, readMember given text = .ok (given', after) ∧
        ((∃ more, skipBlank after = ',' :: more ∧ readMembers given' more = .ok (c, r)) ∨
          (skipBlank after = '}' :: r ∧ c = given'.2)) := by
  rw [readMembers]
  constructor
  · intro read
    split at read
    · cases read
    · rename_i given' after member
      split at read
      · cases read
      · rename_i d more next
        refine ⟨given', after, member, ?_⟩
        split at read
        · rename_i comma
          exact .inl ⟨more, comma ▸ next, read⟩
        · split at read
          · rename_i closed
            cases read
            exact .inr ⟨closed ▸ next, rfl⟩
          · cases read
  · rintro ⟨given', after, member, ⟨more, next, read⟩ | ⟨next, rfl⟩⟩
    all_goals
      split <;> rename_i found <;> rw [member] at found <;> cases found
      split <;> rename_i follow <;> rw [next] at follow <;> cases follow
    · rw [if_pos rfl, read]
    · rfl

/-- Members are read from their spellings as they are taken, up to the closing bracket. -/
theorem readMembers_of_spells (spelled : Spells (.members (members.map Member.keyed)) text)
    (given : Given) :
    readMembers given (text ++ rest) = .ok (c, r) ↔ TakesAll given members c ∧ r = rest := by
  induction members generalizing text given with
  | nil => cases spelled
  | cons m members ih =>
    rw [readMembers_eq_ok_iff_next]
    generalize listed : (m :: members).map Member.keyed = all at spelled
    simp only [List.map_cons, Member.keyed] at listed
    cases spelled with
    | lastMember last =>
      simp only [List.cons.injEq, Prod.mk.injEq, List.map_eq_nil_iff] at listed
      obtain ⟨⟨rfl, rfl⟩, rfl⟩ := listed
      obtain ⟨behind, blank, exact⟩ :=
        readMember_eq_ok_iff last (ends_token '}' (by decide) rest) given
      have closed : skipBlank (behind ++ '}' :: rest) = '}' :: rest := by
        rw [skipBlank_blanks blank, skipBlank_cons (c := '}') rfl]
      rw [List.append_assoc, List.cons_append, List.nil_append]
      constructor
      · rintro ⟨given', after, member, next⟩
        obtain ⟨takes, rfl⟩ := (exact given' after).mp member
        simp only [closed, List.cons.injEq, Char.reduceEq, false_and, exists_false, false_or,
          true_and] at next
        exact ⟨⟨given', takes, next.2⟩, next.1.symm⟩
      · rintro ⟨⟨given', takes, same⟩, rfl⟩
        exact ⟨given', _, (exact given' _).mpr ⟨takes, rfl⟩, .inr ⟨closed, same⟩⟩
    | @moreMembers _ _ _ text more first others =>
      simp only [List.cons.injEq, Prod.mk.injEq] at listed
      obtain ⟨⟨rfl, rfl⟩, rfl⟩ := listed
      obtain ⟨behind, blank, exact⟩ :=
        readMember_eq_ok_iff first (ends_token ',' (by decide) (more ++ rest)) given
      have going : skipBlank (behind ++ ',' :: (more ++ rest)) = ',' :: (more ++ rest) := by
        rw [skipBlank_blanks blank, skipBlank_cons (c := ',') rfl]
      rw [List.append_assoc, List.cons_append]
      constructor
      · rintro ⟨given', after, member, next⟩
        obtain ⟨takes, rfl⟩ := (exact given' after).mp member
        simp only [going, List.cons.injEq, Char.reduceEq, false_and, or_false, true_and,
          exists_eq_left'] at next
        obtain ⟨all, rfl⟩ := (ih others given').mp next
        exact ⟨⟨given', takes, all⟩, rfl⟩
      · rintro ⟨⟨given', takes, all⟩, rfl⟩
        exact ⟨given', _, (exact given' _).mpr ⟨takes, rfl⟩,
          .inl ⟨_, going, (ih others given').mpr ⟨all, rfl⟩⟩⟩

theorem readMembers_skipBlank (given : Given) (text : List Char) :
    readMembers given (skipBlank text) = readMembers given text := by
  have same : readMember given (skipBlank text) = readMember given text := by
    simp only [readMember, readKey, readToken, skipBlank_skipBlank]
  rw [readMembers, same, ← readMembers]

theorem readConfig_of_spells {before after : List Char} (leading : Blanks before)
    (spelled : Spells (.value (.map (members.map Member.keyed))) text) (trailing : Blanks after) :
    readConfig (before ++ (text ++ after)) = .ok (c, r) ↔
      TakesAll ([], {}) members c ∧ r = after := by
  have ends : Ends after := by simpa using ends_nil.append trailing
  have head := readHead_of_spells leading spelled ends
  simp only [readConfig, head, Head.ofValue?, Value.inside]
  generalize listed : members.map Member.keyed = all at spelled
  cases spelled with
  | emptyMap blank =>
    obtain rfl := List.map_eq_nil_iff.mp listed
    have closed : skipBlank ('}' :: after) = '}' :: after :=
      skipBlank_cons (c := '}') rfl after
    simp [skipBlank_blanks blank, closed, TakesAll, eq_comm]
  | map inside =>
    subst listed
    obtain ⟨d, more, opening, start⟩ := inside.skipBlank after
    have going : d ≠ '}' := by rintro rfl; exact opening (by decide)
    rw [List.tail_cons, start]
    simp only [if_neg going]
    rw [← start, readMembers_skipBlank, readMembers_of_spells inside]

/-- A document means what its value means, and blanks may stand around it. -/
theorem ofDocument_of_padded {document : String} {v : Value} {Means : Config → Prop}
    (spelled : Spells (.padded v) document.toList)
    (exact : ∀ {before text after : List Char}, Blanks before → Spells (.value v) text →
      Blanks after → ∀ c r, readConfig (before ++ (text ++ after)) = .ok (c, r) ↔
        Means c ∧ r = after) :
    ofDocument document = .ok c ↔ Means c := by
  rw [ofDocument]
  generalize document.toList = text at spelled ⊢
  cases spelled with
  | @padded _ before text after leading spelled follow =>
    have behind : skipBlank after = [] := by
      rw [← List.append_nil after, skipBlank_blanks follow]
      rfl
    constructor
    · intro read
      split at read
      · cases read
      · rename_i c' r found
        obtain ⟨means, rfl⟩ := (exact leading spelled follow c' r).mp found
        rw [behind] at read
        cases read
        exact means
    · intro means
      rw [(exact leading spelled follow c after).mpr ⟨means, rfl⟩]
      simp only [behind]
      rfl

/-- A document in the form of a map is read as its members are taken, from the defaults on. -/
theorem ofDocument_of_spells {document : String}
    (spelled : Spells (.padded (.map (members.map Member.keyed))) document.toList) :
    ofDocument document = .ok c ↔ TakesAll ([], {}) members c :=
  ofDocument_of_padded spelled fun leading spelled trailing _ _ =>
    readConfig_of_spells leading spelled trailing

/-- A configuration can be put together field by field. -/
theorem exists_config_of_entries {P : Field → Entry → Prop}
    (each : ∀ f : Field, ∃ c : Config, P f (f.entry c)) :
    ∃ c : Config, ∀ f : Field, P f (f.entry c) := by
  obtain ⟨part, holds⟩ := Classical.axiomOfChoice each
  refine ⟨⟨(part .cacheType).cacheType, (part .sizeBytes).sizeBytes, (part .lineBytes).lineBytes,
    (part .ways).ways, (part .policy).policy, (part .seed).seed, (part .contract).contract⟩, ?_⟩
  intro f
  cases f <;> exact holds _

/-- Any two configurations can be joined at a field. -/
theorem exists_entry_joined (f : Field) (c d : Config) :
    ∃ joined : Config, f.entry joined = f.entry c ∧ ∀ g ≠ f, g.entry joined = g.entry d := by
  have each (g : Field) : ∃ e : Config, g.entry e = if g = f then g.entry c else g.entry d := by
    by_cases same : g = f
    · exact ⟨c, (if_pos same).symm⟩
    · exact ⟨d, (if_neg same).symm⟩
  obtain ⟨joined, entries⟩ := exists_config_of_entries
    (P := fun g entry => entry = if g = f then g.entry c else g.entry d) each
  exact ⟨joined, by rw [entries, if_pos rfl], fun g other => by rw [entries, if_neg other]⟩

/-- How often members give a field that was given before or not. -/
def timesGiven (fields : List Field) (members : List Member) (f : Field) : Nat :=
  (members.map Prod.fst).count f.key + if f ∈ fields then 1 else 0

/-- What a field has behind members: what its member gives it, or else what it had. -/
def Settled (members : List Member) (old : Config) (f : Field) (entry : Entry) : Prop :=
  (∀ v, (f.key, v) ∈ members → f.Gives v entry) ∧
    ((∀ v, (f.key, v) ∉ members) → entry = f.entry old)

/-- Every field of a configuration has what it has behind the members. -/
def Settles (members : List Member) (old new : Config) : Prop :=
  ∀ f : Field, Settled members old f (f.entry new)

theorem settles_nil : Settles [] c c' ↔ c' = c := by
  constructor
  · exact fun same => eq_of_entry fun f => (same f).2 (by simp)
  · rintro rfl f
    exact ⟨by simp, fun _ => rfl⟩

theorem timesGiven_cons {fields : List Field} {g : Field} {v : Value} (fresh : g ∉ fields)
    (f : Field) :
    timesGiven fields ((g.key, v) :: members) f = timesGiven (g :: fields) members f := by
  simp only [timesGiven, List.map_cons, List.count_cons, beq_iff_eq, Field.key_inj, List.mem_cons]
  by_cases same : f = g
  · subst same
    simp [fresh]
  · simp [same, Ne.symm same]

/-- A field that was given is not given again. -/
theorem notMem_of_timesGiven {fields : List Field} {g : Field}
    (once : timesGiven (g :: fields) members g ≤ 1) (v : Value) : (g.key, v) ∉ members := by
  intro inside
  have present : 0 < (members.map Prod.fst).count g.key :=
    List.count_pos_iff.mpr (List.mem_map.mpr ⟨_, inside, rfl⟩)
  simp only [timesGiven, List.mem_cons, true_or, ↓reduceIte] at once
  omega

theorem settles_cons {g : Field} {v : Value} (later : ∀ w, (g.key, w) ∉ members) :
    Settles ((g.key, v) :: members) c c' ↔
      ∃ d, g.Gives v (g.entry d) ∧ (∀ f ≠ g, f.entry d = f.entry c) ∧ Settles members d c' := by
  constructor
  · intro settles
    obtain ⟨d, here, others⟩ := exists_entry_joined g c' c
    refine ⟨d, here ▸ (settles g).1 v List.mem_cons_self, others, fun f => ⟨?_, fun absent => ?_⟩⟩
    · exact fun w inside => (settles f).1 w (List.mem_cons_of_mem _ inside)
    · by_cases same : f = g
      · rw [same, here]
      · rw [others f same]
        refine (settles f).2 fun w inside => ?_
        rcases List.mem_cons.mp inside with equal | inside
        · exact same (Field.key_inj.mp (Prod.mk.inj equal).1)
        · exact absent w inside
  · rintro ⟨d, gives, others, settles⟩ f
    constructor
    · intro w inside
      rcases List.mem_cons.mp inside with equal | inside
      · obtain ⟨sameKey, rfl⟩ := Prod.mk.inj equal
        obtain rfl : f = g := Field.key_inj.mp sameKey
        rw [(settles f).2 later]
        exact gives
      · exact (settles f).1 w inside
    · intro absent
      have other : f ≠ g := by
        rintro rfl
        exact absent v List.mem_cons_self
      rw [(settles f).2 fun w inside => absent w (List.mem_cons_of_mem _ inside), others f other]

/-- What all members do together: no field may be given twice, and each is settled. -/
theorem takesAll_iff :
    TakesAll given members c ↔
      (∀ f, timesGiven given.1 members f ≤ 1) ∧ Settles members given.2 c := by
  induction members generalizing given with
  | nil =>
    have once (f : Field) : timesGiven given.1 [] f ≤ 1 := by
      simp only [timesGiven]
      split <;> simp
    simp only [TakesAll, settles_nil, once, implies_true, true_and]
  | cons m members ih =>
    obtain ⟨key, v⟩ := m
    simp only [TakesAll, Takes, ih]
    cases known : Field.ofKey? key with
    | none =>
      have other (f : Field) : f.key ≠ key := fun same =>
        absurd (Field.ofKey?_eq_some_iff.mpr same) (by simp [known])
      simp [timesGiven, Settles, Settled, other, Ne.symm (other _)]
    | some g =>
      obtain rfl := Field.ofKey?_eq_some_iff.mp known
      constructor
      · rintro ⟨⟨fields, d⟩, ⟨fresh, rfl, gives, others⟩, once, settles⟩
        have later := notMem_of_timesGiven (once g)
        refine ⟨fun f => ?_, (settles_cons later).mpr ⟨d, gives, others, settles⟩⟩
        rw [timesGiven_cons fresh]
        exact once f
      · rintro ⟨once, settles⟩
        have fresh : g ∉ given.1 := by
          intro again
          have counted := once g
          simp only [timesGiven, List.map_cons, List.count_cons_self, again, ↓reduceIte] at counted
          omega
        simp only [timesGiven_cons fresh] at once
        obtain ⟨d, gives, others, settled⟩ :=
          (settles_cons (notMem_of_timesGiven (once g))).mp settles
        exact ⟨(g :: given.1, d), ⟨fresh, rfl, gives, others⟩, once, settled⟩

/-- A key that occurs once has one value. -/
theorem eq_of_mem_of_count_le {key : String} (once : (members.map Prod.fst).count key ≤ 1)
    {v w : Value} (first : (key, v) ∈ members) (second : (key, w) ∈ members) : v = w := by
  induction members with
  | nil => cases first
  | cons m members ih =>
    rw [List.map_cons, List.count_cons] at once
    have later : m.1 = key → ∀ u, (key, u) ∉ members := by
      intro same u inside
      have present : 0 < (members.map Prod.fst).count key :=
        List.count_pos_iff.mpr (List.mem_map.mpr ⟨_, inside, rfl⟩)
      simp only [same, beq_self_eq_true, ↓reduceIte] at once
      omega
    rcases List.mem_cons.mp first with rfl | first <;>
      rcases List.mem_cons.mp second with same | second
    · exact (Prod.mk.inj same).2.symm
    · exact absurd second (later rfl w)
    · exact absurd first (later (congrArg Prod.fst same).symm v)
    · exact ih (by omega) first second

/-- The members that some field has the key of. -/
def knownMembers (members : List Member) : List Member :=
  members.filter fun m => (Field.ofKey? m.1).isSome

theorem mem_knownMembers {v : Value} :
    (f.key, v) ∈ knownMembers members ↔ (f.key, v) ∈ members := by
  simp [knownMembers, Field.ofKey?_key]

theorem count_knownMembers (members : List Member) (f : Field) :
    ((knownMembers members).map Prod.fst).count f.key = (members.map Prod.fst).count f.key := by
  induction members with
  | nil => rfl
  | cons m members ih =>
    simp only [knownMembers] at ih ⊢
    cases known : Field.ofKey? m.1 with
    | some g => simp [known, List.count_cons, ih]
    | none =>
      have other : m.1 ≠ f.key := fun same =>
        absurd (Field.ofKey?_eq_some_iff.mpr same.symm) (by simp [known])
      simp [known, ih, List.count_cons_of_ne other]

/-- A document in the form of a map is read as a configuration exactly if no field is given twice
and each has what it has behind the members. -/
theorem ofDocument_eq_ok_iff {document : String}
    (spelled : Spells (.padded (.map (members.map Member.keyed))) document.toList) :
    ofDocument document = .ok c ↔
      (∀ f : Field, (members.map Prod.fst).count f.key ≤ 1) ∧ Settles members {} c := by
  rw [ofDocument_of_spells spelled, takesAll_iff]
  simp only [timesGiven, List.not_mem_nil, ↓reduceIte, Nat.add_zero]

/-- A document in the form of a map is accepted exactly if no field is given twice and each is
given a value that it accepts. The configuration has what the members give and the defaults
elsewhere, so that only the members for fields matter, in whichever order they stand. -/
theorem keyed_documents_are_read_exactly (members : List Member) (document : String)
    (spelled : Spells (.padded (.map (members.map Member.keyed))) document.toList) :
    ((∃ c, ofDocument document = .ok c) ↔
        (∀ f : Field, (members.map Prod.fst).count f.key ≤ 1) ∧
          ∀ (f : Field) v, (f.key, v) ∈ members → ∃ entry, f.Gives v entry) ∧
      (∀ c, ofDocument document = .ok c ↔
        (∀ f : Field, (members.map Prod.fst).count f.key ≤ 1) ∧ Settles members {} c) ∧
      ∀ (others : List Member) (other : String),
        Spells (.padded (.map (others.map Member.keyed))) other.toList →
        (knownMembers members).Perm (knownMembers others) →
        ∀ c, ofDocument document = .ok c ↔ ofDocument other = .ok c := by
  refine ⟨⟨?_, ?_⟩, fun c => ofDocument_eq_ok_iff spelled, ?_⟩
  · rintro ⟨c, read⟩
    obtain ⟨once, settles⟩ := (ofDocument_eq_ok_iff spelled).mp read
    exact ⟨once, fun f v inside => ⟨f.entry c, (settles f).1 v inside⟩⟩
  · rintro ⟨once, accepted⟩
    have each (f : Field) : ∃ c : Config, Settled members {} f (f.entry c) := by
      -- what a member gives stands alone, since the field is given once
      by_cases given : ∃ v, (f.key, v) ∈ members
      · obtain ⟨v, inside⟩ := given
        obtain ⟨entry, gives⟩ := accepted f v inside
        obtain ⟨c, rfl⟩ := gives.exists_config
        refine ⟨c, fun w again => ?_, fun absent => absurd inside (absent v)⟩
        rw [eq_of_mem_of_count_le (once f) again inside]
        exact gives
      · exact ⟨{}, fun v inside => absurd ⟨v, inside⟩ given, fun _ => rfl⟩
    obtain ⟨c, settles⟩ := exists_config_of_entries each
    exact ⟨c, (ofDocument_eq_ok_iff spelled).mpr ⟨once, settles⟩⟩
  · intro others other spelledOther permuted c
    rw [ofDocument_eq_ok_iff spelled, ofDocument_eq_ok_iff spelledOther]
    have counts (f : Field) :
        (members.map Prod.fst).count f.key = (others.map Prod.fst).count f.key := by
      rw [← count_knownMembers, ← count_knownMembers others, (permuted.map Prod.fst).count_eq]
    have settled (f : Field) (v : Value) : (f.key, v) ∈ members ↔ (f.key, v) ∈ others := by
      rw [← mem_knownMembers, permuted.mem_iff, mem_knownMembers]
    simp only [counts, Settles, Settled, settled]

/-- An escaped key is the key, a short name is a name, and neither a half of a pair in an unknown
member nor that member can be seen in the configuration. -/
theorem unknown_half_leaves_no_trace :
    ofDocument "\x7b\"w\\u0061ys\": 8, \"x\": \"\\uD800\", \"policy\": \"rr\"\x7d" =
        .ok { ways := 8, policy := .roundRobin } ∧
      ofDocument "\x7b\"policy\":\"rr\",\"ways\":8\x7d" =
        .ok { ways := 8, policy := .roundRobin } := by
  have bare : Blanks [] := List.forall_mem_nil _
  have space : Blanks [' '] := by simp [Blanks]
  have eight : Spells (.value (.number ⟨false, ['8'], none, none⟩)) ['8'] :=
    .whole (by simp [Digits]) (.inr (by simp))
  have name : Spells (.value (.text (Point.ofString "rr"))) "\"rr\"".toList :=
    .plainText (by simp)
  have a : SpellsPoint (.char 'a') ['\\', 'u', '0', '0', '6', '1'] :=
    .numeric (.digits (a := 0) (b := 0) (c := 6) (d := 1) (.inl rfl) (.inl rfl) (.inl rfl)
      (.inl rfl))
  have w : SpellsPoint (.char 'w') ['w'] := .plain (by decide) (by decide) (by decide)
  have tail : SpellsString (Point.ofString "ys") "ys".toList := .plain (by simp)
  have ways : SpellsString (Point.ofString "ways")
      ['w', '\\', 'u', '0', '0', '6', '1', 'y', 's'] :=
    .cons w id (.cons a id tail)
  have half : SpellsString [.half 0xd800] ['\\', 'u', 'D', '8', '0', '0'] :=
    .cons (.half (by decide)
      (.digits (a := 13) (b := 8) (c := 0) (d := 0) (.inr rfl) (.inr rfl) (.inr rfl) (.inr rfl)))
      id .nil
  have x : SpellsString (Point.ofString "x") "x".toList := .plain (by simp)
  have policy : SpellsString (Point.ofString "policy") "policy".toList := .plain (by simp)
  have first : Spells (.padded (.map (List.map Member.keyed
      [("ways", .number ⟨false, ['8'], none, none⟩), ("x", .text [.half 0xd800]),
        ("policy", .text (Point.ofString "rr"))])))
      "\x7b\"w\\u0061ys\": 8, \"x\": \"\\uD800\", \"policy\": \"rr\"\x7d".toList :=
    .alone (.map (.moreMembers (.member bare ways bare (.padded space eight bare))
      (.moreMembers (.member space x bare (.padded space (.text half) bare))
        (.lastMember (.member space policy bare (.padded space name bare))))))
  have second : Spells (.padded (.map (List.map Member.keyed
      [("policy", .text (Point.ofString "rr")), ("ways", .number ⟨false, ['8'], none, none⟩)])))
      "\x7b\"policy\":\"rr\",\"ways\":8\x7d".toList :=
    .alone (.map (.moreMembers (.plainMember (by simp) name)
      (.lastMember (.plainMember (by simp) eight))))
  have worth : Nat.ofDigitChars 10 ['8'] 0 = 8 := by decide
  obtain ⟨_, exact, same⟩ := keyed_documents_are_read_exactly _ _ first
  have read : ofDocument
      "\x7b\"w\\u0061ys\": 8, \"x\": \"\\uD800\", \"policy\": \"rr\"\x7d" =
      .ok { ways := 8, policy := .roundRobin } := by
    refine (exact _).mpr ⟨by rintro (_ | _) <;> decide, ?_⟩
    have named : SpellsName NamesKind (.text (Point.ofString "rr")) .roundRobin :=
      ⟨_, .short, .inl rfl⟩
    rintro (_ | _) <;>
      simp [Settled, Field.key, Field.entry, Field.Gives, SpellsWord, worth, named]
  exact ⟨read, (same _ _ second (.swap ..) _).mp read⟩

end SetAssociative.Config
