import SetAssociative.Proofs.SetFrame

/-! The lines that a set holds, each with the way it is in. Operations are described by
what they do to these lines: putting a line into a way, or emptying a way. A sound set
holds no tag twice and nothing in the ways that are not valid, so that looking for a
tag finds the one way that holds its line, and never a vacant way whose tag reads zero. -/
namespace SetAssociative

/-- Where a line is held, and what happened to it since it came. -/
structure Line where
  way : Nat
  dirty : Bool
  pinned : Bool
  deriving DecidableEq, Repr

/-- The content of a way that holds the line of a tag. -/
def Line.slot (line : Line) (tag : Nat) : Way where
  tag
  valid := true
  dirty := line.dirty
  pinned := line.pinned

theorem Line.slot_inj {first second : Line} {tag other : Nat} (ways : first.way = second.way)
    (same : first.slot tag = second.slot other) : tag = other ∧ first = second := by
  cases first
  cases second
  simp_all [slot]

namespace CacheSet
variable {s : CacheSet} {tag other way : Nat} {dirty pinned : Bool} {line kept : Line}

/-- The set holds the line of a tag. -/
def Holds (s : CacheSet) (tag : Nat) (line : Line) : Prop :=
  s.way? line.way = some (line.slot tag)

/-- The set with the line of a tag put into a way. -/
def put (s : CacheSet) (tag way : Nat) (dirty pinned : Bool) : CacheSet :=
  s.setWay way { tag, valid := true, dirty, pinned }

/-- The set with a way emptied. -/
def clear (s : CacheSet) (way : Nat) : CacheSet := s.setWay way .empty

/-- The set with another policy. -/
def withPolicy (s : CacheSet) (policy : Policy) : CacheSet := { s with policy }

theorem lt_ways_of_way? {w : Way} (held : s.way? way = some w) : way < s.ways :=
  List.getElem?_eq_some_iff.mp held |>.choose

theorem Holds.inside (held : s.Holds tag line) : line.way < s.ways := lt_ways_of_way? held

/-- A valid way holds the line of its tag. -/
theorem holds_of_valid {w : Way} (held : s.way? way = some w) (valid : w.valid = true) :
    s.Holds w.tag ⟨way, w.dirty, w.pinned⟩ := by
  cases w
  subst valid
  exact held

/-- One way holds one line only. -/
theorem Holds.eq_of_way (first : s.Holds tag line) (second : s.Holds other kept)
    (ways : line.way = kept.way) : tag = other ∧ line = kept := by
  unfold Holds at first second
  rw [ways, second] at first
  exact Line.slot_inj ways (Option.some.inj first).symm

/-- After a line was put into a way, the set holds it and the lines of all other ways. -/
theorem holds_put (inside : way < s.ways) :
    (s.put tag way dirty pinned).Holds other kept ↔
      (other = tag ∧ kept = ⟨way, dirty, pinned⟩) ∨ (kept.way ≠ way ∧ s.Holds other kept) := by
  unfold Holds put
  rw [way?_setWay s _ inside]
  by_cases same : way = kept.way
  · subst same
    simp only [↓reduceIte, Option.some.injEq, ne_eq, not_true_eq_false, false_and, or_false]
    constructor
    · intro slots
      cases kept
      cases slots
      exact ⟨rfl, rfl⟩
    · rintro ⟨rfl, lines⟩
      rw [lines]
      rfl
  · simp only [if_neg same, ne_eq, Ne.symm same, not_false_eq_true, true_and]
    constructor
    · exact .inr
    · rintro (⟨-, rfl⟩ | held)
      · exact absurd rfl same
      · exact held

/-- After a way was emptied, the set holds the lines of all other ways. -/
theorem holds_clear (inside : way < s.ways) :
    (s.clear way).Holds tag line ↔ line.way ≠ way ∧ s.Holds tag line := by
  unfold Holds clear
  rw [way?_setWay s _ inside]
  by_cases same : way = line.way
  · simp [same, Line.slot, Way.empty]
  · simp [same, Ne.symm same]

theorem way?_flush : s.flush.2.way? way =
    (s.way? way).map fun w => if flushes w then .empty else w := by
  simp [flush, way?]

/-- A flush leaves exactly the clean lines. -/
theorem holds_flush : s.flush.2.Holds tag line ↔ s.Holds tag line ∧ line.dirty = false := by
  unfold Holds
  rw [way?_flush]
  cases held : s.way? line.way with
  | none => simp
  | some w =>
    simp only [Option.map_some, Option.some.injEq]
    by_cases written : flushes w = true
    · rw [if_pos written]
      constructor
      · intro impossible
        cases impossible
      · rintro ⟨rfl, clean⟩
        simp [flushes, Line.slot, clean] at written
    · rw [if_neg written]
      constructor
      · rintro rfl
        exact ⟨rfl, by simpa [flushes, Line.slot] using written⟩
      · exact And.left

private theorem way?_of_findIdx? {wanted : Way → Bool}
    (found : s.slots.findIdx? wanted = some way) :
    (∃ w, s.way? way = some w ∧ wanted w = true) ∧
      ∀ lower < way, ∃ w, s.way? lower = some w ∧ wanted w = false := by
  obtain ⟨inside, matching, first⟩ := List.findIdx?_eq_some_iff_getElem.mp found
  refine ⟨⟨_, List.getElem?_eq_getElem inside, matching⟩, fun lower below => ?_⟩
  exact ⟨_, List.getElem?_eq_getElem (Nat.lt_trans below inside), by simpa using first lower below⟩

private theorem unwanted_of_findIdx? {wanted : Way → Bool} {w : Way}
    (found : s.slots.findIdx? wanted = none) (held : s.way? way = some w) : wanted w = false :=
  List.findIdx?_eq_none_iff.mp found w (List.mem_of_getElem? held)

/-- What a search for a tag finds is a way that holds its line. -/
theorem holds_of_find? (found : s.find? tag = some way) :
    ∃ line, line.way = way ∧ s.Holds tag line := by
  obtain ⟨⟨w, held, wanted⟩, -⟩ := way?_of_findIdx? found
  simp only [Bool.and_eq_true, beq_iff_eq] at wanted
  exact ⟨⟨way, w.dirty, w.pinned⟩, rfl, wanted.2 ▸ holds_of_valid held wanted.1⟩

/-- A search for a tag fails exactly when no way holds its line. -/
theorem find?_eq_none_iff : s.find? tag = none ↔ ∀ line, ¬ s.Holds tag line := by
  constructor
  · intro absent line held
    have unwanted := unwanted_of_findIdx? absent held
    simp [Line.slot] at unwanted
  · intro absent
    cases found : s.find? tag with
    | none => rfl
    | some way =>
      obtain ⟨line, -, held⟩ := holds_of_find? found
      exact absurd held (absent line)

/-- The free way is the first that is not valid. -/
theorem way?_of_freeWay? (free : s.freeWay? = some way) :
    (∃ w, s.way? way = some w ∧ w.valid = false) ∧
      ∀ lower < way, ∃ w, s.way? lower = some w ∧ w.valid = true := by
  obtain ⟨⟨w, held, vacant⟩, below⟩ := way?_of_findIdx? free
  refine ⟨⟨w, held, by simpa using vacant⟩, fun lower less => ?_⟩
  obtain ⟨v, here, full⟩ := below lower less
  exact ⟨v, here, by simpa using full⟩

/-- No line is held in a vacant way. -/
theorem Holds.way_ne {w : Way} (held : s.Holds tag line) (here : s.way? way = some w)
    (vacant : w.valid = false) : line.way ≠ way := by
  rintro rfl
  rw [held] at here
  cases here
  cases vacant

/-- No tag is held twice, and a way that is not valid is as empty as it was in the
beginning. -/
structure Tidy (s : CacheSet) : Prop where
  unique : ∀ {tag first second}, s.Holds tag first → s.Holds tag second → first = second
  vacant : ∀ {way w}, s.way? way = some w → w.valid = false → w = .empty

/-- In a tidy set the search finds the way that holds the line. -/
theorem Tidy.find?_of_holds (tidy : s.Tidy) (held : s.Holds tag line) :
    s.find? tag = some line.way := by
  cases found : s.find? tag with
  | none => exact absurd held (find?_eq_none_iff.mp found line)
  | some way =>
    obtain ⟨there, rfl, also⟩ := holds_of_find? found
    rw [tidy.unique held also]

/-- The search succeeds for the tags that are held. -/
theorem Tidy.isSome_find?_iff (tidy : s.Tidy) :
    (s.find? tag).isSome ↔ ∃ line, s.Holds tag line := by
  rw [Option.isSome_iff_exists]
  constructor
  · rintro ⟨way, found⟩
    obtain ⟨line, -, held⟩ := holds_of_find? found
    exact ⟨line, held⟩
  · rintro ⟨line, held⟩
    exact ⟨line.way, tidy.find?_of_holds held⟩

/-- A line that is held is alone in holding its tag. -/
theorem Tidy.alone_of_holds (tidy : s.Tidy) (held : s.Holds tag line) :
    ∀ kept, s.Holds tag kept → kept.way = line.way := by
  intro kept also
  rw [tidy.unique also held]

theorem alone_of_find? (absent : s.find? tag = none) :
    ∀ kept, s.Holds tag kept → kept.way = way := by
  intro kept also
  exact absurd also (find?_eq_none_iff.mp absent kept)

theorem Tidy.withPolicy (tidy : s.Tidy) (policy : Policy) : (s.withPolicy policy).Tidy where
  unique := tidy.unique
  vacant := tidy.vacant

/-- Putting a line keeps a set tidy unless the tag is held in another way. -/
theorem Tidy.put (tidy : s.Tidy) (inside : way < s.ways)
    (alone : ∀ kept, s.Holds tag kept → kept.way = way) : (s.put tag way dirty pinned).Tidy where
  unique := by
    intro shared first second left right
    rcases (holds_put inside).mp left with ⟨rfl, rfl⟩ | ⟨apart, before⟩
    · rcases (holds_put inside).mp right with ⟨-, rfl⟩ | ⟨away, after⟩
      · rfl
      · exact absurd (alone second after) away
    · rcases (holds_put inside).mp right with ⟨rfl, -⟩ | ⟨-, after⟩
      · exact absurd (alone first before) apart
      · exact tidy.unique before after
  vacant := by
    intro other w held vacant
    unfold CacheSet.put at held
    rw [way?_setWay s _ inside] at held
    split at held
    · cases held
      cases vacant
    · exact tidy.vacant held vacant

/-- Emptying a way keeps a set tidy. -/
theorem Tidy.clear (tidy : s.Tidy) (inside : way < s.ways) : (s.clear way).Tidy where
  unique := fun left right =>
    tidy.unique ((holds_clear inside).mp left).2 ((holds_clear inside).mp right).2
  vacant := by
    intro other w held vacant
    unfold CacheSet.clear at held
    rw [way?_setWay s _ inside] at held
    split at held
    · exact (Option.some.inj held).symm
    · exact tidy.vacant held vacant

theorem Tidy.flush (tidy : s.Tidy) : s.flush.2.Tidy where
  unique := fun left right => tidy.unique (holds_flush.mp left).1 (holds_flush.mp right).1
  vacant := by
    intro way w held vacant
    rw [way?_flush] at held
    obtain ⟨before, there, rfl⟩ := Option.map_eq_some_iff.mp held
    split at vacant
    · rename_i written
      rw [if_pos written]
    · rename_i kept
      rw [if_neg kept]
      exact tidy.vacant there vacant

/-- What every set keeps that is driven by requests. -/
structure Sound (s : CacheSet) : Prop where
  fits : s.Fits
  tidy : s.Tidy

theorem not_holds_empty {cacheType : CacheType} {g : Geometry} {policy : Policy}
    {contract : Contract} : ¬ (empty cacheType g policy contract).Holds tag line := by
  intro held
  have blank := List.eq_of_mem_replicate (List.mem_of_getElem? held)
  cases blank

/-- A set is sound when it is built around a policy of as many ways. -/
theorem sound_empty {cacheType : CacheType} {g : Geometry} {policy : Policy} {contract : Contract}
    (fits : policy.ways = g.ways) : (empty cacheType g policy contract).Sound := by
  have vacant : ∀ {way w}, (empty cacheType g policy contract).way? way = some w →
      w = .empty := by
    intro way w held
    exact List.eq_of_mem_replicate (List.mem_of_getElem? held)
  refine ⟨by simpa [Fits, empty, ways] using fits, ?_, fun held _ => vacant held⟩
  intro tag first second held _
  cases vacant held

end CacheSet

end SetAssociative
