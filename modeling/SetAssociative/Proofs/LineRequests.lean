import SetAssociative.Proofs.ResidentLines
import SetAssociative.Proofs.VictimSelection

/-! Requests about the line of a tag: an access, pinning or unpinning it, and its
removal. Each puts at most one line or empties at most one way, and which one is told
by the reply. The cases of `Effect` say all that a request can do to a set whose policy
fits it, so that no later argument unfolds an operation. -/
namespace SetAssociative

/-- What may be asked of a set about the line of a tag. -/
inductive Request where
  | access (write : Bool)
  | setPinned (pinned : Bool)
  | invalidate
  deriving DecidableEq, Repr

/-- What a set replies to a request. -/
inductive Reply where
  | placed (result : Except CacheError Placement)
  | found (held : Bool)
  | removed (line : Option Evicted)

/-- A reply, the set after it, and what the request counts for. -/
structure Response where
  reply : Reply
  set : CacheSet
  count : Stats

namespace CacheSet
variable {s : CacheSet} {tag way : Nat} {line : Line}

/-- A set answers a request about the line of a tag. -/
def serve (s : CacheSet) (tag : Nat) : Request → Response
  | .access write =>
    let served := s.access tag write
    { reply := .placed served.result, set := served.set, count := served.count }
  | .setPinned pinned =>
    match s.find? tag with
    | none => { reply := .found false, set := s, count := {} }
    | some way =>
      let edited := if pinned then s.pin way else s.unpin way
      { reply := .found edited.1, set := edited.2, count := {} }
  | .invalidate =>
    match s.find? tag with
    | none => { reply := .removed none, set := s, count := {} }
    | some way =>
      let left := s.invalidate way
      { reply := .removed left.1
        set := left.2
        count := { writebacks := if left.1.any Evicted.dirty then 1 else 0 } }

/-- All that a request about the line of a tag can come to. -/
inductive Effect (s : CacheSet) (tag : Nat) : Request → Response → Prop where
  /-- The line is there; a write leaves it dirty. -/
  | hit {write : Bool} (line : Line) (found : s.find? tag = some line.way)
      (held : s.Holds tag line) :
      Effect s tag (.access write)
        { reply := .placed (.ok { hit := true, way := line.way, evicted := none })
          set := (s.put tag line.way (line.dirty || write) line.pinned).withPolicy
            (s.policy.record (.hit line.way))
          count := { accesses := 1, hits := 1 } }
  /-- The line is not there and takes the first free way. -/
  | fill {write : Bool} (way : Nat) (w : Way) (absent : s.find? tag = none)
      (free : s.freeWay? = some way) (here : s.way? way = some w) (vacant : w.valid = false) :
      Effect s tag (.access write)
        { reply := .placed (.ok { hit := false, way, evicted := none })
          set := (s.put tag way write false).withPolicy
            (s.policy.record (.fill way))
          count := { accesses := 1, misses := 1, fills := 1 } }
  /-- The line is not there and takes the way of a line that is not pinned. -/
  | replace {write : Bool} (old : Nat) (victim : Line) (absent : s.find? tag = none)
      (full : s.freeWay? = none) (chosen : (s.policy.search s.view).1 = some victim.way)
      (held : s.Holds old victim) (released : victim.pinned = false) :
      Effect s tag (.access write)
        { reply := .placed (.ok
            { hit := false, way := victim.way
              evicted := some { way := victim.way, tag := old, dirty := victim.dirty } })
          set := (s.put tag victim.way write false).withPolicy
            ((s.policy.search s.view).2.record (.fill victim.way))
          count :=
            { accesses := 1, misses := 1, fills := 1, evictions := 1
              writebacks := if victim.dirty then 1 else 0 } }
  /-- The line is not there and every way holds a pinned line. -/
  | exhausted {write : Bool} (absent : s.find? tag = none) (full : s.freeWay? = none)
      (none_open : ∀ way < s.ways, s.view way = false) :
      Effect s tag (.access write)
        { reply := .placed (.error (.exhausted s.ways))
          set := s.withPolicy (s.policy.search s.view).2
          count := { accesses := 1, misses := 1, exhausted := 1 } }
  /-- The line is there and is pinned or unpinned. -/
  | pinned {pinned : Bool} (line : Line) (found : s.find? tag = some line.way)
      (held : s.Holds tag line) :
      Effect s tag (.setPinned pinned)
        { reply := .found true, set := s.put tag line.way line.dirty pinned, count := {} }
  /-- There is no line to pin or to unpin. -/
  | unfound {pinned : Bool} (absent : s.find? tag = none) :
      Effect s tag (.setPinned pinned) { reply := .found false, set := s, count := {} }
  /-- The line is there and leaves. -/
  | removed (line : Line) (found : s.find? tag = some line.way) (held : s.Holds tag line) :
      Effect s tag .invalidate
        { reply := .removed (some { way := line.way, tag, dirty := line.dirty })
          set := s.clear line.way
          count := { writebacks := if line.dirty then 1 else 0 } }
  /-- There is no line to remove. -/
  | missing (absent : s.find? tag = none) :
      Effect s tag .invalidate { reply := .removed none, set := s, count := {} }

theorem setWay_self {w : Way} (held : s.way? way = some w) : s.setWay way w = s := by
  obtain ⟨inside, rfl⟩ := List.getElem?_eq_some_iff.mp held
  simp [setWay]

/-- A change of a held line puts the changed line. -/
theorem change_of_holds (held : s.Holds tag line) (update : Way → Way) :
    s.change line.way update = (true, s.setWay line.way (update (line.slot tag))) := by
  have filtered : (s.way? line.way).filter Way.valid = some (line.slot tag) := by
    rw [held]
    rfl
  simp only [change, filtered]

theorem resident?_of_holds (held : s.Holds tag line) :
    s.resident? line.way = some { way := line.way, tag, dirty := line.dirty } := by
  unfold resident?
  rw [held]
  rfl

/-- The policy is told of a way that exists, whichever line was put before. -/
theorem record_put {o : Outcome} (inside : o.way < s.ways) {dirty pinned : Bool} :
    (s.put tag way dirty pinned).record o =
      .ok ((s.put tag way dirty pinned).withPolicy (s.policy.record o)) :=
  if_pos (by simpa only [put, ways_setWay] using inside)

theorem install_of_lt {dirty : Bool} (inside : way < s.ways) :
    s.install way tag dirty =
      .ok (s.resident? way, s.put tag way dirty false) := if_pos inside

theorem hit_of_holds (held : s.Holds tag line) (write : Bool) :
    s.hit line.way write =
      { result := .ok { hit := true, way := line.way, evicted := none }
        set := (s.put tag line.way (line.dirty || write) line.pinned).withPolicy
          (s.policy.record (.hit line.way))
        count := { accesses := 1, hits := 1 } } := by
  have written : (if write then (s.markDirty line.way).2 else s) =
      s.put tag line.way (line.dirty || write) line.pinned := by
    cases write with
    | false =>
      rw [Bool.or_false]
      exact (setWay_self held).symm
    | true =>
      simp only [↓reduceIte, markDirty, change_of_holds held, Bool.or_true]
      rfl
  have told : (Outcome.hit line.way).way < s.ways := held.inside
  simp only [hit, written]
  rw [record_put told]

theorem fill_of_lt (inside : way < s.ways) (write : Bool) :
    s.fill way tag write =
      { result := .ok { hit := false, way, evicted := s.resident? way }
        set := (s.put tag way write false).withPolicy
          (s.policy.record (.fill way))
        count :=
          { accesses := 1, misses := 1, fills := 1
            evictions := if (s.resident? way).isSome then 1 else 0
            writebacks := if (s.resident? way).any Evicted.dirty then 1 else 0 } } := by
  have told : (Outcome.fill way).way < s.ways := inside
  simp only [fill, install_of_lt inside]
  rw [record_put told]

/-- A set with a free way takes it for a line that is not there. -/
theorem access_of_freeWay? (absent : s.find? tag = none) (free : s.freeWay? = some way)
    (write : Bool) : s.access tag write = s.fill way tag write := by
  simp only [access, absent, selectWay, free]

theorem access_of_search {victim : Nat} (absent : s.find? tag = none) (full : s.freeWay? = none)
    (chosen : (s.policy.search s.view).1 = some victim) (write : Bool) :
    s.access tag write =
      (s.withPolicy (s.policy.search s.view).2).fill victim tag write := by
  simp only [access, absent, selectWay, full, selectVictim, Policy.selectVictim, chosen]
  rfl

theorem access_of_search_none (absent : s.find? tag = none) (full : s.freeWay? = none)
    (none_chosen : (s.policy.search s.view).1 = none) (write : Bool) :
    s.access tag write =
      { result := .error (.exhausted s.policy.ways)
        set := s.withPolicy (s.policy.search s.view).2
        count := { accesses := 1, misses := 1, exhausted := 1 } } := by
  simp only [access, absent, selectWay, full, selectVictim, Policy.selectVictim, none_chosen]
  rfl

/-- The way of a line that is not pinned may be evicted. -/
theorem Holds.view_of_released (held : s.Holds tag line) (released : line.pinned = false) :
    s.view line.way = true :=
  view_eq_true_iff.mpr ⟨_, held, rfl, released⟩

/-- What a search of the policy picks is the way of a line that is not pinned. -/
theorem holds_of_search (chosen : (s.policy.search s.view).1 = some way) :
    ∃ old victim, victim.way = way ∧ s.Holds old victim ∧ victim.pinned = false := by
  have picked := s.policy.picks_search s.view
  rw [chosen] at picked
  obtain ⟨w, here, valid, released⟩ := view_eq_true_iff.mp (View.mem_candidates.mp picked).2
  exact ⟨w.tag, _, rfl, holds_of_valid here valid, released⟩

theorem effect_access (fits : s.Fits) (tag : Nat) (write : Bool) :
    Effect s tag (.access write) (s.serve tag (.access write)) := by
  simp only [serve]
  cases found : s.find? tag with
  | some way =>
    obtain ⟨line, rfl, held⟩ := holds_of_find? found
    have served : s.access tag write = s.hit line.way write := by simp only [access, found]
    rw [served, hit_of_holds held]
    exact .hit line found held
  | none =>
    cases free : s.freeWay? with
    | some way =>
      obtain ⟨⟨w, here, vacant⟩, -⟩ := way?_of_freeWay? free
      have empty : s.resident? way = none := by simp [resident?, here, vacant]
      rw [access_of_freeWay? found free, fill_of_lt (lt_ways_of_way? here), empty]
      exact .fill way w found free here vacant
    | none =>
      cases chosen : (s.policy.search s.view).1 with
      | some way =>
        obtain ⟨old, victim, rfl, held, released⟩ := holds_of_search chosen
        have leaves : (s.withPolicy (s.policy.search s.view).2).resident? victim.way =
            some { way := victim.way, tag := old, dirty := victim.dirty } := resident?_of_holds held
        have inside : victim.way < (s.withPolicy (s.policy.search s.view).2).ways := held.inside
        rw [access_of_search found free chosen, fill_of_lt inside, leaves]
        exact .replace old victim found free chosen held released
      | none =>
        have picked := s.policy.picks_search s.view
        rw [chosen] at picked
        rw [access_of_search_none found free chosen, fits]
        refine .exhausted found free ?_
        rw [← fits]
        exact View.candidates_eq_nil_iff.mp picked

/-- The cases of `Effect` cover every request to a set whose policy fits it. -/
theorem effect_serve (fits : s.Fits) (tag : Nat) (request : Request) :
    Effect s tag request (s.serve tag request) := by
  cases request with
  | access write => exact effect_access fits tag write
  | setPinned pinned =>
    simp only [serve]
    cases found : s.find? tag with
    | none => exact .unfound found
    | some way =>
      obtain ⟨line, rfl, held⟩ := holds_of_find? found
      have edited : (if pinned then s.pin line.way else s.unpin line.way) =
          (true, s.put tag line.way line.dirty pinned) := by
        cases pinned <;> exact change_of_holds held _
      simp only [edited]
      exact .pinned line found held
  | invalidate =>
    simp only [serve]
    cases found : s.find? tag with
    | none => exact .missing found
    | some way =>
      obtain ⟨line, rfl, held⟩ := holds_of_find? found
      have left : s.invalidate line.way =
          (some { way := line.way, tag, dirty := line.dirty }, s.clear line.way) := by
        simp only [invalidate, resident?_of_holds held]
        rfl
      simp only [left, Option.any_some]
      exact .removed line found held

/-- Only one thing can come of a request. -/
theorem Effect.eq_serve {request : Request} {response : Response}
    (effect : s.Effect tag request response) (fits : s.Fits) :
    response = s.serve tag request := by
  have served := effect_serve fits tag request
  generalize s.serve tag request = actual at served
  cases effect with
  | hit line found held =>
    cases served with
    | hit other also there =>
      obtain ⟨-, rfl⟩ := held.eq_of_way there (Option.some.inj (found.symm.trans also))
      rfl
    | fill _ _ absent | replace _ _ absent | exhausted absent =>
      exact nomatch found.symm.trans absent
  | fill way w absent free here vacant =>
    cases served with
    | hit line found => exact nomatch found.symm.trans absent
    | fill other _ _ also =>
      obtain rfl := Option.some.inj (free.symm.trans also)
      rfl
    | replace _ _ _ full | exhausted _ full => exact nomatch free.symm.trans full
  | replace old victim absent full chosen held released =>
    cases served with
    | hit line found => exact nomatch found.symm.trans absent
    | fill _ _ _ free => exact nomatch free.symm.trans full
    | replace other line _ _ also there =>
      obtain ⟨rfl, rfl⟩ := held.eq_of_way there (Option.some.inj (chosen.symm.trans also))
      rfl
    | exhausted _ _ none_open =>
      have closed := none_open _ held.inside
      exact nomatch (held.view_of_released released).symm.trans closed
  | exhausted absent full none_open =>
    cases served with
    | hit line found => exact nomatch found.symm.trans absent
    | fill _ _ _ free => exact nomatch free.symm.trans full
    | replace other line _ _ _ held released =>
      have closed := none_open _ held.inside
      exact nomatch (held.view_of_released released).symm.trans closed
    | exhausted _ _ _ => rfl
  | pinned line found held =>
    cases served with
    | pinned other also there =>
      obtain ⟨-, rfl⟩ := held.eq_of_way there (Option.some.inj (found.symm.trans also))
      rfl
    | unfound absent => exact nomatch found.symm.trans absent
  | unfound absent =>
    cases served with
    | pinned other found => exact nomatch found.symm.trans absent
    | unfound _ => rfl
  | removed line found held =>
    cases served with
    | removed other also there =>
      obtain ⟨-, rfl⟩ := held.eq_of_way there (Option.some.inj (found.symm.trans also))
      rfl
    | missing absent => exact nomatch found.symm.trans absent
  | missing absent =>
    cases served with
    | removed other found => exact nomatch found.symm.trans absent
    | missing _ => rfl

/-- No request changes what the set was built with. -/
theorem build_serve (s : CacheSet) (tag : Nat) (request : Request) :
    (s.serve tag request).set.build = s.build := by
  cases request with
  | access write => exact build_access s tag write
  | setPinned pinned =>
    simp only [serve]
    split
    · rfl
    · split <;> exact build_change ..
  | invalidate =>
    simp only [serve]
    split
    · rfl
    · exact build_invalidate ..

@[simp] theorem ways_serve (s : CacheSet) (tag : Nat) (request : Request) :
    (s.serve tag request).set.ways = s.ways := congrArg Build.ways (build_serve s tag request)

@[simp] theorem kind_serve (s : CacheSet) (tag : Nat) (request : Request) :
    (s.serve tag request).set.policy.kind = s.policy.kind :=
  congrArg Build.kind (build_serve s tag request)

/-- A request brings no line into the set but the one that it is about. -/
theorem holds_of_serve (fits : s.Fits) {request : Request} {other : Nat} {kept : Line}
    (after : (s.serve tag request).set.Holds other kept) :
    other = tag ∨ ∃ before, s.Holds other before := by
  have effect := effect_serve fits tag request
  generalize s.serve tag request = response at effect after
  cases effect with
  | hit line found held =>
    exact ((holds_put held.inside).mp after).imp And.left fun rest => ⟨kept, rest.2⟩
  | fill way w absent free here vacant =>
    exact ((holds_put (lt_ways_of_way? here)).mp after).imp And.left fun rest => ⟨kept, rest.2⟩
  | replace old victim absent full chosen held released =>
    exact ((holds_put held.inside).mp after).imp And.left fun rest => ⟨kept, rest.2⟩
  | pinned line found held =>
    exact ((holds_put held.inside).mp after).imp And.left fun rest => ⟨kept, rest.2⟩
  | removed line found held => exact .inr ⟨kept, ((holds_clear held.inside).mp after).2⟩
  | exhausted | unfound | missing => exact .inr ⟨kept, after⟩

/-- Requests keep a set sound: a line is put where its tag was found, or after its tag
was found nowhere. -/
theorem Sound.serve (sound : s.Sound) (tag : Nat) (request : Request) :
    (s.serve tag request).set.Sound := by
  refine ⟨fits_of_build sound.fits (build_serve s tag request), ?_⟩
  have tidy := sound.tidy
  have effect := effect_serve sound.fits tag request
  generalize s.serve tag request = response at effect
  cases effect with
  | hit line found held =>
    apply Tidy.withPolicy
    exact tidy.put held.inside (tidy.alone_of_holds held)
  | fill way w absent free here vacant =>
    apply Tidy.withPolicy
    exact tidy.put (lt_ways_of_way? here) (alone_of_find? absent)
  | replace old victim absent full chosen held released =>
    apply Tidy.withPolicy
    exact tidy.put held.inside (alone_of_find? absent)
  | exhausted absent full none_open => exact tidy.withPolicy _
  | pinned line found held => exact tidy.put held.inside (tidy.alone_of_holds held)
  | unfound absent => exact tidy
  | removed line found held => exact tidy.clear held.inside
  | missing absent => exact tidy

theorem Sound.flush (sound : s.Sound) : s.flush.2.Sound :=
  ⟨fits_of_build sound.fits (build_flush s), sound.tidy.flush⟩

end CacheSet

end SetAssociative
