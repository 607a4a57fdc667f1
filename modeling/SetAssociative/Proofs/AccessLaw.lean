import SetAssociative.Proofs.CacheRepresentation

/-! What a single access does to a cache, whatever happened to the cache before. There are
four outcomes, told apart by the ways of one set alone: the line is there, or a way is free,
or a line that is not pinned gives way, or every way is pinned. Beside the way that the
result names and the policy of that set, the access leaves all lines and policies alone. -/
namespace SetAssociative

namespace CacheSet
variable {s : CacheSet} {tag way : Nat} {dirty pinned : Bool}

/-- The lowest of the ways that hold no line. -/
def FirstFree (s : CacheSet) (way : Nat) : Prop :=
  (∃ w, s.way? way = some w ∧ w.valid = false) ∧
    ∀ lower < way, ∃ w, s.way? lower = some w ∧ w.valid = true

/-- Every way holds a line. -/
def Full (s : CacheSet) : Prop := ∀ way w, s.way? way = some w → w.valid = true

theorem freeWay?_eq_none_iff : s.freeWay? = none ↔ s.Full := by
  constructor
  · intro full way w here
    simpa using List.findIdx?_eq_none_iff.mp full w (List.mem_of_getElem? here)
  · intro full
    cases free : s.freeWay? with
    | none => rfl
    | some way =>
      obtain ⟨⟨w, here, vacant⟩, -⟩ := way?_of_freeWay? free
      exact absurd (full way w here) (Bool.eq_false_iff.mp vacant)

/-- A line that was put is found, and all other ways are as before. -/
theorem way?_put (inside : way < s.ways) (tag : Nat) (dirty pinned : Bool) (policy : Policy) :
    let t := (s.put tag way dirty pinned).withPolicy policy
    t.way? way = some { tag, valid := true, dirty, pinned } ∧ (t.find? tag).isSome ∧
      ∀ other, other ≠ way → t.way? other = s.way? other := by
  intro t
  have here : t.way? way = some { tag, valid := true, dirty, pinned } :=
    (way?_setWay s _ inside way).trans (if_pos rfl)
  refine ⟨here, ?_, fun other apart => (way?_setWay s _ inside other).trans (if_neg apart.symm)⟩
  apply Option.isSome_iff_ne_none.mpr
  intro absent
  exact find?_eq_none_iff.mp absent ⟨way, dirty, pinned⟩ here

end CacheSet

namespace Cache
variable {c start : Cache} {config : Config} {address : UInt64} {write : Bool}

/-- What an access answers, and the cache after it, as the ways of one set before it tell. -/
structure AccessLaw (config : Config) (c : Cache) (address : UInt64) (write : Bool)
    (result : Except CacheError Access) (after : Cache) : Prop where
  /-- It hits exactly when the line is there. -/
  hits : (∃ a, result = .ok a ∧ a.hit = true) ↔ c.contains address = true
  /-- A hit may make its line dirty and tell the policy, and leaves the set as it was. -/
  hit : ∀ a, result = .ok a → a.hit = true → a.evicted = none ∧
    ∃ w, (c.setOf address).way? a.way = some w ∧
      after.setOf address = { c.setOf address with
        slots := (c.setOf address).slots.set a.way { w with dirty := w.dirty || write }
        policy := (after.setOf address).policy }
  /-- A line that is not there takes the first free way, if there is one. -/
  fill : c.contains address = false → ¬ (c.setOf address).Full →
    ∃ way, (c.setOf address).FirstFree way ∧
      result = .ok { hit := false, set := (c.locate address).1, way, evicted := none }
  /-- In a full set it takes the way of a line that is not pinned. -/
  replace : c.contains address = false → (c.setOf address).Full →
    (∃ way w, (c.setOf address).way? way = some w ∧ w.pinned = false) →
    ∃ way w, (c.setOf address).way? way = some w ∧ w.pinned = false ∧
      result = .ok { hit := false, set := (c.locate address).1, way
                     evicted := some { way, tag := w.tag, dirty := w.dirty } }
  /-- In a set full of pinned lines it fails. -/
  exhausted : c.contains address = false →
    (∀ way w, (c.setOf address).way? way = some w → w.valid = true ∧ w.pinned = true) →
    result = .error (.exhausted config.ways.toNat)
  /-- When it succeeds, the line is in the way that it names, alone of all ways changed. -/
  placed : ∀ a, result = .ok a → a.set = (c.locate address).1 ∧ after.contains address = true ∧
    (∃ w, (after.setOf address).way? a.way = some w ∧ w.valid = true ∧
      w.tag = (c.locate address).2 ∧ (a.hit = false → w.dirty = write ∧ w.pinned = false)) ∧
    ∀ other, other ≠ a.way → (after.setOf address).way? other = (c.setOf address).way? other
  /-- No other set is changed. -/
  elsewhere : ∀ index, index ≠ (c.locate address).1 → after.sets[index]? = c.sets[index]?
  /-- Nor is the shape of the cache. -/
  shape : after.cacheType = c.cacheType ∧ after.lineBytes = c.lineBytes ∧
    after.sets.size = c.sets.size

/-- A line that was put for an address is where the access says, alone of all ways changed. -/
theorem placed_update {way : Nat} {dirty pinned hit : Bool} (inside : way < (c.setOf address).ways)
    (policy : Policy) (count : Stats) (told : hit = false → dirty = write ∧ pinned = false) :
    let t := ((c.setOf address).put (c.locate address).2 way dirty pinned).withPolicy policy
    let after := c.update address t count
    after.contains address = true ∧
    (∃ w, (after.setOf address).way? way = some w ∧ w.valid = true ∧
      w.tag = (c.locate address).2 ∧ (hit = false → w.dirty = write ∧ w.pinned = false)) ∧
    ∀ other, other ≠ way → (after.setOf address).way? other = (c.setOf address).way? other := by
  intro t after
  obtain ⟨here, found, others⟩ :=
    CacheSet.way?_put inside (c.locate address).2 dirty pinned policy
  have same : after.setOf address = t := setOf_update ..
  rw [contains, find?, same, locate_update]
  exact ⟨found, ⟨_, here, rfl, rfl, told⟩, others⟩

theorem not_contains_of_find? (absent : (c.setOf address).find? (c.locate address).2 = none) :
    ¬ c.contains address = true := by
  simp [contains, find?, absent]

theorem no_hit_of_ok {answer : Except CacheError Access} {a : Access} (answered : answer = .ok a)
    (missed : a.hit = false) : ¬ ∃ a, answer = .ok a ∧ a.hit = true := by
  rintro ⟨other, rfl, hit⟩
  cases answered
  exact Bool.eq_false_iff.mp missed hit

/-- The law holds of each of the four effects that an access can have on its set. -/
theorem accessLaw_of_effect {response : Response} {result : Except CacheError Placement}
    {answer : Except CacheError Access}
    (effect : (c.setOf address).Effect (c.locate address).2 (.access write) response)
    (replied : response.reply = .placed result)
    (answered : answer = result.map fun p =>
      { hit := p.hit, set := (c.locate address).1, way := p.way, evicted := p.evicted })
    (ways : (c.setOf address).ways = config.ways.toNat) :
    AccessLaw config c address write answer (c.update address response.set response.count) := by
  have elsewhere : ∀ index, index ≠ (c.locate address).1 →
      (c.update address response.set response.count).sets[index]? = c.sets[index]? := by
    intro index apart
    rw [getElem?_sets_update, if_neg apart]
  have size : (c.update address response.set response.count).sets.size = c.sets.size := by
    simp only [update, Array.size_set]
  cases effect with
  | hit line found held =>
    cases replied
    have there : c.contains address = true := Option.isSome_of_eq_some found
    have present : c.contains address ≠ false := Bool.ne_false_iff.mpr there
    exact {
      hits := iff_of_true ⟨_, answered, rfl⟩ there
      hit := by
        rintro a rfl -
        cases answered
        refine ⟨rfl, _, held, ?_⟩
        rw [setOf_update]
        rfl
      fill := fun absent => absurd absent present
      replace := fun absent => absurd absent present
      exhausted := fun absent => absurd absent present
      placed := by
        rintro a rfl
        cases answered
        exact ⟨rfl, placed_update held.inside _ _ (by rintro ⟨⟩)⟩
      elsewhere
      shape := ⟨rfl, rfl, size⟩ }
  | fill way w absent free here vacant =>
    cases replied
    have missing := not_contains_of_find? absent
    have missed : ¬ ∃ a, answer = .ok a ∧ a.hit = true := no_hit_of_ok answered rfl
    have unfull : ¬ (c.setOf address).Full := fun full =>
      absurd (full way w here) (Bool.eq_false_iff.mp vacant)
    exact {
      hits := iff_of_false missed missing
      hit := fun a placed hit => absurd ⟨a, placed, hit⟩ missed
      fill := fun _ _ => ⟨way, CacheSet.way?_of_freeWay? free, answered⟩
      replace := fun _ full => absurd full unfull
      exhausted := fun _ pinned => absurd (fun way w here => (pinned way w here).1) unfull
      placed := by
        rintro a rfl
        cases answered
        exact ⟨rfl, placed_update (CacheSet.lt_ways_of_way? here) _ _ fun _ => ⟨rfl, rfl⟩⟩
      elsewhere
      shape := ⟨rfl, rfl, size⟩ }
  | replace old victim absent full chosen held released =>
    cases replied
    have missing := not_contains_of_find? absent
    have missed : ¬ ∃ a, answer = .ok a ∧ a.hit = true := no_hit_of_ok answered rfl
    exact {
      hits := iff_of_false missed missing
      hit := fun a placed hit => absurd ⟨a, placed, hit⟩ missed
      fill := fun _ unfull => absurd (CacheSet.freeWay?_eq_none_iff.mp full) unfull
      replace := fun _ _ _ => ⟨_, _, held, released, answered⟩
      exhausted := fun _ pinned => absurd (pinned _ _ held).2 (Bool.eq_false_iff.mp released)
      placed := by
        rintro a rfl
        cases answered
        exact ⟨rfl, placed_update (c := c) held.inside _ _ fun _ => ⟨rfl, rfl⟩⟩
      elsewhere
      shape := ⟨rfl, rfl, size⟩ }
  | exhausted absent full none_open =>
    cases replied
    have missing := not_contains_of_find? absent
    exact {
      hits := by
        refine iff_of_false ?_ missing
        rintro ⟨a, rfl, -⟩
        cases answered
      hit := by
        rintro a rfl
        cases answered
      fill := fun _ unfull => absurd (CacheSet.freeWay?_eq_none_iff.mp full) unfull
      replace := by
        rintro _ all ⟨way, w, here, released⟩
        have open_way : (c.setOf address).view way = true :=
          CacheSet.view_eq_true_iff.mpr ⟨w, here, all way w here, released⟩
        exact absurd open_way
          (Bool.eq_false_iff.mp (none_open way (CacheSet.lt_ways_of_way? here)))
      exhausted := by
        intro _ _
        rw [← ways]
        exact answered
      placed := by
        rintro a rfl
        cases answered
      elsewhere
      shape := ⟨rfl, rfl, size⟩ }

/-- Whatever was done to a cache since it was built from a configuration, an access to any
address follows the law. -/
theorem accesses_follow_the_law (built : ofConfig config = .ok start) (ops : List Op)
    (address : UInt64) (write : Bool) :
    let c := (start.run ops).2
    AccessLaw config c address write (c.access address write).1 (c.access address write).2 := by
  intro c
  have kept := (kept_of_run built ops).setOf address
  have effect := CacheSet.effect_access kept.sound.fits (c.locate address).2 write
  exact accessLaw_of_effect effect rfl rfl kept.ways

/-- Of two lines, of which the first to come is pinned, the other gives way to a third. -/
theorem third_line_takes_the_way_not_pinned :
    ∃ start, ofConfig Config.pair = .ok start ∧
      let c := (start.run [.access 0 false, .access 64 true, .pin 0]).2
      c.contains 128 = false ∧
      (c.access 128 true).1 = .ok
        { hit := false, set := 0, way := 1, evicted := some { way := 1, tag := 1, dirty := true } } ∧
      AccessLaw Config.pair c 128 true (c.access 128 true).1 (c.access 128 true).2 :=
  ⟨_, rfl, rfl, rfl, accesses_follow_the_law (rfl : ofConfig Config.pair = .ok _)
    [.access 0 false, .access 64 true, .pin 0] 128 true⟩

end Cache

end SetAssociative
