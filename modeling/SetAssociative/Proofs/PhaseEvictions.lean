import SetAssociative.Proofs.EvictionOrder
import SetAssociative.Proofs.MarkPhases
import SetAssociative.Proofs.SetProjection
import SetAssociative.Proofs.UnpinnedSets

/-! Where nothing is pinned, a line that was used in the current phase of its set has a marked
way, and a full set always has a way without a mark. So a line is safe for the rest of the phase
in which it was last used. -/
namespace SetAssociative

namespace CacheSet
variable {s t : CacheSet} {m : Marks} {tag other way : Nat} {dirty pinned : Bool} {line kept : Line}

/-- A line that is held after another was put was held before, unless it is the one put. -/
theorem holds_of_put (inside : way < s.ways) (alone : ∀ kept, s.Holds tag kept → kept.way = way)
    (after : (s.put tag way dirty pinned).Holds other kept) :
    (other = tag ∧ kept.way = way) ∨ (other ≠ tag ∧ s.Holds other kept) := by
  rcases (holds_put inside).mp after with ⟨same, rfl⟩ | ⟨elsewhere, before⟩
  · exact .inl ⟨same, rfl⟩
  · refine .inr ⟨?_, before⟩
    rintro rfl
    exact elsewhere (alone kept before)

/-- What an access does to a set that marks its ways and has nothing pinned. -/
structure Marking (s : CacheSet) (m : Marks) (tag : Nat) (p : Placement) (t : CacheSet) :
    Prop where
  inside : p.way < s.ways
  /-- The way of the line gets its mark. -/
  policy : t.policy = .plru (m.markInPhase p.way)
  /-- The line is in that way, and no other line has come or moved. -/
  held : ∀ {other kept}, t.Holds other kept →
    (other = tag ∧ kept.way = p.way) ∨ (other ≠ tag ∧ s.Holds other kept)
  /-- A line that had to leave was selected when every way was evictable. -/
  evicts : ∀ evicted, p.evicted = some evicted →
    ∃ line, s.Holds evicted.tag line ∧ m.select s.view = some line.way ∧
      ∀ way < s.ways, s.view way = true

theorem Unpinned.marking (unpinned : s.Unpinned) (marks : s.policy = .plru m) (tag : Nat)
    (write : Bool) :
    ∃ p, (s.serve tag (.access write)).reply = .placed (.ok p) ∧
      s.Marking m tag p (s.serve tag (.access write)).set := by
  have tidy := unpinned.sound.tidy
  have effect := effect_serve unpinned.sound.fits tag (.access write)
  generalize s.serve tag (.access write) = response at effect
  cases effect with
  | hit line found held =>
    refine ⟨_, rfl, held.inside, by rw [marks]; rfl, ?_, fun evicted left => by cases left⟩
    exact fun after => holds_of_put held.inside (tidy.alone_of_holds held) after
  | fill way w absent free here vacant =>
    have inside := lt_ways_of_way? here
    refine ⟨_, rfl, inside, by rw [marks]; rfl, ?_, fun evicted left => by cases left⟩
    exact fun after => holds_of_put inside (alone_of_find? absent) after
  | replace old victim absent full chosen held released =>
    rw [marks] at chosen
    refine ⟨_, rfl, held.inside, by rw [marks]; rfl, ?_, ?_⟩
    · exact fun after => holds_of_put held.inside (alone_of_find? absent) after
    · intro evicted left
      cases left
      exact ⟨victim, held, chosen, fun way inside => unpinned.view_of_full full inside⟩
  | exhausted absent full none_open => exact absurd none_open (unpinned.not_closed full)

end CacheSet

namespace Cache
variable {c start : Cache} {config : Config} {events : History} {locate : UInt64 → Nat × Nat}
  {ways index : Nat} {s t : CacheSet} {address : UInt64} {write : Bool} {a : Access}

/-- The way of a set in which an event found or put a line. -/
def wayUsed? (locate : UInt64 → Nat × Nat) (index : Nat) : Op × Answer → Option Nat
  | (.access address _, .accessed (.ok a)) =>
    if (locate address).1 = index then some a.way else none
  | _ => none

/-- The phases into which the uses of the ways of a set are cut. -/
def History.phases (events : History) (locate : UInt64 → Nat × Nat) (ways index : Nat) : Phases :=
  .ofUses ways (events.filterMap (wayUsed? locate index))

theorem phases_concat_of_here (here : (locate address).1 = index) :
    History.phases (events ++ [(.access address write, .accessed (.ok a))]) locate ways index =
      (events.phases locate ways index).extend ways a.way := by
  have used : wayUsed? locate index (.access address write, .accessed (.ok a)) = some a.way :=
    if_pos here
  rw [History.phases, List.filterMap_append, List.filterMap_cons_some used]
  exact Phases.ofUses_concat ..

theorem phases_concat_of_elsewhere (elsewhere : (locate address).1 ≠ index) :
    History.phases (events ++ [(.access address write, .accessed (.ok a))]) locate ways index =
      events.phases locate ways index := by
  have unused : wayUsed? locate index (.access address write, .accessed (.ok a)) = none :=
    if_neg elsewhere
  rw [History.phases, List.filterMap_append, List.filterMap_cons_none unused, List.filterMap_nil,
    List.append_nil]
  rfl

/-- When a line was last used: at which event, and in a phase that is over unless its way was
used in the current one. -/
def History.Recalls (events : History) (locate : UInt64 → Nat × Nat) (ways : Nat)
    (key : Nat × Nat) (way : Nat) : Prop :=
  ∃ i < events.length, events.lastUse? locate (fun _ => true) key = some i ∧
    let last := History.phases (events.take (i + 1)) locate ways key.1
    let now := events.phases locate ways key.1
    last.length < now.length ∨ last.length ≤ now.length ∧ way ∈ now.current

/-- The line of an access is used now. -/
theorem recalls_used (address : UInt64) (write : Bool) (a : Access) :
    History.Recalls (events ++ [(.access address write, .accessed (.ok a))]) locate ways
      (locate address) a.way := by
  refine ⟨events.length, by simp, ?_, .inr ⟨?_, ?_⟩⟩
  · rw [lastUse?_concat]
    exact if_pos (by simp [usesLine])
  · refine Nat.le_of_eq ?_
    rw [List.take_of_length_le (by simp)]
  · rw [phases_concat_of_here rfl, Phases.mem_current_extend]
    exact .inl rfl

/-- Another line was last used when it was before. -/
theorem History.Recalls.concat {key : Nat × Nat} {way : Nat}
    (recalls : events.Recalls locate ways key way) (apart : locate address ≠ key) :
    History.Recalls (events ++ [(.access address write, .accessed (.ok a))]) locate ways key
      way := by
  obtain ⟨i, early, last, rest⟩ := recalls
  refine ⟨i, ?_, ?_, ?_⟩
  · rw [List.length_append]
    exact Nat.lt_add_right _ early
  · rw [lastUse?_concat, last]
    exact if_neg (by simp [usesLine, apart])
  · rw [List.take_append_of_le_length early]
    by_cases here : (locate address).1 = key.1
    · rw [phases_concat_of_here here]
      have grows := (events.phases locate ways key.1).length_le_extend ways a.way
      rcases rest with ended | ⟨lasts, member⟩
      · exact .inl (Nat.lt_of_lt_of_le ended grows)
      · exact ((events.phases locate ways key.1).length_lt_extend_or_mem member).imp
          (Nat.lt_of_le_of_lt lasts) fun member => ⟨Nat.le_trans lasts grows, member⟩
    · rwa [phases_concat_of_elsewhere here]

/-- A set of a cache that has seen accesses only. -/
structure Phased (locate : UInt64 → Nat × Nat) (ways : Nat) (events : History) (index : Nat)
    (s : CacheSet) : Prop where
  unpinned : s.Unpinned
  ways_eq : s.ways = ways
  marks : ∃ m, s.policy = .plru m ∧
    m.InPhase ways (events.filterMap (wayUsed? locate index))
  recalled : ∀ {tag line}, s.Holds tag line → events.Recalls locate ways (index, tag) line.way

/-- An access leaves another set aside. -/
theorem Phased.aside (phased : Phased locate ways events index s)
    (elsewhere : (locate address).1 ≠ index) :
    Phased locate ways (events ++ [(.access address write, .accessed (.ok a))]) index s where
  unpinned := phased.unpinned
  ways_eq := phased.ways_eq
  marks := by
    have unused : wayUsed? locate index (.access address write, .accessed (.ok a)) = none :=
      if_neg elsewhere
    rw [List.filterMap_append, List.filterMap_cons_none unused, List.filterMap_nil,
      List.append_nil]
    exact phased.marks
  recalled held := (phased.recalled held).concat fun here => elsewhere (congrArg Prod.fst here)

/-- An access to a set uses a way and marks it, and recalls its line from then on. -/
theorem Phased.use {m : Marks} {p : Placement}
    (phased : Phased locate ways events (locate address).1 s) (few : ways ≤ 64)
    (marks : s.policy = .plru m) (marking : s.Marking m (locate address).2 p t)
    (unpinned : t.Unpinned) (same : t.ways = s.ways) (way : a.way = p.way) :
    Phased locate ways (events ++ [(.access address write, .accessed (.ok a))])
      (locate address).1 t where
  unpinned := unpinned
  ways_eq := same.trans phased.ways_eq
  marks := by
    obtain ⟨n, policy, inPhase⟩ := phased.marks
    obtain rfl := Policy.plru.inj (marks.symm.trans policy)
    have used : wayUsed? locate (locate address).1 (.access address write, .accessed (.ok a)) =
        some p.way := (if_pos rfl).trans (congrArg some way)
    rw [List.filterMap_append, List.filterMap_cons_some used]
    exact ⟨_, marking.policy, inPhase.mark few (phased.ways_eq ▸ marking.inside)⟩
  recalled := by
    intro other line held
    rcases marking.held held with ⟨rfl, here⟩ | ⟨apart, before⟩
    · rw [here, ← way]
      exact recalls_used address write a
    · exact (phased.recalled before).concat fun here => apart (congrArg Prod.snd here).symm

theorem phased_step (everywhere : c.Everywhere (Phased c.locate ways events)) (few : ways ≤ 64)
    (address : UInt64) (write : Bool) :
    (c.step (.access address write)).2.Everywhere (Phased c.locate ways
      (events ++ [(.access address write, (c.step (.access address write)).1)])) := by
  have asked : Op.request? (.access address write) = some (address, .access write) := rfl
  have phased := Everywhere.setOf everywhere address
  obtain ⟨m, marks, -⟩ := phased.marks
  obtain ⟨p, replied, marking⟩ := phased.unpinned.marking marks (c.locate address).2 write
  have answered : (c.step (.access address write)).1 = .accessed (.ok
      { hit := p.hit, set := (c.locate address).1, way := p.way, evicted := p.evicted }) :=
    congrArg Answer.accessed (access_of_placed replied)
  rw [answered]
  intro index s there
  rw [step_of_request? asked, getElem?_sets_update] at there
  split at there
  · rename_i here
    cases there
    subst here
    exact phased.use few marks marking (phased.unpinned.serve _ rfl) (CacheSet.ways_serve ..) rfl
  · rename_i elsewhere
    exact (everywhere index s there).aside (Ne.symm elsewhere)

/-- Marks and phases go together in all sets through every run of accesses. -/
theorem phased_run (everywhere : c.Everywhere (Phased c.locate ways events)) (few : ways ≤ 64)
    (uses : List (UInt64 × Bool)) :
    (c.run (accesses uses)).2.Everywhere
      (Phased c.locate ways (events ++ c.history (accesses uses))) := by
  induction uses generalizing c events with
  | nil =>
    rw [accesses, List.map_nil, history, List.zip_nil_left, List.append_nil]
    exact everywhere
  | cons use uses ih =>
    have same : (c.step (.access use.1 use.2)).2.locate = c.locate :=
      funext fun address => c.locate_step _ address
    have next := phased_step everywhere few use.1 use.2
    rw [← same] at next
    have last := ih next
    rw [same, List.append_assoc] at last
    exact last

theorem phased_of_ofConfig (built : ofConfig config = .ok start) (plru : config.policy = .plru) :
    start.Everywhere (Phased start.locate config.ways.toNat []) := by
  obtain ⟨g, sound, -, fresh⟩ := of_ofConfig built
  intro index s there
  obtain ⟨unpinned, -, -, ways⟩ := fresh_of_ofConfig built index s there
  refine ⟨unpinned, ways, ⟨.unmarked g.ways, ?_, ?_⟩, fun held => ?_⟩
  · rw [fresh index s there, CacheSet.ofGeometry, plru]
    rfl
  · rw [← (Config.of_geometry sound).1]
    exact Marks.inPhase_unmarked g.ways
  · rw [fresh index s there] at held
    exact absurd held CacheSet.not_holds_empty

/-- A line that is evicted was last used in a phase that is over. -/
theorem Phased.length_lt_of_evicted (phased : Phased c.locate ways events (c.locate address).1
      (c.setOf address)) (several : 2 ≤ ways) {evicted : Evicted}
    (answered : (c.access address write).1 = .ok a) (left : a.evicted = some evicted) :
    ∃ i, events.lastUse? c.locate (fun _ => true) ((c.locate address).1, evicted.tag) = some i ∧
      (History.phases (events.take (i + 1)) c.locate ways (c.locate address).1).length <
        (events.phases c.locate ways (c.locate address).1).length := by
  obtain ⟨m, marks, inPhase⟩ := phased.marks
  obtain ⟨p, replied, marking⟩ := phased.unpinned.marking marks (c.locate address).2 write
  have placed := (access_of_placed replied).symm.trans answered
  cases placed
  obtain ⟨line, held, selected, all_open⟩ := marking.evicts evicted left
  obtain ⟨spare, found, least⟩ := inPhase.firstUnmarked several (phased.ways_eq ▸ all_open)
  have unmarked : spare = line.way := by
    rw [Marks.select, found, Option.some_or] at selected
    exact Option.some.inj selected
  obtain ⟨i, -, last, phases⟩ := phased.recalled held
  exact ⟨i, last, phases.resolve_right fun rest => least.1.2 (unmarked ▸ rest.2)⟩

/-- Whatever was reported and asked, the marks of a policy are those of the current phase of its
uses. In a cache that was only accessed the same holds of every set, and a line is evicted only
when the phase is over in which it was last used. -/
theorem lines_outlive_their_phase :
    (∀ (ways : Nat) (seed : UInt64) (events : List Policy.Event), 2 ≤ ways → ways ≤ maxWays →
      ∃ m, ((Policy.fresh .plru ways seed).run events).2 = .plru m ∧
        m.FollowsPhases ways (Policy.usedWays ways events)) ∧
    ∀ (config : Config) (start : Cache), ofConfig config = .ok start → config.policy = .plru →
      2 ≤ config.ways.toNat → ∀ (uses : List (UInt64 × Bool)) (address : UInt64),
      let c := (start.run (accesses uses)).2
      let events := start.history (accesses uses)
      let phasesOf (past : History) :=
        past.phases start.locate config.ways.toNat (start.locate address).1
      (∃ m, (c.setOf address).policy = .plru m ∧
        ∀ way, m.bits.contains way = true ↔ way ∈ (phasesOf events).current) ∧
      ∀ write a evicted, (c.access address write).1 = .ok a → a.evicted = some evicted →
        ∃ i, events.lastUse? start.locate (fun _ => true)
            ((start.locate address).1, evicted.tag) = some i ∧
          (phasesOf (events.take (i + 1))).length < (phasesOf events).length := by
  constructor
  · intro ways seed events several few
    obtain ⟨m, after, inPhase⟩ := (Marks.inPhase_unmarked ways).run few events
    rw [List.nil_append] at inPhase
    exact ⟨m, after, inPhase.followsPhases few several fun _ => Policy.lt_of_mem_usedWays⟩
  · intro config start built plru several uses address c events phasesOf
    have few : config.ways.toNat ≤ 64 := by
      obtain ⟨g, sound, -, -⟩ := of_ofConfig built
      rw [← (Config.of_geometry sound).1]
      exact g.ways_le
    have phased : Phased start.locate config.ways.toNat events (start.locate address).1
        (c.setOf address) := by
      have all := phased_run (phased_of_ofConfig built plru) few uses
      have here := Everywhere.setOf all address
      rwa [locate_run] at here
    obtain ⟨m, marks, inPhase⟩ := phased.marks
    refine ⟨⟨m, marks, inPhase.marked⟩, fun write a evicted answered left => ?_⟩
    have same : c.locate = start.locate := funext fun place => start.locate_run _ place
    rw [← same] at phased
    have ended := phased.length_lt_of_evicted several answered left
    rwa [same] at ended

/-- The line of the second way begins a phase, in which the line of the first has to leave. The
last of 64 ways is marked like any other, and a way past it is not. -/
theorem first_line_of_pair_leaves_in_the_second_phase :
    (∃ m, ((Policy.fresh .plru 64 0).run [.used (.hit 63), .asked fun _ => true,
        .used (.fill 64)]).2 = .plru m ∧ m.FollowsPhases 64 [63]) ∧
    ∃ start, ofConfig { Config.pair with policy := .plru } = .ok start ∧
      let events := start.history (accesses [(0, true), (64, false)])
      ∃ i, events.lastUse? start.locate (fun _ => true) (0, 0) = some i ∧
        (History.phases (events.take (i + 1)) start.locate 2 0).length <
          (events.phases start.locate 2 0).length := by
  obtain ⟨policies, caches⟩ := lines_outlive_their_phase
  refine ⟨policies 64 0 _ (by decide) (by decide), _, rfl, ?_⟩
  exact (caches _ _ (rfl : ofConfig { Config.pair with policy := .plru } = .ok _) rfl (by decide)
    [(0, true), (64, false)] 128).2 false _ { way := 0, tag := 0, dirty := true } rfl rfl

end Cache

end SetAssociative
