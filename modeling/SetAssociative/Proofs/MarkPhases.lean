import Mathlib.Data.List.Induction
import SetAssociative.Proofs.MarkedWays
import SetAssociative.Replacement.Events

/-! One discipline takes all other marks away when a use would leave no way without a mark. Its
marks cut the uses into phases: a phase goes on as long as some way is not used in it, and the
marked ways are those used in the current phase. -/
namespace SetAssociative

/-- Uses of ways, cut into phases. The newest phase comes first, and in it the newest use. -/
abbrev Phases := List (List Nat)

namespace Phases
variable {p : Phases} {ways way other : Nat} {uses more : List Nat}

/-- The ways used in the newest phase. -/
def current (p : Phases) : List Nat := p.headD []

/-- Phases with one use more. It belongs to the newest phase, unless every way below the bound
would then have been used in it: such a use begins the next phase. -/
def extend (ways : Nat) (p : Phases) (way : Nat) : Phases :=
  match p with
  | [] => [[way]]
  | newest :: earlier =>
    if ∀ other < ways, other ∈ way :: newest then [way] :: newest :: earlier
    else (way :: newest) :: earlier

/-- The phases of some uses, the first use first. -/
def ofUses (ways : Nat) (uses : List Nat) : Phases := uses.foldl (extend ways) []

theorem ofUses_concat (ways : Nat) (uses : List Nat) (way : Nat) :
    ofUses ways (uses ++ [way]) = (ofUses ways uses).extend ways way := by
  rw [ofUses, List.foldl_append]
  rfl

theorem flatten_extend (p : Phases) : (p.extend ways way).flatten = way :: p.flatten := by
  cases p with
  | nil => rfl
  | cons newest earlier =>
    rw [extend]
    split <;> rfl

/-- No use is lost between the phases. -/
theorem flatten_ofUses (ways : Nat) (uses : List Nat) :
    (ofUses ways uses).flatten = uses.reverse := by
  induction uses using List.reverseRecOn with
  | nil => rfl
  | append_singleton uses way ih =>
    rw [ofUses_concat, flatten_extend, ih, List.reverse_append]
    rfl

theorem current_extend (p : Phases) :
    (p.extend ways way).current =
      if ∀ other < ways, other ∈ way :: p.current then [way] else way :: p.current := by
  cases p with
  | nil => exact (ite_self _).symm
  | cons newest earlier =>
    rw [extend]
    split
    · exact (if_pos ‹_›).symm
    · exact (if_neg ‹_›).symm

/-- A way stays in the newest phase as long as another one is left for it. -/
theorem mem_current_extend (p : Phases) :
    other ∈ (p.extend ways way).current ↔
      other = way ∨ other ∈ p.current ∧ ∃ spare < ways, spare ≠ way ∧ spare ∉ p.current := by
  rw [current_extend]
  split
  · rename_i all
    rw [List.mem_singleton]
    refine ⟨.inl, fun member => member.resolve_right ?_⟩
    rintro ⟨-, spare, inside, apart, unused⟩
    exact (List.mem_cons.mp (all spare inside)).elim apart unused
  · rename_i some_spare
    have left : ∃ spare < ways, spare ≠ way ∧ spare ∉ p.current := by
      simpa only [not_forall, List.mem_cons, not_or, exists_prop] using some_spare
    rw [List.mem_cons]
    exact or_congr_right (and_iff_left left).symm

theorem mem_current_concat (ways : Nat) (uses : List Nat) (way : Nat) :
    way ∈ (ofUses ways (uses ++ [way])).current := by
  rw [ofUses_concat, mem_current_extend]
  exact .inl rfl

theorem mem_of_mem_current (member : way ∈ (ofUses ways uses).current) : way ∈ uses := by
  rw [← List.mem_reverse, ← flatten_ofUses ways]
  cases found : ofUses ways uses with
  | nil =>
    rw [found] at member
    cases member
  | cons newest earlier =>
    rw [found] at member
    exact List.mem_append_left _ member

/-- Of several ways, one is always left for the newest phase. -/
theorem exists_spare (several : 2 ≤ ways) (uses : List Nat) :
    ∃ way < ways, way ∉ (ofUses ways uses).current := by
  induction uses using List.reverseRecOn with
  | nil => exact ⟨0, Nat.zero_lt_of_lt several, List.not_mem_nil⟩
  | append_singleton uses way ih =>
    simp only [ofUses_concat, mem_current_extend]
    by_cases left : ∃ spare < ways, spare ≠ way ∧ spare ∉ (ofUses ways uses).current
    · obtain ⟨spare, inside, apart, unused⟩ := left
      exact ⟨spare, inside, fun member => member.elim apart fun rest => unused rest.1⟩
    · have another : ∃ other < ways, other ≠ way :=
        ⟨if way = 0 then 1 else 0, by split <;> omega, by split <;> omega⟩
      obtain ⟨other, inside, apart⟩ := another
      exact ⟨other, inside, fun member => member.elim apart fun rest => left rest.2⟩

/-- A use begins a phase, or it leaves the ways of the newest phase in it. -/
theorem length_lt_extend_or_mem (p : Phases) (member : other ∈ p.current) :
    p.length < (p.extend ways way).length ∨ other ∈ (p.extend ways way).current := by
  cases p with
  | nil => cases member
  | cons newest earlier =>
    rw [extend]
    split
    · exact .inl (Nat.lt_succ_self _)
    · exact .inr (List.mem_cons_of_mem _ member)

theorem length_le_extend (p : Phases) (ways way : Nat) : p.length ≤ (p.extend ways way).length := by
  cases p with
  | nil => exact Nat.zero_le _
  | cons newest earlier =>
    rw [extend]
    split
    · exact Nat.le_succ _
    · exact Nat.le_refl _

end Phases

namespace Policy

/-- The way of which an event reports a use, if it is below a bound. -/
def Event.way? (ways : Nat) : Event → Option Nat
  | .used outcome => if outcome.way < ways then some outcome.way else none
  | .asked _ => none

/-- The ways below a bound of which some events report uses, in their order. -/
def usedWays (ways : Nat) (events : List Event) : List Nat := events.filterMap (Event.way? ways)

theorem lt_of_mem_usedWays {ways way : Nat} {events : List Event}
    (member : way ∈ usedWays ways events) : way < ways := by
  obtain ⟨event, -, reported⟩ := List.mem_filterMap.mp member
  cases event with
  | asked view => cases reported
  | used outcome =>
    rw [Event.way?, Option.ite_none_right_eq_some] at reported
    obtain ⟨inside, same⟩ := reported
    exact Option.some.inj same ▸ inside

end Policy

namespace Marks
open Policy (Event usedWays)
variable {m : Marks} {ways way : Nat} {uses : List Nat} {view : View}

/-- The marked ways are those used in the newest phase. -/
structure InPhase (ways : Nat) (uses : List Nat) (m : Marks) : Prop where
  ways_eq : m.ways = ways
  marked : ∀ way, m.bits.contains way = true ↔ way ∈ (Phases.ofUses ways uses).current

theorem inPhase_unmarked (ways : Nat) : (unmarked ways).InPhase ways [] where
  ways_eq := rfl
  marked := by
    intro way
    simp only [unmarked, WayBits.contains_empty, Phases.ofUses, Phases.current, List.foldl_nil,
      List.headD_nil, List.not_mem_nil, Bool.false_eq_true]

/-- A mark begins a phase whenever a use does. -/
theorem InPhase.mark (inPhase : m.InPhase ways uses) (few : ways ≤ 64) (inside : way < ways) :
    (m.markInPhase way).InPhase ways (uses ++ [way]) where
  ways_eq := (m.ways_markInPhase way).trans inPhase.ways_eq
  marked := by
    intro other
    have unmarked : ∀ spare, m.bits.contains spare = false ↔
        spare ∉ (Phases.ofUses ways uses).current := by
      intro spare
      rw [← inPhase.marked, Bool.not_eq_true]
    obtain ⟨rfl, marked⟩ := inPhase
    rw [contains_markInPhase few inside, Phases.ofUses_concat, Phases.mem_current_extend]
    simp only [marked, unmarked]

theorem InPhase.run (inPhase : m.InPhase ways uses) (few : ways ≤ 64) (events : List Event) :
    ∃ n, ((Policy.plru m).run events).2 = .plru n ∧
      n.InPhase ways (uses ++ usedWays ways events) := by
  induction events generalizing m uses with
  | nil => exact ⟨m, rfl, by rwa [usedWays, List.filterMap_nil, List.append_nil]⟩
  | cons event events ih =>
    cases event with
    | asked view =>
      have same : ((Policy.plru m).step (.asked view)).2 = .plru m := Policy.selectVictim_snd ..
      rw [Policy.run, same]
      exact ih inPhase
    | used outcome =>
      have after : ((Policy.plru m).step (.used outcome)).2 = .plru (m.markInPhase outcome.way) :=
        rfl
      rw [Policy.run, after]
      by_cases inside : outcome.way < ways
      · have reported : usedWays ways (.used outcome :: events) =
            outcome.way :: usedWays ways events :=
          List.filterMap_cons_some (if_pos inside)
        rw [reported, List.append_cons]
        exact ih (inPhase.mark few inside)
      · have unreported : usedWays ways (.used outcome :: events) = usedWays ways events :=
          List.filterMap_cons_none (if_neg inside)
        have unchanged : m.markInPhase outcome.way = m := if_neg (inPhase.ways_eq.symm ▸ inside)
        rw [unreported, unchanged]
        exact ih inPhase

/-- When every way is evictable, the lowest way not used in the newest phase is found. -/
theorem InPhase.firstUnmarked (inPhase : m.InPhase ways uses) (several : 2 ≤ ways)
    (all_open : ∀ way < ways, view way = true) :
    ∃ way, m.firstUnmarked view = some way ∧
      IsLeast {way | way < ways ∧ way ∉ (Phases.ofUses ways uses).current} way := by
  obtain ⟨rfl, marked⟩ := inPhase
  cases found : m.firstUnmarked view with
  | none =>
    obtain ⟨spare, inside, unused⟩ := Phases.exists_spare several uses
    have used := firstUnmarked_eq_none_iff.mp found spare inside (all_open spare inside)
    exact absurd ((marked spare).mp used) unused
  | some way =>
    obtain ⟨⟨inside, -, clear⟩, least⟩ := firstUnmarked_eq_some_iff.mp found
    rw [← Bool.not_eq_true, marked] at clear
    refine ⟨way, rfl, ⟨inside, clear⟩, fun other also => ?_⟩
    refine least ⟨also.1, all_open other also.1, ?_⟩
    rw [← Bool.not_eq_true, marked]
    exact also.2

/-- What the marks come to after some uses of ways. -/
structure FollowsPhases (ways : Nat) (uses : List Nat) (m : Marks) : Prop where
  /-- The marked ways are those used in the newest phase. -/
  marked : ∀ way, m.bits.contains way = true ↔ way ∈ (Phases.ofUses ways uses).current
  /-- No bit is set that stands for no way. -/
  inside : ∀ way, m.bits.contains way = true → way < ways
  /-- The way used last is marked. -/
  latest : ∀ way, uses.getLast? = some way → m.bits.contains way = true
  /-- Not every way is marked. -/
  spare : ∃ way < ways, m.bits.contains way = false
  /-- When every way is evictable, the victim is the lowest way that was not used in the newest
  phase, and never the way used last. A search changes no mark. -/
  victim : ∀ view : View, (∀ way < ways, view way = true) →
    ∃ way, (Policy.plru m).selectVictim view = (.ok way, .plru m) ∧
      IsLeast {way | way < ways ∧ way ∉ (Phases.ofUses ways uses).current} way ∧
      uses.getLast? ≠ some way
  /-- A word of 64 bits may be marked and compared without a shift past its end. -/
  fits : ∀ way, m.markInPhaseChecked way = .ok (m.markInPhase way)

/-- The way used last is in the newest phase. -/
theorem InPhase.contains_latest (inPhase : m.InPhase ways uses) (last : uses.getLast? = some way) :
    m.bits.contains way = true := by
  obtain ⟨before, rfl⟩ := List.getLast?_eq_some_iff.mp last
  exact (inPhase.marked way).mpr (Phases.mem_current_concat ways before way)

theorem InPhase.followsPhases (inPhase : m.InPhase ways uses) (few : ways ≤ 64)
    (several : 2 ≤ ways) (existing : ∀ way ∈ uses, way < ways) : m.FollowsPhases ways uses where
  marked := inPhase.marked
  inside way marked := existing way (Phases.mem_of_mem_current ((inPhase.marked way).mp marked))
  latest _ last := inPhase.contains_latest last
  spare := by
    obtain ⟨spare, inside, unused⟩ := Phases.exists_spare several uses
    exact ⟨spare, inside, Bool.eq_false_iff.mpr (mt (inPhase.marked spare).mp unused)⟩
  victim := by
    intro view all_open
    obtain ⟨way, found, least⟩ := inPhase.firstUnmarked several all_open
    have stale : uses.getLast? ≠ some way := fun last =>
      least.1.2 ((inPhase.marked way).mp (inPhase.contains_latest last))
    refine ⟨way, ?_, least, stale⟩
    simp only [Policy.selectVictim, Policy.search, select, found, Option.some_or]
  fits := markInPhaseChecked_eq (inPhase.ways_eq.symm ▸ few)

end Marks

end SetAssociative
