import SetAssociative.Proofs.MarkedWays
import SetAssociative.Replacement.Events

/-! The other discipline with marks takes them all away when a search finds no evictable way
without one. What is marked and what a search finds can be told from the events alone: from the
ways that were used since the last request for which no unused way was left. -/
namespace SetAssociative

/-- Whether no evictable way is left that was not used. -/
def View.Clears (view : View) (ways : Nat) (used : List Nat) : Prop :=
  ∀ way < ways, view way = true → way ∈ used

instance (view : View) (ways : Nat) (used : List Nat) : Decidable (view.Clears ways used) :=
  inferInstanceAs (Decidable (∀ way < ways, view way = true → way ∈ used))

namespace Policy

/-- The ways used since the last clearing request, after one event more. -/
def Event.useSince (ways : Nat) (used : List Nat) : Event → List Nat
  | .used outcome => outcome.way :: used
  | .asked view => if view.Clears ways used then [] else used

/-- The ways used since the last request that cleared, the latest first. A request clears if
every evictable way was used since the one that cleared before it. -/
def usedSinceClearing (ways : Nat) (events : List Event) : List Nat :=
  events.foldl (Event.useSince ways) []

/-- A request is answered as the search among the marks ends. -/
theorem selectVictim_nru (m : Marks) (view : View) :
    (Policy.nru m).selectVictim view =
      ((m.selectClearing view).1.elim (.error (.exhausted m.ways)) .ok,
        .nru (m.selectClearing view).2) := by
  simp only [selectVictim, search]
  cases (m.selectClearing view).1 <;> rfl

end Policy

namespace Marks
open Policy (Event)
variable {m : Marks} {ways way : Nat} {used : List Nat} {view : View}

theorem selectClearing_of_some (found : m.firstUnmarked view = some way) :
    m.selectClearing view = (some way, m) := by
  rw [selectClearing, found]

theorem selectClearing_of_none (missing : m.firstUnmarked view = none) :
    m.selectClearing view = (m.first view, unmarked m.ways) := by
  rw [selectClearing, missing]

/-- To search again right after a search finds the same and changes nothing. -/
theorem selectClearing_again (m : Marks) (view : View) :
    (m.selectClearing view).2.selectClearing view = m.selectClearing view := by
  cases found : m.firstUnmarked view with
  | some way => rw [selectClearing_of_some found, selectClearing_of_some found]
  | none =>
    rw [selectClearing_of_none found]
    cases again : (unmarked m.ways).firstUnmarked view with
    | some way =>
      have first : m.first view = some way := (firstUnmarked_unmarked m.ways).symm.trans again
      rw [selectClearing_of_some again, first]
    | none => exact selectClearing_of_none again

/-- What a search finds is not marked after it. -/
theorem isMarked_selectClearing (found : (m.selectClearing view).1 = some way) :
    (m.selectClearing view).2.isMarked way = false := by
  cases first : m.firstUnmarked view with
  | some other =>
    rw [selectClearing_of_some first] at found ⊢
    obtain rfl := Option.some.inj found
    rw [isMarked, (firstUnmarked_eq_some_iff.mp first).1.2.2, Bool.and_false]
  | none =>
    rw [selectClearing_of_none first, isMarked, unmarked, WayBits.contains_empty, Bool.and_false]

/-- The marked ways are those that were used. -/
structure RecordsUses (ways : Nat) (used : List Nat) (m : Marks) : Prop where
  ways_eq : m.ways = ways
  marked : ∀ way < ways, m.bits.contains way = true ↔ way ∈ used

theorem recordsUses_unmarked (ways : Nat) : (unmarked ways).RecordsUses ways [] where
  ways_eq := rfl
  marked := by
    intro way _
    simp only [unmarked, WayBits.contains_empty, List.not_mem_nil, Bool.false_eq_true]

theorem RecordsUses.clears_iff (records : m.RecordsUses ways used) :
    m.firstUnmarked view = none ↔ view.Clears ways used := by
  obtain ⟨rfl, marked⟩ := records
  rw [firstUnmarked_eq_none_iff]
  exact forall₂_congr fun way inside => imp_congr_right fun _ => marked way inside

theorem RecordsUses.mark (records : m.RecordsUses ways used) (few : ways ≤ 64) (way : Nat) :
    (m.mark way).RecordsUses ways (way :: used) where
  ways_eq := (m.ways_mark way).trans records.ways_eq
  marked := by
    intro other inside
    obtain ⟨rfl, marked⟩ := records
    rw [List.mem_cons]
    by_cases here : way < m.ways
    · rw [contains_mark few here, marked other inside]
    · have apart : other ≠ way := fun same => here (same ▸ inside)
      rw [Marks.mark, if_neg here, marked other inside, or_iff_right apart]

/-- A request that clears takes all marks away, and no other request changes them. -/
theorem RecordsUses.selectClearing (records : m.RecordsUses ways used) (view : View) :
    (m.selectClearing view).2.RecordsUses ways (Event.useSince ways used (.asked view)) := by
  rw [Event.useSince]
  cases found : m.firstUnmarked view with
  | some way =>
    have spares : ¬ view.Clears ways used := by
      rw [← records.clears_iff, found]
      exact Option.some_ne_none way
    rw [selectClearing_of_some found, if_neg spares]
    exact records
  | none =>
    rw [selectClearing_of_none found, if_pos (records.clears_iff.mp found), records.ways_eq]
    exact recordsUses_unmarked ways

theorem RecordsUses.run (records : m.RecordsUses ways used) (few : ways ≤ 64)
    (events : List Event) :
    ∃ n, ((Policy.nru m).run events).2 = .nru n ∧
      n.RecordsUses ways (events.foldl (Event.useSince ways) used) := by
  induction events generalizing m used with
  | nil => exact ⟨m, rfl, records⟩
  | cons event events ih =>
    cases event with
    | used outcome => exact ih (records.mark few outcome.way)
    | asked view =>
      have after : ((Policy.nru m).step (.asked view)).2 = .nru (m.selectClearing view).2 :=
        Policy.selectVictim_snd ..
      rw [Policy.run, after]
      exact ih (records.selectClearing view)

/-- What a policy answers from its marks, when some ways were used since the last clearing. -/
structure SecondChance (ways : Nat) (used : List Nat) (m : Marks) : Prop where
  /-- The marked ways are those that were used since then. -/
  marked : ∀ way, m.isMarked way = true ↔ way < ways ∧ way ∈ used
  /-- A request that does not clear is served with the lowest evictable way that was not used,
  and changes nothing. -/
  spares : ∀ view : View, ¬ view.Clears ways used →
    ∃ way, (Policy.nru m).selectVictim view = (.ok way, .nru m) ∧
      IsLeast {way | way < ways ∧ view way = true ∧ way ∉ used} way
  /-- A request that clears is served with the lowest evictable way, or refused if there is none,
  and leaves no way marked. -/
  clears : ∀ view : View, view.Clears ways used →
    ((Policy.nru m).selectVictim view).2 = .nru (unmarked ways) ∧
    ((∃ way, ((Policy.nru m).selectVictim view).1 = .ok way ∧
        IsLeast {way | way < ways ∧ view way = true} way) ∨
      (((Policy.nru m).selectVictim view).1 = .error (.exhausted ways) ∧
        ∀ way < ways, view way = false))
  /-- A victim is not marked. -/
  victim : ∀ view way p, (Policy.nru m).selectVictim view = (.ok way, p) →
    ∃ n, p = .nru n ∧ n.isMarked way = false
  /-- A request that is repeated is answered alike and changes nothing more. -/
  again : ∀ view, ((Policy.nru m).selectVictim view).2.selectVictim view =
    (Policy.nru m).selectVictim view
  /-- A word of 64 bits may be marked and searched without a shift past its end, and after it was
  cleared it may be searched once more. -/
  fits : (∀ way, m.markChecked way = .ok (m.mark way)) ∧
    ∀ view, m.selectClearingChecked view = .ok (m.selectClearing view)

theorem RecordsUses.unmarked_iff (records : m.RecordsUses ways used) (inside : way < ways) :
    m.bits.contains way = false ↔ way ∉ used := by
  rw [← records.marked way inside, Bool.not_eq_true]

theorem RecordsUses.isMarked_iff (records : m.RecordsUses ways used) (way : Nat) :
    m.isMarked way = true ↔ way < ways ∧ way ∈ used := by
  rw [isMarked, records.ways_eq, Bool.and_eq_true, decide_eq_true_eq]
  exact and_congr_right (records.marked way)

theorem RecordsUses.secondChance (records : m.RecordsUses ways used) (few : ways ≤ 64) :
    m.SecondChance ways used where
  marked := records.isMarked_iff
  spares := by
    intro view spares
    obtain ⟨way, found⟩ := Option.ne_none_iff_exists'.mp (mt records.clears_iff.mp spares)
    refine ⟨way, by rw [Policy.selectVictim_nru, selectClearing_of_some found]; rfl, ?_⟩
    obtain ⟨⟨here, open_way, clear⟩, least⟩ := firstUnmarked_eq_some_iff.mp found
    have inside : way < ways := records.ways_eq ▸ here
    refine ⟨⟨inside, open_way, (records.unmarked_iff inside).mp clear⟩, fun other also => ?_⟩
    obtain ⟨there, also_open, unused⟩ := also
    exact least ⟨records.ways_eq ▸ there, also_open, (records.unmarked_iff there).mpr unused⟩
  clears := by
    intro view clears
    have missing := records.clears_iff.mpr clears
    obtain ⟨rfl, -⟩ := records
    rw [Policy.selectVictim_nru, selectClearing_of_none missing]
    refine ⟨rfl, ?_⟩
    cases lowest : m.first view with
    | some way => exact .inl ⟨way, rfl, first_eq_some_iff.mp lowest⟩
    | none => exact .inr ⟨rfl, View.candidates_eq_nil_iff.mp (List.head?_eq_none_iff.mp lowest)⟩
  victim := by
    intro view way p selected
    rw [Policy.selectVictim_nru] at selected
    obtain ⟨answered, rfl⟩ := Prod.mk.inj selected
    refine ⟨_, rfl, isMarked_selectClearing ?_⟩
    cases found : (m.selectClearing view).1 with
    | some other =>
      rw [found] at answered
      exact congrArg some (Except.ok.inj answered)
    | none =>
      rw [found] at answered
      cases answered
  again := by
    intro view
    have same : (m.selectClearing view).2.ways = m.ways := Policy.ways_search (.nru m) view
    rw [Policy.selectVictim_nru, Policy.selectVictim_nru, selectClearing_again, same]
  fits := ⟨markChecked_eq (records.ways_eq.symm ▸ few),
    fun _ => selectClearingChecked_eq (records.ways_eq.symm ▸ few)⟩

end Marks

/-- Whatever was reported and asked, the marks of a policy and its answers to requests are told by
the ways that were used since the last request that cleared. -/
theorem Policy.victims_follow_second_chances {ways : Nat} (few : ways ≤ maxWays) (seed : UInt64)
    (events : List Event) :
    ∃ m, ((fresh .nru ways seed).run events).2 = .nru m ∧
      m.SecondChance ways (usedSinceClearing ways events) := by
  obtain ⟨m, after, records⟩ := (Marks.recordsUses_unmarked ways).run few events
  exact ⟨m, after, records.secondChance few⟩

/-- The last of 64 ways is given up although it is the only one that was used, since no other is
evictable, and then nothing is marked. -/
theorem Policy.only_open_way_is_given_up_and_cleared :
    64 ≤ maxWays ∧ ∃ m, ((fresh .nru 64 0).run [.used (.fill 63), .used (.hit 64)]).2 = .nru m ∧
      m.isMarked 63 = true ∧
      ((Policy.nru m).selectVictim fun way => way == 63).2 = .nru (.unmarked 64) := by
  obtain ⟨m, after, chance⟩ := victims_follow_second_chances (show 64 ≤ maxWays by decide) 0
    [.used (.fill 63), .used (.hit 64)]
  refine ⟨by decide, m, after, (chance.marked 63).mpr (by decide), (chance.clears _ ?_).1⟩
  intro way _ open_way
  rw [eq_of_beq open_way]
  decide

end SetAssociative
