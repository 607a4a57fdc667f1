import Mathlib.Data.List.Induction
import SetAssociative.Proofs.CheckedReplacement
import SetAssociative.Proofs.EvictionOrder

/-! Three disciplines decide between the ways that may be evicted by when each was last used,
or last filled. Their stamps stand in the order of these dates, whatever was reported and
asked, so that each victim can be told from the reports alone. -/
namespace SetAssociative

/-- Of the members of an ascending list that score least, the selected one is the lowest. -/
theorem le_of_minOn? {β : Type} [LE β] [DecidableLE β] [Std.IsLinearPreorder β] {f : Nat → β}
    {xs : List Nat} {x y : Nat} (ascending : xs.Pairwise (· ≤ ·)) (chosen : xs.minOn? f = some x)
    (member : y ∈ xs) (tie : f y ≤ f x) : x ≤ y := by
  induction xs with
  | nil => cases member
  | cons first xs ih =>
    obtain ⟨lowest, ascending⟩ := List.pairwise_cons.mp ascending
    have least : ∀ y ∈ first :: xs, first ≤ y := List.forall_mem_cons.mpr ⟨Nat.le_refl _, lowest⟩
    rw [List.minOn?_cons, Option.some.injEq] at chosen
    cases best : xs.minOn? f with
    | none =>
      rw [best, Option.elim_none] at chosen
      exact chosen ▸ least y member
    | some other =>
      rw [best, Option.elim_some] at chosen
      by_cases kept : f first ≤ f other
      · rw [minOn_eq_left kept] at chosen
        exact chosen ▸ least y member
      · rw [minOn_eq_right kept] at chosen
        subst chosen
        rcases List.mem_cons.mp member with rfl | member
        · exact absurd tie kept
        · exact ih ascending best member

theorem le_of_maxOn? {f : Nat → Nat} {xs : List Nat} {x y : Nat}
    (ascending : xs.Pairwise (· ≤ ·)) (chosen : xs.maxOn? f = some x) (member : y ∈ xs)
    (tie : f x ≤ f y) : x ≤ y := by
  rw [List.maxOn?_eq_minOn?] at chosen
  exact @le_of_minOn? Nat (.opposite inferInstance)
    Std.OppositeOrderInstances.instDecidableLEOpposite
    Std.OppositeOrderInstances.instIsLinearPreorderOpposite _ _ _ _ ascending chosen member
    (LE.le_opposite_iff.mpr tie)

theorem View.ascending_candidates (view : View) (ways : Nat) :
    (view.candidates ways).Pairwise (· ≤ ·) := (List.pairwise_le_range).filter view

/-- One of some ways that comes before all of them. -/
def First (before : Nat → Nat → Prop) (ways : List Nat) (way : Nat) : Prop :=
  way ∈ ways ∧ ∀ other ∈ ways, before way other

theorem first_iff {before : Nat → Nat → Prop} {ways : List Nat} {way : Nat}
    (antisymm : ∀ a b, before a b → before b a → a = b) (first : First before ways way)
    (other : Nat) : First before ways other ↔ other = way := by
  constructor
  · intro also
    exact antisymm other way (also.2 way first.1) (first.2 other also.1)
  · rintro rfl
    exact first

/-- The order of ways by their dates, of which either the earlier or the later are preferred. Of
two ways with one date, the lower comes before the higher. -/
def Precedes (prefers : Nat → Nat → Prop) (date : Nat → Nat) (way other : Nat) : Prop :=
  prefers (date way) (date other) ∨ date way = date other ∧ way ≤ other

theorem Precedes.antisymm {prefers : Nat → Nat → Prop} {date : Nat → Nat}
    (asymm : ∀ i j, prefers i j → ¬ prefers j i) (way other : Nat)
    (first : Precedes prefers date way other) (second : Precedes prefers date other way) :
    way = other := by
  rcases first with sooner | ⟨same, less⟩
  · rcases second with later | ⟨same, -⟩
    · exact absurd later (asymm _ _ sooner)
    · rw [same] at sooner
      exact absurd sooner (asymm _ _ sooner)
  · rcases second with later | ⟨-, more⟩
    · rw [same] at later
      exact absurd later (asymm _ _ later)
    · exact Nat.le_antisymm less more

namespace Stamps
variable {s : Stamps} {view : View} {date later : Nat → Nat} {now way other : Nat}

/-- Of the evictable ways that are stamped alike, the lowest is selected. -/
theorem oldest_le (chosen : s.oldest view = some way) (inside : other < s.ways)
    (open_way : view other = true) (tie : s.time other ≤ s.time way) : way ≤ other :=
  le_of_minOn? (view.ascending_candidates s.ways) chosen
    (View.mem_candidates.mpr ⟨inside, open_way⟩) tie

theorem newest_le (chosen : s.newest view = some way) (inside : other < s.ways)
    (open_way : view other = true) (tie : s.time way ≤ s.time other) : way ≤ other :=
  le_of_maxOn? (view.ascending_candidates s.ways) chosen
    (View.mem_candidates.mpr ⟨inside, open_way⟩) tie

/-- The stamps of the ways stand in the order of some dates. -/
structure Dates (s : Stamps) (date : Nat → Nat) : Prop where
  past : s.Past
  ordered : ∀ {a b}, a < s.ways → b < s.ways → (s.time a < s.time b ↔ date a < date b)

theorem dates_untouched (ways : Nat) : (untouched ways).Dates fun _ => 0 where
  past := past_untouched ways
  ordered := by
    intro a b _ _
    rw [Nat.le_zero.mp (past_untouched ways a), Nat.le_zero.mp (past_untouched ways b)]

theorem Dates.congr (dates : s.Dates date) (same : ∀ way < s.ways, later way = date way) :
    s.Dates later where
  past := dates.past
  ordered := by
    intro a b left right
    rw [same a left, same b right]
    exact dates.ordered left right

/-- A way that is stamped now gets a date after all others. -/
theorem Dates.touch (dates : s.Dates date) (inside : way < s.ways)
    (recent : ∀ other, date other < now)
    (stamped : ∀ other, later other = if way = other then now else date other) :
    (s.touch way).Dates later where
  past := dates.past.touch way
  ordered := by
    intro a b left right
    rw [ways_touch] at left right
    have before := dates.ordered left right
    have stale := dates.past a
    have also := dates.past b
    have first := recent a
    have second := recent b
    rw [stamped, stamped, time_touch s inside, time_touch s inside]
    by_cases here : way = a
    · rw [if_pos here, if_pos here]
      split <;> omega
    · rw [if_neg here, if_neg here]
      split <;> omega

/-- The way that is stamped first is the one with the earliest date. -/
theorem Dates.first_oldest (dates : s.Dates date) (chosen : s.oldest view = some way) :
    First (Precedes (· < ·) date) (view.candidates s.ways) way := by
  have member : way ∈ view.candidates s.ways := List.minOn?_mem chosen
  refine ⟨member, fun other also => ?_⟩
  obtain ⟨here, -⟩ := View.mem_candidates.mp member
  obtain ⟨inside, open_way⟩ := View.mem_candidates.mp also
  have least := time_oldest_le chosen inside open_way
  have sooner := dates.ordered here inside
  have later := dates.ordered inside here
  by_cases tie : s.time other ≤ s.time way
  · exact .inr ⟨by omega, oldest_le chosen inside open_way tie⟩
  · exact .inl (sooner.mp (Nat.not_le.mp tie))

/-- The way that is stamped last is the one with the latest date. -/
theorem Dates.first_newest (dates : s.Dates date) (chosen : s.newest view = some way) :
    First (Precedes (· > ·) date) (view.candidates s.ways) way := by
  have member : way ∈ view.candidates s.ways := List.maxOn?_mem chosen
  refine ⟨member, fun other also => ?_⟩
  obtain ⟨here, -⟩ := View.mem_candidates.mp member
  obtain ⟨inside, open_way⟩ := View.mem_candidates.mp also
  have greatest := le_time_newest chosen inside open_way
  have sooner := dates.ordered here inside
  have later := dates.ordered inside here
  by_cases tie : s.time way ≤ s.time other
  · exact .inr ⟨by omega, newest_le chosen inside open_way tie⟩
  · exact .inl (later.mp (Nat.not_le.mp tie))

end Stamps

namespace Policy
variable {p : Policy} {kind : Kind} {counts : Use → Bool} {ways way other i : Nat}
  {events : List Event} {event : Event} {view : View}

/-- Whether an event reports a use of a way, of the kind that counts. -/
def Event.uses (counts : Use → Bool) (way : Nat) : Event → Bool
  | .used outcome => outcome.way == way && counts outcome.use
  | .asked _ => false

/-- Whether an event reports a use that counts of one of so many ways. -/
def Event.counted (counts : Use → Bool) (ways : Nat) : Event → Bool
  | .used outcome => decide (outcome.way < ways) && counts outcome.use
  | .asked _ => false

/-- Whether an event reports a use. -/
def Event.isReport : Event → Bool
  | .used _ => true
  | .asked _ => false

/-- The date of the last use of a way that counts: how many events there were up to that use, or
zero if there was none. -/
def lastUse (counts : Use → Bool) (events : List Event) (way : Nat) : Nat :=
  ((lastIdx? (Event.uses counts way) events).map (· + 1)).getD 0

theorem lastUse_concat (event : Event) :
    lastUse counts (events ++ [event]) way =
      if event.uses counts way then events.length + 1 else lastUse counts events way := by
  rw [lastUse, lastIdx?_concat]
  split <;> rfl

theorem lastUse_le (counts : Use → Bool) (events : List Event) (way : Nat) :
    lastUse counts events way ≤ events.length := by
  induction events using List.reverseRecOn with
  | nil => exact Nat.le_refl 0
  | append_singleton events event ih =>
    rw [lastUse_concat, List.length_append, List.length_singleton]
    split
    · exact Nat.le_refl _
    · exact Nat.le_succ_of_le ih

/-- A policy of a discipline that keeps stamps, after some events. -/
structure Told (kind : Kind) (ways : Nat) (events : List Event) (p : Policy) : Prop where
  kind_eq : p.kind = kind
  ways_eq : p.stamps.ways = ways
  dates : p.stamps.Dates (lastUse kind.stampsOn events)
  clock_le : p.stamps.clock ≤ events.countP Event.isReport

theorem told_fresh (stamped : kind.stampsOn .fill = true) (ways : Nat) (seed : UInt64) :
    (fresh kind ways seed).Told kind ways [] where
  kind_eq := kind_fresh ..
  ways_eq := by
    rw [ways_stamps (by rwa [kind_fresh]), ways_fresh]
  dates := by
    cases kind with
    | fifo | lru | mru => exact Stamps.dates_untouched ways
    | roundRobin | plru | random | nru => cases stamped
  clock_le := by
    cases kind <;> exact Nat.le_refl 0

/-- Only a use that the discipline counts, of a way that exists, touches the stamps. -/
theorem stamps_step (told : p.Told kind ways events) (event : Event) :
    (event.counted kind.stampsOn ways = false ∧ (p.step event).2.stamps = p.stamps) ∨
      ∃ way < ways, (p.step event).2.stamps = p.stamps.touch way ∧ event.isReport = true ∧
        ∀ other, event.uses kind.stampsOn other = decide (way = other) := by
  cases event with
  | asked view => exact .inl ⟨rfl, by rw [step, selectVictim_snd, stamps_search]⟩
  | used outcome =>
    obtain ⟨use, way⟩ := outcome
    have after := p.stamps_record use way
    rw [told.kind_eq] at after
    cases counts : kind.stampsOn use with
    | false =>
      refine .inl ⟨?_, after.trans (if_neg (by rw [counts]; exact Bool.false_ne_true))⟩
      rw [Event.counted, counts, Bool.and_false]
    | true =>
      rw [counts, if_pos rfl] at after
      by_cases inside : way < ways
      · refine .inr ⟨way, inside, after, rfl, fun other => ?_⟩
        rw [Event.uses, counts, Bool.and_true]
        rfl
      · refine .inl ⟨by simp [Event.counted, inside], ?_⟩
        rw [step, after, Stamps.touch, told.ways_eq, if_neg inside]

theorem uses_of_not_counted (idle : event.counted counts ways = false) (inside : way < ways) :
    event.uses counts way = false := by
  cases event with
  | asked view => rfl
  | used outcome =>
    rw [Event.uses, Bool.and_eq_false_iff]
    by_cases here : outcome.way = way
    · rw [Event.counted, here, decide_eq_true inside, Bool.true_and] at idle
      exact .inr idle
    · exact .inl (beq_eq_false_iff_ne.mpr here)

/-- The stamps stand in the order of the dates after one event more. -/
theorem Told.step (told : p.Told kind ways events) (event : Event) :
    (p.step event).2.Told kind ways (events ++ [event]) := by
  have same_kind : (p.step event).2.kind = kind := by
    cases event <;> simp [Policy.step, told.kind_eq]
  have clock_le := told.clock_le
  rcases stamps_step told event with ⟨idle, same⟩ | ⟨way, inside, touched, report, uses⟩
  · refine ⟨same_kind, same ▸ told.ways_eq, ?_, ?_⟩
    · rw [same]
      refine told.dates.congr fun way inside => ?_
      rw [lastUse_concat, uses_of_not_counted idle (told.ways_eq ▸ inside)]
      rfl
    · rw [same, List.countP_append]
      exact Nat.le_add_right_of_le clock_le
  · have here : way < p.stamps.ways := told.ways_eq.symm ▸ inside
    refine ⟨same_kind, ?_, ?_, ?_⟩
    · rw [touched, Stamps.ways_touch, told.ways_eq]
    · rw [touched]
      refine told.dates.touch here (fun _ => Nat.lt_succ_of_le (lastUse_le ..)) fun other => ?_
      rw [lastUse_concat, uses]
      simp only [decide_eq_true_eq]
    · rw [touched, Stamps.clock_touch here, List.countP_append, List.countP_singleton,
        if_pos report]
      exact Nat.succ_le_succ clock_le

theorem Told.run (told : p.Told kind ways events) (more : List Event) :
    (p.run more).2.Told kind ways (events ++ more) := by
  induction more generalizing p events with
  | nil =>
    rw [List.append_nil]
    exact told
  | cons event more ih =>
    have rest := ih (told.step event)
    rw [List.append_assoc] at rest
    exact rest

/-- A discipline that keeps stamps keeps nothing else. -/
theorem eq_of_stamps {q : Policy} (stamped : p.kind.stampsOn .fill = true)
    (same_kind : q.kind = p.kind) (same : q.stamps = p.stamps) : q = p := by
  cases p with
  | fifo | lru | mru => cases q <;> first | (cases same_kind; done) | simpa [stamps] using same
  | roundRobin | plru | random | nru => cases stamped

/-- Events that touch no stamps may be left out. -/
theorem Told.run_filter (told : p.Told kind ways events) (stamped : kind.stampsOn .fill = true)
    (more : List Event) :
    (p.run (more.filter (Event.counted kind.stampsOn ways))).2 = (p.run more).2 := by
  induction more generalizing p events with
  | nil => rfl
  | cons event more ih =>
    have next := told.step event
    have rest := ih next
    by_cases counted : event.counted kind.stampsOn ways = true
    · rw [List.filter_cons_of_pos counted]
      exact rest
    · rcases stamps_step told event with ⟨-, same⟩ | ⟨way, inside, -, -, uses⟩
      · have unchanged : (p.step event).2 = p :=
          eq_of_stamps (told.kind_eq.symm ▸ stamped) (next.kind_eq.trans told.kind_eq.symm) same
        rw [unchanged] at rest
        rw [List.filter_cons_of_neg counted, rest, Policy.run, unchanged]
      · have used := uses way
        rw [uses_of_not_counted (Bool.eq_false_iff.mpr counted) inside] at used
        simp at used

/-- A request finds a victim if some way is evictable. -/
theorem Told.exists_victim (told : p.Told kind ways events)
    (stamped : kind.stampsOn .fill = true) (some_open : ∃ way < ways, view way = true) :
    ∃ way, (p.search view).1 = some way ∧ (p.selectVictim view).1 = .ok way := by
  have picks := p.picks_search view
  rw [← ways_stamps (told.kind_eq.symm ▸ stamped), told.ways_eq] at picks
  cases found : (p.search view).1 with
  | none =>
    rw [found] at picks
    obtain ⟨way, inside, open_way⟩ := some_open
    rw [View.candidates_eq_nil_iff.mp picks way inside] at open_way
    cases open_way
  | some way => exact ⟨way, rfl, by rw [selectVictim, found]⟩

/-- With few reports the clock has room for one more. -/
theorem Told.recordChecked_eq (told : p.Told kind ways events)
    (stamped : kind.stampsOn .fill = true) (few : events.countP Event.isReport + 1 < UInt64.size)
    (outcome : Outcome) : p.recordChecked outcome = .ok (p.record outcome) := by
  have room : p.stamps.clock + 1 < UInt64.size :=
    Nat.lt_of_le_of_lt (Nat.succ_le_succ told.clock_le) few
  have keeps := told.kind_eq.symm ▸ stamped
  cases p with
  | fifo fills =>
    obtain ⟨use, way⟩ := outcome
    cases use with
    | hit => rfl
    | fill => exact congrArg (fifo <$> ·) (Stamps.touchChecked_eq room way)
  | lru uses => exact congrArg (lru <$> ·) (Stamps.touchChecked_eq room outcome.way)
  | mru uses => exact congrArg (mru <$> ·) (Stamps.touchChecked_eq room outcome.way)
  | roundRobin | plru | random | nru => cases keeps

theorem Told.searchChecked_eq (told : p.Told kind ways events)
    (stamped : kind.stampsOn .fill = true) (small : ways < UInt64.size) (view : View) :
    p.searchChecked view = .ok (p.search view) := by
  have narrow : p.stamps.ways < UInt64.size := told.ways_eq.symm ▸ small
  have keeps := told.kind_eq.symm ▸ stamped
  cases p with
  | fifo fills => exact congrArg ((·, fifo fills) <$> ·) (Stamps.selectFirstChecked_eq narrow view)
  | lru uses => exact congrArg ((·, lru uses) <$> ·) (uses.selectChecked_lt view)
  | mru uses => exact congrArg ((·, mru uses) <$> ·) (uses.selectChecked_gt view)
  | roundRobin | plru | random | nru => cases keeps

/-- What a discipline does that selects ways by the dates of the uses that count. -/
structure SelectsBy (kind : Kind) (counts : Use → Bool) (prefers : Nat → Nat → Prop) (ways : Nat)
    (seed : UInt64) (events : List Event) : Prop where
  /-- When some way is evictable, the victim is the one of the evictable ways that comes before
  all of them, and the only such way. -/
  victim : ∀ view : View, (∃ way < ways, view way = true) →
    ∃ way, (((fresh kind ways seed).run events).2.selectVictim view).1 = .ok way ∧
      ∀ other, First (Precedes prefers (lastUse counts events)) (view.candidates ways) other ↔
        other = way
  /-- Requests for victims, reports of ways that do not exist and reports of uses that do not
  count might as well be left out: the policy is the same without them. -/
  idle : ((fresh kind ways seed).run (events.filter (Event.counted counts ways))).2 =
    ((fresh kind ways seed).run events).2
  /-- A search may as well be carried out as a pass over the ways, with the best one so far. -/
  passes : ways < UInt64.size → ∀ view,
    ((fresh kind ways seed).run events).2.searchChecked view =
      .ok (((fresh kind ways seed).run events).2.search view)
  /-- A clock of 64 bits does not overflow as long as there are fewer reports than it counts. -/
  clock : events.countP Event.isReport + 1 < UInt64.size → ∀ outcome,
    ((fresh kind ways seed).run events).2.recordChecked outcome =
      .ok (((fresh kind ways seed).run events).2.record outcome)

/-- A discipline selects by dates if each of its victims comes first by the dates of the uses
that it stamps. -/
theorem selectsBy_of_first {prefers : Nat → Nat → Prop} (stamped : kind.stampsOn .fill = true)
    (asymm : ∀ i j, prefers i j → ¬ prefers j i)
    (first : ∀ {p : Policy} {way : Nat} {view : View} {events : List Event},
      p.Told kind ways events → (p.search view).1 = some way →
      First (Precedes prefers (lastUse kind.stampsOn events)) (view.candidates ways) way)
    (seed : UInt64) (events : List Event) :
    SelectsBy kind kind.stampsOn prefers ways seed events := by
  have fresh := told_fresh stamped ways seed
  have told := fresh.run events
  rw [List.nil_append] at told
  refine ⟨?_, fresh.run_filter stamped events, fun small => told.searchChecked_eq stamped small,
    told.recordChecked_eq stamped⟩
  intro view some_open
  obtain ⟨way, found, selected⟩ := told.exists_victim stamped some_open
  exact ⟨way, selected, first_iff (Precedes.antisymm asymm) (first told found)⟩

/-- Whatever was reported and asked, the victims of three disciplines can be told from the
reports alone. The first selects the evictable way whose last use is the oldest, but first the
ways that were never used. The second selects the one whose last use is the newest, and the
lowest if none was ever used. The third selects like the first, by fills alone. -/
theorem victims_follow_the_order_of_use (ways : Nat) (seed : UInt64) (events : List Event) :
    SelectsBy .lru (fun _ => true) (· < ·) ways seed events ∧
    SelectsBy .mru (fun _ => true) (· > ·) ways seed events ∧
    SelectsBy .fifo (· == .fill) (· < ·) ways seed events := by
  have fills : (· == Use.fill) = Kind.fifo.stampsOn := by
    funext use
    cases use <;> rfl
  rw [fills]
  refine ⟨selectsBy_of_first rfl (fun _ _ => Nat.lt_asymm) ?_ seed events,
    selectsBy_of_first rfl (fun _ _ => Nat.lt_asymm) ?_ seed events,
    selectsBy_of_first rfl (fun _ _ => Nat.lt_asymm) ?_ seed events⟩
  · intro p way view events told found
    rw [search_eq_oldest (.inl told.kind_eq)] at found
    exact told.ways_eq ▸ told.dates.first_oldest found
  · intro p way view events told found
    rw [search_eq_newest told.kind_eq] at found
    exact told.ways_eq ▸ told.dates.first_newest found
  · intro p way view events told found
    rw [search_eq_oldest (.inr told.kind_eq)] at found
    exact told.ways_eq ▸ told.dates.first_oldest found

/-- The way filled first was hit last: it is the next to leave in order of filling, but not in
order of use. -/
example :
    let events : List Event := [.used (.fill 0), .used (.fill 1), .used (.fill 2), .used (.hit 0)]
    (((fresh .fifo 3 0).run events).2.selectVictim fun _ => true).1 = .ok 0 ∧
    (((fresh .lru 3 0).run events).2.selectVictim fun _ => true).1 = .ok 1 ∧
    (((fresh .mru 3 0).run events).2.selectVictim fun way => way != 0).1 = .ok 2 := ⟨rfl, rfl, rfl⟩

end Policy

end SetAssociative
