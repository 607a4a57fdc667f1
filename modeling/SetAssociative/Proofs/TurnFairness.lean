import SetAssociative.Proofs.CheckedReplacement
import SetAssociative.Proofs.CursorTurns

/-! No way waits longer than a turn. Each victim brings a way that stays evictable nearer to
the cursor or is that way, so that it is one of as many victims as there are ways. While the
same ways stay evictable, they are the victims in their cyclic order, each once before any
comes again. Reports of used ways and requests that no way can serve change nothing. -/
namespace SetAssociative

namespace Policy

/-- The way that an answer gives up, if it gives up any. -/
def Answer.victim? : Answer → Option Nat
  | some (.ok way) => some way
  | some (.error _) | none => none

/-- The ways that are given up in a sequence of events. -/
def victims (p : Policy) (events : List Event) : List Nat :=
  (p.run events).1.filterMap Answer.victim?

/-- Whether an event is a request that some way can serve. -/
def Event.isServable (ways : Nat) : Event → Bool
  | .asked view => !(view.candidates ways).isEmpty
  | .used _ => false

end Policy

namespace Cursor
open Policy (Event)
variable {c : Cursor} {view : View} {way : Nat} {before after : List Nat} {events : List Event}

/-- Where the first evictable way of a turn stands, if there is one. -/
theorem turn_cases (c : Cursor) (view : View) :
    view.candidates c.ways = [] ∨
      ∃ before way after, c.turn = before ++ way :: after ∧
        (∀ other ∈ before, view other = false) ∧ view way = true := by
  cases found : c.turn.find? view with
  | none =>
    refine .inl (View.candidates_eq_nil_iff.mpr fun way inside => ?_)
    simpa using List.find?_eq_none.mp found way (mem_turn.mpr inside)
  | some way =>
    obtain ⟨open_way, before, after, split, closed⟩ := List.find?_eq_some_iff_append.mp found
    exact .inr ⟨before, way, after, split, by simpa using closed, open_way⟩

/-- A request that finds a way is answered by it. -/
theorem selectVictim_of_turn (split : c.turn = before ++ way :: after)
    (closed : ∀ other ∈ before, view other = false) (open_way : view way = true) :
    (Policy.roundRobin c).selectVictim view = (.ok way, .roundRobin (c.past way)) := by
  simp only [Policy.selectVictim, Policy.search, select_of_turn split closed open_way]

/-- A request that finds no way leaves the cursor where it is. -/
theorem selectVictim_of_closed (closed : view.candidates c.ways = []) :
    (Policy.roundRobin c).selectVictim view = (.error (.exhausted c.ways), .roundRobin c) := by
  simp only [Policy.selectVictim, Policy.search, select_of_closed closed]
  rfl

/-- After any events there is a cursor, which is at a way. -/
theorem inside_run (inside : c.next < c.ways) (events : List Event) :
    ∃ last : Cursor, ((Policy.roundRobin c).run events).2 = .roundRobin last ∧
      last.ways = c.ways ∧ last.next < last.ways := by
  induction events generalizing c with
  | nil => exact ⟨c, rfl, rfl, inside⟩
  | cons event events ih =>
    cases event with
    | used outcome => exact ih inside
    | asked view =>
      rcases c.turn_cases view with closed | ⟨before, way, after, split, closed, open_way⟩
      · rw [Policy.run, Policy.step, selectVictim_of_closed closed]
        exact ih inside
      · rw [Policy.run, Policy.step, selectVictim_of_turn split closed open_way]
        exact ih (past_inside inside way)

/-- Only a request that some way can serve has a victim and moves the cursor. -/
theorem victims_cons_of_not_servable {event : Event} (idle : ¬ event.isServable c.ways = true) :
    (Policy.roundRobin c).victims (event :: events) = (Policy.roundRobin c).victims events := by
  cases event with
  | used outcome => rfl
  | asked view =>
    have closed : view.candidates c.ways = [] := by simpa [Event.isServable] using idle
    simp only [Policy.victims, Policy.run, Policy.step, selectVictim_of_closed closed]
    rfl

theorem victims_cons_of_turn (split : c.turn = before ++ way :: after)
    (closed : ∀ other ∈ before, view other = false) (open_way : view way = true) :
    (Policy.roundRobin c).victims (.asked view :: events) =
      way :: (Policy.roundRobin (c.past way)).victims events := by
  simp only [Policy.victims, Policy.run, Policy.step, selectVictim_of_turn split closed open_way]
  rfl

/-- A way that is evictable comes nearer when another is given up. -/
theorem idxOf_past {chosen : Nat} (split : c.turn = before ++ chosen :: after)
    (closed : ∀ other ∈ before, view other = false) (inside : way < c.ways)
    (open_way : view way = true) (apart : chosen ≠ way) :
    (c.past chosen).turn.idxOf way + (before.length + 1) = c.turn.idxOf way := by
  have member : way ∈ c.turn := mem_turn.mpr inside
  have unpassed : way ∉ before := by
    intro passed
    rw [closed way passed] at open_way
    cases open_way
  rw [split, List.mem_append, List.mem_cons] at member
  have ahead : way ∈ after := (member.resolve_left unpassed).resolve_left apart.symm
  rw [turn_past split, List.idxOf_append_of_mem ahead, split, List.idxOf_append_of_notMem unpassed,
    List.idxOf_cons_ne _ apart]
  omega

/-- A way that can serve every request that some way can serve is given up, if these requests
are more than the ways before it in the turn. -/
theorem mem_victims (inside : way < c.ways)
    (opens : ∀ view, Event.asked view ∈ events → view.candidates c.ways ≠ [] → view way = true)
    (enough : c.turn.idxOf way < events.countP (Event.isServable c.ways)) :
    way ∈ (Policy.roundRobin c).victims events := by
  induction events generalizing c with
  | nil => cases enough
  | cons event events ih =>
    have later : ∀ view, Event.asked view ∈ events → view.candidates c.ways ≠ [] →
        view way = true := fun view member => opens view (List.mem_cons_of_mem _ member)
    by_cases servable : event.isServable c.ways = true
    · rw [List.countP_cons_of_pos servable] at enough
      cases event with
      | used outcome => cases servable
      | asked view =>
        have some_open : view.candidates c.ways ≠ [] := by simpa [Event.isServable] using servable
        have open_way := opens view List.mem_cons_self some_open
        obtain ⟨before, chosen, after, split, closed, open_chosen⟩ :=
          (c.turn_cases view).resolve_left some_open
        rw [victims_cons_of_turn split closed open_chosen]
        by_cases same : chosen = way
        · rw [same]
          exact List.mem_cons_self
        · have nearer := idxOf_past split closed inside open_way same
          have rest : (c.past chosen).turn.idxOf way < events.countP (Event.isServable c.ways) := by
            omega
          exact List.mem_cons_of_mem _ (ih inside later rest)
    · rw [List.countP_cons_of_neg servable] at enough
      rw [victims_cons_of_not_servable servable]
      exact ih inside later enough

/-- While the same ways stay evictable, they are given up in the order of the turn, as long as
none has to come again. -/
theorem victims_eq_take
    (alike : ∀ other, Event.asked other ∈ events → other.candidates c.ways ≠ [] →
      other.candidates c.ways = view.candidates c.ways)
    (few : events.countP (Event.isServable c.ways) ≤ (c.turn.filter view).length) :
    (Policy.roundRobin c).victims events =
      (c.turn.filter view).take (events.countP (Event.isServable c.ways)) := by
  induction events generalizing c with
  | nil => rfl
  | cons event events ih =>
    have later : ∀ other, Event.asked other ∈ events → other.candidates c.ways ≠ [] →
        other.candidates c.ways = view.candidates c.ways :=
      fun other member => alike other (List.mem_cons_of_mem _ member)
    by_cases servable : event.isServable c.ways = true
    · rw [List.countP_cons_of_pos servable] at few ⊢
      cases event with
      | used outcome => cases servable
      | asked other =>
        have some_open : other.candidates c.ways ≠ [] := by simpa [Event.isServable] using servable
        have same := alike other List.mem_cons_self some_open
        obtain ⟨before, chosen, after, split, closed, open_chosen⟩ :=
          (c.turn_cases other).resolve_left some_open
        -- the queue of evictable ways is turned by one, and its front is not due again
        have queue := filter_turn split closed open_chosen
        have requeued := filter_turn_past split closed open_chosen
        rw [filter_turn_congr same] at queue
        rw [filter_turn_congr (c := c.past chosen) same] at requeued
        rw [queue, List.length_cons] at few
        have due : events.countP (Event.isServable c.ways) ≤ (after.filter other).length :=
          Nat.le_of_succ_le_succ few
        have rest := ih (c := c.past chosen) later (by
          rw [requeued, List.length_append, ways_past]
          exact Nat.le_add_right_of_le due)
        rw [requeued, ways_past, List.take_append_of_le_length due] at rest
        rw [victims_cons_of_turn split closed open_chosen, rest, queue, List.take_succ_cons]
    · rw [List.countP_cons_of_neg servable] at few ⊢
      rw [victims_cons_of_not_servable servable]
      exact ih later few

/-- What a cursor guarantees to the requests that come to it. -/
structure Fair (c : Cursor) : Prop where
  /-- It is at a way. -/
  inside : c.next < c.ways
  /-- A search may as well be carried out as a loop that moves the cursor way by way. -/
  loops : ∀ view, c.ways < UInt64.size → c.selectChecked view = .ok (c.select view)
  /-- A victim is the first evictable way at or after the cursor, in cyclic order, and the cursor
  is left just past it. -/
  selects : ∀ view way p, (Policy.roundRobin c).selectVictim view = (.ok way, p) →
    p = .roundRobin { ways := c.ways, next := (way + 1) % c.ways } ∧ view way = true ∧
    ∃ step < c.ways, way = (c.next + step) % c.ways ∧
      ∀ earlier < step, view ((c.next + earlier) % c.ways) = false
  /-- A request is refused when no way is evictable, and the cursor stays where it is. -/
  refuses : ∀ view cause p, (Policy.roundRobin c).selectVictim view = (.error cause, p) →
    p = .roundRobin c ∧ cause = .exhausted c.ways ∧ ∀ way < c.ways, view way = false
  /-- A way that is evictable at as many requests as there are ways is one of their victims,
  whatever is reported between them, and however many requests are refused. -/
  serves : ∀ events way, way < c.ways →
    (∀ view, Event.asked view ∈ events → view.candidates c.ways ≠ [] → view way = true) →
    c.ways ≤ events.countP (Event.isServable c.ways) → way ∈ (Policy.roundRobin c).victims events
  /-- As many requests as there are evictable ways have each of these once for a victim, in the
  order of the turn, while the same ways stay evictable. -/
  cycles : ∀ events (view : View),
    (∀ other, Event.asked other ∈ events → other.candidates c.ways ≠ [] →
      other.candidates c.ways = view.candidates c.ways) →
    events.countP (Event.isServable c.ways) = (view.candidates c.ways).length →
    (Policy.roundRobin c).victims events = c.turn.filter view ∧
      (c.turn.filter view).Perm (view.candidates c.ways)

theorem fair_of_inside (inside : c.next < c.ways) : c.Fair where
  inside := inside
  loops := fun view small => selectChecked_eq inside small
  selects := by
    intro view way p selected
    rcases c.turn_cases view with closed | ⟨before, chosen, after, split, closed, open_chosen⟩
    · rw [selectVictim_of_closed closed] at selected
      cases selected
    · rw [selectVictim_of_turn split closed open_chosen] at selected
      cases selected
      obtain ⟨short, distance⟩ := eq_of_turn split
      exact ⟨rfl, open_chosen, before.length, short, distance,
        fun earlier less => closed _ (mem_of_lt_length split less)⟩
  refuses := by
    intro view cause p refused
    rcases c.turn_cases view with closed | ⟨before, chosen, after, split, closed, open_chosen⟩
    · rw [selectVictim_of_closed closed] at refused
      cases refused
      exact ⟨rfl, rfl, View.candidates_eq_nil_iff.mp closed⟩
    · rw [selectVictim_of_turn split closed open_chosen] at refused
      cases refused
  serves := by
    intro events way inside opens enough
    have place := List.idxOf_lt_length_of_mem (mem_turn.mpr inside)
    rw [length_turn] at place
    exact mem_victims inside opens (Nat.lt_of_lt_of_le place enough)
  cycles := by
    intro events view alike asked
    have same : (c.turn.filter view).Perm (view.candidates c.ways) := c.perm_turn.filter view
    rw [← same.length_eq] at asked
    have given := victims_eq_take alike (Nat.le_of_eq asked)
    rw [asked, List.take_length] at given
    exact ⟨given, same⟩

/-- Whatever was reported and asked before, the cursor is at a way and treats all requests from
then on fairly. -/
theorem requests_are_served_in_turn {ways : Nat} (some_way : 0 < ways) (seed : UInt64)
    (events : List Event) :
    ∃ c : Cursor, ((Policy.fresh .roundRobin ways seed).run events).2 = .roundRobin c ∧
      c.ways = ways ∧ c.Fair := by
  have first : (start ways).next < (start ways).ways := some_way
  obtain ⟨c, reached, same, inside⟩ := inside_run first events
  exact ⟨c, reached, same, fair_of_inside inside⟩

/-- A cursor just past the first of three ways comes back to it within three victims, though the
views change and one request is refused. -/
theorem first_way_comes_again_within_a_turn :
    0 < 3 ∧ ∃ c : Cursor,
      ((Policy.fresh .roundRobin 3 0).run [.asked fun way => way == 0]).2 = .roundRobin c ∧
      0 ∈ (Policy.roundRobin c).victims [.asked fun _ => true, .used (.fill 1),
        .asked fun _ => false, .asked fun way => way != 1, .asked fun _ => true] := by
  obtain ⟨c, reached, same, fair⟩ :=
    requests_are_served_in_turn (show 0 < 3 by decide) 0 [.asked fun way => way == 0]
  refine ⟨by decide, c, reached, fair.serves _ 0 ?_ ?_ ?_⟩
  · rw [same]
    decide
  · rw [same]
    simp [View.candidates]
  · rw [same]
    decide

end Cursor

end SetAssociative
