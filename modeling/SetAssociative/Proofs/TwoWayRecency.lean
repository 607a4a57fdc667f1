import SetAssociative.Proofs.MarkedWays
import SetAssociative.Proofs.PolicyExchange
import SetAssociative.Proofs.SelectionHistory

/-! Of two ways, a mark that takes the other away shows which one was used last. That is all
that stamps tell of two ways, and so in sets of no more the discipline with marks and the one
with stamps name the same victims, and their caches cannot be told apart. -/
namespace SetAssociative

/-- Two searches among the same candidates end alike unless they find different ways. -/
theorem View.Picks.eq_of_agree {view : View} {ways : Nat} {found other : Option Nat}
    (picks : view.Picks ways found) (also : view.Picks ways other)
    (agree : ∀ a b, found = some a → other = some b → a = b) : found = other := by
  cases found with
  | none =>
    cases other with
    | none => rfl
    | some way =>
      rw [View.Picks, show view.candidates ways = [] from picks] at also
      cases also
  | some way =>
    cases other with
    | none =>
      rw [View.Picks, show view.candidates ways = [] from also] at picks
      cases picks
    | some same => exact congrArg some (agree way same rfl rfl)

namespace Marks
variable {m : Marks} {s : Stamps} {view : View}

/-- Of two ways the one that is stamped later is marked, and there are no more than two. -/
structure TellsOrder (m : Marks) (s : Stamps) : Prop where
  ways_eq : s.ways = m.ways
  few : m.ways ≤ 2
  past : s.Past
  marked : ∀ {way other}, way < m.ways → other < m.ways → way ≠ other →
    (m.bits.contains way = true ↔ s.time other < s.time way)

theorem tellsOrder_unmarked {ways : Nat} (few : ways ≤ 2) :
    (unmarked ways).TellsOrder (.untouched ways) where
  ways_eq := List.length_replicate
  few := few
  past := Stamps.past_untouched ways
  marked := by
    intro way other _ _ _
    have never := Stamps.past_untouched ways way
    simp only [unmarked, WayBits.contains_empty, Bool.false_eq_true, false_iff, Nat.not_lt]
    exact Nat.le_trans never (Nat.zero_le _)

/-- A use of one of two ways is the later one, whether or not it takes the other mark away. -/
theorem TellsOrder.touch (tells : m.TellsOrder s) (used : Nat) :
    (m.markInPhase used).TellsOrder (s.touch used) := by
  by_cases inside : used < m.ways
  · refine ⟨?_, ?_, tells.past.touch used, ?_⟩
    · rw [Stamps.ways_touch, ways_markInPhase, tells.ways_eq]
    · rw [ways_markInPhase]
      exact tells.few
    · intro way other here there apart
      rw [ways_markInPhase] at here there
      have few := tells.few
      have there_stale := tells.past other
      have here_stale := tells.past way
      rw [contains_markInPhase (Nat.le_trans few (by decide)) inside,
        Stamps.time_touch s (tells.ways_eq ▸ inside), Stamps.time_touch s (tells.ways_eq ▸ inside)]
      by_cases first : used = way
      · rw [if_pos first, if_neg fun second => apart (first.symm.trans second)]
        exact iff_of_true (.inl first.symm) (Nat.lt_succ_of_le there_stale)
      · -- the mark of the other way is the last one that was missing
        have second : used = other := by omega
        rw [if_neg first, if_pos second]
        refine iff_of_false ?_ (by omega)
        rintro (same | ⟨marked, spare, inside, free, clear⟩)
        · exact first same.symm
        · have only : spare = way := by omega
          rw [only, marked] at clear
          cases clear
  · rw [markInPhase, if_neg inside, Stamps.touch, if_neg (tells.ways_eq ▸ inside)]
    exact tells

/-- The first evictable way without a mark is the one that was stamped first. -/
theorem TellsOrder.select (tells : m.TellsOrder s) (view : View) :
    m.select view = s.oldest view := by
  have picks : view.Picks m.ways (m.select view) := m.picks_select
  have also : view.Picks m.ways (s.oldest view) := tells.ways_eq ▸ s.picks_oldest
  refine picks.eq_of_agree also fun way oldest selected chosen => ?_
  rw [selected] at picks
  rw [chosen] at also
  obtain ⟨here, open_way⟩ := View.mem_candidates.mp picks
  obtain ⟨there, also_open⟩ := View.mem_candidates.mp also
  refine Classical.byContradiction fun apart => ?_
  -- the oldest way has no mark, so that the one selected has none and is not above it
  have least := Stamps.time_oldest_le chosen (tells.ways_eq ▸ here) open_way
  have clear : m.bits.contains oldest = false := by
    rw [← Bool.not_eq_true, tells.marked there here (Ne.symm apart)]
    exact Nat.not_lt.mpr least
  obtain ⟨unused, below⟩ := select_of_clear selected there also_open clear
  have not_later : ¬ s.time oldest < s.time way := by
    rw [← tells.marked here there apart, unused]
    exact Bool.false_ne_true
  have tie := Stamps.oldest_le chosen (tells.ways_eq ▸ here) open_way (Nat.not_lt.mp not_later)
  exact apart (Nat.le_antisymm below tie)

end Marks

namespace Policy
variable {p q : Policy} {n : Nat} {events : List Event}

/-- Marks and stamps that tell the same order of two ways. -/
def OrdersAlike (p q : Policy) : Prop := ∃ m s, p = .plru m ∧ q = .lru s ∧ m.TellsOrder s

theorem ordersAlike_fresh {ways : Nat} (few : ways ≤ 2) (seed : UInt64) :
    (fresh .plru ways seed).OrdersAlike (fresh .lru ways seed) :=
  ⟨_, _, rfl, rfl, Marks.tellsOrder_unmarked few⟩

theorem OrdersAlike.ways (alike : p.OrdersAlike q) : q.ways = p.ways := by
  obtain ⟨m, s, rfl, rfl, tells⟩ := alike
  exact tells.ways_eq

theorem OrdersAlike.search (alike : p.OrdersAlike q) (view : View) :
    (p.search view).1 = (q.search view).1 := by
  obtain ⟨m, s, rfl, rfl, tells⟩ := alike
  exact tells.select view

/-- An event is answered alike, and the order of the ways is told alike after it. -/
theorem OrdersAlike.step (alike : p.OrdersAlike q) (event : Event) :
    (p.step event).1 = (q.step event).1 ∧ (p.step event).2.OrdersAlike (q.step event).2 := by
  cases event with
  | used outcome =>
    obtain ⟨m, s, rfl, rfl, tells⟩ := alike
    exact ⟨rfl, _, _, rfl, rfl, tells.touch outcome.way⟩
  | asked view =>
    have searched := alike.search view
    have ways := alike.ways
    refine ⟨?_, ?_⟩
    · simp only [Policy.step, selectVictim, searched, ways]
      cases (q.search view).1 <;> rfl
    · obtain ⟨m, s, rfl, rfl, tells⟩ := alike
      rw [Policy.step, Policy.step, selectVictim_snd, selectVictim_snd]
      exact ⟨m, s, rfl, rfl, tells⟩

theorem OrdersAlike.run (alike : p.OrdersAlike q) (events : List Event) :
    (p.run events).1 = (q.run events).1 ∧ (p.run events).2.OrdersAlike (q.run events).2 := by
  induction events generalizing p q with
  | nil => exact ⟨rfl, alike⟩
  | cons event events ih =>
    obtain ⟨answered, next⟩ := alike.step event
    obtain ⟨answers, last⟩ := ih next
    exact ⟨by simp only [Policy.run, answered, answers], last⟩

theorem Steady.stepChecked_eq {event : Event} (steady : p.Steady n)
    (room : n + event.isReport.toNat < UInt64.size) : p.stepChecked event = .ok (p.step event) := by
  cases event with
  | used outcome =>
    rw [stepChecked, recordChecked_eq steady room]
    rfl
  | asked view =>
    simp only [stepChecked, searchChecked_eq steady, Checked.ok_bind, step, selectVictim]
    generalize p.search view = searched
    obtain ⟨found, after⟩ := searched
    cases found <;> rfl

theorem Steady.step (steady : p.Steady n) (event : Event) :
    (p.step event).2.Steady (n + event.isReport.toNat) := by
  cases event with
  | used outcome => exact steady.record outcome
  | asked view =>
    rw [Policy.step, selectVictim_snd]
    exact steady.search view

/-- The machine does not stop as long as its words count the reports. -/
theorem Steady.runChecked_eq (steady : p.Steady n)
    (room : n + events.countP Event.isReport < UInt64.size) :
    p.runChecked events = .ok (p.run events) := by
  induction events generalizing p n with
  | nil => rfl
  | cons event events ih =>
    rw [List.countP_cons, ← toNat_eq_ite, Nat.add_comm (events.countP _), ← Nat.add_assoc] at room
    have stepped := steady.stepChecked_eq (Nat.lt_of_le_of_lt (Nat.le_add_right ..) room)
    simp only [runChecked, stepped, Checked.ok_bind, ih (steady.step event) room]
    rfl

end Policy

/-- Where no set has more than two ways, marks and stamps name the same victims, after each
request and each flush. -/
theorem interchange_ordersAlike :
    Interchange (fun s q => s.policy.OrdersAlike q) fun _ => True where
  ways related := related.ways
  alike related _ := (related.search _).symm
  kept := by
    intro s q request related _ tag
    rw [CacheSet.policy_serve]
    exact (related.run _).2

/-- With at most two ways, a policy with marks and one with stamps answer every sequence of reports
and requests alike, also on words of 64 bits as long as these count the reports. Two caches that
differ in these disciplines alone answer every run of operations alike, and then hold the same
lines in the same ways, the counters equal. -/
theorem two_ways_are_marked_in_order_of_use :
    (∀ {ways : Nat}, 0 < ways → ways ≤ 2 → ∀ (seed : UInt64) (events : List Policy.Event),
      ((Policy.fresh .plru ways seed).run events).1 = ((Policy.fresh .lru ways seed).run events).1 ∧
      (events.countP Policy.Event.isReport < UInt64.size → ∀ kind,
        (Policy.fresh kind ways seed).runChecked events =
          .ok ((Policy.fresh kind ways seed).run events))) ∧
    (∀ {config : Config} {c d : Cache}, config.ways ≤ 2 →
      Cache.ofConfig { config with policy := .plru } = .ok c →
      Cache.ofConfig { config with policy := .lru } = .ok d → ∀ ops : List Cache.Op,
      (c.run ops).1 = (d.run ops).1 ∧
      (∀ index : Nat, (c.run ops).2.sets[index]?.map CacheSet.slots =
        (d.run ops).2.sets[index]?.map CacheSet.slots) ∧
      (c.run ops).2.stats = (d.run ops).2.stats) := by
  constructor
  · intro ways some_way few seed events
    refine ⟨((Policy.ordersAlike_fresh few seed).run events).1, fun room kind => ?_⟩
    have steady := Policy.steady_fresh kind some_way (Nat.le_trans few (by decide)) seed
    exact steady.runChecked_eq ((Nat.zero_add _).symm ▸ room)
  · intro config c d few built also ops
    have start : Cache.Exchanged (fun s q => s.policy.OrdersAlike q) c d := by
      refine Cache.exchanged_of_geometry built also fun g shape seed => ?_
      have ways := (Config.of_geometry shape).1
      exact Policy.ordersAlike_fresh (ways ▸ UInt64.le_iff_toNat_le.mp few) seed
    obtain ⟨answers, last⟩ := start.run_all interchange_ordersAlike id ops
    exact ⟨answers, fun index => (last.slots index).symm, last.stats.symm⟩

/-- A pinned line sends both disciplines to the way used last, in a policy and in a cache. -/
theorem pair_gives_up_the_line_beside_a_pinned_one :
    ((Policy.fresh .plru 2 0).run [.used (.fill 0), .used (.fill 1), .asked (· == 1)]).1 =
      ((Policy.fresh .lru 2 0).run [.used (.fill 0), .used (.fill 1), .asked (· == 1)]).1 ∧
    ∃ c d, Cache.ofConfig { Config.pair with policy := .plru } = .ok c ∧
      Cache.ofConfig { Config.pair with policy := .lru } = .ok d ∧
      let ops : List Cache.Op := [.access 0 false, .access 64 true, .pin 0, .access 128 true,
        .unpin 0, .access 192 true, .invalidate 128, .flush]
      ((c.run ops).1 = (d.run ops).1 ∧
        (∀ index : Nat, (c.run ops).2.sets[index]?.map CacheSet.slots =
          (d.run ops).2.sets[index]?.map CacheSet.slots) ∧
        (c.run ops).2.stats = (d.run ops).2.stats) ∧
      (d.run ops).2.stats =
        { accesses := 4, hits := 0, misses := 4, fills := 4, evictions := 2, writebacks := 3 } :=
  ⟨(two_ways_are_marked_in_order_of_use.1 (by decide) (Nat.le_refl 2) 0 _).1, _, _, rfl, rfl,
    two_ways_are_marked_in_order_of_use.2 (show Config.pair.ways ≤ 2 by decide)
      (rfl : Cache.ofConfig { Config.pair with policy := .plru } = .ok _)
      (rfl : Cache.ofConfig { Config.pair with policy := .lru } = .ok _) _, by decide⟩

/-- Of three ways, the marks do not tell which of the other two was used first. -/
example :
    let events : List Policy.Event := [.used (.fill 1), .used (.fill 0), .used (.fill 2)]
    (((Policy.fresh .plru 3 0).run events).2.selectVictim fun _ => true).1 = .ok 0 ∧
    (((Policy.fresh .lru 3 0).run events).2.selectVictim fun _ => true).1 = .ok 1 := ⟨rfl, rfl⟩

end SetAssociative
