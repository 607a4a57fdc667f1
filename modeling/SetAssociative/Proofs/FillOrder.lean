import SetAssociative.Proofs.CursorTurns
import SetAssociative.Proofs.PolicyExchange
import SetAssociative.Proofs.UnpinnedSets

/-! Without pins and removals a set is filled from its first way to its last, and then gives
its lines up in the same turn over and over. A cursor that goes around the ways and stamps
that remember the fills are two accounts of this one order: the ways that hold lines, the
one filled first in front, are the beginning of the turn of the cursor. -/
namespace SetAssociative

namespace Cursor
variable {c : Cursor} {order : List Nat} {view : View} {way : Nat}

/-- The cursor behind the way at which it is. -/
def advance (c : Cursor) : Cursor := { c with next := (c.next + 1) % c.ways }

/-- The turn after a victim is the same turn with the victim at its end. -/
theorem turn_advance (inside : c.next < c.ways) : c.advance.turn = c.turn.tail ++ [c.next] := by
  have split : c.turn = [] ++ c.next :: c.turn.tail := turn_eq_cons inside
  exact turn_past split

/-- If the way at the cursor is evictable, it is the victim, and the cursor advances. -/
theorem select_of_open (inside : c.next < c.ways) (open_way : view c.next = true) :
    c.select view = (some c.next, c.advance) := by
  have split : c.turn = [] ++ c.next :: c.turn.tail := turn_eq_cons inside
  exact select_of_turn split (fun _ member => absurd member List.not_mem_nil) open_way

/-- Some ways are the beginning of a turn, and unless they are the whole of it, the turn starts
at the first way. -/
structure Leads (c : Cursor) (order : List Nat) : Prop where
  inside : c.next < c.ways
  first : order <+: c.turn
  rests : order.length < c.ways → c.next = 0

/-- Ways that are not yet the whole turn are the lowest ways. -/
theorem Leads.eq_range (leads : c.Leads order) (part : order.length < c.ways) :
    order = List.range order.length := by
  have taken := List.prefix_iff_eq_take.mp leads.first
  rw [turn_eq_range (leads.rests part), List.take_range, Nat.min_eq_left (Nat.le_of_lt part)]
    at taken
  exact taken

theorem Leads.mem_iff (leads : c.Leads order) (part : order.length < c.ways) :
    way ∈ order ↔ way < order.length := by
  conv_lhs => rw [leads.eq_range part]
  exact List.mem_range

/-- Ways that leave none out are the whole turn. -/
theorem Leads.eq_turn (leads : c.Leads order) (all : ∀ way < c.ways, way ∈ order) :
    order = c.turn := by
  refine leads.first.eq_of_length_le (Nat.le_of_not_lt fun part => ?_)
  rw [length_turn] at part
  exact Nat.lt_irrefl _ ((leads.mem_iff part).mp (all order.length part))

/-- The first way that is left out can be added at the end. -/
theorem Leads.concat (leads : c.Leads order) (inside : way < c.ways) (absent : way ∉ order)
    (lower : ∀ other < way, other ∈ order) : c.Leads (order ++ [way]) := by
  have part : order.length < c.ways := by
    refine Nat.lt_of_not_le fun whole => absent ?_
    rw [leads.first.eq_of_length_le (by rwa [length_turn])]
    exact mem_turn.mpr inside
  have next : way = order.length := by
    rw [leads.mem_iff part] at absent
    refine Nat.le_antisymm (Nat.le_of_not_lt fun above => ?_) (Nat.le_of_not_lt absent)
    exact Nat.lt_irrefl _ ((leads.mem_iff part).mp (lower _ above))
  refine ⟨leads.inside, ?_, fun _ => leads.rests part⟩
  rw [turn_eq_range (leads.rests part)]
  have grown : order ++ [way] = (List.range c.ways).take (order.length + 1) := by
    rw [List.take_range, Nat.min_eq_left part, List.range_succ,
      ← leads.eq_range part, next]
  rw [grown]
  exact List.take_prefix ..

/-- The whole turn is led by the cursor that starts it. -/
theorem leads_turn (inside : c.next < c.ways) : c.Leads c.turn where
  inside := inside
  first := List.prefix_refl _
  rests part := absurd part (by rw [length_turn]; exact Nat.lt_irrefl _)

end Cursor

namespace Stamps
variable {fills : Stamps} {view after : View} {order : List Nat} {way : Nat}

/-- The evictable ways in the order of their stamps, the earliest first. -/
structure Queues (fills : Stamps) (view : View) (order : List Nat) : Prop where
  past : fills.Past
  member : ∀ {way}, way ∈ order ↔ view way = true
  ascending : order.Pairwise fun first second => fills.time first < fills.time second

theorem Queues.nodup (queues : fills.Queues view order) : order.Nodup := by
  refine queues.ascending.imp fun less same => ?_
  rw [same] at less
  exact Nat.lt_irrefl _ less

theorem Queues.not_mem (queues : fills.Queues view order) (closed : view way = false) :
    way ∉ order := by
  rw [queues.member, closed]
  exact Bool.false_ne_true

theorem queues_untouched (ways : Nat) (closed : ∀ way, view way = false) :
    (untouched ways).Queues view [] where
  past := past_untouched ways
  member := by
    intro way
    simp only [closed, List.not_mem_nil, Bool.false_eq_true]
  ascending := .nil

theorem Queues.congr (queues : fills.Queues view order) (same : ∀ way, after way = view way) :
    fills.Queues after order where
  past := queues.past
  member := by
    intro way
    rw [same]
    exact queues.member
  ascending := queues.ascending

/-- A way that is stamped comes last. -/
theorem Queues.touch (queues : fills.Queues view order) (inside : way < fills.ways)
    (opened : ∀ other, after other = true ↔ other = way ∨ view other = true) :
    (fills.touch way).Queues after (order.erase way ++ [way]) where
  past := queues.past.touch way
  member := by
    intro other
    rw [List.mem_append, List.mem_singleton, queues.nodup.mem_erase_iff, queues.member, opened]
    by_cases same : other = way
    · simp only [same, ne_eq, not_true_eq_false, false_and, false_or, true_or]
    · simp only [same, ne_eq, not_false_eq_true, true_and, or_false, false_or]
  ascending := by
    have kept : ∀ other ∈ order.erase way, (fills.touch way).time other = fills.time other := by
      intro other member
      have apart := (queues.nodup.mem_erase_iff.mp member).1
      rw [time_touch fills inside, if_neg (Ne.symm apart)]
    refine List.pairwise_append.mpr ⟨?_, List.pairwise_singleton .., ?_⟩
    · refine (queues.ascending.sublist List.erase_sublist).imp_of_mem ?_
      intro first second earlier later less
      rwa [kept first earlier, kept second later]
    · intro other earlier last member
      rw [List.mem_singleton.mp member, kept other earlier, time_touch fills inside, if_pos rfl]
      exact Nat.lt_succ_of_le (queues.past other)

/-- The oldest way is the first of the queue. -/
theorem Queues.oldest (queues : fills.Queues view (way :: order)) (inside : way < fills.ways) :
    fills.oldest view = some way := by
  have open_way : view way = true := queues.member.mp List.mem_cons_self
  have picked : view.Picks fills.ways (fills.oldest view) := fills.picks_oldest
  cases chosen : fills.oldest view with
  | none =>
    rw [chosen] at picked
    rw [View.candidates_eq_nil_iff.mp picked way inside] at open_way
    cases open_way
  | some other =>
    rw [chosen] at picked
    have least := time_oldest_le chosen inside open_way
    rcases List.mem_cons.mp (queues.member.mpr (View.mem_candidates.mp picked).2) with rfl | later
    · rfl
    · have less := (List.pairwise_cons.mp queues.ascending).1 other later
      exact absurd least (Nat.not_le.mpr less)

end Stamps

/-- A cursor and stamps that remember the fills give the same account of the order in which
some ways were filled. -/
structure Accord (cursor : Cursor) (fills : Stamps) (view : View) (order : List Nat) : Prop where
  ways : fills.ways = cursor.ways
  queues : fills.Queues view order
  leads : cursor.Leads order

namespace Accord
variable {cursor : Cursor} {fills : Stamps} {view after : View} {order : List Nat} {way : Nat}

theorem congr (accord : Accord cursor fills view order) (same : ∀ way, after way = view way) :
    Accord cursor fills after order where
  ways := accord.ways
  queues := accord.queues.congr same
  leads := accord.leads

/-- A fill of the lowest way that is left out adds it to both accounts. -/
theorem fill (accord : Accord cursor fills view order) (inside : way < cursor.ways)
    (closed : view way = false) (lower : ∀ other < way, view other = true)
    (opened : ∀ other, after other = true ↔ other = way ∨ view other = true) :
    Accord cursor (fills.touch way) after (order ++ [way]) where
  ways := (fills.ways_touch way).trans accord.ways
  queues := by
    have added := accord.queues.touch (accord.ways ▸ inside) opened
    rwa [List.erase_of_not_mem (accord.queues.not_mem closed)] at added
  leads := accord.leads.concat inside (accord.queues.not_mem closed) fun other below =>
    accord.queues.member.mpr (lower other below)

/-- When no way is left out, both accounts begin at the cursor. -/
theorem queues_turn (accord : Accord cursor fills view order)
    (full : ∀ way < cursor.ways, view way = true) :
    fills.Queues view (cursor.next :: cursor.turn.tail) := by
  have queues := accord.queues
  rwa [accord.leads.eq_turn fun way inside => queues.member.mpr (full way inside),
    Cursor.turn_eq_cons accord.leads.inside] at queues

/-- When no way is left out, the way at the cursor is the one that was filled first. -/
theorem oldest_eq (accord : Accord cursor fills view order)
    (full : ∀ way < cursor.ways, view way = true) : fills.oldest view = some cursor.next :=
  (accord.queues_turn full).oldest (accord.ways ▸ accord.leads.inside)

/-- A fill of the way at the cursor, which is then advanced, brings it from the beginning to
the end of both accounts. -/
theorem advance (accord : Accord cursor fills view order)
    (full : ∀ way < cursor.ways, view way = true)
    (opened : ∀ other, after other = true ↔ other = cursor.next ∨ view other = true) :
    Accord cursor.advance (fills.touch cursor.next) after cursor.advance.turn where
  ways := (fills.ways_touch cursor.next).trans accord.ways
  queues := by
    have inside := accord.leads.inside
    have requeued := (accord.queues_turn full).touch (accord.ways ▸ inside) opened
    rwa [List.erase_cons_head, ← Cursor.turn_advance inside] at requeued
  leads := Cursor.leads_turn (Nat.mod_lt _ (Nat.zero_lt_of_lt accord.leads.inside))

end Accord

/-- A cursor at the first way and stamps of untouched ways agree that no way was filled. -/
theorem accord_start {ways : Nat} {view : View} (positive : 0 < ways)
    (closed : ∀ way, view way = false) : Accord (.start ways) (.untouched ways) view [] where
  ways := List.length_replicate
  queues := Stamps.queues_untouched ways closed
  leads := ⟨positive, List.nil_prefix, fun _ => rfl⟩

namespace CacheSet
variable {s : CacheSet} {q : Policy} {tag way : Nat} {dirty pinned : Bool}

/-- Of a way into which a line is put it depends on the pin alone whether it is evictable. -/
theorem view_put (inside : way < s.ways) (other : Nat) :
    (s.put tag way dirty pinned).view other = if way = other then !pinned else s.view other := by
  rw [view, put, way?_setWay s _ inside]
  split
  · simp [Way.evictable]
  · rfl

/-- A line that keeps its pin changes nothing about which ways are evictable. -/
theorem Holds.view_put {line : Line} (held : s.Holds tag line) (dirty : Bool) (way : Nat) :
    (s.put tag line.way dirty line.pinned).view way = s.view way := by
  rw [CacheSet.view_put held.inside]
  split
  · rename_i here
    subst here
    have there : s.way? line.way = some _ := held
    rw [view, there]
    rfl
  · rfl

/-- A way into which a line is put that is not pinned becomes evictable. -/
theorem view_put_released (inside : way < s.ways) (tag : Nat) (dirty : Bool) (other : Nat) :
    (s.put tag way dirty false).view other = true ↔ other = way ∨ s.view other = true := by
  rw [view_put inside]
  by_cases same : way = other
  · simp [same]
  · simp [same, Ne.symm same]

/-- A set without pins that goes around its ways, and a policy that keeps the times of fills:
both are about to give up the ways that hold lines in one order. -/
structure InStep (s : CacheSet) (q : Policy) : Prop where
  unpinned : s.Unpinned
  accounts : ∃ cursor fills order, s.policy = .roundRobin cursor ∧ q = .fifo fills ∧
    cursor.ways = s.ways ∧ Accord cursor fills s.view order

/-- Both policies name the way at the cursor as the victim. -/
theorem InStep.alike (inStep : s.InStep q) (full : s.freeWay? = none) :
    (q.search s.view).1 = (s.policy.search s.view).1 := by
  obtain ⟨unpinned, cursor, fills, order, turns, rfl, ways, accord⟩ := inStep
  have all : ∀ way < cursor.ways, s.view way = true :=
    fun way inside => unpinned.view_of_full full (ways ▸ inside)
  have inside := accord.leads.inside
  rw [turns]
  calc
    fills.oldest s.view = some cursor.next := accord.oldest_eq all
    _ = (cursor.select s.view).1 := by rw [Cursor.select_of_open inside (all _ inside)]

/-- The policies stay in step through an access: a hit changes neither account, a fill of a
free way adds the way to both, and a replacement advances both. -/
theorem InStep.access (inStep : s.InStep q) (tag : Nat) (write : Bool) :
    (s.serve tag (.access write)).set.InStep (q.run (s.events tag (.access write))).2 := by
  refine ⟨inStep.unpinned.serve tag rfl, ?_⟩
  obtain ⟨unpinned, cursor, fills, order, turns, rfl, ways, accord⟩ := inStep
  have effect := effect_serve unpinned.sound.fits tag (.access write)
  have same := ways_serve s tag (.access write)
  generalize s.serve tag (.access write) = response at effect same ⊢
  cases effect with
  | hit line found held =>
    refine ⟨cursor, fills, order, ?_, ?_, ways.trans same.symm, accord.congr (held.view_put _)⟩
    · rw [turns]
      rfl
    · simp only [events, found]
      rfl
  | fill way w absent free here vacant =>
    have inside := lt_ways_of_way? here
    have closed : s.view way = false := by
      rw [view, here, Option.any_some, Way.evictable, vacant, Bool.false_and]
    have lower : ∀ other < way, s.view other = true := by
      intro other below
      obtain ⟨v, there, valid⟩ := (way?_of_freeWay? free).2 other below
      exact unpinned.view_of_valid there valid
    refine ⟨cursor, fills.touch way, order ++ [way], ?_, ?_, ways.trans same.symm,
      accord.fill (ways ▸ inside) closed lower (view_put_released inside tag write)⟩
    · rw [turns]
      rfl
    · simp only [events, absent, free]
      rfl
  | replace old victim absent full chosen held released =>
    have all : ∀ way < cursor.ways, s.view way = true :=
      fun way inside => unpinned.view_of_full full (ways ▸ inside)
    have searched : s.policy.search s.view = (some cursor.next, .roundRobin cursor.advance) := by
      have inside := accord.leads.inside
      rw [turns, Policy.search, Cursor.select_of_open inside (all _ inside)]
    have first : cursor.next = victim.way := by
      rw [searched] at chosen
      exact Option.some.inj chosen
    refine ⟨cursor.advance, fills.touch cursor.next, cursor.advance.turn, ?_, ?_,
      ways.trans same.symm, accord.advance all ?_⟩
    · rw [searched]
      rfl
    · simp only [events, absent, full, searched, Option.map_some, Option.toList_some, Policy.run,
        Policy.step, Policy.selectVictim_snd]
      rfl
    · rw [first]
      exact view_put_released held.inside tag write
  | exhausted absent full none_open => exact absurd none_open (unpinned.not_closed full)

/-- An empty set is in step with stamps of untouched ways. -/
theorem inStep_ofGeometry (config : Config) (g : Geometry) (seed : UInt64) :
    (ofGeometry { config with policy := .roundRobin } g seed).InStep (.fresh .fifo g.ways seed) where
  unpinned := unpinned_ofGeometry ..
  accounts := by
    refine ⟨.start g.ways, .untouched g.ways, [], rfl, rfl, List.length_replicate.symm,
      accord_start g.ways_pos fun way => Bool.eq_false_iff.mpr fun open_way => ?_⟩
    obtain ⟨w, here, valid, -⟩ := view_eq_true_iff.mp open_way
    exact not_holds_empty (holds_of_valid here valid)

end CacheSet

/-- Two disciplines name the same victims as long as there are only accesses. -/
theorem interchange_inStep : Interchange CacheSet.InStep fun request =>
    ∃ write, request = .access write where
  ways := by
    rintro s q ⟨unpinned, cursor, fills, order, turns, rfl, ways, accord⟩
    rw [turns]
    exact accord.ways
  alike inStep full := inStep.alike full
  kept := by
    rintro s q request inStep ⟨write, rfl⟩ tag
    exact inStep.access tag write

namespace Cache
variable {config : Config} {c d : Cache}

/-- A cache that goes around the ways and a cache that gives up the line filled first answer
every run of accesses alike, and hold the same lines in the same ways, the counters equal. -/
theorem round_robin_agrees_with_fifo
    (built : ofConfig { config with policy := .roundRobin } = .ok c)
    (also : ofConfig { config with policy := .fifo } = .ok d) (uses : List (UInt64 × Bool)) :
    (c.run (accesses uses)).1 = (d.run (accesses uses)).1 ∧
    (∀ index : Nat, (c.run (accesses uses)).2.sets[index]?.map CacheSet.slots =
      (d.run (accesses uses)).2.sets[index]?.map CacheSet.slots) ∧
    (c.run (accesses uses)).2.stats = (d.run (accesses uses)).2.stats := by
  have start : Exchanged CacheSet.InStep c d :=
    exchanged_of_ofConfig built also fun g seed => CacheSet.inStep_ofGeometry config g seed
  have fair : ∀ op ∈ accesses uses, ∃ address request, op.request? = some (address, request) ∧
      ∃ write, request = .access write := by
    intro op member
    obtain ⟨use, -, rfl⟩ := List.mem_map.mp member
    exact ⟨use.1, .access use.2, rfl, use.2, rfl⟩
  obtain ⟨answers, last⟩ := start.run interchange_inStep fair
  exact ⟨answers, fun index => (last.slots index).symm, last.stats.symm⟩

/-- A hit does not save the line that was filled first, under either discipline. -/
theorem pair_gives_up_the_line_filled_first :
    ∃ c d, ofConfig { Config.pair with policy := .roundRobin } = .ok c ∧
      ofConfig { Config.pair with policy := .fifo } = .ok d ∧
      let ops := accesses [(0, true), (64, false), (0, false), (128, true), (64, true), (0, false)]
      ((c.run ops).1 = (d.run ops).1 ∧
        (∀ index : Nat, (c.run ops).2.sets[index]?.map CacheSet.slots =
          (d.run ops).2.sets[index]?.map CacheSet.slots) ∧
        (c.run ops).2.stats = (d.run ops).2.stats) ∧
      (d.run ops).2.stats =
        { accesses := 6, hits := 2, misses := 4, fills := 4, evictions := 2, writebacks := 2 } :=
  ⟨_, _, rfl, rfl, round_robin_agrees_with_fifo
    (rfl : ofConfig { Config.pair with policy := .roundRobin } = .ok _)
    (rfl : ofConfig { Config.pair with policy := .fifo } = .ok _) _, by decide⟩

end Cache

end SetAssociative
