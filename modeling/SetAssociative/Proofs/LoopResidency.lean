import SetAssociative.Proofs.CyclicAccess

/-! What a set keeps of a loop when it evicts the line used most recently. Once it is full,
its lines are those of a stretch of accesses one shorter than it has ways, and the one used
last. The stretch stays while the loop goes on, and starts anew one step earlier in each
lap. -/
namespace SetAssociative

/-- A lap after an access comes the same tag, counted from a lap less one step on. -/
theorem Loop.tag_lap {tag : Nat → Nat} {period : Nat} (loop : Loop tag (period + 1))
    (first step : Nat) : tag (first + period + (step + 1)) = tag (first + step) := by
  rw [← loop.returns (first + step)]
  congr 1
  omega

/-- The tags that are kept of a loop, the one used last first. Those of the stretch of the given
width from the first access on are among them, and one more: the tag next to the stretch
until the loop leaves it, and the one used last from then on. -/
structure Window (tag : Nat → Nat) (width first last : Nat) (order : List Nat) : Prop where
  nodup : order.Nodup
  latest : ∃ rest, order = tag last :: rest
  length : order.length = width + 1
  member : ∀ other, other ∈ order ↔
    (∃ u, first ≤ u ∧ u < first + width ∧ tag u = other) ∨ tag (max (first + width) last) = other

namespace Window
variable {tag : Nat → Nat} {width period first last : Nat} {order : List Nat}

/-- The first accesses of the loop, when they are as many as there are ways. -/
theorem start (nodup : ((List.range (width + 1)).map tag).reverse.Nodup) :
    Window tag width 0 width ((List.range (width + 1)).map tag).reverse where
  nodup := nodup
  latest := ⟨((List.range width).map tag).reverse, by
    rw [List.range_succ, List.map_append, List.reverse_append]
    rfl⟩
  length := by rw [List.length_reverse, List.length_map, List.length_range]
  member := by
    intro other
    rw [Nat.zero_add, Nat.max_self, List.mem_reverse, List.mem_map]
    constructor
    · rintro ⟨u, listed, same⟩
      rcases Nat.lt_succ_iff_lt_or_eq.mp (List.mem_range.mp listed) with before | rfl
      · exact .inl ⟨u, Nat.zero_le u, before, same⟩
      · exact .inr same
    · rintro (⟨u, -, before, same⟩ | same)
      · exact ⟨u, List.mem_range.mpr (Nat.lt_succ_of_lt before), same⟩
      · exact ⟨width, List.self_mem_range_succ, same⟩

/-- The next tag is kept as long as the loop has not left the stretch. -/
theorem next_mem_iff (window : Window tag width first last order) (loop : Loop tag (period + 1))
    (begun : first ≤ last) (inside : last < first + period) :
    tag (last + 1) ∈ order ↔ last < first + width := by
  rw [window.member]
  constructor
  · rintro (⟨u, low, high, same⟩ | same)
    · refine Nat.lt_of_not_le fun left => ?_
      exact loop.apart (by omega) (by omega) same
    · refine Nat.lt_of_not_le fun left => ?_
      rw [Nat.max_eq_right left] at same
      exact loop.apart (by omega) (by omega) same
  · intro before
    rcases Nat.lt_or_eq_of_le (Nat.succ_le_of_lt before) with within | next
    · exact .inl ⟨last + 1, by omega, within, rfl⟩
    · exact .inr (by rw [← next, Nat.max_eq_left (by omega)])

/-- A tag of the stretch comes to the front. -/
theorem hit (window : Window tag width first last order) (before : last < first + width)
    (kept : tag (last + 1) ∈ order) :
    Window tag width first (last + 1) (tag (last + 1) :: order.erase (tag (last + 1))) where
  nodup := List.nodup_cons.mpr ⟨window.nodup.not_mem_erase, window.nodup.erase _⟩
  latest := ⟨_, rfl⟩
  length := by
    have positive := List.length_pos_of_mem kept
    rw [List.length_cons, List.length_erase_of_mem kept, window.length]
    rfl
  member := by
    intro other
    have same : other ∈ tag (last + 1) :: order.erase (tag (last + 1)) ↔ other ∈ order := by
      rw [List.mem_cons, window.nodup.mem_erase_iff]
      by_cases equal : other = tag (last + 1)
      · simp [equal, kept]
      · simp [equal]
    rw [same, window.member, Nat.max_eq_left (by omega), Nat.max_eq_left (by omega)]

/-- Past the stretch, the next tag replaces the one used last. -/
theorem miss (window : Window tag width first last order) (loop : Loop tag (period + 1))
    (left : first + width ≤ last) (inside : last < first + period)
    (fresh : tag (last + 1) ∉ order) :
    Window tag width first (last + 1) (tag (last + 1) :: order.tail) := by
  obtain ⟨rest, rfl⟩ := window.latest
  have nodup := List.nodup_cons.mp window.nodup
  refine ⟨List.nodup_cons.mpr ⟨fun kept => fresh (List.mem_cons_of_mem _ kept), nodup.2⟩,
    ⟨_, rfl⟩, window.length, fun other => ?_⟩
  have members := window.member other
  rw [Nat.max_eq_right left, List.mem_cons] at members
  rw [Nat.max_eq_right (by omega), List.tail_cons, List.mem_cons]
  constructor
  · rintro (rfl | kept)
    · exact .inr rfl
    · refine .inl ((members.mp (.inr kept)).resolve_right fun same => ?_)
      exact nodup.1 (same ▸ kept)
  · rintro (⟨u, low, high, same⟩ | same)
    · refine .inr ((members.mpr (.inl ⟨u, low, high, same⟩)).resolve_left fun equal => ?_)
      exact loop.apart (i := u) (j := last) (by omega) (by omega) (same.trans equal)
    · exact .inl same.symm

/-- A lap less one step after the stretch began, the tags kept are again a stretch and the tag
next to it: that of the current access and those after it. -/
theorem turn (window : Window tag width first (first + period) order)
    (loop : Loop tag (period + 1)) (narrow : width < period) :
    Window tag width (first + period) (first + period) order where
  nodup := window.nodup
  latest := window.latest
  length := window.length
  member := by
    have later := loop.tag_lap first
    intro other
    rw [window.member, Nat.max_eq_right (by omega), Nat.max_eq_left (by omega)]
    constructor
    · rintro (⟨u, low, high, rfl⟩ | rfl)
      · obtain ⟨v, rfl⟩ := Nat.exists_eq_add_of_le low
        rw [← later]
        rcases Nat.lt_or_eq_of_le (Nat.succ_le_of_lt (Nat.lt_of_add_lt_add_left high))
          with within | last
        · exact .inl ⟨_, Nat.le_add_right .., Nat.add_lt_add_left within _, rfl⟩
        · exact .inr (by rw [← last])
      · cases width with
        | zero => exact .inr rfl
        | succ width => exact .inl ⟨_, Nat.le_refl _, by omega, rfl⟩
    · rintro (⟨u, low, high, rfl⟩ | rfl)
      · obtain ⟨v, rfl⟩ := Nat.exists_eq_add_of_le low
        cases v with
        | zero => exact .inr rfl
        | succ v => exact .inl ⟨first + v, Nat.le_add_right .., by omega, (later v).symm⟩
      · cases width with
        | zero => exact .inr rfl
        | succ width =>
          exact .inl ⟨first + width, Nat.le_add_right .., by omega, (later width).symm⟩

end Window

namespace CacheSet
variable {s : CacheSet} {tag : Nat → Nat} {write : Nat → Bool} {period n : Nat}

/-- While there are free ways, a set keeps all of a loop. -/
theorem Unpinned.ranked_after_of_le (unpinned : s.Unpinned) (mru : s.policy.kind = .mru)
    (blank : s.Ranked []) (loop : Loop tag period) (more : s.ways < period)
    (write : Nat → Bool) (room : n ≤ s.ways) :
    (s.after tag write n).Ranked ((List.range n).map tag).reverse := by
  induction n with
  | zero => exact blank
  | succ n ih =>
    have fresh : tag n ∉ ((List.range n).map tag).reverse := by
      intro kept
      obtain ⟨u, before, same⟩ := List.mem_map.mp (List.mem_reverse.mp kept)
      exact loop.apart (List.mem_range.mp before) (by omega) same
    have free : ((List.range n).map tag).reverse.length < (s.after tag write n).ways := by
      rw [List.length_reverse, List.length_map, List.length_range, ways_after]
      exact room
    have next := (unpinned.after tag write n).ranked_access_mru (ih (by omega))
      ((kind_after ..).trans mru) (tag n) (write n)
    rw [if_neg fresh, if_pos free, ← after_succ] at next
    rwa [List.range_succ, List.map_append, List.reverse_append]

/-- An access of the loop moves the window on. -/
theorem Unpinned.window_serve (unpinned : s.Unpinned) (mru : s.policy.kind = .mru)
    {width first last : Nat} {order : List Nat} (ranked : s.Ranked order)
    (window : Window tag width first last order) (full : s.ways = width + 1)
    (loop : Loop tag (period + 1)) (begun : first ≤ last) (inside : last < first + period)
    (write : Bool) :
    ∃ next, (s.serve (tag (last + 1)) (.access write)).set.Ranked next ∧
      Window tag width first (last + 1) next := by
  have next := unpinned.ranked_access_mru ranked mru (tag (last + 1)) write
  have kept := window.next_mem_iff loop begun inside
  by_cases before : last < first + width
  · rw [if_pos (kept.mpr before)] at next
    exact ⟨_, next, window.hit before (kept.mpr before)⟩
  · have fresh : tag (last + 1) ∉ order := fun member => before (kept.mp member)
    have none_free : ¬ order.length < s.ways := by rw [window.length, full]; omega
    rw [if_neg fresh, if_neg none_free] at next
    exact ⟨_, next, window.miss loop (Nat.le_of_not_lt before) inside fresh⟩

/-- Once a set is full, its lines are a window of the loop that began a number of laps, each
less one step, after the loop. -/
theorem Unpinned.window_after (unpinned : s.Unpinned) (mru : s.policy.kind = .mru)
    (blank : s.Ranked []) {width : Nat} (full : s.ways = width + 1)
    (loop : Loop tag (period + 1)) (narrow : width < period) (write : Nat → Bool) {last : Nat}
    (filled : width ≤ last) :
    ∃ laps order, period * laps ≤ last ∧ last < period * laps + period ∧
      (s.after tag write (last + 1)).Ranked order ∧
      Window tag width (period * laps) last order := by
  induction last, filled using Nat.le_induction with
  | base =>
    have ranked := unpinned.ranked_after_of_le mru blank loop (by omega) write
      (Nat.le_of_eq full.symm)
    exact ⟨0, _, Nat.zero_le _, by omega, ranked, .start ranked.nodup⟩
  | succ last filled ih =>
    obtain ⟨laps, order, begun, inside, ranked, window⟩ := ih
    obtain ⟨next, ranked', window'⟩ := (unpinned.after tag write (last + 1)).window_serve
      ((kind_after ..).trans mru) ranked window ((ways_after ..).trans full) loop begun inside
      (write (last + 1))
    rw [← after_succ] at ranked'
    -- the window stays in its stretch until the loop comes to the access before the stretch
    by_cases within : last + 1 < period * laps + period
    · exact ⟨laps, next, by omega, within, ranked', window'⟩
    · have lap : last + 1 = period * laps + period := by omega
      rw [lap] at window'
      refine ⟨laps + 1, next, ?_, ?_, ranked', ?_⟩
      · rw [Nat.mul_succ]; omega
      · rw [Nat.mul_succ]; omega
      · rw [Nat.mul_succ, lap]
        exact window'.turn loop narrow

/-- From the second lap on, the hits come as often as there are ways besides one, and then not
until a lap less one step is over. -/
theorem Unpinned.hitsAt_iff (unpinned : s.Unpinned) (mru : s.policy.kind = .mru)
    (blank : s.Ranked []) (loop : Loop tag (period + 1)) (more : s.ways ≤ period)
    (write : Nat → Bool) (i : Nat) :
    s.hitsAt tag write i ↔ period + 1 ≤ i ∧ (i - (period + 1)) % period < s.ways - 1 := by
  by_cases first : i < period + 1
  · refine iff_of_false (unpinned.not_hitsAt blank write loop first) fun later => ?_
    exact Nat.not_le.mpr first later.1
  · obtain ⟨steps, rfl⟩ := Nat.exists_eq_add_of_le (Nat.le_of_not_lt first)
    obtain ⟨width, full⟩ := Nat.exists_eq_add_of_le' unpinned.some_way
    have filled : width ≤ period + steps := by omega
    obtain ⟨laps, order, begun, inside, ranked, window⟩ :=
      unpinned.window_after mru blank full loop (by omega) write filled
    have place : period + 1 + steps = period + steps + 1 := Nat.add_right_comm ..
    have since : steps % period = period + steps - period * laps := by
      obtain ⟨rest, same⟩ := Nat.exists_eq_add_of_le begun
      rw [← Nat.add_mod_left, same, Nat.mul_add_mod, Nat.mod_eq_of_lt (by omega),
        Nat.add_sub_cancel_left]
    rw [hitsAt, mem_tags, place, ← ranked.member, window.next_mem_iff loop begun inside, ← place,
      Nat.add_sub_cancel_left, since, full]
    omega

/-- No discipline hits more often on a loop than to evict the line used most recently does. -/
theorem Unpinned.count_hitsAt_le {t : CacheSet} (unpinned : s.Unpinned)
    (mru : s.policy.kind = .mru) (blank : s.Ranked []) (rival : t.Unpinned)
    (empty : t.Ranked []) (same : t.ways = s.ways) (loop : Loop tag (period + 1))
    (more : s.ways ≤ period) (write : Nat → Bool) (n : Nat) :
    Nat.count (t.hitsAt tag write) n ≤ Nat.count (s.hitsAt tag write) n := by
  have lap : ∀ {n}, n ≤ period + 1 → Nat.count (t.hitsAt tag write) n = 0 := by
    intro n within
    refine Nat.count_iff_forall_not.mpr fun i before => ?_
    exact rival.not_hitsAt empty write loop (Nat.lt_of_lt_of_le before within)
  rcases Nat.le_total n (period + 1) with within | beyond
  · rw [lap within]
    exact Nat.zero_le _
  · obtain ⟨steps, rfl⟩ := Nat.exists_eq_add_of_le beyond
    calc
      Nat.count (t.hitsAt tag write) (period + 1 + steps)
        = Nat.count (fun step => t.hitsAt tag write (period + 1 + step)) steps := by
          rw [Nat.count_add, lap (Nat.le_refl _), Nat.zero_add]
      _ ≤ Nat.count (fun step => step % period < s.ways - 1) steps :=
          same ▸ rival.hits_le loop (same ▸ more) write period steps
      _ ≤ Nat.count (fun step => s.hitsAt tag write (period + 1 + step)) steps := by
          refine Nat.count_mono_left fun step before early => ?_
          rw [unpinned.hitsAt_iff mru blank loop more, Nat.add_sub_cancel_left]
          exact ⟨Nat.le_add_right .., early⟩
      _ ≤ Nat.count (s.hitsAt tag write) (period + 1 + steps) := by
          rw [Nat.count_add]
          exact Nat.le_add_left ..

end CacheSet

end SetAssociative
