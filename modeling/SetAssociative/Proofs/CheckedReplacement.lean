import SetAssociative.Checked.Replacement
import SetAssociative.Proofs.SetFrame

/-! No discipline makes the machine stop. A policy is steady when it serves between one way and
as many as a word has bits, its cursor is at one of them, and its clock has not been moved more
often than ways were reported. A steady policy computes what it computes without the machine,
and is steady afterwards. -/
namespace SetAssociative

namespace Cursor
variable {view : View}

/-- The rest of a turn finds the first evictable way that is still to come. -/
theorem turnChecked_eq (steps : Nat) {c : Cursor} (inside : c.next < c.ways)
    (small : c.ways < UInt64.size) :
    turnChecked view steps c =
      match ((List.range steps).map fun step => (c.next + step) % c.ways).find? view with
      | some way => .ok (some way, { c with next := (way + 1) % c.ways })
      | none => .ok (none, { c with next := (c.next + steps) % c.ways }) := by
  induction steps generalizing c with
  | zero => simp [turnChecked, Nat.mod_eq_of_lt inside]; rfl
  | succ steps ih =>
    have moved : (c.next + 1) % c.ways < c.ways := Nat.mod_lt _ (by omega)
    have current : (c.next + 0) % c.ways = c.next := Nat.mod_eq_of_lt inside
    have later (step : Nat) : (c.next + step.succ) % c.ways =
        ((c.next + 1) % c.ways + step) % c.ways := by
      rw [Nat.mod_add_mod, Nat.add_assoc, Nat.add_comm 1]
    have others : (fun step => (c.next + step) % c.ways) ∘ Nat.succ =
        fun step => ((c.next + 1) % c.ways + step) % c.ways := funext later
    rw [turnChecked, Checked.add_of_lt (by omega), Checked.ok_bind,
      Checked.remainder_of_pos (by omega), Checked.ok_bind, List.range_succ_eq_map, List.map_cons,
      List.map_map, List.find?_cons, current, others, later steps]
    cases view c.next with
    | true => rfl
    | false => exact ih moved small

theorem selectChecked_eq {c : Cursor} (inside : c.next < c.ways) (small : c.ways < UInt64.size) :
    c.selectChecked view = .ok (c.select view) := by
  rw [selectChecked, turnChecked_eq c.ways inside small, select, turn]
  cases ((List.range c.ways).map fun step => (c.next + step) % c.ways).find? view with
  | some way => rfl
  | none => simp only [Nat.add_mod_right, Nat.mod_eq_of_lt inside]

end Cursor

namespace Stamps
variable {s : Stamps} {view : View} {prefers : Nat → Nat → Bool} {way : Nat}

theorem touchChecked_eq (room : s.clock + 1 < UInt64.size) (way : Nat) :
    s.touchChecked way = .ok (s.touch way) := by
  rw [touchChecked, touch, Checked.add_of_lt room]
  split <;> rfl

theorem time?_of_lt (inside : way < s.ways) : s.time? way = some (s.time way) := by
  have stamped : way < s.times.length := inside
  simp [time?, time, List.getD_eq_getElem?_getD, stamped]

/-- A pass with a best way so far leaves the best of that way and the evictable ones. -/
theorem passChecked_some (ways : List Nat) (inside : ∀ way ∈ ways, way < s.ways) {leader : Nat}
    (there : leader < s.ways) :
    s.passChecked view prefers ways (some leader) =
      .ok (some ((ways.filter view).foldl
        (fun best way => if prefers (s.time way) (s.time best) then way else best) leader)) := by
  induction ways generalizing leader with
  | nil => rfl
  | cons way ways ih =>
    have here := inside way List.mem_cons_self
    have rest {leader : Nat} (there : leader < s.ways) :=
      ih (fun other member => inside other (List.mem_cons_of_mem _ member)) there
    cases open_way : view way with
    | false => simp only [passChecked, open_way, Bool.false_eq_true, ↓reduceIte, List.filter_cons,
        rest there]
    | true =>
      simp only [passChecked, open_way, ↓reduceIte, List.filter_cons, List.foldl_cons,
        time?_of_lt here, time?_of_lt there, Checked.fetch_some, Checked.ok_bind]
      refine rest ?_
      split
      · exact here
      · exact there

/-- A pass without a best way so far takes the first evictable one for it. -/
theorem passChecked_none (ways : List Nat) (inside : ∀ way ∈ ways, way < s.ways) :
    s.passChecked view prefers ways none =
      match ways.filter view with
      | [] => .ok none
      | first :: others => .ok (some (others.foldl
          (fun best way => if prefers (s.time way) (s.time best) then way else best) first)) := by
  induction ways with
  | nil => rfl
  | cons way ways ih =>
    have rest : ∀ other ∈ ways, other < s.ways :=
      fun other member => inside other (List.mem_cons_of_mem _ member)
    cases open_way : view way with
    | false => simp only [passChecked, open_way, Bool.false_eq_true, ↓reduceIte, List.filter_cons,
        ih rest]
    | true =>
      simp only [passChecked, open_way, ↓reduceIte, List.filter_cons]
      exact passChecked_some ways rest (inside way List.mem_cons_self)

/-- To prefer smaller stamps strictly is to keep the first of the smallest. -/
theorem prefers_lt (s : Stamps) :
    (fun best way => if decide (s.time way < s.time best) then way else best) = minOn s.time := by
  funext best way
  simp only [minOn, decide_eq_true_eq]
  split <;> split <;> first | rfl | omega

theorem prefers_gt (s : Stamps) :
    (fun best way => if decide (s.time best < s.time way) then way else best) = maxOn s.time := by
  funext best way
  simp only [maxOn_eq_if, decide_eq_true_eq]
  split <;> split <;> first | rfl | omega

/-- A pass over all ways folds the evictable ones, from the first on. -/
theorem selectChecked_eq {pick : Nat → Nat → Nat} (view : View)
    (picks : (fun best way => if prefers (s.time way) (s.time best) then way else best) = pick) :
    s.selectChecked view prefers =
      match view.candidates s.ways with
      | [] => .ok none
      | first :: others => .ok (some (others.foldl pick first)) := by
  rw [selectChecked, passChecked_none _ fun way => List.mem_range.mp, picks, View.candidates]

theorem selectChecked_lt (s : Stamps) (view : View) :
    s.selectChecked view (fun time record => decide (time < record)) = .ok (s.oldest view) := by
  rw [selectChecked_eq view s.prefers_lt, oldest]
  cases view.candidates s.ways <;> rfl

theorem selectChecked_gt (s : Stamps) (view : View) :
    s.selectChecked view (fun time record => decide (record < time)) = .ok (s.newest view) := by
  rw [selectChecked_eq view s.prefers_gt, newest]
  cases view.candidates s.ways <;> rfl

/-- The first evictable way and a pass over the ways after it find the oldest one, too. -/
theorem selectFirstChecked_eq (small : s.ways < UInt64.size) (view : View) :
    s.selectFirstChecked view = .ok (s.oldest view) := by
  rw [selectFirstChecked, oldest, View.candidates]
  cases found : (List.range s.ways).find? view with
  | none =>
    rw [List.filter_eq_nil_iff.mpr (by simpa using found)]
    rfl
  | some first =>
    -- the range splits at the first evictable way, and the pass goes over what is behind it
    obtain ⟨open_first, before, after, split_at, closed⟩ := List.find?_eq_some_iff_append.mp found
    have position : before.length = first := by
      have there : (List.range s.ways)[before.length]? = some first := by simp [split_at]
      obtain ⟨_, same⟩ := List.getElem?_eq_some_iff.mp there
      simpa using same
    have inside : first < s.ways := by
      rw [← List.mem_range, split_at]
      simp
    have behind : (List.range s.ways).drop (first + 1) = after := by
      rw [split_at, ← position, List.drop_append]
      simp
    have candidates : (List.range s.ways).filter view = first :: after.filter view := by
      rw [split_at, List.filter_append, List.filter_eq_nil_iff.mpr (by simpa using closed),
        List.nil_append, List.filter_cons, if_pos open_first]
    have later : ∀ way ∈ after, way < s.ways := fun way member =>
      List.mem_range.mp (split_at ▸ List.mem_append_right _ (List.mem_cons_of_mem _ member))
    have room : first + 1 < UInt64.size := by omega
    simp only [Checked.add_of_lt room, Checked.ok_bind, behind,
      passChecked_some after later inside, prefers_lt, candidates]
    rfl

end Stamps

namespace WayBits
variable {way ways : Nat}

theorem isClearChecked_eq (b : WayBits) (small : way < 64) :
    b.isClearChecked way = .ok (!b.contains way) := by
  have amount : (UInt64.ofNat way).toNat % 64 = way := by
    rw [UInt64.toNat_ofNat_of_lt' (Nat.lt_trans small (by decide)), Nat.mod_eq_of_lt small]
  have shifted : (b.word >>> UInt64.ofNat way &&& 1).toNat = b.word.toNat >>> way &&& 1 := by
    rw [UInt64.toNat_and, UInt64.toNat_shiftRight, amount]
    rfl
  have clear : (b.word >>> UInt64.ofNat way &&& 1 == 0) = !b.word.toNat.testBit way := by
    rw [Nat.testBit, Nat.and_comm, ← shifted, bne, Bool.not_not, Bool.eq_iff_iff, beq_iff_eq,
      beq_iff_eq, ← UInt64.toNat_inj]
    rfl
  rw [isClearChecked, Checked.shiftRight_of_lt small, Checked.ok_bind, clear]
  rfl

theorem belowChecked_eq (ways : Nat) : belowChecked ways = .ok (below ways) := by
  rw [belowChecked, below]
  split
  · rfl
  · rename_i few
    have inside : ways < 64 := Nat.lt_of_not_le few
    have bit : (1 : UInt64) <<< UInt64.ofNat ways ≠ 0 := by
      intro none_set
      have member : (single ways).contains ways = true := by simp [contains_single inside]
      rw [single, none_set] at member
      exact Bool.eq_false_iff.mp (contains_empty ways) member
    rw [Checked.shiftLeft_of_lt inside, Checked.ok_bind, Checked.decrement_of_ne bit]
    rfl

end WayBits

namespace Marks
variable {m : Marks} {view : View} {way : Nat}

theorem markChecked_eq (small : m.ways ≤ 64) (way : Nat) :
    m.markChecked way = .ok (m.mark way) := by
  rw [markChecked, mark]
  split
  · rw [Checked.shiftLeft_of_lt (by omega)]
    rfl
  · rfl

theorem markInPhaseChecked_eq (small : m.ways ≤ 64) (way : Nat) :
    m.markInPhaseChecked way = .ok (m.markInPhase way) := by
  rw [markInPhaseChecked, markInPhase, WayBits.belowChecked_eq]
  split
  · rw [Checked.shiftLeft_of_lt (by omega)]
    rfl
  · rfl

theorem firstUnmarkedChecked_eq (ways : List Nat) (small : ∀ way ∈ ways, way < 64) :
    m.firstUnmarkedChecked view ways =
      .ok ((ways.filter view).find? fun way => !m.bits.contains way) := by
  induction ways with
  | nil => rfl
  | cons way ways ih =>
    have rest := ih fun other member => small other (List.mem_cons_of_mem _ member)
    cases open_way : view way with
    | false => simp only [firstUnmarkedChecked, open_way, Bool.false_eq_true, ↓reduceIte,
        List.filter_cons, rest]
    | true =>
      simp only [firstUnmarkedChecked, open_way, ↓reduceIte, List.filter_cons, List.find?_cons,
        WayBits.isClearChecked_eq m.bits (small way List.mem_cons_self), Checked.ok_bind, rest]
      cases m.bits.contains way <;> rfl

theorem firstUnmarkedChecked_range (small : m.ways ≤ 64) :
    m.firstUnmarkedChecked view (List.range m.ways) = .ok (m.firstUnmarked view) :=
  firstUnmarkedChecked_eq _ fun _ member => Nat.lt_of_lt_of_le (List.mem_range.mp member) small

theorem selectChecked_eq (small : m.ways ≤ 64) : m.selectChecked view = .ok (m.select view) := by
  rw [selectChecked, firstUnmarkedChecked_range small, Checked.ok_bind, ← List.head?_filter]
  rfl

/-- Without any mark the first evictable way is the first without a mark. -/
theorem firstUnmarked_unmarked (ways : Nat) :
    (unmarked ways).firstUnmarked view = (unmarked ways).first view := by
  have clear : (fun way => !(unmarked ways).bits.contains way) = fun _ => true := by
    funext way
    exact congrArg (!·) (WayBits.contains_empty way)
  rw [firstUnmarked, clear, first]
  cases view.candidates (unmarked ways).ways <;> rfl

theorem selectClearingChecked_eq (small : m.ways ≤ 64) :
    m.selectClearingChecked view = .ok (m.selectClearing view) := by
  have again : (unmarked m.ways).firstUnmarkedChecked view (List.range m.ways) =
      .ok ((unmarked m.ways).firstUnmarked view) := firstUnmarkedChecked_range small
  rw [selectClearingChecked, firstUnmarkedChecked_range small, Checked.ok_bind, selectClearing]
  cases m.firstUnmarked view with
  | some way => rfl
  | none =>
    simp only [again, firstUnmarked_unmarked, Checked.ok_bind]
    rfl

end Marks

namespace Lottery
variable {l : Lottery} {view : View}

theorem drawChecked_eq (g : Generator) {bound : Nat} (positive : 0 < bound) :
    drawChecked g bound = .ok (g.draw bound) := by
  rw [drawChecked, Checked.remainder_of_pos positive]
  rfl

theorem drawEvictableChecked_eq {ways : Nat} (positive : 0 < ways) (draws : Nat) (g : Generator) :
    drawEvictableChecked ways view draws g = .ok (drawEvictable ways view draws g) := by
  induction draws generalizing g with
  | zero => rfl
  | succ draws ih =>
    rw [drawEvictableChecked, drawChecked_eq g positive, Checked.ok_bind, drawEvictable]
    cases view (g.draw ways).1 with
    | true => rfl
    | false => exact ih _

theorem selectChecked_eq (positive : 0 < l.ways) : l.selectChecked view = .ok (l.select view) := by
  rw [selectChecked, drawEvictableChecked_eq positive, Checked.ok_bind, select]
  cases drawEvictable l.ways view l.ways l.generator with
  | mk drawn g =>
    cases drawn with
    | some way => rfl
    | none =>
      cases candidates : view.candidates l.ways with
      | nil => rfl
      | cons first others =>
        simp only [List.isEmpty_cons, Bool.false_eq_true, ↓reduceIte,
          drawChecked_eq g (Nat.succ_pos others.length), List.length_cons, Checked.ok_bind]
        rfl

end Lottery

namespace Policy
variable {p : Policy} {view : View} {n : Nat} {o : Outcome}

/-- What keeps the machine going, besides the number of ways: the cursor is at a way that
exists, and the clock has not been moved more often than so many reports allow. -/
def InBounds (n : Nat) : Policy → Prop
  | .roundRobin cursor => cursor.next < cursor.ways
  | .fifo stamps | .lru stamps | .mru stamps => stamps.clock ≤ n
  | .plru _ | .random _ | .nru _ => True

/-- A policy that so many reports have left in order. -/
structure Steady (n : Nat) (p : Policy) : Prop where
  ways_pos : 0 < p.ways
  ways_le : p.ways ≤ 64
  inBounds : p.InBounds n

theorem Steady.mono {m : Nat} (steady : p.Steady n) (later : n ≤ m) : p.Steady m := by
  refine ⟨steady.ways_pos, steady.ways_le, ?_⟩
  have bounds := steady.inBounds
  cases p with
  | fifo | lru | mru => exact Nat.le_trans bounds later
  | roundRobin | plru | random | nru => exact bounds

theorem steady_fresh (kind : Kind) {ways : Nat} (positive : 0 < ways) (small : ways ≤ 64)
    (seed : UInt64) : (fresh kind ways seed).Steady 0 := by
  refine ⟨by rwa [ways_fresh], by rwa [ways_fresh], ?_⟩
  cases kind with
  | roundRobin => exact positive
  | fifo | lru | mru => exact Nat.le_refl 0
  | plru | random | nru => trivial

theorem recordChecked_eq (steady : p.Steady n) (room : n + 1 < UInt64.size) (o : Outcome) :
    p.recordChecked o = .ok (p.record o) := by
  have bounds := steady.inBounds
  have small := steady.ways_le
  have touched {s : Stamps} (clock : s.clock ≤ n) (way : Nat) :
      s.touchChecked way = .ok (s.touch way) :=
    Stamps.touchChecked_eq (Nat.lt_of_le_of_lt (Nat.succ_le_succ clock) room) way
  cases p with
  | roundRobin | random => rfl
  | fifo fills =>
    obtain ⟨use, way⟩ := o
    cases use with
    | hit => rfl
    | fill =>
      simp only [recordChecked, record, touched bounds]
      rfl
  | lru | mru =>
    simp only [recordChecked, record, touched bounds]
    rfl
  | plru marks =>
    simp only [recordChecked, record, Marks.markInPhaseChecked_eq small]
    rfl
  | nru marks =>
    simp only [recordChecked, record, Marks.markChecked_eq small]
    rfl

/-- A report moves the clock by one at most. -/
theorem Steady.record (steady : p.Steady n) (o : Outcome) : (p.record o).Steady (n + 1) := by
  refine ⟨by rw [ways_record]; exact steady.ways_pos, by rw [ways_record]; exact steady.ways_le, ?_⟩
  have bounds := steady.inBounds
  have touched {s : Stamps} (clock : s.clock ≤ n) : (s.touch o.way).clock ≤ n + 1 := by
    rw [Stamps.touch]
    split
    · exact Nat.succ_le_succ clock
    · exact Nat.le_succ_of_le clock
  cases p with
  | roundRobin => exact bounds
  | fifo fills =>
    obtain ⟨use, way⟩ := o
    cases use with
    | hit => exact Nat.le_succ_of_le bounds
    | fill => exact touched bounds
  | lru | mru => exact touched bounds
  | plru | random | nru => trivial

theorem searchChecked_eq (steady : p.Steady n) (view : View) :
    p.searchChecked view = .ok (p.search view) := by
  have bounds := steady.inBounds
  have small := steady.ways_le
  have wide : p.ways < UInt64.size := Nat.lt_of_le_of_lt small (by decide)
  cases p with
  | roundRobin cursor => simp only [searchChecked, Cursor.selectChecked_eq bounds wide]; rfl
  | fifo fills => simp only [searchChecked, Stamps.selectFirstChecked_eq wide]; rfl
  | lru uses => simp only [searchChecked, Stamps.selectChecked_lt]; rfl
  | mru uses => simp only [searchChecked, Stamps.selectChecked_gt]; rfl
  | plru marks => simp only [searchChecked, Marks.selectChecked_eq small]; rfl
  | random lottery => simp only [searchChecked, Lottery.selectChecked_eq steady.ways_pos]; rfl
  | nru marks => simp only [searchChecked, Marks.selectClearingChecked_eq small]; rfl

/-- A search moves no clock, and the cursor to a way that exists. -/
theorem Steady.search (steady : p.Steady n) (view : View) : (p.search view).2.Steady n := by
  refine ⟨by rw [ways_search]; exact steady.ways_pos, by rw [ways_search]; exact steady.ways_le, ?_⟩
  have bounds := steady.inBounds
  cases p with
  | roundRobin cursor =>
    simp only [Policy.search, InBounds, Cursor.select]
    split
    · exact Nat.mod_lt _ steady.ways_pos
    · exact bounds
  | fifo | lru | mru => exact bounds
  | plru | random | nru => trivial

end Policy

end SetAssociative
