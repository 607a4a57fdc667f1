import Mathlib.Data.List.Rotate
import SetAssociative.Proofs.VictimSelection

/-! The turn of a cursor is the list of all ways from the one that it points at. A search
gives up the first evictable way of the turn, and the next turn is the same one with that
way, and all ways that were passed over before it, moved to its end. -/
namespace SetAssociative.Cursor
variable {c : Cursor} {view : View} {way : Nat} {before after : List Nat}

@[simp] theorem length_turn (c : Cursor) : c.turn.length = c.ways := by simp [turn]

theorem turn_eq_range (rests : c.next = 0) : c.turn = List.range c.ways := by
  rw [turn, rests]
  refine (List.map_congr_left fun way member => ?_).trans (List.map_id _)
  rw [Nat.zero_add, Nat.mod_eq_of_lt (List.mem_range.mp member), id]

/-- A turn begins at the cursor. -/
theorem turn_eq_cons (inside : c.next < c.ways) : c.turn = c.next :: c.turn.tail := by
  obtain ⟨ways, next⟩ := c
  cases ways with
  | zero => cases inside
  | succ ways =>
    simp only [turn, List.range_succ_eq_map, List.map_cons, List.tail_cons, Nat.add_zero]
    rw [Nat.mod_eq_of_lt inside]

theorem turn_eq_rotate (c : Cursor) : c.turn = (List.range c.ways).rotate c.next := by
  refine List.ext_getElem (by simp) fun step first second => ?_
  simp only [turn, List.getElem_map, List.getElem_range, List.getElem_rotate, List.length_range,
    Nat.add_comm]

/-- A turn visits each way once. -/
theorem perm_turn (c : Cursor) : c.turn.Perm (List.range c.ways) := by
  rw [turn_eq_rotate]
  exact List.rotate_perm ..

/-- The cursor just past a way. -/
def past (c : Cursor) (way : Nat) : Cursor := { c with next := (way + 1) % c.ways }

@[simp] theorem ways_past (c : Cursor) (way : Nat) : (c.past way).ways = c.ways := rfl

theorem past_inside (inside : c.next < c.ways) (way : Nat) :
    (c.past way).next < (c.past way).ways := Nat.mod_lt _ (Nat.zero_lt_of_lt inside)

theorem getElem?_turn {step : Nat} (inside : step < c.ways) :
    c.turn[step]? = some ((c.next + step) % c.ways) := by
  simp only [turn, List.getElem?_map, List.getElem?_range inside, Option.map_some]

/-- A way stands in the turn as far from its beginning as it is from the cursor. -/
theorem eq_of_turn (split : c.turn = before ++ way :: after) :
    before.length < c.ways ∧ way = (c.next + before.length) % c.ways := by
  have inside : before.length < c.ways := by
    rw [← length_turn, split, List.length_append, List.length_cons]
    omega
  have there := getElem?_turn inside
  rw [split, List.getElem?_append_right (Nat.le_refl _), Nat.sub_self, List.getElem?_cons_zero]
    at there
  exact ⟨inside, Option.some.inj there⟩

/-- Ways that are nearer to the cursor stand before it. -/
theorem mem_of_lt_length (split : c.turn = before ++ way :: after) {step : Nat}
    (less : step < before.length) : (c.next + step) % c.ways ∈ before := by
  have there := getElem?_turn (Nat.lt_trans less (eq_of_turn split).1)
  rw [split, List.getElem?_append_left less] at there
  exact List.mem_of_getElem? there

/-- Past a way, the turn goes on with the ways after it and comes back to it last. -/
theorem turn_past (split : c.turn = before ++ way :: after) :
    (c.past way).turn = after ++ (before ++ [way]) := by
  obtain ⟨-, distance⟩ := eq_of_turn split
  have next : (c.past way).next =
      (c.next + (before ++ [way]).length) % (List.range c.ways).length := by
    simp only [past, distance, Nat.mod_add_mod, List.length_append, List.length_singleton,
      List.length_range, Nat.add_assoc]
  calc
    (c.past way).turn = (List.range c.ways).rotate (c.past way).next := turn_eq_rotate _
    _ = c.turn.rotate (before ++ [way]).length := by
        rw [next, List.rotate_mod, ← List.rotate_rotate, ← turn_eq_rotate]
    _ = after ++ (before ++ [way]) := by
        rw [split, List.append_cons, List.rotate_append_length_eq]

theorem filter_turn (split : c.turn = before ++ way :: after)
    (closed : ∀ other ∈ before, view other = false) (open_way : view way = true) :
    c.turn.filter view = way :: after.filter view := by
  have passed : before.filter view = [] :=
    List.filter_eq_nil_iff.mpr fun other member => Bool.eq_false_iff.mp (closed other member)
  rw [split, List.filter_append, passed, List.nil_append, List.filter_cons_of_pos open_way]

/-- Of the evictable ways of the turn, the first one comes last past it. -/
theorem filter_turn_past (split : c.turn = before ++ way :: after)
    (closed : ∀ other ∈ before, view other = false) (open_way : view way = true) :
    (c.past way).turn.filter view = after.filter view ++ [way] := by
  have passed : before.filter view = [] :=
    List.filter_eq_nil_iff.mpr fun other member => Bool.eq_false_iff.mp (closed other member)
  rw [turn_past split, List.filter_append, List.filter_append, passed, List.nil_append,
    List.filter_cons_of_pos open_way, List.filter_nil]

/-- Views of the same evictable ways see the same in a turn. -/
theorem filter_turn_congr {other : View} (same : other.candidates c.ways = view.candidates c.ways) :
    c.turn.filter other = c.turn.filter view := by
  refine List.filter_congr fun way member => ?_
  have inside := mem_turn.mp member
  have both : way ∈ other.candidates c.ways ↔ way ∈ view.candidates c.ways := by rw [same]
  rw [View.mem_candidates, View.mem_candidates, and_congr_right_iff] at both
  exact Bool.eq_iff_iff.mpr (both inside)

/-- The first evictable way of the turn is the victim. -/
theorem select_of_turn (split : c.turn = before ++ way :: after)
    (closed : ∀ other ∈ before, view other = false) (open_way : view way = true) :
    c.select view = (some way, c.past way) := by
  have found : c.turn.find? view = some way :=
    List.find?_eq_some_iff_append.mpr
      ⟨open_way, before, after, split, fun other member => by simp [closed other member]⟩
  rw [select, found, past]

/-- Without an evictable way the search finds nothing, and the cursor stays. -/
theorem select_of_closed (closed : view.candidates c.ways = []) : c.select view = (none, c) := by
  have missing : c.turn.find? view = none := by
    refine List.find?_eq_none.mpr fun way member => ?_
    rw [View.candidates_eq_nil_iff.mp closed way (mem_turn.mp member)]
    exact Bool.false_ne_true
  rw [select, missing]

end SetAssociative.Cursor
