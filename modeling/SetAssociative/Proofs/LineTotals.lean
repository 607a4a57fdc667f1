import Mathlib.Algebra.BigOperators.Group.List.Basic
import Mathlib.Algebra.GroupWithZero.Nat
import SetAssociative.Proofs.Occupancy

/-! How many lines of a kind a set holds, and a cache over all its sets. Putting a line into
a way or emptying one changes such a number by what the way held before and holds after;
a request to one set changes the total by what it changes there, and a flush takes out
every dirty line. -/
namespace SetAssociative

/-- A truth value as the one or the zero that a count adds for it. -/
theorem toNat_eq_ite (b : Bool) : b.toNat = if b then 1 else 0 := by
  cases b <;> rfl

/-- A sum over a list of which one member is exchanged. -/
theorem sum_map_set {α : Type} (f : α → Nat) (xs : List α) {i : Nat} (inside : i < xs.length)
    (x : α) : ((xs.set i x).map f).sum + f xs[i] = (xs.map f).sum + f x := by
  induction xs generalizing i with
  | nil => cases inside
  | cons y ys ih =>
    cases i with
    | zero =>
      simp only [List.set_cons_zero, List.map_cons, List.sum_cons, List.getElem_cons_zero]
      omega
    | succ i =>
      have rest := ih (Nat.lt_of_succ_lt_succ inside)
      simp only [List.set_cons_succ, List.map_cons, List.sum_cons, List.getElem_cons_succ]
      omega

namespace CacheSet
variable {s : CacheSet} {p : Way → Bool} {way tag : Nat} {w : Way} {line : Line}
  {dirty pinned : Bool}

/-- Of a way that is replaced, the old content no longer counts, and the new one does. -/
theorem countP_setWay (here : s.way? way = some w) (new : Way) :
    (s.setWay way new).slots.countP p + (p w).toNat = s.slots.countP p + (p new).toNat := by
  obtain ⟨inside, rfl⟩ := List.getElem?_eq_some_iff.mp here
  have counted := List.boole_getElem_le_countP (p := p) inside
  simp only [setWay, List.countP_set inside, toNat_eq_ite]
  omega

/-- A line that takes the place of a line leaves as many lines. -/
theorem occupancy_put_of_holds {old : Nat} (held : s.Holds old line) :
    (s.put tag line.way dirty pinned).occupancy = s.occupancy :=
  Nat.add_right_cancel (countP_setWay (p := Way.valid) held _)

theorem occupancy_put_of_vacant (here : s.way? way = some w) (vacant : w.valid = false) :
    (s.put tag way dirty pinned).occupancy = s.occupancy + 1 := by
  have counted := countP_setWay (p := Way.valid) here { tag, valid := true, dirty, pinned }
  rwa [vacant] at counted

theorem occupancy_clear (held : s.Holds tag line) :
    (s.clear line.way).occupancy + 1 = s.occupancy :=
  countP_setWay (p := Way.valid) held .empty

/-- The number of dirty lines. -/
def dirtyLines (s : CacheSet) : Nat := s.slots.countP flushes

/-- A flush takes out as many lines as it reports. -/
theorem occupancy_flush (s : CacheSet) : s.flush.2.occupancy + s.flush.1 = s.occupancy := by
  simp only [occupancy, flush, List.countP_map]
  induction s.slots with
  | nil => rfl
  | cons w ws ih =>
    have one : (Way.valid (if flushes w then .empty else w)).toNat + (flushes w).toNat =
        w.valid.toNat := by
      cases valid : w.valid <;> cases dirty : w.dirty <;> simp [flushes, Way.empty, valid, dirty]
    simp only [List.countP_cons, Function.comp_apply, toNat_eq_ite] at ih one ⊢
    omega

/-- No line is dirty after a flush. -/
theorem dirtyLines_flush (s : CacheSet) : s.flush.2.dirtyLines = 0 := by
  refine List.countP_eq_zero.mpr fun w member => ?_
  obtain ⟨before, -, rfl⟩ := List.mem_map.mp member
  split
  · simp [flushes, Way.empty]
  · assumption

end CacheSet

namespace Cache
variable {c d : Cache}

/-- A number of each set, added up over all sets. -/
def total (c : Cache) (f : CacheSet → Nat) : Nat := (c.sets.toList.map f).sum

/-- The number of valid ways. -/
def occupancy (c : Cache) : Nat := c.total CacheSet.occupancy

/-- The number of dirty lines. -/
def dirtyLines (c : Cache) : Nat := c.total CacheSet.dirtyLines

/-- A total depends on no more than the number in each place. -/
theorem total_congr {f : CacheSet → Nat}
    (same : ∀ index : Nat, d.sets[index]?.map f = c.sets[index]?.map f) :
    d.total f = c.total f := by
  refine congrArg List.sum (List.ext_getElem? fun index => ?_)
  rw [List.getElem?_map, List.getElem?_map, Array.getElem?_toList, Array.getElem?_toList]
  exact same index

/-- A set that replaces another changes a total by the difference of the two. -/
theorem total_update (c : Cache) (address : UInt64) (s : CacheSet) (count : Stats)
    (f : CacheSet → Nat) :
    (c.update address s count).total f + f (c.setOf address) = c.total f + f s := by
  have inside : (c.locate address).1 < c.sets.toList.length := c.locate_lt address
  simp only [total, update, Array.toList_set]
  exact sum_map_set f c.sets.toList inside s

theorem total_flush (c : Cache) (f : CacheSet → Nat) :
    c.flush.2.total f = c.total fun s => f s.flush.2 := by
  simp only [total, flush, Array.toList_map, List.map_map, Function.comp_def]

/-- A flush reports the lines that leave, over all sets. -/
theorem flush_fst (c : Cache) : c.flush.1 = c.total fun s => s.flush.1 := by
  simp only [flush, total, ← Array.foldl_toList, List.sum_eq_foldl, List.foldl_map]

theorem total_add (c : Cache) (f g : CacheSet → Nat) :
    (c.total fun s => f s + g s) = c.total f + c.total g := List.sum_map_add

end Cache

end SetAssociative
