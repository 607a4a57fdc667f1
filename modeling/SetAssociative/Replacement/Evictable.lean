/-! Which ways of a set may be evicted at one moment. A discipline asks nothing
else about the set: a view answers for every index, and says no for the ways
that the set does not have. -/
namespace SetAssociative

/-- Whether the line in a way may be evicted right now. -/
abbrev View := Nat → Bool

namespace View

/-- The evictable ways below a bound, the lowest first. -/
def candidates (view : View) (ways : Nat) : List Nat := (List.range ways).filter view

theorem mem_candidates {view : View} {ways way : Nat} :
    way ∈ view.candidates ways ↔ way < ways ∧ view way = true := by
  simp [candidates]

theorem candidates_eq_nil_iff {view : View} {ways : Nat} :
    view.candidates ways = [] ↔ ∀ way < ways, view way = false := by
  simp [candidates, List.filter_eq_nil_iff]

end View

/-- A view written out as one bit per way. -/
structure Mask where
  bits : List Bool
  deriving DecidableEq, Repr

namespace Mask

/-- How many ways the mask speaks of. -/
def ways (m : Mask) : Nat := m.bits.length

/-- The view of a mask; ways past its end are not evictable. -/
def view (m : Mask) : View := fun way => m.bits.getD way false

/-- The mask in which every way is evictable. -/
def full (ways : Nat) : Mask := ⟨List.replicate ways true⟩

end Mask

end SetAssociative
