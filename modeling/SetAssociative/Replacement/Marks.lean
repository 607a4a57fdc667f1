import SetAssociative.Replacement.Evictable
import SetAssociative.Replacement.WayBits

/-! One mark per way, set when the way is used. Two disciplines evict the first
way without a mark and differ in when marks are taken away: one as soon as the
last mark would be set, so that a new phase begins with the way just used; the
other when a search finds no evictable way without a mark. -/
namespace SetAssociative

/-- The marked ways of a set. -/
structure Marks where
  ways : Nat
  bits : WayBits
  deriving DecidableEq, Repr

namespace Marks

/-- No way is marked. -/
def unmarked (ways : Nat) : Marks := ⟨ways, .empty⟩

/-- Whether a way that exists is marked. -/
def isMarked (m : Marks) (way : Nat) : Bool := decide (way < m.ways) && m.bits.contains way

/-- A way gets its mark. A way that does not exist changes nothing. -/
def mark (m : Marks) (way : Nat) : Marks :=
  if way < m.ways then { m with bits := m.bits.insert way } else m

/-- A way gets its mark, and takes away all others once every way is marked. -/
def markInPhase (m : Marks) (way : Nat) : Marks :=
  if way < m.ways then
    let marked := m.bits.insert way
    { m with bits := if marked.coversBelow m.ways then .single way else marked }
  else m

/-- The first evictable way without a mark. -/
def firstUnmarked (m : Marks) (view : View) : Option Nat :=
  (view.candidates m.ways).find? fun way => !m.bits.contains way

/-- The first evictable way. -/
def first (m : Marks) (view : View) : Option Nat := (view.candidates m.ways).head?

/-- The first evictable way without a mark, else the first evictable way. -/
def select (m : Marks) (view : View) : Option Nat :=
  (m.firstUnmarked view).or (m.first view)

/-- The first evictable way without a mark. If there is none, all marks are taken
away and the first evictable way is selected. -/
def selectClearing (m : Marks) (view : View) : Option Nat × Marks :=
  match m.firstUnmarked view with
  | some way => (some way, m)
  | none => (m.first view, Marks.unmarked m.ways)

@[simp] theorem ways_mark (m : Marks) (way : Nat) : (m.mark way).ways = m.ways := by
  unfold mark
  split <;> rfl

@[simp] theorem ways_markInPhase (m : Marks) (way : Nat) :
    (m.markInPhase way).ways = m.ways := by
  unfold markInPhase
  split <;> rfl

end Marks

end SetAssociative
