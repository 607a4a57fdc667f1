import SetAssociative.Replacement.Evictable

/-! Round robin: a cursor goes around the ways and stops behind each victim. Hits
and fills do not move it. -/
namespace SetAssociative

/-- The way at which the next search starts. -/
structure Cursor where
  ways : Nat
  next : Nat
  deriving DecidableEq, Repr

namespace Cursor

/-- A cursor at the first way. -/
def start (ways : Nat) : Cursor := ⟨ways, 0⟩

/-- All ways in the order of the search: from the cursor up, then from zero. -/
def turn (c : Cursor) : List Nat := (List.range c.ways).map fun step => (c.next + step) % c.ways

/-- The first evictable way of a turn, and the cursor just past it. Without such
a way the cursor stays where it is. -/
def select (c : Cursor) (view : View) : Option Nat × Cursor :=
  match c.turn.find? view with
  | some way => (some way, { c with next := (way + 1) % c.ways })
  | none => (none, c)

end Cursor

end SetAssociative
