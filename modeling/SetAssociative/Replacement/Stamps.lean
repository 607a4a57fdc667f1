import SetAssociative.Replacement.Evictable

/-! Stamps that remember the order in which ways were touched. A clock counts the
touches, and each one stamps its way with the new time; zero is the stamp of a
way that was never touched. Three disciplines keep such stamps: two of them
touch a way whenever it is used, one only when it is filled. -/
namespace SetAssociative

/-- The time of the last touch of each way, and the time of the last touch of all. -/
structure Stamps where
  times : List Nat
  clock : Nat
  deriving DecidableEq, Repr

namespace Stamps

/-- Ways that were never touched. -/
def untouched (ways : Nat) : Stamps := ⟨List.replicate ways 0, 0⟩

/-- How many ways are stamped. -/
def ways (s : Stamps) : Nat := s.times.length

/-- The stamp of a way that exists. -/
def time? (s : Stamps) (way : Nat) : Option Nat := s.times[way]?

/-- The stamp of a way, zero for a way that does not exist. -/
def time (s : Stamps) (way : Nat) : Nat := s.times.getD way 0

/-- A way gets the next time. A way that does not exist leaves the clock alone. -/
def touch (s : Stamps) (way : Nat) : Stamps :=
  if way < s.ways then ⟨s.times.set way (s.clock + 1), s.clock + 1⟩ else s

/-- The evictable way with the smallest stamp, the lowest of them on a tie. -/
def oldest (s : Stamps) (view : View) : Option Nat := (view.candidates s.ways).minOn? s.time

/-- The evictable way with the largest stamp, the lowest of them on a tie. -/
def newest (s : Stamps) (view : View) : Option Nat := (view.candidates s.ways).maxOn? s.time

@[simp] theorem ways_touch (s : Stamps) (way : Nat) : (s.touch way).ways = s.ways := by
  unfold touch
  split <;> simp [ways]

/-- A touch changes the stamp of the touched way only. -/
theorem time_touch (s : Stamps) {way : Nat} (inside : way < s.ways) (other : Nat) :
    (s.touch way).time other = if way = other then s.clock + 1 else s.time other := by
  have exists_time : way < s.times.length := inside
  by_cases same : way = other
  · subst same
    simp [touch, time, inside, exists_time, List.getD_eq_getElem?_getD]
  · simp [touch, time, inside, same, List.getD_eq_getElem?_getD]

end Stamps

end SetAssociative
