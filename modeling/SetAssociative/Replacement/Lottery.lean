import SetAssociative.Replacement.Evictable
import SetAssociative.Replacement.Generator

/-! Random replacement. As many ways are drawn as the set has, and the first
evictable one is the victim; if none of them is evictable, one more draw picks
among the evictable ways alone, so that a victim is found whenever there is one. -/
namespace SetAssociative

/-- The number of ways to draw from, and the generator that draws. -/
structure Lottery where
  ways : Nat
  generator : Generator
  deriving DecidableEq, Repr

namespace Lottery

/-- A lottery that starts at a seed. -/
def start (ways : Nat) (seed : UInt64) : Lottery := ⟨ways, .ofSeed seed⟩

/-- The first evictable way among some draws, and the generator after the last
draw that was needed. -/
def drawEvictable (ways : Nat) (view : View) : Nat → Generator → Option Nat × Generator
  | 0, g => (none, g)
  | draws + 1, g =>
    let drawn := g.draw ways
    if view drawn.1 then (some drawn.1, drawn.2) else drawEvictable ways view draws drawn.2

/-- A random evictable way, and the lottery after the draws. -/
def select (l : Lottery) (view : View) : Option Nat × Lottery :=
  match drawEvictable l.ways view l.ways l.generator with
  | (some way, g) => (some way, { l with generator := g })
  | (none, g) =>
    let candidates := view.candidates l.ways
    if candidates.isEmpty then (none, { l with generator := g })
    else
      let drawn := g.draw candidates.length
      (candidates[drawn.1]?, { l with generator := drawn.2 })

end Lottery

end SetAssociative
