/-! A shift-register generator of 64-bit words. Each step mixes the state with
three shifted copies of itself, a linear map whose only fixed point that matters
is zero, so zero is never taken as a seed. -/
namespace SetAssociative

/-- The seed used where none is given, and in place of zero. -/
def defaultSeed : UInt64 := 0x2545F4914F6CDD1D

/-- The odd constant that spreads the seeds of neighbouring sets. -/
def seedGamma : UInt64 := 0x9E3779B97F4A7C15

/-- The seed of one set of a cache, from the seed of the cache. -/
def setSeed (seed : UInt64) (index : Nat) : UInt64 :=
  seed ^^^ (seedGamma * (UInt64.ofNat index + 1))

/-- The word from which the next number is computed. -/
structure Generator where
  state : UInt64
  deriving DecidableEq, Repr

namespace Generator

/-- A generator that starts at a seed; zero gives way to the default seed. -/
def ofSeed (seed : UInt64) : Generator := ⟨if seed = 0 then defaultSeed else seed⟩

/-- One step of the register: left by 13, right by 7, left by 17. -/
def advance (word : UInt64) : UInt64 :=
  let word := word ^^^ (word <<< 13)
  let word := word ^^^ (word >>> 7)
  word ^^^ (word <<< 17)

/-- The generator after one number. -/
def next (g : Generator) : Generator := ⟨advance g.state⟩

/-- The next number reduced below a positive bound, and the generator after it. -/
def draw (g : Generator) (bound : Nat) : Nat × Generator :=
  (g.next.state.toNat % bound, g.next)

theorem draw_lt (g : Generator) {bound : Nat} (positive : 0 < bound) :
    (g.draw bound).1 < bound := Nat.mod_lt _ positive

end Generator

end SetAssociative
