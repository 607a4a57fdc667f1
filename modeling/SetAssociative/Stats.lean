import SetAssociative.Decimal.Rounding

/-! Counters of a cache. Each operation yields the counters of that operation
alone, and a run adds them up. -/
namespace SetAssociative

/-- What was counted. -/
structure Stats where
  accesses : Nat := 0
  hits : Nat := 0
  misses : Nat := 0
  fills : Nat := 0
  evictions : Nat := 0
  writebacks : Nat := 0
  /-- Misses for which the set had no evictable way. -/
  exhausted : Nat := 0
  deriving DecidableEq, Repr

namespace Stats

/-- The counters in their order of display. -/
def counters (s : Stats) : List Nat :=
  [s.accesses, s.hits, s.misses, s.fills, s.evictions, s.writebacks, s.exhausted]

/-- Two counts together. -/
def merge (s t : Stats) : Stats where
  accesses := s.accesses + t.accesses
  hits := s.hits + t.hits
  misses := s.misses + t.misses
  fills := s.fills + t.fills
  evictions := s.evictions + t.evictions
  writebacks := s.writebacks + t.writebacks
  exhausted := s.exhausted + t.exhausted

instance : Add Stats := ⟨merge⟩

/-- A count as a fraction of the accesses, nothing before the first access. -/
def rate (s : Stats) (count : Nat) : Float :=
  if s.accesses = 0 then 0.0 else Float.ofNat count / Float.ofNat s.accesses

/-- The fraction of accesses that hit. -/
def hitRate (s : Stats) : Float := s.rate s.hits

/-- The fraction of accesses that missed. -/
def missRate (s : Stats) : Float := s.rate s.misses

/-- The counters in one line, the hit rate as a percentage with two places. -/
def text (s : Stats) : String :=
  let percentage := Decimal.fixed 2 (s.hitRate * 100.0)
  s!"accesses {s.accesses} hits {s.hits} misses {s.misses} ({percentage}% hit) " ++
    s!"evictions {s.evictions} writebacks {s.writebacks} exhausted {s.exhausted}"

end Stats

end SetAssociative
