import SetAssociative.CacheSet
import SetAssociative.Stats

/-! Accesses to a set. An access looks for the line of a tag; a line that is not
there takes the first empty way, or the way that the policy gives up. Each
access yields its own counters beside its result. -/
namespace SetAssociative

/-- Where an access found or put its line, and the line that had to leave. -/
structure Placement where
  hit : Bool
  way : Nat
  evicted : Option Evicted
  deriving DecidableEq, Repr

namespace CacheSet

/-- The result of an access, the set after it, and what it counts for. -/
structure Served where
  result : Except CacheError Placement
  set : CacheSet
  count : Stats

/-- A way for a new line: the first empty one, or else a victim. -/
def selectWay (s : CacheSet) : Except CacheError Nat × CacheSet :=
  match s.freeWay? with
  | some way => (.ok way, s)
  | none => s.selectVictim

/-- The line of a tag is found in a way. -/
def hit (s : CacheSet) (way : Nat) (write : Bool) : Served :=
  let written := if write then (s.markDirty way).2 else s
  let count : Stats := { accesses := 1, hits := 1 }
  match written.record (.hit way) with
  | .error e => { result := .error e, set := written, count }
  | .ok s => { result := .ok { hit := true, way, evicted := none }, set := s, count }

/-- The line of a tag is put into a way. -/
def fill (s : CacheSet) (way tag : Nat) (write : Bool) : Served :=
  let missed : Stats := { accesses := 1, misses := 1 }
  match s.install way tag write with
  | .error e => { result := .error e, set := s, count := missed }
  | .ok (evicted, s) =>
    match s.record (.fill way) with
    | .error e => { result := .error e, set := s, count := missed }
    | .ok s =>
      { result := .ok { hit := false, way, evicted }
        set := s
        count :=
          { missed with
            fills := 1
            evictions := if evicted.isSome then 1 else 0
            writebacks := if evicted.any Evicted.dirty then 1 else 0 } }

/-- An access to the line of a tag. A miss that finds no way leaves all lines as
they are. -/
def access (s : CacheSet) (tag : Nat) (write : Bool) : Served :=
  match s.find? tag with
  | some way => s.hit way write
  | none =>
    match s.selectWay with
    | (.error e, s) =>
      { result := .error e, set := s, count := { accesses := 1, misses := 1, exhausted := 1 } }
    | (.ok way, s) => s.fill way tag write

/-- Whether a flush empties a way. -/
def flushes (w : Way) : Bool := w.valid && w.dirty

/-- Every dirty line leaves, pinned ones included; the number of them. -/
def flush (s : CacheSet) : Nat × CacheSet :=
  (s.slots.countP flushes,
    { s with slots := s.slots.map fun w => if flushes w then .empty else w })

end CacheSet

end SetAssociative
