import SetAssociative.Cache.Operations
import SetAssociative.Checked.Replacement

/-! Sets and caches on the machine that stops: how a cache is built, how addresses are taken
apart, and every operation with the increments of its counters. -/
namespace SetAssociative

/-- How many sets a cache has. The size is divided by the bytes of one set, which the machine
computes up to the largest word. -/
def Config.numSetsChecked (c : Config) : Checked (Except ConfigError Nat) :=
  match c.geometry with
  | .error cause => pure (.error cause)
  | .ok g =>
    let size := c.sizeBytes.toNat
    if size = 0 then pure (.error (.sizeNotMultiple size g.setBytes))
    else do
      let left ← Checked.remainder size g.setBytes
      if left = 0 then do
        let sets ← Checked.divide size g.setBytes
        pure (.ok sets)
      else pure (.error (.sizeNotMultiple size g.setBytes))

/-- The seed of one set of a cache, spread by its number from one on. -/
def setSeedChecked (seed : UInt64) (index : Nat) : Checked UInt64 := do
  let number ← Checked.add index 1
  pure (seed ^^^ (seedGamma * UInt64.ofNat number))

/-- The fresh sets of some indices. -/
def Config.freshSetsChecked (c : Config) : List Nat → Checked (Except ConfigError (List CacheSet))
  | [] => pure (.ok [])
  | index :: indices => do
    let seed ← setSeedChecked c.seed index
    match CacheSet.ofConfig c seed with
    | .error cause => pure (.error cause)
    | .ok s => Except.map (s :: ·) <$> freshSetsChecked c indices

/-- The sets of the empty cache of a configuration. -/
def Config.setsChecked (c : Config) : Checked (Except ConfigError (List CacheSet)) := do
  match ← c.numSetsChecked with
  | .error cause => pure (.error cause)
  | .ok sets => c.freshSetsChecked (List.range sets)

/-- Two counts together, counter by counter. -/
def Stats.addChecked (s t : Stats) : Checked Stats := do
  let accesses ← Checked.add s.accesses t.accesses
  let hits ← Checked.add s.hits t.hits
  let misses ← Checked.add s.misses t.misses
  let fills ← Checked.add s.fills t.fills
  let evictions ← Checked.add s.evictions t.evictions
  let writebacks ← Checked.add s.writebacks t.writebacks
  let exhausted ← Checked.add s.exhausted t.exhausted
  pure { accesses, hits, misses, fills, evictions, writebacks, exhausted }

namespace CacheSet

/-- The policy is told how a way was used. -/
def recordChecked (s : CacheSet) (o : Outcome) : Checked (Except CacheError CacheSet) :=
  if o.way < s.ways then do
    let policy ← s.policy.recordChecked o
    pure (.ok { s with policy })
  else
    match s.contract with
    | .lenient => pure (.ok s)
    | .strict => pure (.error (.noSuchWay o.way s.ways))

/-- A way for a new line: the first empty one, or else the way that the policy evicts. -/
def selectWayChecked (s : CacheSet) : Checked (Except CacheError Nat × CacheSet) :=
  match s.freeWay? with
  | some way => pure (.ok way, s)
  | none => do
    match ← s.policy.searchChecked s.view with
    | (some way, policy) => pure (.ok way, { s with policy })
    | (none, policy) => pure (.error (.exhausted s.policy.ways), { s with policy })

/-- The line of a tag is found in a way. -/
def hitChecked (s : CacheSet) (way : Nat) (write : Bool) : Checked Served := do
  let written := if write then (s.markDirty way).2 else s
  let count : Stats := { accesses := 1, hits := 1 }
  match ← written.recordChecked (.hit way) with
  | .error e => pure { result := .error e, set := written, count }
  | .ok s => pure { result := .ok { hit := true, way, evicted := none }, set := s, count }

/-- The line of a tag is put into a way. -/
def fillChecked (s : CacheSet) (way tag : Nat) (write : Bool) : Checked Served := do
  let missed : Stats := { accesses := 1, misses := 1 }
  match s.install way tag write with
  | .error e => pure { result := .error e, set := s, count := missed }
  | .ok (evicted, s) =>
    match ← s.recordChecked (.fill way) with
    | .error e => pure { result := .error e, set := s, count := missed }
    | .ok s =>
      pure { result := .ok { hit := false, way, evicted }
             set := s
             count :=
              { missed with
                fills := 1
                evictions := if evicted.isSome then 1 else 0
                writebacks := if evicted.any Evicted.dirty then 1 else 0 } }

/-- An access to the line of a tag. -/
def accessChecked (s : CacheSet) (tag : Nat) (write : Bool) : Checked Served :=
  match s.find? tag with
  | some way => s.hitChecked way write
  | none => do
    match ← s.selectWayChecked with
    | (.error e, s) =>
      pure { result := .error e, set := s, count := { accesses := 1, misses := 1, exhausted := 1 } }
    | (.ok way, s) => s.fillChecked way tag write

/-- The lines written back so far, and one more for each way of a set that a flush empties. -/
def flushedChecked (written : Nat) : List Way → Checked Nat
  | [] => pure written
  | w :: ws =>
    if flushes w then do
      let more ← Checked.add written 1
      flushedChecked more ws
    else flushedChecked written ws

end CacheSet

namespace Cache

/-- The index of the set of an address, and the tag of its line. -/
def locateChecked (c : Cache) (address : UInt64) : Checked (Nat × Nat) := do
  let line ← Checked.divide address.toNat c.lineBytes
  let index ← Checked.remainder line c.sets.size
  let tag ← Checked.divide line c.sets.size
  pure (index, tag)

/-- The place of an address, and the set that is there. -/
def addressedChecked (c : Cache) (address : UInt64) : Checked (Nat × Nat × CacheSet) := do
  let (index, tag) ← c.locateChecked address
  let s ← Checked.fetch c.sets[index]?
  pure (index, tag, s)

/-- Whether the cache holds the line of an address. -/
def containsChecked (c : Cache) (address : UInt64) : Checked Bool := do
  let (_, tag, s) ← c.addressedChecked address
  pure (s.find? tag).isSome

/-- The cache with one of its sets replaced, and further counts added. -/
def storeChecked (c : Cache) (index : Nat) (s : CacheSet) (count : Stats) : Checked Cache := do
  let stats ← c.stats.addChecked count
  pure { c with
    sets := c.sets.setIfInBounds index s
    stats
    sets_pos := by simpa using c.sets_pos }

/-- An access to the line of an address. -/
def accessChecked (c : Cache) (address : UInt64) (write : Bool) :
    Checked (Except CacheError Access × Cache) := do
  let (index, tag, s) ← c.addressedChecked address
  let served ← s.accessChecked tag write
  let after ← c.storeChecked index served.set served.count
  pure (served.result.map fun p =>
    { hit := p.hit, set := index, way := p.way, evicted := p.evicted }, after)

/-- A change to the way that holds the line of an address, and whether there is one. -/
def changeChecked (c : Cache) (address : UInt64) (edit : CacheSet → Nat → Bool × CacheSet) :
    Checked (Bool × Cache) := do
  let (index, tag, s) ← c.addressedChecked address
  match s.find? tag with
  | none => pure (false, c)
  | some way =>
    let after ← c.storeChecked index (edit s way).2 {}
    pure ((edit s way).1, after)

/-- The line of an address leaves the cache. -/
def invalidateChecked (c : Cache) (address : UInt64) : Checked (Option Evicted × Cache) := do
  let (index, tag, s) ← c.addressedChecked address
  match s.find? tag with
  | none => pure (none, c)
  | some way =>
    let left := s.invalidate way
    let after ← c.storeChecked index left.2
      { writebacks := if left.1.any Evicted.dirty then 1 else 0 }
    pure (left.1, after)

/-- The lines that a flush of all sets writes back, counted one by one. -/
def writtenChecked (written : Nat) : List CacheSet → Checked Nat
  | [] => pure written
  | s :: sets => do
    let more ← CacheSet.flushedChecked written s.slots
    writtenChecked more sets

theorem size_flushed_pos (c : Cache) : 0 < (c.sets.map fun s => s.flush.2).size := by
  simpa using c.sets_pos

/-- Every dirty line of every set leaves. -/
def flushChecked (c : Cache) : Checked (Nat × Cache) := do
  let written ← writtenChecked 0 c.sets.toList
  let stats ← c.stats.addChecked { writebacks := written }
  pure (written,
    { c with
      sets := c.sets.map fun s => s.flush.2
      stats
      sets_pos := c.size_flushed_pos })

/-- One operation. -/
def stepChecked (c : Cache) : Op → Checked (Answer × Cache)
  | .access address write => do
    let (result, after) ← c.accessChecked address write
    pure (.accessed result, after)
  | .pin address => do
    let (held, after) ← c.changeChecked address CacheSet.pin
    pure (.found held, after)
  | .unpin address => do
    let (held, after) ← c.changeChecked address CacheSet.unpin
    pure (.found held, after)
  | .invalidate address => do
    let (line, after) ← c.invalidateChecked address
    pure (.removed line, after)
  | .flush => do
    let (lines, after) ← c.flushChecked
    pure (.flushed lines, after)
  | .resetStats => pure (.done, c.resetStats)

/-- The answers to a sequence of operations, and the cache after it. -/
def runChecked (c : Cache) : List Op → Checked (List Answer × Cache)
  | [] => pure ([], c)
  | op :: ops => do
    let (answer, next) ← c.stepChecked op
    let (answers, last) ← runChecked next ops
    pure (answer :: answers, last)

end Cache

end SetAssociative
