import SetAssociative.CacheSet.Access

/-! A cache: an array of sets, and the counters of all operations. An address is
cut into the number of its line, whose remainder by the number of sets is the
index of the set, and whose quotient is the tag. -/
namespace SetAssociative

/-- What an access reports. -/
structure Access where
  hit : Bool
  set : Nat
  way : Nat
  evicted : Option Evicted
  deriving DecidableEq, Repr

/-- The sets of a cache, of which there is at least one, and its counters. -/
structure Cache where
  cacheType : CacheType
  lineBytes : Nat
  sets : Array CacheSet
  stats : Stats
  sets_pos : 0 < sets.size

namespace Cache

/-- Empty sets as a configuration asks for, built one after the other, each with a seed of its
own. -/
def buildSets (c : Config) (count : Nat) : Except ConfigError (List CacheSet) :=
  (List.range count).mapM fun index => CacheSet.ofConfig c (setSeed c.seed index)

theorem length_of_mapM {α β ε : Type} {f : α → Except ε β} {xs : List α} {ys : List β}
    (run : xs.mapM f = .ok ys) : ys.length = xs.length := by
  induction xs generalizing ys with
  | nil =>
    cases run
    rfl
  | cons x xs ih =>
    rw [List.mapM_cons] at run
    cases first : f x with
    | error cause => simp [first, bind, Except.bind] at run
    | ok y =>
      cases rest : xs.mapM f with
      | error cause => simp [first, rest, bind, Except.bind] at run
      | ok more =>
        simp only [first, rest, bind, Except.bind, pure, Except.pure, Except.ok.injEq] at run
        rw [← run, List.length_cons, List.length_cons, ih rest]

theorem length_of_buildSets {c : Config} {count : Nat} {sets : List CacheSet}
    (built : buildSets c count = .ok sets) : sets.length = count := by
  rw [length_of_mapM built, List.length_range]

/-- The empty cache of a configuration. -/
def ofConfig (c : Config) : Except CacheError Cache :=
  match found : c.numSets with
  | .error cause => .error (.config cause)
  | .ok count =>
    match built : buildSets c count with
    | .error cause => .error (.config cause)
    | .ok sets =>
      .ok { cacheType := c.cacheType
            lineBytes := c.lineBytes.toNat
            sets := sets.toArray
            stats := {}
            sets_pos := by
              rw [List.size_toArray, length_of_buildSets built]
              exact Config.numSets_pos found }

/-- Empty sets of a shape, each with a seed of its own. -/
def freshSets (c : Config) (g : Geometry) (count : Nat) : Array CacheSet :=
  Array.ofFn fun index : Fin count => CacheSet.ofGeometry c g (setSeed c.seed index)

@[simp] theorem size_freshSets (c : Config) (g : Geometry) (count : Nat) :
    (freshSets c g count).size = count := by simp [freshSets]

theorem toList_freshSets (c : Config) (g : Geometry) (count : Nat) :
    (freshSets c g count).toList =
      (List.range count).map fun index => CacheSet.ofGeometry c g (setSeed c.seed index) :=
  List.ext_getElem (by simp [freshSets]) (by simp [freshSets])

/-- Once the shape is sound, no set is refused. -/
theorem buildSets_eq {c : Config} {g : Geometry} (sound : c.geometry = .ok g) (count : Nat) :
    buildSets c count = .ok (freshSets c g count).toList := by
  have each : (fun index => CacheSet.ofConfig c (setSeed c.seed index)) =
      fun index => pure (CacheSet.ofGeometry c g (setSeed c.seed index)) := by
    funext index
    rw [CacheSet.ofConfig_eq, sound]
    rfl
  rw [buildSets, each, List.mapM_pure, toList_freshSets]
  rfl

/-- The empty cache of a capacity. -/
def ofCapacity (c : Config) (capacity : Capacity) : Cache where
  cacheType := c.cacheType
  lineBytes := capacity.geometry.lineBytes
  sets := freshSets c capacity.geometry capacity.numSets
  stats := {}
  sets_pos := by simpa using capacity.numSets_pos

/-- A configuration has a cache exactly if it has a capacity, and the cache is that of the
capacity. -/
theorem ofConfig_eq (c : Config) :
    ofConfig c = (c.capacity.map (ofCapacity c)).mapError CacheError.config := by
  unfold ofConfig
  cases sized : c.capacity with
  | error cause =>
    have none := Config.numSets_of_error sized
    split
    · rename_i found
      cases none.symm.trans found
      rfl
    · rename_i found
      cases none.symm.trans found
  | ok capacity =>
    have count := Config.numSets_of_capacity sized
    have sound := (Config.of_capacity sized).1
    split
    · rename_i found
      cases count.symm.trans found
    · rename_i found
      cases count.symm.trans found
      have all := buildSets_eq sound capacity.numSets
      split
      · rename_i built
        cases all.symm.trans built
      · rename_i built
        cases all.symm.trans built
        simp only [← (Config.of_geometry sound).2, Array.toArray_toList]
        rfl

theorem ofConfig_eq_ok_iff {c : Config} {start : Cache} :
    ofConfig c = .ok start ↔
      ∃ capacity, c.capacity = .ok capacity ∧ start = ofCapacity c capacity := by
  rw [ofConfig_eq]
  cases c.capacity with
  | error cause =>
    constructor
    · intro built
      cases built
    · rintro ⟨_, found, -⟩
      cases found
  | ok capacity =>
    constructor
    · intro built
      cases built
      exact ⟨capacity, rfl, rfl⟩
    · rintro ⟨_, found, rfl⟩
      cases found
      rfl

/-- The index of the set of an address, and the tag of its line. -/
def locate (c : Cache) (address : UInt64) : Nat × Nat :=
  let line := address.toNat / c.lineBytes
  (line % c.sets.size, line / c.sets.size)

theorem locate_lt (c : Cache) (address : UInt64) : (c.locate address).1 < c.sets.size :=
  Nat.mod_lt _ c.sets_pos

/-- The set of an address. -/
def setOf (c : Cache) (address : UInt64) : CacheSet :=
  have inside := c.locate_lt address
  c.sets[(c.locate address).1]

/-- The way that holds the line of an address. -/
def find? (c : Cache) (address : UInt64) : Option Nat :=
  (c.setOf address).find? (c.locate address).2

/-- Whether the cache holds the line of an address. -/
def contains (c : Cache) (address : UInt64) : Bool := (c.find? address).isSome

/-- The cache with the set of an address replaced, and further counts added. -/
def update (c : Cache) (address : UInt64) (s : CacheSet) (count : Stats) : Cache :=
  { c with
    sets := c.sets.set (c.locate address).1 s (c.locate_lt address)
    stats := c.stats + count
    sets_pos := by simpa using c.sets_pos }

/-- An access to the line of an address. -/
def access (c : Cache) (address : UInt64) (write : Bool) : Except CacheError Access × Cache :=
  let served := (c.setOf address).access (c.locate address).2 write
  (served.result.map fun p =>
      { hit := p.hit, set := (c.locate address).1, way := p.way, evicted := p.evicted },
    c.update address served.set served.count)

/-- A change to the way that holds the line of an address, and whether there is one. -/
def change (c : Cache) (address : UInt64) (edit : CacheSet → Nat → Bool × CacheSet) :
    Bool × Cache :=
  match c.find? address with
  | none => (false, c)
  | some way =>
    let edited := edit (c.setOf address) way
    (edited.1, c.update address edited.2 {})

/-- The line of an address is pinned. -/
def pin (c : Cache) (address : UInt64) : Bool × Cache := c.change address CacheSet.pin

/-- The line of an address is pinned no longer. -/
def unpin (c : Cache) (address : UInt64) : Bool × Cache := c.change address CacheSet.unpin

/-- The line of an address leaves the cache; a dirty line counts as written back. -/
def invalidate (c : Cache) (address : UInt64) : Option Evicted × Cache :=
  match c.find? address with
  | none => (none, c)
  | some way =>
    let left := (c.setOf address).invalidate way
    (left.1, c.update address left.2
      { writebacks := if left.1.any Evicted.dirty then 1 else 0 })

/-- Every dirty line of every set leaves and is written back; their number. -/
def flush (c : Cache) : Nat × Cache :=
  let written := c.sets.foldl (fun lines s => lines + s.flush.1) 0
  (written,
    { c with
      sets := c.sets.map fun s => s.flush.2
      stats := c.stats + { writebacks := written }
      sets_pos := by simpa using c.sets_pos })

/-- All counters start again from zero. -/
def resetStats (c : Cache) : Cache := { c with stats := {} }

end Cache

end SetAssociative
