import SetAssociative.Error
import SetAssociative.Config

/-! The shape of a set: how many ways it has and how long its lines are. A shape
is checked once, when it is built, and carries the proof that it is sound. -/
namespace SetAssociative

/-- A sound shape: between one way and the most that fit, and a line length that
is a power of two. -/
structure Geometry where
  ways : Nat
  lineBytes : Nat
  ways_pos : 0 < ways
  ways_le : ways ≤ maxWays
  lineBytes_isPowerOfTwo : lineBytes.isPowerOfTwo

namespace Geometry

/-- The shape of the given sizes. The number of ways is checked first. -/
def ofSizes (ways lineBytes : Nat) : Except ConfigError Geometry :=
  if noWays : ways = 0 then .error .noWays
  else if tooMany : maxWays < ways then .error (.tooManyWays ways)
  else if power : lineBytes.isPowerOfTwo then
    .ok { ways, lineBytes, ways_pos := by omega, ways_le := by omega,
          lineBytes_isPowerOfTwo := power }
  else .error (.lineSizeNotPowerOfTwo lineBytes)

theorem lineBytes_pos (g : Geometry) : 0 < g.lineBytes := by
  obtain ⟨k, same⟩ := g.lineBytes_isPowerOfTwo
  rw [same]
  exact Nat.two_pow_pos k

/-- The bytes that one set covers, or the largest word if there are more. -/
def setBytes (g : Geometry) : Nat := min (g.lineBytes * g.ways) (UInt64.size - 1)

theorem setBytes_pos (g : Geometry) : 0 < g.setBytes :=
  Nat.lt_min.mpr ⟨Nat.mul_pos g.lineBytes_pos g.ways_pos, by decide⟩

end Geometry

/-- The shape of a whole cache: that of one set, and how many sets there are. -/
structure Capacity where
  geometry : Geometry
  numSets : Nat
  numSets_pos : 0 < numSets

namespace Config

/-- The shape that a configuration asks for. -/
def geometry (c : Config) : Except ConfigError Geometry :=
  Geometry.ofSizes c.ways.toNat c.lineBytes.toNat

/-- The capacity that a configuration asks for: its size must be a multiple of the
bytes of one set, and more than nothing. -/
def capacity (c : Config) : Except ConfigError Capacity :=
  match c.geometry with
  | .error cause => .error cause
  | .ok g =>
    let size := c.sizeBytes.toNat
    if whole : size ≠ 0 ∧ size % g.setBytes = 0 then
      .ok { geometry := g, numSets := size / g.setBytes
            numSets_pos := Nat.div_pos
              (Nat.le_of_dvd (Nat.pos_of_ne_zero whole.1) (Nat.dvd_of_mod_eq_zero whole.2))
              g.setBytes_pos }
    else .error (.sizeNotMultiple size g.setBytes)

/-- How many sets the cache has. -/
def numSets (c : Config) : Except ConfigError Nat := c.capacity.map Capacity.numSets

theorem of_geometry {c : Config} {g : Geometry} (sound : c.geometry = .ok g) :
    g.ways = c.ways.toNat ∧ g.lineBytes = c.lineBytes.toNat := by
  unfold geometry Geometry.ofSizes at sound
  split at sound
  · cases sound
  · split at sound
    · cases sound
    · split at sound
      · cases sound
        exact ⟨rfl, rfl⟩
      · cases sound

theorem of_capacity {c : Config} {capacity : Capacity} (sound : c.capacity = .ok capacity) :
    c.geometry = .ok capacity.geometry ∧ capacity.numSets ≤ c.sizeBytes.toNat := by
  unfold Config.capacity at sound
  split at sound
  · cases sound
  · rename_i g found
    dsimp only at sound
    split at sound
    · cases sound
      exact ⟨found, Nat.div_le_self ..⟩
    · cases sound

theorem numSets_of_capacity {c : Config} {capacity : Capacity}
    (sound : c.capacity = .ok capacity) : c.numSets = .ok capacity.numSets := by
  rw [numSets, sound]
  rfl

theorem numSets_of_error {c : Config} {cause : ConfigError} (refused : c.capacity = .error cause) :
    c.numSets = .error cause := by
  rw [numSets, refused]
  rfl

/-- Where sets are counted, there is one. -/
theorem numSets_pos {c : Config} {count : Nat} (found : c.numSets = .ok count) : 0 < count := by
  cases sized : c.capacity with
  | error cause => cases (numSets_of_error sized).symm.trans found
  | ok capacity =>
    cases (numSets_of_capacity sized).symm.trans found
    exact capacity.numSets_pos

end Config

end SetAssociative
