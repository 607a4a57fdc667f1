import SetAssociative.Proofs.CacheRepresentation
import SetAssociative.Proofs.LineTotals

/-! How many sets a configuration comes to. Its size is the product of the sets, the ways and
the length of lines, in exact arithmetic, as long as the bytes of one set fit a word. Where
they do not, the check reads the largest word in their place, so that the largest size passes
for one set, although the set covers more. Nothing else can keep a cache from being built. -/
namespace SetAssociative

/-- A shape is the one of its own sizes, and they have no other. -/
theorem Geometry.ofSizes_eq_ok_iff {ways lineBytes : Nat} {g : Geometry} :
    Geometry.ofSizes ways lineBytes = .ok g ↔ g.ways = ways ∧ g.lineBytes = lineBytes := by
  constructor
  · intro sound
    unfold ofSizes at sound
    split at sound
    · cases sound
    · split at sound
      · cases sound
      · split at sound
        · cases sound
          exact ⟨rfl, rfl⟩
        · cases sound
  · rintro ⟨rfl, rfl⟩
    have positive := g.ways_pos
    have few := g.ways_le
    rw [ofSizes, dif_neg (by omega), dif_neg (by omega), dif_pos g.lineBytes_isPowerOfTwo]

/-- The number of sets of a shape is the size divided by the bytes of one set, without rest. -/
theorem Config.capacity_eq_ok_iff {c : Config} {n : Nat} :
    (∃ found, c.capacity = .ok found ∧ found.numSets = n) ↔
      ∃ g, c.geometry = .ok g ∧ 1 ≤ n ∧ n * g.setBytes = c.sizeBytes.toNat := by
  constructor
  · rintro ⟨found, sound, rfl⟩
    unfold Config.capacity at sound
    split at sound
    · cases sound
    · rename_i g shape
      dsimp only at sound
      split at sound
      · rename_i whole
        cases sound
        refine ⟨g, shape, ?_, Nat.div_mul_cancel (Nat.dvd_of_mod_eq_zero whole.2)⟩
        exact Nat.div_pos (Nat.le_of_dvd (Nat.pos_of_ne_zero whole.1)
          (Nat.dvd_of_mod_eq_zero whole.2)) g.setBytes_pos
      · cases sound
  · rintro ⟨g, found, some_set, size⟩
    have positive := Nat.mul_pos some_set g.setBytes_pos
    have whole : c.sizeBytes.toNat ≠ 0 ∧ c.sizeBytes.toNat % g.setBytes = 0 :=
      ⟨by omega, by rw [← size, Nat.mul_mod_left]⟩
    rw [capacity, found]
    refine ⟨_, dif_pos whole, ?_⟩
    show c.sizeBytes.toNat / g.setBytes = n
    rw [← size, Nat.mul_div_cancel _ g.setBytes_pos]

namespace Config
variable {c : Config} {n : Nat}

/-- The shape of one set is sound. -/
structure SoundSet (c : Config) : Prop where
  some_way : 1 ≤ c.ways.toNat
  few_ways : c.ways.toNat ≤ 64
  power : c.lineBytes.toNat.isPowerOfTwo

/-- The size is that of so many sets, in exact arithmetic. -/
structure Exact (c : Config) (n : Nat) : Prop extends c.SoundSet where
  some_set : 1 ≤ n
  size : n * c.lineBytes.toNat * c.ways.toNat = c.sizeBytes.toNat

/-- One set covers more bytes than a word can count, and the size is the largest word. -/
structure Saturated (c : Config) : Prop extends c.SoundSet where
  wide : UInt64.size ≤ c.lineBytes.toNat * c.ways.toNat
  size : c.sizeBytes.toNat = UInt64.size - 1

theorem soundSet_iff :
    c.SoundSet ↔ ∃ g : Geometry, c.geometry = .ok g := by
  constructor
  · rintro ⟨some_way, few_ways, power⟩
    exact ⟨⟨_, _, some_way, few_ways, power⟩, Geometry.ofSizes_eq_ok_iff.mpr ⟨rfl, rfl⟩⟩
  · rintro ⟨g, sound⟩
    obtain ⟨ways, lineBytes⟩ := of_geometry sound
    exact ⟨ways ▸ g.ways_pos, ways ▸ g.ways_le, lineBytes ▸ g.lineBytes_isPowerOfTwo⟩

theorem setBytes_of_geometry {g : Geometry} (sound : c.geometry = .ok g) :
    g.setBytes = min (c.lineBytes.toNat * c.ways.toNat) (UInt64.size - 1) := by
  rw [Geometry.setBytes, (of_geometry sound).1, (of_geometry sound).2]

/-- A size that a word holds is a positive multiple of the largest word only as that word. -/
theorem size_iff_of_wide (c : Config) (some_set : 1 ≤ n) :
    n * (UInt64.size - 1) = c.sizeBytes.toNat ↔ c.sizeBytes.toNat = UInt64.size - 1 ∧ n = 1 := by
  have small := c.sizeBytes.toNat_lt
  simp only [show UInt64.size = 2 ^ 64 from rfl] at *
  constructor
  · intro size
    have one : n < 2 := by
      apply Nat.lt_of_mul_lt_mul_right (a := 2 ^ 64 - 1)
      omega
    obtain rfl : n = 1 := by omega
    omega
  · rintro ⟨size, rfl⟩
    omega

/-- The sets that the check finds: those of the exact size, or the one of a saturated size. -/
theorem numSets_eq_ok_iff : c.numSets = .ok n ↔ c.Exact n ∨ (c.Saturated ∧ n = 1) := by
  have found : c.numSets = .ok n ↔
      ∃ capacity, c.capacity = .ok capacity ∧ capacity.numSets = n := by
    rw [numSets]
    cases c.capacity <;> simp [Except.map]
  rw [found, capacity_eq_ok_iff]
  constructor
  · rintro ⟨g, sound, some_set, size⟩
    have shape := soundSet_iff.mpr ⟨g, sound⟩
    rw [setBytes_of_geometry sound] at size
    by_cases wide : UInt64.size ≤ c.lineBytes.toNat * c.ways.toNat
    · rw [Nat.min_eq_right (by omega)] at size
      obtain ⟨largest, one⟩ := (c.size_iff_of_wide some_set).mp size
      exact .inr ⟨{ shape with wide, size := largest }, one⟩
    · rw [Nat.min_eq_left (by omega)] at size
      exact .inl { shape with some_set, size := by rw [Nat.mul_assoc, size] }
  · rintro (exact_size | ⟨saturated, rfl⟩)
    · obtain ⟨g, sound⟩ := soundSet_iff.mp exact_size.toSoundSet
      refine ⟨g, sound, exact_size.some_set, ?_⟩
      have size := exact_size.size
      have fits : c.lineBytes.toNat * c.ways.toNat ≤ c.sizeBytes.toNat := by
        rw [← size, Nat.mul_assoc]
        exact Nat.le_mul_of_pos_left _ exact_size.some_set
      have small := c.sizeBytes.toNat_lt
      rw [setBytes_of_geometry sound, Nat.min_eq_left (Nat.le_sub_one_of_lt
        (Nat.lt_of_le_of_lt fits small)), ← Nat.mul_assoc, size]
    · obtain ⟨g, sound⟩ := soundSet_iff.mp saturated.toSoundSet
      refine ⟨g, sound, Nat.le_refl 1, ?_⟩
      rw [setBytes_of_geometry sound,
        Nat.min_eq_right (Nat.le_trans (Nat.sub_le _ 1) saturated.wide),
        Nat.one_mul, saturated.size]

end Config

namespace Cache
variable {c : Config} {start : Cache}

/-- The bytes that all ways of all sets cover. -/
def bytes (c : Cache) : Nat := c.total fun s => s.ways * s.lineBytes

theorem numSets_of_ofConfig (built : ofConfig c = .ok start) : c.numSets = .ok start.sets.size := by
  obtain ⟨capacity, found, -, sets, -⟩ := start_of_ofConfig built
  rw [sets, size_freshSets]
  exact Config.numSets_of_capacity found

theorem bytes_of_ofConfig (built : ofConfig c = .ok start) :
    start.bytes = start.sets.size * c.lineBytes.toNat * c.ways.toNat := by
  obtain ⟨g, sound, -, fresh⟩ := of_ofConfig built
  obtain ⟨ways, lineBytes⟩ := Config.of_geometry sound
  have each : ∀ s ∈ start.sets.toList, s.ways * s.lineBytes = c.ways.toNat * c.lineBytes.toNat := by
    intro s member
    obtain ⟨index, there⟩ := Array.mem_iff_getElem?.mp (Array.mem_toList_iff.mp member)
    rw [fresh index s there]
    simp [CacheSet.ofGeometry, CacheSet.empty, CacheSet.ways, ways, lineBytes]
  rw [bytes, total, List.map_congr_left each, List.map_const', List.sum_replicate_nat,
    Array.length_toList, Nat.mul_assoc, Nat.mul_comm c.ways.toNat]

/-- A configuration comes to as many sets as make up its size exactly, or to one set when its
size is the largest word and the set covers more. In both cases, and in no other, a cache is
built, with that many sets of the ways that were asked for; all ways together cover the size
in the first case, and more than the size in the second. -/
theorem capacities_are_exact_unless_saturated (c : Config) :
    (∀ n, c.numSets = .ok n ↔ c.Exact n ∨ (c.Saturated ∧ n = 1)) ∧
    ((∃ start, ofConfig c = .ok start) ↔ ∃ n, c.numSets = .ok n) ∧
    ∀ start, ofConfig c = .ok start →
      c.numSets = .ok start.sets.size ∧ (∀ s ∈ start.sets, s.ways = c.ways.toNat) ∧
      (¬ c.Saturated → start.bytes = c.sizeBytes.toNat) ∧
      (c.Saturated → c.sizeBytes.toNat < start.bytes) := by
  refine ⟨fun _ => Config.numSets_eq_ok_iff, ⟨?_, ?_⟩, fun start built => ⟨?_, ?_, ?_, ?_⟩⟩
  · rintro ⟨start, built⟩
    exact ⟨_, numSets_of_ofConfig built⟩
  · rintro ⟨n, found⟩
    cases sized : c.capacity with
    | error cause => cases (Config.numSets_of_error sized).symm.trans found
    | ok capacity => exact ⟨_, ofConfig_eq_ok_iff.mpr ⟨capacity, sized, rfl⟩⟩
  · exact numSets_of_ofConfig built
  · exact fun s member => ((runs_keep_caches_well_formed built []).shape s member).1
  · intro unsaturated
    rw [bytes_of_ofConfig built]
    rcases Config.numSets_eq_ok_iff.mp (numSets_of_ofConfig built) with exact_size | ⟨saturated, -⟩
    · exact exact_size.size
    · exact absurd saturated unsaturated
  · intro saturated
    have wide := saturated.wide
    have some_set := start.sets_pos
    rw [bytes_of_ofConfig built, saturated.size, Nat.mul_assoc]
    have covered := Nat.le_mul_of_pos_left (c.lineBytes.toNat * c.ways.toNat) some_set
    have positive : 0 < UInt64.size := by decide
    omega

end Cache

/-- The largest size, in sets of two halves of one byte more. -/
def Config.halves : Config :=
  { sizeBytes := 0xFFFFFFFFFFFFFFFF, lineBytes := 0x8000000000000000, ways := 2 }

/-- The largest size passes for one set, though no number of sets makes it up. -/
theorem Config.halves_exceed_the_largest_size :
    halves.numSets = .ok 1 ∧ ∀ n, ¬ halves.Exact n := by
  refine ⟨rfl, fun n exact_size => ?_⟩
  have size := exact_size.size
  simp only [show halves.lineBytes.toNat = 2 ^ 63 from rfl, show halves.ways.toNat = 2 from rfl,
    show halves.sizeBytes.toNat = 2 ^ 64 - 1 from rfl] at size
  omega

end SetAssociative
