import SetAssociative.Proofs.RequestRouting

/-! Every state of a cache represents lines of addresses without ambiguity: the sets keep
the shape and the discipline of the configuration, no tag is valid twice in a set, ways
that are not valid are blank, and each valid way stands for an address that leads back to
that very way. -/
namespace SetAssociative

theorem Config.capacity_congr {config rival : Config} (size : rival.sizeBytes = config.sizeBytes)
    (line : rival.lineBytes = config.lineBytes) (ways : rival.ways = config.ways) :
    rival.capacity = config.capacity := by
  simp only [capacity, geometry, size, line, ways]

/-- A single set of two lines, of which the first to come gives way to a third. -/
def Config.pair : Config := { sizeBytes := 128, lineBytes := 64, ways := 2, policy := .fifo }

namespace Cache
variable {c start : Cache} {config : Config} {address : UInt64} {index tag : Nat}

/-- The first byte of the line of a tag in a set. -/
def byteOf (c : Cache) (index tag : Nat) : Nat := (tag * c.sets.size + index) * c.lineBytes

/-- An address lies in the line to which it is taken apart. -/
theorem byteOf_locate_le (c : Cache) (address : UInt64) :
    c.byteOf (c.locate address).1 (c.locate address).2 ≤ address.toNat := by
  simp only [byteOf, locate]
  rw [Nat.div_add_mod']
  exact Nat.div_mul_le_self ..

/-- The first byte of a line is taken apart to its set and its tag. -/
theorem locate_byteOf (wide : 0 < c.lineBytes) (inside : index < c.sets.size)
    (small : c.byteOf index tag < UInt64.size) :
    c.locate (UInt64.ofNat (c.byteOf index tag)) = (index, tag) := by
  have back : (UInt64.ofNat (c.byteOf index tag)).toNat / c.lineBytes =
      tag * c.sets.size + index := by
    rw [UInt64.toNat_ofNat_of_lt' small]
    exact Nat.mul_div_cancel _ wide
  simp only [locate, back]
  rw [Nat.mul_comm, Nat.mul_add_mod, Nat.mod_eq_of_lt inside, Nat.mul_add_div c.sets_pos,
    Nat.div_eq_of_lt inside, Nat.add_zero]

/-- A cache starts with fresh sets, as many as the configuration asks for, and no counts. -/
theorem start_of_ofConfig (built : ofConfig config = .ok start) :
    ∃ capacity, config.capacity = .ok capacity ∧
      start.lineBytes = capacity.geometry.lineBytes ∧
      start.sets = freshSets config capacity.geometry capacity.numSets ∧ start.stats = {} := by
  obtain ⟨capacity, found, rfl⟩ := ofConfig_eq_ok_iff.mp built
  exact ⟨capacity, found, rfl, rfl, rfl⟩

/-- How a cache starts that a configuration asks for. -/
theorem of_ofConfig (built : ofConfig config = .ok start) :
    ∃ g : Geometry, config.geometry = .ok g ∧ start.lineBytes = g.lineBytes ∧
      start.Everywhere fun index s =>
        s = CacheSet.ofGeometry config g (setSeed config.seed index) := by
  obtain ⟨capacity, found, lineBytes, sets, -⟩ := start_of_ofConfig built
  refine ⟨_, (Config.of_capacity found).1, lineBytes, ?_⟩
  intro index s there
  rw [sets] at there
  simp only [freshSets, Array.getElem?_ofFn] at there
  split at there
  · exact (Option.some.inj there).symm
  · cases there

/-- The place of an address in a cache is fixed by the sizes in its configuration. -/
theorem locate_eq_of_ofConfig {rival : Config} {other : Cache}
    (built : ofConfig config = .ok start) (also : ofConfig rival = .ok other)
    (same : rival.capacity = config.capacity) : other.locate = start.locate := by
  obtain ⟨capacity, found, lineBytes, sets, -⟩ := start_of_ofConfig built
  obtain ⟨wanted, agreed, lineBytes', sets', -⟩ := start_of_ofConfig also
  obtain rfl := Except.ok.inj (found.symm.trans (same.symm.trans agreed))
  funext address
  simp only [locate, lineBytes, lineBytes', sets, sets', size_freshSets]

/-- What one set of a cache keeps of the configuration, and its lines of addresses. -/
structure Kept (config : Config) (c : Cache) (index : Nat) (s : CacheSet) : Prop where
  ways : s.ways = config.ways.toNat
  kind : s.policy.kind = config.policy
  sound : s.Sound
  addressed : ∀ {tag line}, s.Holds tag line → c.byteOf index tag < UInt64.size

theorem kept_ofGeometry {g : Geometry} (same : config.geometry = .ok g) (seed : UInt64) :
    Kept config c index (CacheSet.ofGeometry config g seed) where
  ways := by simp [CacheSet.ofGeometry, CacheSet.empty, CacheSet.ways, (Config.of_geometry same).1]
  kind := Policy.kind_fresh ..
  sound := CacheSet.sound_empty (Policy.ways_fresh ..)
  addressed := by
    intro tag line held
    have blank := List.eq_of_mem_replicate (List.mem_of_getElem? held)
    cases blank

/-- A request keeps all this in its set, since its tag comes from an address. -/
theorem Kept.serve {s : CacheSet} (kept : Kept config c (c.locate address).1 s)
    (request : Request) :
    Kept config c (c.locate address).1 (s.serve (c.locate address).2 request).set := by
  have build := CacheSet.build_serve s (c.locate address).2 request
  refine ⟨(congrArg Build.ways build).trans kept.ways, (congrArg Build.kind build).trans kept.kind,
    kept.sound.serve _ _, ?_⟩
  intro tag line held
  rcases CacheSet.holds_of_serve kept.sound.fits held with rfl | ⟨before, held⟩
  · exact Nat.lt_of_le_of_lt (c.byteOf_locate_le address) address.toNat_lt
  · exact kept.addressed held

theorem Kept.flush {s : CacheSet} (kept : Kept config c index s) :
    Kept config c index s.flush.2 := by
  have build := CacheSet.build_flush s
  exact ⟨(congrArg Build.ways build).trans kept.ways, (congrArg Build.kind build).trans kept.kind,
    kept.sound.flush, fun held => kept.addressed (CacheSet.holds_flush.mp held).1⟩

theorem kept_of_run (built : ofConfig config = .ok start) (ops : List Op) :
    (start.run ops).2.Everywhere (Kept config start) := by
  obtain ⟨g, same, -, fresh⟩ := of_ofConfig built
  refine Everywhere.run ?_ (fun _ request _ kept => kept.serve request)
    (fun _ _ kept => kept.flush) ops
  intro index s there
  rw [fresh index s there]
  exact kept_ofGeometry same _

theorem sound_of_ofConfig (built : ofConfig config = .ok start) : start.Sound :=
  fun index s there => (kept_of_run built [] index s there).sound

/-- A state that represents the lines of a cache built from a configuration. -/
structure WellFormed (config : Config) (c : Cache) : Prop where
  some_set : 0 < c.sets.size
  /-- Sets have the ways and the discipline of the configuration. -/
  shape : ∀ s ∈ c.sets, s.ways = config.ways.toNat ∧ s.policy.kind = config.policy ∧
    s.policy.ways = config.ways.toNat
  /-- No tag is valid in two ways of a set. -/
  unique : ∀ s ∈ c.sets, ∀ (i j : Nat) (v w : Way), s.way? i = some v → s.way? j = some w →
    v.valid = true → w.valid = true → v.tag = w.tag → i = j
  /-- Ways that are not valid are blank. -/
  blank : ∀ s ∈ c.sets, ∀ (i : Nat) (w : Way), s.way? i = some w → w.valid = false →
    w = { tag := 0, valid := false, dirty := false, pinned := false }
  /-- A valid way stands for an address of 64 bits, and that address finds it. -/
  located : ∀ (index : Nat) (s : CacheSet), c.sets[index]? = some s →
    ∀ (i : Nat) (w : Way), s.way? i = some w → w.valid = true →
      (w.tag * c.sets.size + index) * c.lineBytes < UInt64.size ∧
      c.locate (UInt64.ofNat ((w.tag * c.sets.size + index) * c.lineBytes)) = (index, w.tag) ∧
      s.find? w.tag = some i

theorem wellFormed_of_kept (wide : 0 < c.lineBytes) (kept : c.Everywhere (Kept config c)) :
    c.WellFormed config where
  some_set := c.sets_pos
  shape := by
    intro s member
    obtain ⟨index, there⟩ := Array.mem_iff_getElem?.mp member
    have holds := kept index s there
    exact ⟨holds.ways, holds.kind, Eq.trans holds.sound.fits holds.ways⟩
  unique := by
    intro s member i j v w first second left right tags
    obtain ⟨index, there⟩ := Array.mem_iff_getElem?.mp member
    have one := CacheSet.holds_of_valid first left
    have other := CacheSet.holds_of_valid second right
    rw [← tags] at other
    exact congrArg Line.way ((kept index s there).sound.tidy.unique one other)
  blank := by
    intro s member i w held vacant
    obtain ⟨index, there⟩ := Array.mem_iff_getElem?.mp member
    exact (kept index s there).sound.tidy.vacant held vacant
  located := by
    intro index s there i w held valid
    have line := CacheSet.holds_of_valid held valid
    have small := (kept index s there).addressed line
    have inside : index < c.sets.size := (Array.getElem?_eq_some_iff.mp there).choose
    exact ⟨small, locate_byteOf wide inside small,
      (kept index s there).sound.tidy.find?_of_holds line⟩

theorem byteOf_run (c : Cache) (ops : List Op) : (c.run ops).2.byteOf = c.byteOf := by
  obtain ⟨lineBytes, size⟩ := c.shape_run ops
  funext index tag
  simp only [byteOf, lineBytes, size]

theorem lineBytes_pos_of_run (built : ofConfig config = .ok start) (ops : List Op) :
    0 < (start.run ops).2.lineBytes := by
  obtain ⟨g, -, same, -⟩ := of_ofConfig built
  rw [(start.shape_run ops).1, same]
  exact g.lineBytes_pos

/-- Whatever is done to a cache that was built from a configuration, it represents its
lines without ambiguity. -/
theorem runs_keep_caches_well_formed (built : ofConfig config = .ok start) (ops : List Op) :
    (start.run ops).2.WellFormed config := by
  refine wellFormed_of_kept (lineBytes_pos_of_run built ops) fun index s there => ?_
  have kept := kept_of_run built ops index s there
  refine ⟨kept.ways, kept.kind, kept.sound, fun held => ?_⟩
  rw [byteOf_run]
  exact kept.addressed held

/-- Two ways represent their lines after one was replaced and the other was invalidated. -/
theorem pair_is_well_formed_after_replacement :
    ∃ start, ofConfig Config.pair = .ok start ∧
      (start.run [.access 0 true, .access 64 false, .access 128 false,
        .invalidate 64]).2.WellFormed Config.pair :=
  ⟨_, rfl, runs_keep_caches_well_formed (rfl : ofConfig Config.pair = .ok _) _⟩

end Cache

end SetAssociative
