import SetAssociative.Proofs.SetIndependence
import SetAssociative.Proofs.WritebackConservation

/-! A flush is an invalidation of every dirty line, in whatever order: it goes over the ways
of all sets and counts what it writes back once, and the invalidations look for the lines by
their addresses and count one by one, but the same cache comes of both. -/
namespace SetAssociative

namespace CacheSet
variable {s : CacheSet} {tag way : Nat} {w : Way} {tags more : List Nat}

/-- The tags of the dirty lines, in the order of the ways. -/
def dirtyTags (s : CacheSet) : List Nat := (s.slots.filter flushes).map Way.tag

theorem mem_dirtyTags : tag ∈ s.dirtyTags ↔ ∃ line, s.Holds tag line ∧ line.dirty = true := by
  constructor
  · intro member
    obtain ⟨w, there, rfl⟩ := List.mem_map.mp member
    obtain ⟨there, flushed⟩ := List.mem_filter.mp there
    obtain ⟨way, here⟩ := List.mem_iff_getElem?.mp there
    rw [flushes, Bool.and_eq_true] at flushed
    exact ⟨_, holds_of_valid here flushed.1, flushed.2⟩
  · rintro ⟨line, held, dirty⟩
    have flushed : flushes (line.slot tag) = true := dirty
    exact List.mem_map.mpr
      ⟨_, List.mem_filter.mpr ⟨List.mem_of_getElem? held, flushed⟩, rfl⟩

/-- The set with some ways emptied. -/
def emptied (s : CacheSet) (leaves : Way → Bool) : CacheSet :=
  { s with slots := s.slots.map fun w => if leaves w then .empty else w }

theorem way?_emptied (leaves : Way → Bool) :
    (s.emptied leaves).way? way = (s.way? way).map fun w => if leaves w then .empty else w :=
  List.getElem?_map

theorem emptied_congr {first second : Way → Bool} (same : ∀ w ∈ s.slots, first w = second w) :
    s.emptied first = s.emptied second := by
  have slots : s.slots.map (fun w => if first w then .empty else w) =
      s.slots.map fun w => if second w then .empty else w :=
    List.map_congr_left fun w member => by rw [same w member]
  simp only [emptied, slots]

/-- Ways emptied one after the other may be emptied at once. -/
theorem emptied_emptied {first second : Way → Bool} (empty : second .empty = false) :
    (s.emptied first).emptied second = s.emptied fun w => first w || second w := by
  have both : ∀ w : Way, (if second (if first w then .empty else w) then Way.empty
      else if first w then .empty else w) = if first w || second w then .empty else w := by
    intro w
    cases leaves : first w with
    | true => simp [empty]
    | false => simp
  simp only [emptied, List.map_map, Function.comp_def, both]

theorem emptied_none (s : CacheSet) : s.emptied (fun _ => false) = s := by
  simp [emptied]

/-- Whether a way holds the line of one of some tags. -/
def holdsOne (tags : List Nat) (w : Way) : Bool := w.valid && tags.contains w.tag

theorem holdsOne_eq_true_iff : holdsOne tags w = true ↔ w.valid = true ∧ w.tag ∈ tags := by
  rw [holdsOne, Bool.and_eq_true, List.contains_iff_mem]

/-- To invalidate the line of a tag is to empty the way that holds it. -/
theorem Sound.set_serve_invalidate (sound : s.Sound) (tag : Nat) :
    (s.serve tag .invalidate).set = s.emptied (holdsOne [tag]) := by
  have effect := effect_serve sound.fits tag .invalidate
  generalize s.serve tag .invalidate = response at effect
  cases effect with
  | removed line found held =>
    have alone : ∀ {way w}, s.way? way = some w → (holdsOne [tag] w = true ↔ line.way = way) := by
      intro way w here
      rw [holdsOne_eq_true_iff, List.mem_singleton]
      constructor
      · rintro ⟨valid, rfl⟩
        exact congrArg Line.way (sound.tidy.unique held (holds_of_valid here valid))
      · rintro rfl
        obtain rfl := Option.some.inj (held.symm.trans here)
        exact ⟨rfl, rfl⟩
    have same : ∀ way, (s.clear line.way).way? way = (s.emptied (holdsOne [tag])).way? way := by
      intro way
      rw [clear, way?_setWay s _ held.inside, way?_emptied]
      cases here : s.way? way with
      | none =>
        refine if_neg fun equal => ?_
        rw [← equal, held] at here
        cases here
      | some w =>
        rw [Option.map_some, apply_ite some]
        exact if_congr (alone here).symm rfl rfl
    exact congrArg (fun slots => { s with slots }) (List.ext_getElem? same)
  | missing absent =>
    refine (s.emptied_none).symm.trans (emptied_congr fun w member => ?_)
    obtain ⟨way, here⟩ := List.mem_iff_getElem?.mp member
    symm
    rw [Bool.eq_false_iff, ne_eq, holdsOne_eq_true_iff, List.mem_singleton]
    rintro ⟨valid, rfl⟩
    exact find?_eq_none_iff.mp absent _ (holds_of_valid here valid)

/-- Invalidations empty all ways that hold lines of their tags. -/
theorem Sound.performAll_invalidate (sound : s.Sound) (tags : List Nat) :
    s.performAll (tags.map fun tag => .serve tag .invalidate) = s.emptied (holdsOne tags) := by
  induction tags generalizing s with
  | nil =>
    refine (s.emptied_none).symm.trans (emptied_congr fun w _ => ?_)
    rw [holdsOne, List.contains_nil, Bool.and_false]
  | cons tag tags ih =>
    have rest := ih (sound.serve tag .invalidate)
    have either : ∀ w, (holdsOne [tag] w || holdsOne tags w) = holdsOne (tag :: tags) w := by
      intro w
      simp only [holdsOne, ← Bool.and_or_distrib_left, List.contains_cons, List.contains_nil,
        Bool.or_false]
    rw [sound.set_serve_invalidate, emptied_emptied rfl, funext either] at rest
    rw [← rest, ← sound.set_serve_invalidate]
    rfl

/-- A flush empties the ways that hold the lines of the dirty tags. -/
theorem Tidy.emptied_eq_flush (tidy : s.Tidy) (members : ∀ tag, tag ∈ tags ↔ tag ∈ s.dirtyTags) :
    s.emptied (holdsOne tags) = s.flush.2 := by
  refine emptied_congr fun w member => ?_
  obtain ⟨way, here⟩ := List.mem_iff_getElem?.mp member
  rw [Bool.eq_iff_iff, holdsOne_eq_true_iff, members, mem_dirtyTags, flushes, Bool.and_eq_true]
  refine and_congr_right fun valid => ?_
  have held := holds_of_valid here valid
  constructor
  · rintro ⟨line, also, dirty⟩
    rw [tidy.unique also held] at dirty
    exact dirty
  · intro dirty
    exact ⟨_, held, dirty⟩

/-- No way holds a dirty line after a flush. -/
theorem Tidy.dirty_flush (tidy : s.Tidy) (here : s.flush.2.way? way = some w) :
    w.dirty = false := by
  cases valid : w.valid with
  | true => exact (holds_flush.mp (holds_of_valid here valid)).2
  | false =>
    rw [tidy.flush.vacant here valid]
    rfl

end CacheSet

namespace Cache
variable {c start : Cache} {config : Config} {s : CacheSet} {index tag byte : Nat}
  {order : List UInt64}

/-- The first bytes of the dirty lines, set by set. -/
def dirtyBytes (c : Cache) : List Nat :=
  c.sets.toList.zipIdx.flatMap fun place => place.1.dirtyTags.map (c.byteOf place.2)

theorem mem_dirtyBytes : byte ∈ c.dirtyBytes ↔
    ∃ index s, c.sets[index]? = some s ∧ ∃ tag ∈ s.dirtyTags, c.byteOf index tag = byte := by
  simp only [dirtyBytes, List.mem_flatMap, List.mem_map, Prod.exists,
    List.mk_mem_zipIdx_iff_getElem?, Array.getElem?_toList]
  exact exists_comm

theorem length_dirtyBytes (c : Cache) : c.dirtyBytes.length = c.dirtyLines := by
  have lengths : ∀ place : CacheSet × Nat,
      (place.1.dirtyTags.map (c.byteOf place.2)).length = place.1.dirtyLines := by
    intro place
    rw [List.length_map, CacheSet.dirtyTags, List.length_map, ← List.countP_eq_length_filter]
    rfl
  have sets : c.dirtyLines = ((c.sets.toList.zipIdx.map Prod.fst).map CacheSet.dirtyLines).sum := by
    rw [List.zipIdx_map_fst]
    rfl
  rw [sets, List.map_map]
  simp only [dirtyBytes, List.length_flatMap, lengths, Function.comp_def]

/-- The tags of some addresses that go to one set. -/
def tagsIn (c : Cache) (index : Nat) (order : List UInt64) : List Nat :=
  order.filterMap fun address =>
    if (c.locate address).1 = index then some (c.locate address).2 else none

theorem mem_tagsIn :
    tag ∈ c.tagsIn index order ↔ ∃ address ∈ order, c.locate address = (index, tag) := by
  simp only [tagsIn, List.mem_filterMap, Option.ite_none_right_eq_some, Option.some.injEq,
    Prod.ext_iff]

theorem filterMap_task?_invalidate (c : Cache) (index : Nat) (order : List UInt64) :
    (order.map .invalidate).filterMap (c.task? index) =
      (c.tagsIn index order).map fun tag => .serve tag .invalidate := by
  rw [List.filterMap_map, tagsIn, List.map_filterMap]
  congr 1
  funext address
  have asked : Op.request? (.invalidate address) = some (address, .invalidate) := rfl
  rw [Function.comp_apply, task?_of_request? asked]
  split <;> rfl

/-- Invalidations count what they write back, and nothing else. -/
theorem stats_run_invalidate (sound : c.Sound) (order : List UInt64) :
    ∃ written, (c.run (order.map .invalidate)).2.stats = c.stats + { writebacks := written } ∧
      (c.run (order.map .invalidate)).2.dirtyLines + written = c.dirtyLines := by
  induction order generalizing c with
  | nil => exact ⟨0, rfl, rfl⟩
  | cons address order ih =>
    have asked : Op.request? (.invalidate address) = some (address, .invalidate) := rfl
    obtain ⟨response, effect, stepped⟩ := sound.effect_step asked
    have counted : response.count = { writebacks := response.count.writebacks } := by
      cases effect <;> rfl
    have tidy := (Everywhere.setOf sound address).tidy
    have changed := dirtyLines_update (CacheSet.dirtyLines_of_effect tidy effect)
    obtain ⟨written, stats, lines⟩ := ih (sound.step (.invalidate address))
    rw [stepped] at stats lines
    refine ⟨response.count.writebacks + written, ?_, ?_⟩
    · rw [List.map_cons, run, stepped, stats, update, counted, add_assoc]
      rfl
    · rw [List.map_cons, run, stepped, ← Nat.add_assoc, Nat.add_right_comm, lines]
      exact changed

/-- Invalidations of the dirty lines, in any order, amount to a flush. -/
theorem run_invalidate_eq_flush (sound : c.Sound)
    (members : ∀ index s, c.sets[index]? = some s →
      ∀ tag, tag ∈ c.tagsIn index order ↔ tag ∈ s.dirtyTags) :
    (c.run (order.map .invalidate)).2 = c.flush.2 := by
  have sets : ∀ index : Nat,
      (c.run (order.map .invalidate)).2.sets[index]? = c.flush.2.sets[index]? := by
    intro index
    rw [getElem?_sets_run, getElem?_sets_flush, filterMap_task?_invalidate]
    refine Option.map_congr fun s there => ?_
    have here := sound index s there
    rw [here.performAll_invalidate, here.tidy.emptied_eq_flush (members index s there)]
  obtain ⟨written, stats, lines⟩ := stats_run_invalidate sound order
  have left : (c.run (order.map .invalidate)).2.dirtyLines = c.flush.2.dirtyLines := by
    rw [dirtyLines, total, Array.ext_getElem? sets]
    rfl
  have all := c.dirtyLines_flush
  have same : written = c.flush.1 := by omega
  rw [same] at stats
  exact eq_of_parts (cacheType_run ..) (shape_run ..).1 sets stats

theorem dirtyLines_flush_eq_zero (c : Cache) : c.flush.2.dirtyLines = 0 := by
  rw [dirtyLines, total_flush]
  refine List.sum_eq_zero fun lines member => ?_
  obtain ⟨s, -, rfl⟩ := List.mem_map.mp member
  exact s.dirtyLines_flush

/-- The addresses of the dirty lines go to the sets and the tags of these lines. -/
theorem mem_tagsIn_dirtyBytes (wide : 0 < c.lineBytes)
    (small : ∀ byte ∈ c.dirtyBytes, byte < UInt64.size)
    (same : order.Perm (c.dirtyBytes.map UInt64.ofNat)) (there : c.sets[index]? = some s) :
    tag ∈ c.tagsIn index order ↔ tag ∈ s.dirtyTags := by
  have located : ∀ {index s tag}, c.sets[index]? = some s → tag ∈ s.dirtyTags →
      c.byteOf index tag ∈ c.dirtyBytes ∧
        c.locate (UInt64.ofNat (c.byteOf index tag)) = (index, tag) := by
    intro index s tag there dirty
    have member : c.byteOf index tag ∈ c.dirtyBytes :=
      mem_dirtyBytes.mpr ⟨index, s, there, tag, dirty, rfl⟩
    have inside : index < c.sets.size := (Array.getElem?_eq_some_iff.mp there).choose
    exact ⟨member, locate_byteOf wide inside (small _ member)⟩
  simp only [mem_tagsIn, same.mem_iff, List.mem_map, exists_exists_and_eq_and]
  constructor
  · rintro ⟨byte, member, place⟩
    obtain ⟨other, t, here, tag', dirty, rfl⟩ := mem_dirtyBytes.mp member
    rw [(located here dirty).2] at place
    cases place
    cases here.symm.trans there
    exact dirty
  · intro dirty
    exact ⟨_, located there dirty⟩

/-- After a flush there is nothing left to flush. -/
theorem flush_flush (sound : c.Sound) : c.flush.2.flush = (0, c.flush.2) := by
  have counted := c.flush.2.dirtyLines_flush
  rw [dirtyLines_flush_eq_zero, dirtyLines_flush_eq_zero, Nat.zero_add] at counted
  have unchanged : (c.flush.2.run ([].map .invalidate)).2 = c.flush.2.flush.2 := by
    refine run_invalidate_eq_flush (sound.step .flush) fun index t there tag => ?_
    rw [getElem?_sets_flush] at there
    obtain ⟨s, -, rfl⟩ := Option.map_eq_some_iff.mp there
    refine iff_of_false List.not_mem_nil fun member => ?_
    obtain ⟨line, held, dirty⟩ := CacheSet.mem_dirtyTags.mp member
    exact Bool.eq_false_iff.mp (CacheSet.holds_flush.mp held).2 dirty
  exact Prod.ext counted unchanged.symm

/-- What a flush makes of a cache. -/
structure Flushed (c : Cache) : Prop where
  /-- The dirty lines have addresses of 64 bits. -/
  small : ∀ byte ∈ c.dirtyBytes, byte < UInt64.size
  /-- To invalidate these addresses, in any order, comes to the same cache. -/
  agrees : ∀ order : List UInt64, order.Perm (c.dirtyBytes.map UInt64.ofNat) →
    (c.run (order.map .invalidate)).2 = c.flush.2
  /-- As many lines are reported as were dirty. -/
  reported : c.flush.1 = c.dirtyBytes.length
  /-- The ways of dirty lines are empty, pinned or not, and all others are as before. -/
  ways : ∀ (index : Nat) (s : CacheSet), c.sets[index]? = some s →
    ∃ t : CacheSet, c.flush.2.sets[index]? = some t ∧ ∀ way w, s.way? way = some w →
      t.way? way = some (if w.valid && w.dirty then .empty else w)
  /-- No line is dirty any more. -/
  clean : ∀ s ∈ c.flush.2.sets, ∀ way w, s.way? way = some w → w.dirty = false
  /-- Another flush reports no line and changes nothing. -/
  again : c.flush.2.flush = (0, c.flush.2)

/-- In every state, a flush leaves the cache that is left when each dirty line is invalidated by
its address, in any order, and reports how many there were. It spares the lines that are not
dirty, and no line that is, not even a pinned one, so that a flush after it has no effect. -/
theorem flushes_invalidate_dirty_lines (built : ofConfig config = .ok start) (before : List Op) :
    (start.run before).2.Flushed := by
  have sound : (start.run before).2.Sound := (sound_of_ofConfig built).run before
  have kept := kept_of_run built before
  have wide := lineBytes_pos_of_run built before
  have addresses := start.byteOf_run before
  generalize (start.run before).2 = c at *
  have small : ∀ byte ∈ c.dirtyBytes, byte < UInt64.size := by
    intro byte member
    obtain ⟨index, s, there, tag, dirty, rfl⟩ := mem_dirtyBytes.mp member
    obtain ⟨line, held, -⟩ := CacheSet.mem_dirtyTags.mp dirty
    rw [addresses]
    exact (kept index s there).addressed held
  have counted := c.dirtyLines_flush
  rw [dirtyLines_flush_eq_zero, Nat.zero_add] at counted
  refine ⟨small, fun order same => ?_, counted.trans c.length_dirtyBytes.symm, ?_, ?_, ?_⟩
  · exact run_invalidate_eq_flush sound fun index s there tag =>
      mem_tagsIn_dirtyBytes wide small same there
  · intro index s there
    refine ⟨s.flush.2, ?_, fun way w here => ?_⟩
    · rw [getElem?_sets_flush, there]
      rfl
    · rw [CacheSet.way?_flush, here]
      rfl
  · intro t member way w here
    obtain ⟨index, there⟩ := Array.mem_iff_getElem?.mp member
    rw [getElem?_sets_flush] at there
    obtain ⟨s, before, rfl⟩ := Option.map_eq_some_iff.mp there
    exact (sound index s before).tidy.dirty_flush here
  · exact flush_flush sound

/-- Two dirty lines, of which one is pinned, leave in the order of their ways or against it. -/
theorem pair_is_flushed_backwards :
    ∃ start, ofConfig Config.pair = .ok start ∧
      let c := (start.run [.access 0 true, .access 64 true, .pin 64]).2
      c.flush.1 = 2 ∧ (c.run [.invalidate 64, .invalidate 0]).2 = c.flush.2 ∧
      c.flush.2.flush = (0, c.flush.2) := by
  have law := flushes_invalidate_dirty_lines (rfl : ofConfig Config.pair = .ok _)
    [.access 0 true, .access 64 true, .pin 64]
  exact ⟨_, rfl, law.reported, law.agrees [64, 0] (.swap 0 64 []), law.again⟩

end Cache

end SetAssociative
