import Mathlib.Data.List.Infix
import SetAssociative.Proofs.SetProjection
import SetAssociative.Proofs.UnpinnedSets

/-! Caches that evict the least recently used line and are driven by accesses and removals.
The tags of a set are a stack, the line used last on top. Of two caches that differ in
their ways alone, the stack of a set in the smaller one is always the top of the stack of
the same set in the larger one, so that the larger cache holds all lines of the smaller. -/
namespace SetAssociative

/-- A task to access or to remove a line. -/
def Task.isPlain : Task → Bool
  | .serve _ request => request.isPlain
  | .flush => false

namespace CacheSet
variable {s t : CacheSet} {order : List Nat}

/-- A set without pinned lines that evicts the line used least recently, with its tags in
the order of their last uses. -/
structure Stack (s : CacheSet) (order : List Nat) : Prop where
  unpinned : s.Unpinned
  lru : s.policy.kind = .lru
  ranked : s.Ranked order

/-- A used line comes to the top, and what no longer fits falls off the bottom. -/
theorem Stack.access (stack : s.Stack order) (tag : Nat) (write : Bool) :
    (s.serve tag (.access write)).set.Stack ((tag :: order.erase tag).take s.ways) where
  unpinned := stack.unpinned.serve tag rfl
  lru := (kind_serve ..).trans stack.lru
  ranked := stack.unpinned.ranked_access_lru stack.ranked stack.lru tag write

/-- A removed line leaves the others in their order. -/
theorem Stack.invalidate (stack : s.Stack order) (tag : Nat) :
    (s.serve tag .invalidate).set.Stack (order.erase tag) where
  unpinned := stack.unpinned.serve tag rfl
  lru := (kind_serve ..).trans stack.lru
  ranked := by
    have after := stack.ranked.serve stack.unpinned.sound (by rw [stack.lru]; rfl) tag .invalidate
    have replied : ∃ line, (s.serve tag .invalidate).reply = .removed line := by
      simp only [serve]
      split <;> exact ⟨_, rfl⟩
    obtain ⟨line, removed⟩ := replied
    rwa [removed] at after

/-- The stack of one set is the top of the stack of another, which has at least as many
ways. -/
def Tops (s t : CacheSet) : Prop :=
  s.ways ≤ t.ways ∧ ∃ top whole, s.Stack top ∧ t.Stack whole ∧ top <+: whole

/-- Tops stay tops, whether a line is used or removed in both sets. -/
theorem Tops.perform (tops : s.Tops t) {task : Task} (plain : task.isPlain = true) :
    (s.perform task).Tops (t.perform task) := by
  obtain ⟨ways, top, whole, below, above, first⟩ := tops
  constructor
  · rwa [ways_perform, ways_perform]
  · cases task with
    | flush => cases plain
    | serve tag request =>
      cases request with
      | setPinned pinned => cases plain
      | invalidate =>
        exact ⟨_, _, below.invalidate tag, above.invalidate tag, first.erase tag⟩
      | access write =>
        refine ⟨_, _, below.access tag write, above.access tag write, ?_⟩
        -- what falls off the smaller stack may stay on the larger, but not the other way round
        have longer : tag :: top.erase tag <+: tag :: whole.erase tag :=
          List.cons_prefix_cons.mpr ⟨rfl, first.erase tag⟩
        exact (List.IsPrefix.take longer s.ways).trans (List.take_prefix_take_left ways)

theorem Tops.performAll (tops : s.Tops t) {tasks : List Task}
    (plain : ∀ task ∈ tasks, task.isPlain = true) :
    (s.performAll tasks).Tops (t.performAll tasks) := by
  induction tasks generalizing s t with
  | nil => exact tops
  | cons task tasks ih =>
    refine ih (tops.perform (plain task List.mem_cons_self)) fun other member => ?_
    exact plain other (List.mem_cons_of_mem _ member)

/-- Whatever is found in the smaller set is found in the larger one. -/
theorem Tops.find? (tops : s.Tops t) {tag : Nat} (found : (s.find? tag).isSome) :
    (t.find? tag).isSome := by
  obtain ⟨-, top, whole, below, above, first⟩ := tops
  exact above.ranked.member.mp (first.subset (below.ranked.member.mpr found))

end CacheSet

namespace Cache
variable {c small large : Cache} {config other : Config} {index : Nat} {ops : List Op}

/-- An operation that accesses or removes the line of an address. -/
def Op.isPlain (op : Op) : Bool := op.request?.any fun asked => asked.2.isPlain

theorem isPlain_of_task? {op : Op} {task : Task} (plain : op.isPlain = true)
    (asked : c.task? index op = some task) : task.isPlain = true := by
  obtain ⟨⟨address, request⟩, wanted, shape⟩ := Option.any_eq_true _ _ |>.mp plain
  rw [task?_of_request? wanted] at asked
  split at asked
  · cases asked
    exact shape
  · cases asked

/-- Two caches whose sets are as many, in which each set tops the other's set of its index. -/
structure Included (small large : Cache) : Prop where
  lineBytes : small.lineBytes = large.lineBytes
  size : small.sets.size = large.sets.size
  tops : ∀ (index : Nat) (s t : CacheSet), small.sets[index]? = some s →
    large.sets[index]? = some t → s.Tops t

theorem Included.locate_eq (included : small.Included large) : small.locate = large.locate := by
  funext address
  simp only [locate, included.lineBytes, included.size]

/-- A cache stays included in another through every run of accesses and removals. -/
theorem Included.run (included : small.Included large) (plain : ∀ op ∈ ops, op.isPlain = true) :
    (small.run ops).2.Included (large.run ops).2 where
  lineBytes := by rw [(small.shape_run ops).1, included.lineBytes, (large.shape_run ops).1]
  size := by rw [(small.shape_run ops).2, included.size, (large.shape_run ops).2]
  tops := by
    intro index s t there also
    rw [getElem?_sets_run] at there also
    obtain ⟨first, here, rfl⟩ := Option.map_eq_some_iff.mp there
    obtain ⟨second, too, rfl⟩ := Option.map_eq_some_iff.mp also
    have tasks : small.task? index = large.task? index := by
      funext op
      simp only [task?, included.locate_eq]
    rw [tasks]
    refine (included.tops index first second here too).performAll fun task member => ?_
    obtain ⟨op, listed, asked⟩ := List.mem_filterMap.mp member
    exact isPlain_of_task? (plain op listed) asked

/-- The lines of the smaller cache are lines of the larger. -/
theorem Included.lines (included : small.Included large) {tag : Nat}
    (held : (small.lines index tag).isSome) : (large.lines index tag).isSome := by
  obtain ⟨line, there⟩ := Option.isSome_iff_exists.mp held
  obtain ⟨s, here, found⟩ := Option.bind_eq_some_iff.mp there
  have inside : index < large.sets.size :=
    included.size ▸ (Array.getElem?_eq_some_iff.mp here).choose
  have also := Array.getElem?_eq_getElem inside
  have tops := included.tops index s large.sets[index] here also
  have first : (s.find? tag).isSome := by
    rw [CacheSet.find?_eq_map_line?, found]
    rfl
  have second := tops.find? first
  rw [CacheSet.find?_eq_map_line?, Option.isSome_map] at second
  rwa [Cache.lines, also, Option.bind_some]

/-- What hits in the smaller cache hits in the larger. -/
theorem Included.hits (included : small.Included large) {address : UInt64} {write : Bool}
    (hits : ∃ a, (small.access address write).1 = .ok a ∧ a.hit = true) :
    ∃ a, (large.access address write).1 = .ok a ∧ a.hit = true := by
  have here := small.getElem?_setOf address
  have also := large.getElem?_setOf address
  rw [← included.locate_eq] at also
  have tops := included.tops _ _ _ here also
  have ⟨_, top, whole, below, above, _⟩ := tops
  obtain ⟨a, answered, held⟩ := access_of_unpinned below.unpinned write
  obtain ⟨b, answered', held'⟩ := access_of_unpinned above.unpinned write
  obtain ⟨_, same, hit⟩ := hits
  cases answered.symm.trans same
  have first : ((small.setOf address).find? (small.locate address).2).isSome := held.symm.trans hit
  refine ⟨b, answered', ?_⟩
  rw [held', contains, find?, ← included.locate_eq]
  exact tops.find? first

/-- Among the sets of an empty cache are empty stacks alone. -/
theorem stack_of_ofConfig (built : ofConfig config = .ok small) (lru : config.policy = .lru) :
    small.Everywhere fun _ s => s.Stack [] ∧ s.ways = config.ways.toNat := by
  intro index s there
  obtain ⟨unpinned, blank, kind, ways⟩ := fresh_of_ofConfig built index s there
  exact ⟨⟨unpinned, kind.trans lru, blank⟩, ways⟩

theorem included_of_ofConfig (built : ofConfig config = .ok small)
    (also : ofConfig other = .ok large) (lru : config.policy = .lru) (lru' : other.policy = .lru)
    (lineBytes : config.lineBytes = other.lineBytes) (size : small.sets.size = large.sets.size)
    (ways : config.ways ≤ other.ways) : small.Included large := by
  obtain ⟨g, sound, wide, -⟩ := of_ofConfig built
  obtain ⟨g', sound', wide', -⟩ := of_ofConfig also
  refine ⟨?_, size, fun index s t there here => ?_⟩
  · rw [wide, wide', (Config.of_geometry sound).2, (Config.of_geometry sound').2, lineBytes]
  · obtain ⟨below, narrow⟩ := stack_of_ofConfig built lru index s there
    obtain ⟨above, broad⟩ := stack_of_ofConfig also lru' index t here
    refine ⟨?_, [], [], below, above, List.prefix_refl _⟩
    rw [narrow, broad]
    exact UInt64.le_iff_toNat_le.mp ways

/-- Of two caches that evict the least recently used line and have sets of the same number
and lines of the same length, the one with more ways holds every line of the other after
every run of accesses and removals. What hits in the smaller then hits in the larger. -/
theorem larger_caches_hold_what_smaller_hold (built : ofConfig config = .ok small)
    (also : ofConfig other = .ok large) (lru : config.policy = .lru) (lru' : other.policy = .lru)
    (lineBytes : config.lineBytes = other.lineBytes) (size : small.sets.size = large.sets.size)
    (ways : config.ways ≤ other.ways) (plain : ∀ op ∈ ops, op.isPlain = true) :
    (∀ index tag, ((small.run ops).2.lines index tag).isSome →
      ((large.run ops).2.lines index tag).isSome) ∧
    ∀ address write,
      (∃ a, ((small.run ops).2.access address write).1 = .ok a ∧ a.hit = true) →
      ∃ a, ((large.run ops).2.access address write).1 = .ok a ∧ a.hit = true := by
  have included := included_of_ofConfig built also lru lru' lineBytes size ways |>.run plain
  exact ⟨fun index tag held => included.lines held, fun address write hits => included.hits hits⟩

/-- Two sets of two ways hold what two sets of one way hold after a run with a removal. -/
theorem two_ways_hold_what_one_way_holds :
    ∃ small large, ofConfig { sizeBytes := 128, ways := 1 } = .ok small ∧
      ofConfig { sizeBytes := 256, ways := 2 } = .ok large ∧
      ∀ index tag,
        ((small.run [.access 0 true, .access 128 false, .invalidate 0, .access 64 false]).2.lines
          index tag).isSome →
        ((large.run [.access 0 true, .access 128 false, .invalidate 0, .access 64 false]).2.lines
          index tag).isSome := by
  refine ⟨_, _, rfl, rfl, ?_⟩
  exact (larger_caches_hold_what_smaller_hold
    (rfl : ofConfig { sizeBytes := 128, ways := 1 } = .ok _)
    (rfl : ofConfig { sizeBytes := 256, ways := 2 } = .ok _) rfl rfl rfl (by decide) (by decide)
    (by decide)).1

end Cache

end SetAssociative
