import SetAssociative.Checked.Cache
import SetAssociative.Proofs.CheckedReplacement
import SetAssociative.Proofs.CounterLedger
import SetAssociative.Proofs.WritebackConservation

/-! The machine never stops in a cache that a configuration asks for, as long as a word can count
the accesses. Every counter is bounded by the accesses so far: a clock moves once in an access,
and a line is written back once after each access that made it dirty, whether or not the
counters were reset in between. -/
namespace SetAssociative

/-- The accesses that a request is. -/
def Request.accesses : Request → Nat
  | .access _ => 1
  | .setPinned _ | .invalidate => 0

namespace CacheSet
variable {s : CacheSet} {n tag way : Nat} {o : Outcome} {request : Request} {response : Response}

theorem recordChecked_eq (steady : s.policy.Steady n) (room : n + 1 < UInt64.size) (o : Outcome) :
    s.recordChecked o = .ok (s.record o) := by
  rw [recordChecked, record]
  split
  · rw [Policy.recordChecked_eq steady room]
    rfl
  · cases s.contract <;> rfl

theorem selectWayChecked_eq (steady : s.policy.Steady n) :
    s.selectWayChecked = .ok s.selectWay := by
  rw [selectWayChecked, selectWay]
  cases s.freeWay? with
  | some way => rfl
  | none =>
    simp only [Policy.searchChecked_eq steady, Checked.ok_bind, selectVictim, Policy.selectVictim]
    cases s.policy.search s.view with
    | mk chosen policy => cases chosen <;> rfl

theorem policy_change (s : CacheSet) (way : Nat) (update : Way → Way) :
    (s.change way update).2.policy = s.policy := by
  unfold change
  split <;> rfl

theorem hitChecked_eq (steady : s.policy.Steady n) (room : n + 1 < UInt64.size) (way : Nat)
    (write : Bool) : s.hitChecked way write = .ok (s.hit way write) := by
  have written : (if write then (s.markDirty way).2 else s).policy.Steady n := by
    cases write with
    | false => exact steady
    | true => exact (policy_change s way _).symm ▸ steady
  simp only [hitChecked, recordChecked_eq written room, Checked.ok_bind, hit]
  cases (if write then (s.markDirty way).2 else s).record (.hit way) <;> rfl

theorem policy_install {dirty : Bool} {replaced : Option Evicted} {after : CacheSet}
    (placed : s.install way tag dirty = .ok (replaced, after)) : after.policy = s.policy := by
  unfold install at placed
  split at placed <;> cases placed
  rfl

theorem fillChecked_eq (steady : s.policy.Steady n) (room : n + 1 < UInt64.size) (way tag : Nat)
    (write : Bool) : s.fillChecked way tag write = .ok (s.fill way tag write) := by
  rw [fillChecked, fill]
  cases placed : s.install way tag write with
  | error cause => rfl
  | ok placement =>
    obtain ⟨replaced, after⟩ := placement
    have kept : after.policy.Steady n := (policy_install placed).symm ▸ steady
    simp only [recordChecked_eq kept room, Checked.ok_bind]
    cases after.record (.fill way) <;> rfl

/-- To select a way is to search the policy at most. -/
theorem steady_selectWay (steady : s.policy.Steady n) : s.selectWay.2.policy.Steady n := by
  rw [selectWay]
  cases s.freeWay? with
  | some way => exact steady
  | none =>
    simp only [selectVictim, Policy.selectVictim_snd]
    exact steady.search _

theorem accessChecked_eq (steady : s.policy.Steady n) (room : n + 1 < UInt64.size) (tag : Nat)
    (write : Bool) : s.accessChecked tag write = .ok (s.access tag write) := by
  rw [accessChecked, access]
  cases s.find? tag with
  | some way => exact hitChecked_eq steady room way write
  | none =>
    have selected := steady_selectWay steady
    simp only [selectWayChecked_eq steady, Checked.ok_bind]
    cases select : s.selectWay with
    | mk found after =>
      rw [select] at selected
      cases found with
      | error cause => rfl
      | ok way => exact fillChecked_eq selected room way tag write

theorem steady_of_effect (steady : s.policy.Steady n) (effect : s.Effect tag request response) :
    response.set.policy.Steady (n + request.accesses) := by
  cases effect with
  | hit line => exact steady.record (.hit line.way)
  | fill way => exact steady.record (.fill way)
  | replace old victim => exact (steady.search s.view).record (.fill victim.way)
  | exhausted => exact (steady.search _).mono (Nat.le_succ n)
  | pinned | unfound | removed | missing => exact steady

theorem flushedChecked_eq (ways : List Way) {written : Nat}
    (fits : written + ways.countP flushes < UInt64.size) :
    flushedChecked written ways = .ok (written + ways.countP flushes) := by
  induction ways generalizing written with
  | nil => rfl
  | cons w ways ih =>
    rw [List.countP_cons] at fits ⊢
    cases dirty : flushes w with
    | false =>
      simp only [dirty, Bool.false_eq_true, ↓reduceIte, Nat.add_zero] at fits ⊢
      rw [flushedChecked, dirty]
      exact ih fits
    | true =>
      simp only [dirty, ↓reduceIte] at fits ⊢
      rw [flushedChecked, if_pos dirty, Checked.add_of_lt (by omega), Checked.ok_bind,
        ih (by omega)]
      congr 1
      omega

end CacheSet

namespace Stats
variable {s t : Stats} {n : Nat}

/-- No counter is above a bound. -/
def AtMost (n : Nat) (s : Stats) : Prop := ∀ counter ∈ s.counters, counter ≤ n

theorem addChecked_eq (counted : (s + t).AtMost n) (room : n < UInt64.size) :
    s.addChecked t = .ok (s + t) := by
  simp only [AtMost, counters, List.forall_mem_cons] at counted
  obtain ⟨accesses, hits, misses, fills, evictions, writebacks, exhausted, -⟩ := counted
  have fits {a b : Nat} (bounded : a + b ≤ n) : Checked.add a b = .ok (a + b) :=
    Checked.add_of_lt (Nat.lt_of_le_of_lt bounded room)
  simp only [addChecked, fits accesses, fits hits, fits misses, fits fills, fits evictions,
    fits writebacks, fits exhausted, Checked.ok_bind]
  rfl

end Stats

namespace Cache
variable {c start : Cache} {config : Config} {address : UInt64} {op : Op} {ops : List Op} {n : Nat}

/-- What bounds everything that a cache counts by a number of accesses. -/
structure Bounded (n : Nat) (c : Cache) : Prop where
  sound : c.Sound
  lines : 0 < c.lineBytes
  steady : c.Everywhere fun _ s => s.policy.Steady n
  counted : c.stats.AtMost n
  /-- A dirty line will be written back once at most. -/
  owed : c.stats.writebacks + c.dirtyLines ≤ n

theorem locateChecked_eq (lines : 0 < c.lineBytes) (address : UInt64) :
    c.locateChecked address = .ok (c.locate address) := by
  simp only [locateChecked, Checked.divide_of_pos lines, Checked.remainder_of_pos c.sets_pos,
    Checked.divide_of_pos c.sets_pos, Checked.ok_bind]
  rfl

theorem addressedChecked_eq (lines : 0 < c.lineBytes) (address : UInt64) :
    c.addressedChecked address =
      .ok ((c.locate address).1, (c.locate address).2, c.setOf address) := by
  simp only [addressedChecked, locateChecked_eq lines, Checked.ok_bind, getElem?_setOf,
    Checked.fetch_some]
  rfl

theorem containsChecked_eq (lines : 0 < c.lineBytes) (address : UInt64) :
    c.containsChecked address = .ok (c.contains address) := by
  simp only [containsChecked, addressedChecked_eq lines, Checked.ok_bind]
  rfl

theorem storeChecked_eq {s : CacheSet} {count : Stats}
    (counted : (c.update address s count).stats.AtMost n) (room : n < UInt64.size) :
    c.storeChecked (c.locate address).1 s count = .ok (c.update address s count) := by
  rw [storeChecked, Stats.addChecked_eq counted room]
  simp only [Checked.ok_bind, update, Array.setIfInBounds, c.locate_lt address, ↓reduceDIte]
  rfl

theorem accessChecked_eq {write : Bool} (bounded : c.Bounded n)
    (counted : (c.access address write).2.stats.AtMost (n + 1)) (room : n + 1 < UInt64.size) :
    c.accessChecked address write = .ok (c.access address write) := by
  have steady := Everywhere.setOf bounded.steady address
  simp only [accessChecked, addressedChecked_eq bounded.lines, Checked.ok_bind,
    CacheSet.accessChecked_eq steady room]
  rw [storeChecked_eq counted room]
  rfl

theorem changeChecked_eq {edit : CacheSet → Nat → Bool × CacheSet} (lines : 0 < c.lineBytes)
    (counted : (c.change address edit).2.stats.AtMost n) (room : n < UInt64.size) :
    c.changeChecked address edit = .ok (c.change address edit) := by
  simp only [changeChecked, addressedChecked_eq lines, Checked.ok_bind]
  simp only [change, find?] at counted ⊢
  cases found : (c.setOf address).find? (c.locate address).2 with
  | none => rfl
  | some way =>
    simp only [found] at counted
    simp only [storeChecked_eq counted room, Checked.ok_bind]
    rfl

theorem invalidateChecked_eq (lines : 0 < c.lineBytes)
    (counted : (c.invalidate address).2.stats.AtMost n) (room : n < UInt64.size) :
    c.invalidateChecked address = .ok (c.invalidate address) := by
  simp only [invalidateChecked, addressedChecked_eq lines, Checked.ok_bind]
  simp only [invalidate, find?] at counted ⊢
  cases found : (c.setOf address).find? (c.locate address).2 with
  | none => rfl
  | some way =>
    simp only [found] at counted
    simp only [storeChecked_eq counted room, Checked.ok_bind]
    rfl

theorem writtenChecked_eq (sets : List CacheSet) {written : Nat}
    (fits : written + (sets.map fun s => s.flush.1).sum < UInt64.size) :
    writtenChecked written sets = .ok (written + (sets.map fun s => s.flush.1).sum) := by
  induction sets generalizing written with
  | nil => rfl
  | cons s sets ih =>
    rw [List.map_cons, List.sum_cons, ← Nat.add_assoc] at fits ⊢
    have here : CacheSet.flushedChecked written s.slots = .ok (written + s.flush.1) :=
      CacheSet.flushedChecked_eq _ (Nat.lt_of_le_of_lt (Nat.le_add_right ..) fits)
    rw [writtenChecked, here, Checked.ok_bind, ih fits]

theorem flushChecked_eq (owed : c.dirtyLines ≤ n) (counted : c.flush.2.stats.AtMost n)
    (room : n < UInt64.size) : c.flushChecked = .ok c.flush := by
  have few : c.flush.1 ≤ c.dirtyLines := c.dirtyLines_flush ▸ Nat.le_add_left ..
  have written : writtenChecked 0 c.sets.toList = .ok c.flush.1 := by
    have total : c.flush.1 = 0 + (c.sets.toList.map fun s => s.flush.1).sum := by
      rw [flush_fst, total, Nat.zero_add]
    rw [total]
    exact writtenChecked_eq _ (by omega)
  have added : c.stats.addChecked { writebacks := c.flush.1 } =
      .ok (c.stats + { writebacks := c.flush.1 }) := Stats.addChecked_eq counted room
  rw [flushChecked, written, Checked.ok_bind, added]
  rfl

/-- A step does not make the machine stop if it leaves everything that is counted in words. -/
theorem stepChecked_eq (bounded : c.Bounded n)
    (counted : (c.step op).2.stats.AtMost (n + op.isAccess.toNat))
    (room : n + op.isAccess.toNat < UInt64.size) : c.stepChecked op = .ok (c.step op) := by
  cases op with
  | access address write =>
    simp only [stepChecked, accessChecked_eq bounded counted room, Checked.ok_bind]
    rfl
  | pin address | unpin address =>
    simp only [stepChecked, changeChecked_eq bounded.lines counted room, Checked.ok_bind]
    rfl
  | invalidate address =>
    simp only [stepChecked, invalidateChecked_eq bounded.lines counted room, Checked.ok_bind]
    rfl
  | flush =>
    have owed : c.dirtyLines ≤ n := Nat.le_trans (Nat.le_add_left ..) bounded.owed
    simp only [stepChecked, flushChecked_eq owed counted room, Checked.ok_bind]
    rfl
  | resetStats => rfl

/-- What a step counts, besides lines that are written back, it counts once for an access. -/
theorem count_step_le (counted : op ≠ .resetStats) :
    let count := (c.step op).1.count
    count.accesses ≤ op.isAccess.toNat ∧ count.hits ≤ op.isAccess.toNat ∧
      count.misses ≤ op.isAccess.toNat ∧ count.fills ≤ op.isAccess.toNat ∧
      count.evictions ≤ op.isAccess.toNat ∧ count.exhausted ≤ op.isAccess.toNat := by
  cases op with
  | access address write =>
    simp only [step]
    cases (c.access address write).1 with
    | error cause => simp [Answer.count, Op.isAccess]
    | ok a =>
      simp only [Answer.count, Access.count, Op.isAccess]
      cases a.hit <;> cases a.evicted.isSome <;> simp
  | pin | unpin | invalidate | flush => simp [step, Answer.count]
  | resetStats => exact absurd rfl counted

/-- Only an access makes a line dirty. -/
theorem isSome_soiled?_le : (c.soiled? op).isSome.toNat ≤ op.isAccess.toNat := by
  cases op with
  | access => exact Bool.toNat_le _
  | pin | unpin | invalidate | flush | resetStats => exact Nat.le_refl 0

theorem Bounded.steady_step (bounded : c.Bounded n) (op : Op) :
    (c.step op).2.Everywhere fun _ s => s.policy.Steady (n + op.isAccess.toNat) := by
  intro index s there
  rcases op.request?_or with ⟨address, request, asked⟩ | rfl | rfl
  · obtain ⟨response, effect, stepped⟩ := bounded.sound.effect_step asked
    rw [stepped, getElem?_sets_update] at there
    split at there
    · cases there
      have steady := CacheSet.steady_of_effect (Everywhere.setOf bounded.steady address) effect
      have accesses : request.accesses = op.isAccess.toNat := by
        cases op <;> cases asked <;> rfl
      exact accesses ▸ steady
    · exact (bounded.steady index s there).mono (Nat.le_add_right ..)
  · simp only [step, getElem?_sets_flush] at there
    obtain ⟨before, here, rfl⟩ := Option.map_eq_some_iff.mp there
    exact bounded.steady index before here
  · exact bounded.steady index s there

/-- An access raises the bound by one, and nothing else raises it. -/
theorem Bounded.step (bounded : c.Bounded n) (op : Op) :
    (c.step op).2.Bounded (n + op.isAccess.toNat) := by
  have lines : 0 < (c.step op).2.lineBytes := (c.shape_step op).1 ▸ bounded.lines
  by_cases counted : op = .resetStats
  · -- the counters start again, but the dirty lines of before are still owed
    subst counted
    have dirty : c.dirtyLines ≤ n := Nat.le_trans (Nat.le_add_left ..) bounded.owed
    refine ⟨bounded.sound.step _, lines, bounded.steady_step _, ?_, ?_⟩
    · simp [Stats.AtMost, Stats.counters, Cache.step, resetStats]
    · show 0 + c.dirtyLines ≤ n
      omega
  · have stats := stats_step bounded.sound counted
    have dirty := dirtyLines_step bounded.sound op
    have soiled : (c.soiled? op).isSome.toNat ≤ op.isAccess.toNat := isSome_soiled?_le
    have owed := bounded.owed
    have written : (c.step op).2.stats.writebacks + (c.step op).2.dirtyLines ≤
        n + op.isAccess.toNat := by
      rw [stats, Stats.writebacks_add]
      omega
    refine ⟨bounded.sound.step op, lines, bounded.steady_step op, ?_, written⟩
    have once := count_step_le (c := c) counted
    have before := bounded.counted
    rw [stats] at written ⊢
    simp only [Stats.AtMost, Stats.counters, List.forall_mem_cons, Stats.accesses_add,
      Stats.hits_add, Stats.misses_add, Stats.fills_add, Stats.evictions_add,
      Stats.writebacks_add, Stats.exhausted_add] at before once written ⊢
    refine ⟨?_, ?_, ?_, ?_, ?_, ?_, ?_, by simp⟩ <;> omega

/-- The machine carries out a run of fewer accesses than a word can count. -/
theorem Bounded.runChecked_eq (bounded : c.Bounded n)
    (few : n + ops.countP Op.isAccess < UInt64.size) :
    c.runChecked ops = .ok (c.run ops) ∧ (c.run ops).2.Bounded (n + ops.countP Op.isAccess) := by
  induction ops generalizing c n with
  | nil => exact ⟨rfl, bounded⟩
  | cons op ops ih =>
    have after := bounded.step op
    rw [List.countP_cons, ← toNat_eq_ite, Nat.add_comm (ops.countP _), ← Nat.add_assoc] at few ⊢
    have room := Nat.lt_of_le_of_lt (Nat.le_add_right ..) few
    have stepped := stepChecked_eq bounded after.counted room
    obtain ⟨rest, last⟩ := ih after few
    refine ⟨?_, last⟩
    simp only [runChecked, stepped, Checked.ok_bind, rest]
    rfl

theorem bounded_of_ofConfig (built : ofConfig config = .ok start) : start.Bounded 0 := by
  obtain ⟨g, geometry, lines, fresh⟩ := of_ofConfig built
  obtain ⟨-, -, -, -, none⟩ := start_of_ofConfig built
  refine ⟨sound_of_ofConfig built, lines ▸ g.lineBytes_pos, ?_, ?_, ?_⟩
  · intro index s there
    rw [fresh index s there]
    exact Policy.steady_fresh _ g.ways_pos g.ways_le _
  · rw [none]
    simp [Stats.AtMost, Stats.counters]
  · have clean : start.dirtyLines = 0 := by
      refine List.sum_eq_zero fun count member => ?_
      obtain ⟨s, inside, rfl⟩ := List.mem_map.mp member
      obtain ⟨index, there⟩ := List.mem_iff_getElem?.mp inside
      rw [fresh index s (by rwa [← Array.getElem?_toList])]
      refine List.countP_eq_zero.mpr fun w blank => ?_
      rw [List.eq_of_mem_replicate blank]
      decide
    show start.stats.writebacks + start.dirtyLines ≤ 0
    simp [none, clean]

/-- The number of sets is computed without a stop for every configuration. -/
theorem numSetsChecked_eq (config : Config) : config.numSetsChecked = .ok config.numSets := by
  rw [Config.numSetsChecked, Config.numSets, Config.capacity]
  cases config.geometry with
  | error cause => rfl
  | ok g =>
    simp only [Checked.remainder_of_pos g.setBytes_pos, Checked.divide_of_pos g.setBytes_pos,
      Checked.ok_bind]
    by_cases none : config.sizeBytes.toNat = 0
    · rw [if_pos none, dif_neg fun whole => whole.1 none]
      rfl
    · by_cases whole : config.sizeBytes.toNat % g.setBytes = 0
      · rw [if_neg none, if_pos whole, dif_pos ⟨none, whole⟩]
        rfl
      · rw [if_neg none, if_neg whole, dif_neg fun both => whole both.2]
        rfl

theorem freshSetsChecked_eq {g : Geometry} (geometry : config.geometry = .ok g)
    (indices : List Nat) (small : ∀ index ∈ indices, index + 1 < UInt64.size) :
    config.freshSetsChecked indices = .ok (.ok (indices.map fun index =>
      CacheSet.ofGeometry config g (setSeed config.seed index))) := by
  induction indices with
  | nil => rfl
  | cons index indices ih =>
    have rest := ih fun other member => small other (List.mem_cons_of_mem _ member)
    have set (seed : UInt64) : CacheSet.ofConfig config seed = .ok (.ofGeometry config g seed) := by
      rw [CacheSet.ofConfig_eq, geometry]
      rfl
    have seed : setSeedChecked config.seed index = .ok (setSeed config.seed index) := by
      rw [setSeedChecked, Checked.add_of_lt (small index List.mem_cons_self), Checked.ok_bind,
        setSeed, UInt64.ofNat_add]
      rfl
    simp only [Config.freshSetsChecked, seed, Checked.ok_bind, set, rest]
    rfl

/-- A cache is built without a stop. -/
theorem setsChecked_eq (built : ofConfig config = .ok start) :
    config.setsChecked = .ok (.ok start.sets.toList) := by
  obtain ⟨capacity, found, -, sets, -⟩ := start_of_ofConfig built
  have count := Config.numSets_of_capacity found
  have small : ∀ index ∈ List.range capacity.numSets, index + 1 < UInt64.size :=
    fun index member => Nat.lt_of_le_of_lt
      (Nat.le_trans (List.mem_range.mp member) (Config.of_capacity found).2) config.sizeBytes.toNat_lt
  simp only [Config.setsChecked, numSetsChecked_eq, count, Checked.ok_bind,
    freshSetsChecked_eq (Config.of_capacity found).1 _ small, sets, toList_freshSets]

/-- Neither to build a cache nor any run of operations on it makes the machine stop, if there
are fewer accesses than a word can count: no index is past an end, no divisor is zero, no shift
is too long and no number outgrows a word. The machine finds the same sets, gives the same
answers and leaves the same cache, in which it also finds the same places and lines. -/
theorem runs_never_trap (built : ofConfig config = .ok start)
    (few : ops.countP Op.isAccess < UInt64.size) :
    config.setsChecked = .ok (.ok start.sets.toList) ∧
      start.runChecked ops = .ok (start.run ops) ∧
      ∀ address,
        (start.run ops).2.locateChecked address = .ok ((start.run ops).2.locate address) ∧
        (start.run ops).2.containsChecked address = .ok ((start.run ops).2.contains address) := by
  have bounded := bounded_of_ofConfig built
  obtain ⟨run, after⟩ := bounded.runChecked_eq (by rwa [Nat.zero_add])
  exact ⟨setsChecked_eq built, run, fun address =>
    ⟨locateChecked_eq after.lines address, containsChecked_eq after.lines address⟩⟩

/-- The machine evicts the first line of a pair, and writes it back. -/
theorem pair_replaces_without_a_trap :
    ∃ start after, ofConfig Config.pair = .ok start ∧
      start.runChecked [.access 0 true, .access 64 false, .access 128 false] =
        .ok ([.accessed (.ok { hit := false, set := 0, way := 0, evicted := none }),
          .accessed (.ok { hit := false, set := 0, way := 1, evicted := none }),
          .accessed (.ok { hit := false, set := 0, way := 0
                           evicted := some { way := 0, tag := 0, dirty := true } })], after) :=
  ⟨_, _, rfl, (runs_never_trap (rfl : ofConfig Config.pair = .ok _) (by decide)).2.1⟩

end Cache

end SetAssociative
