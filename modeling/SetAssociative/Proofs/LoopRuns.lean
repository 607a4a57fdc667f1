import SetAssociative.Proofs.LoopResidency
import SetAssociative.Proofs.PinnedResidency

/-! Caches that go around the lines of one set. All that such a run does, it does to that set,
so that the hits it reports are those of the set in a loop. -/
namespace SetAssociative

namespace Cache
variable {c start other : Cache} {config rival : Config} {index period n : Nat}
  {a : Nat → UInt64} {write : Nat → Bool} {s : CacheSet} {address : UInt64}

/-- Whether an answer reports a hit. -/
def Answer.isHit : Answer → Bool
  | .accessed (.ok a) => a.hit
  | _ => false

/-- Addresses of distinct lines of one set, as many as the period says. -/
structure LineLoop (c : Cache) (index : Nat) (a : Nat → UInt64) (period : Nat) : Prop where
  mapped : ∀ i < period, (c.locate (a i)).1 = index
  distinct : ∀ i < period, ∀ j < period, c.SameLine (a i) (a j) → i = j

/-- The first accesses of a run around some addresses, each a read or a write. -/
def around (a : Nat → UInt64) (period : Nat) (write : Nat → Bool) (n : Nat) : List Op :=
  accesses ((List.range n).map fun i => (a (i % period), write i))

/-- The tags of a run around some addresses. -/
def tagAround (c : Cache) (a : Nat → UInt64) (period i : Nat) : Nat :=
  (c.locate (a (i % period))).2

theorem around_succ (a : Nat → UInt64) (period : Nat) (write : Nat → Bool) (n : Nat) :
    around a period write (n + 1) =
      around a period write n ++ [.access (a (n % period)) (write n)] := by
  rw [around, accesses, List.range_succ, List.map_append, List.map_append]
  rfl

/-- The tags of distinct lines of one set make a loop. -/
theorem LineLoop.loop (lines : c.LineLoop index a period) (positive : 0 < period) :
    Loop (c.tagAround a period) period where
  returns i := by rw [tagAround, tagAround, Nat.add_mod_right]
  apart := by
    intro i j before within same
    have first := Nat.mod_lt i positive
    have second := Nat.mod_lt j positive
    have place : c.locate (a (i % period)) = c.locate (a (j % period)) :=
      Prod.ext ((lines.mapped _ first).trans (lines.mapped _ second).symm) same
    have equal := lines.distinct _ first _ second (locate_eq_iff.mp place)
    have whole : period ∣ j - i := Nat.dvd_of_mod_eq_zero (Nat.sub_mod_eq_zero_of_mod_eq equal.symm)
    exact Nat.not_lt.mpr (Nat.le_of_dvd (by omega) whole) (by omega)

/-- Distinct lines of one set are such in every cache that places addresses alike. -/
theorem LineLoop.of_locate_eq (lines : c.LineLoop index a period)
    (places : other.locate = c.locate) : other.LineLoop index a period where
  mapped i inside := by rw [places, lines.mapped i inside]
  distinct i first j second same := by
    rw [← locate_eq_iff, places, locate_eq_iff] at same
    exact lines.distinct i first j second same

/-- The set that a run goes around in performs all its accesses. -/
theorem LineLoop.getElem?_sets_run (lines : c.LineLoop index a period) (positive : 0 < period)
    (there : c.sets[index]? = some s) (write : Nat → Bool) (n : Nat) :
    (c.run (around a period write n)).2.sets[index]? =
      some (s.after (c.tagAround a period) write n) := by
  have uses : c.usesAt index ((List.range n).map fun i => (a (i % period), write i)) =
      (List.range n).map fun i => (c.tagAround a period i, write i) := by
    rw [usesAt, List.filterMap_map, ← List.filterMap_eq_map]
    congr 1
    funext i
    exact if_pos (lines.mapped _ (Nat.mod_lt i positive))
  rw [Cache.getElem?_sets_run, there, around, filterMap_task?_accesses, uses]
  rfl

/-- An access of such a run succeeds, and hits as its set does in the loop. -/
theorem LineLoop.access (lines : c.LineLoop index a period) (positive : 0 < period)
    (there : c.sets[index]? = some s) (unpinned : s.Unpinned) (write : Nat → Bool) (n : Nat) :
    ∃ x, ((c.run (around a period write n)).2.access (a (n % period)) (write n)).1 = .ok x ∧
      (x.hit = true ↔ s.hitsAt (c.tagAround a period) write n) := by
  have mapped := lines.mapped _ (Nat.mod_lt n positive)
  have here := (c.run (around a period write n)).2.getElem?_setOf (a (n % period))
  rw [locate_run, mapped, lines.getElem?_sets_run positive there] at here
  have reached := Option.some.inj here
  have free := reached ▸ unpinned.after (c.tagAround a period) write n
  obtain ⟨x, answered, hit⟩ := access_of_unpinned free (write n)
  refine ⟨x, answered, ?_⟩
  rw [hit, contains, find?, ← reached, locate_run, CacheSet.hitsAt, CacheSet.mem_tags]
  rfl

/-- The hits that such a run reports are the hits of its set in the loop. -/
theorem LineLoop.countP_run (lines : c.LineLoop index a period) (positive : 0 < period)
    (there : c.sets[index]? = some s) (unpinned : s.Unpinned) (write : Nat → Bool) (n : Nat) :
    (c.run (around a period write n)).1.countP Answer.isHit =
      Nat.count (s.hitsAt (c.tagAround a period) write) n := by
  induction n with
  | zero => rfl
  | succ n ih =>
    obtain ⟨x, answered, hit⟩ := lines.access positive there unpinned write n
    have last : ((c.run (around a period write n)).2.run
        [.access (a (n % period)) (write n)]).1 = [.accessed (.ok x)] := by
      rw [← answered]
      rfl
    rw [around_succ, run_append, List.countP_append, ih, last, Nat.count_succ,
      List.countP_singleton]
    congr 1
    exact ite_congr (propext hit) (fun _ => rfl) (fun _ => rfl)

/-- Around more lines of a set than it has ways, a cache that evicts the line used most recently
hits in every lap but the first, each one access shorter than the loop, with as many
accesses as there are ways besides one. No cache of the same sizes, whatever its discipline
and its seed, ever has more hits. -/
theorem loop_hits_are_exact_and_unbeaten (built : ofConfig config = .ok start)
    (mru : config.policy = .mru) (lines : start.LineLoop index a period)
    (more : config.ways.toNat < period) (write : Nat → Bool) :
    (∀ i, ∃ x,
      ((start.run (around a period write i)).2.access (a (i % period)) (write i)).1 = .ok x ∧
      (x.hit = true ↔
        period ≤ i ∧ (i - period) % (period - 1) < config.ways.toNat - 1)) ∧
    ∀ (rival : Config) (other : Cache), ofConfig rival = .ok other →
      rival.sizeBytes = config.sizeBytes → rival.lineBytes = config.lineBytes →
      rival.ways = config.ways → ∀ n,
        (other.run (around a period write n)).1.countP Answer.isHit ≤
          (start.run (around a period write n)).1.countP Answer.isHit := by
  obtain ⟨lap, rfl⟩ := Nat.exists_eq_add_of_le' (Nat.lt_of_le_of_lt (Nat.zero_le _) more)
  have positive : 0 < lap + 1 := Nat.succ_pos lap
  have loop := lines.loop positive
  obtain ⟨s, there⟩ : ∃ s, start.sets[index]? = some s :=
    ⟨_, lines.mapped 0 positive ▸ start.getElem?_setOf (a 0)⟩
  obtain ⟨unpinned, blank, kind, ways⟩ := fresh_of_ofConfig built index s there
  have evicts : s.policy.kind = .mru := kind.trans mru
  have fits : s.ways ≤ lap := by omega
  constructor
  · intro i
    obtain ⟨x, answered, hit⟩ := lines.access positive there unpinned write i
    rw [unpinned.hitsAt_iff evicts blank loop fits, ways] at hit
    exact ⟨x, answered, hit⟩
  · intro rival other also size line same n
    have places := locate_eq_of_ofConfig built also (Config.capacity_congr size line same)
    have lines' := lines.of_locate_eq places
    have tags : other.tagAround a (lap + 1) = start.tagAround a (lap + 1) := by
      funext i
      rw [tagAround, tagAround, places]
    obtain ⟨t, here⟩ : ∃ t, other.sets[index]? = some t :=
      ⟨_, lines'.mapped 0 positive ▸ other.getElem?_setOf (a 0)⟩
    obtain ⟨free, empty, -, ways'⟩ := fresh_of_ofConfig also index t here
    have equal : t.ways = s.ways := by rw [ways', ways, same]
    rw [lines.countP_run positive there unpinned, lines'.countP_run positive here free, tags]
    exact unpinned.count_hitsAt_le evicts blank free empty equal loop fits write n

/-- Around three lines of two ways, every other access from the fourth on hits, and a cache
that evicts the least recently used line does not do better. -/
theorem three_lines_around_two_ways :
    ∃ start other, ofConfig { Config.pair with policy := .mru } = .ok start ∧
      ofConfig { Config.pair with policy := .lru } = .ok other ∧
      (∀ i, ∃ x, ((start.run (around (fun i => UInt64.ofNat (64 * i)) 3 (fun _ => true) i)).2.access
        (UInt64.ofNat (64 * (i % 3))) true).1 = .ok x ∧
          (x.hit = true ↔ 3 ≤ i ∧ (i - 3) % 2 < 1)) ∧
      ∀ n, (other.run (around (fun i => UInt64.ofNat (64 * i)) 3 (fun _ => true) n)).1.countP
          Answer.isHit ≤
        (start.run (around (fun i => UInt64.ofNat (64 * i)) 3 (fun _ => true) n)).1.countP
          Answer.isHit := by
  refine ⟨_, _, rfl, rfl, ?_⟩
  obtain ⟨exact_hits, unbeaten⟩ := loop_hits_are_exact_and_unbeaten
    (rfl : ofConfig { Config.pair with policy := .mru } = .ok _) rfl
    (⟨by decide, by decide⟩ : LineLoop _ 0 (fun i => UInt64.ofNat (64 * i)) 3) (by decide)
    (fun _ => true)
  exact ⟨exact_hits, unbeaten { Config.pair with policy := .lru } _ rfl rfl rfl rfl⟩

end Cache

end SetAssociative
