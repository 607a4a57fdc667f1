import SetAssociative.Proofs.GeneratorCycle
import SetAssociative.Proofs.PolicyExchange

/-! The seeds of the sets of a cache. The number of a set is spread over the words by an odd
constant, which can be undone, and mixed into the seed of the cache, so no two sets have one
seed. A step of the generator can be undone too, so sets that start apart are apart whenever
they have taken equally many steps. Only zero is lost, which one set at most has for a seed. -/
namespace SetAssociative
open Generator

/-- Multiplying by the constant is undone by multiplying by its inverse. -/
theorem leftInverse_seedGamma :
    Function.LeftInverse (0xF1DE83E19937733D * · : UInt64 → UInt64) (seedGamma * ·) := by
  intro word
  calc 0xF1DE83E19937733D * (seedGamma * word)
      = 0xF1DE83E19937733D * seedGamma * word := (UInt64.mul_assoc ..).symm
    _ = word := UInt64.one_mul word

/-- No two sets of a cache have one seed. -/
theorem setSeed_inj {i j : Nat} (seed : UInt64) (small : i < UInt64.size - 1)
    (also : j < UInt64.size - 1) : setSeed seed i = setSeed seed j ↔ i = j := by
  constructor
  · intro same
    have spread : seedGamma * (UInt64.ofNat i + 1) = seedGamma * (UInt64.ofNat j + 1) :=
      (UInt64.xor_right_inj seed).mp same
    have words : UInt64.ofNat i = UInt64.ofNat j :=
      (UInt64.add_left_inj 1).mp (leftInverse_seedGamma.injective spread)
    have numbers := congrArg UInt64.toNat words
    rwa [UInt64.toNat_ofNat_of_lt' (Nat.lt_of_lt_pred small),
      UInt64.toNat_ofNat_of_lt' (Nat.lt_of_lt_pred also)] at numbers
  · rintro rfl
    rfl

/-- Seeds other than zero start generators that are apart after equally many steps. -/
theorem Generator.iterate_next_ofSeed_ne {seed rival : UInt64} (nonzero : seed ≠ 0)
    (also : rival ≠ 0) (apart : seed ≠ rival) (steps : Nat) :
    (next^[steps] (ofSeed seed)).state ≠ (next^[steps] (ofSeed rival)).state := by
  intro same
  have start : ofSeed seed = ofSeed rival := next_injective.iterate steps (congrArg mk same)
  rw [ofSeed, ofSeed, if_neg nonzero, if_neg also] at start
  exact apart (congrArg state start)

/-- Three sets with random victims, under the seed that leaves zero for the first of them. -/
def Config.trio : Config :=
  { sizeBytes := 384, lineBytes := 64, ways := 2, policy := .random, seed := seedGamma }

namespace Cache
variable {config : Config} {start : Cache} {index : Nat} {s : CacheSet}

/-- The indices of sets fit into words, with room to count one further. -/
theorem size_le_of_ofConfig (built : ofConfig config = .ok start) :
    start.sets.size ≤ UInt64.size - 1 := by
  obtain ⟨capacity, found, -, sets, -⟩ := start_of_ofConfig built
  rw [sets, size_freshSets]
  exact Nat.le_trans (Config.of_capacity found).2 (Nat.le_pred_of_lt config.sizeBytes.toNat_lt)

theorem setSeed_inj_of_ofConfig {i j : Nat} (built : ofConfig config = .ok start)
    (inside : i < start.sets.size) (also : j < start.sets.size) :
    setSeed config.seed i = setSeed config.seed j ↔ i = j := by
  have few := size_le_of_ofConfig built
  exact setSeed_inj config.seed (Nat.lt_of_lt_of_le inside few) (Nat.lt_of_lt_of_le also few)

/-- A set whose generator has taken some steps from the seed for an index. -/
def DrawsFrom (config : Config) (index : Nat) (s : CacheSet) : Prop :=
  ∃ steps, s.policy =
    .random ⟨config.ways.toNat, next^[steps] (ofSeed (setSeed config.seed index))⟩

theorem policy_of_ofConfig (built : ofConfig config = .ok start) (random : config.policy = .random)
    (there : start.sets[index]? = some s) :
    s.policy = .random (.start config.ways.toNat (setSeed config.seed index)) := by
  obtain ⟨g, geometry, -, fresh⟩ := of_ofConfig built
  rw [fresh index s there, CacheSet.ofGeometry, CacheSet.empty, random,
    (Config.of_geometry geometry).1]
  rfl

/-- A request only brings events to the policy of its set. -/
theorem DrawsFrom.serve (draws : DrawsFrom config index s) (tag : Nat) (request : Request) :
    DrawsFrom config index (s.serve tag request).set := by
  obtain ⟨steps, policy⟩ := draws
  obtain ⟨more, later⟩ := Policy.run_random
    ⟨config.ways.toNat, next^[steps] (ofSeed (setSeed config.seed index))⟩ (s.events tag request)
  refine ⟨more + steps, ?_⟩
  rw [CacheSet.policy_serve, policy, later, Function.iterate_add_apply]

theorem drawsFrom_of_run (built : ofConfig config = .ok start) (random : config.policy = .random)
    (ops : List Op) : (start.run ops).2.Everywhere (DrawsFrom config) := by
  refine Everywhere.run ?_ (fun _ request _ draws => draws.serve _ request)
    (fun _ _ draws => draws) ops
  exact fun index s there => ⟨0, policy_of_ofConfig built random there⟩

/-- The generators of the sets of a random cache. -/
structure DrawsApart (config : Config) (start : Cache) : Prop where
  /-- Each set starts from the seed for its index, but from the default in place of zero. -/
  starts : ∀ (i : Nat) (s : CacheSet), start.sets[i]? = some s →
    s.policy = .random ⟨config.ways.toNat,
      ⟨if setSeed config.seed i = 0 then defaultSeed else setSeed config.seed i⟩⟩
  /-- Whatever is done to the cache, the set only takes steps from there. -/
  continues : ∀ (ops : List Op) (i : Nat) (s : CacheSet),
    (start.run ops).2.sets[i]? = some s → DrawsFrom config i s
  /-- At most one set has zero for a seed. -/
  one_zero : ∀ i < start.sets.size, ∀ j < start.sets.size,
    setSeed config.seed i = 0 → setSeed config.seed j = 0 → i = j
  /-- Two others are apart at the start, and after equally many steps. -/
  apart : ∀ (i j : Nat) (s t : CacheSet) (l m : Lottery), i ≠ j →
    start.sets[i]? = some s → s.policy = .random l → setSeed config.seed i ≠ 0 →
    start.sets[j]? = some t → t.policy = .random m → setSeed config.seed j ≠ 0 →
    ∀ steps, (next^[steps] l.generator).state ≠ (next^[steps] m.generator).state

theorem drawsApart_of_ofConfig (built : ofConfig config = .ok start)
    (random : config.policy = .random) : start.DrawsApart config where
  starts := fun _ _ there => policy_of_ofConfig built random there
  continues := drawsFrom_of_run built random
  one_zero := by
    intro i first j second zero also
    exact (setSeed_inj_of_ofConfig built first second).mp (zero.trans also.symm)
  apart := by
    intro i j s t l m different first draws nonzero second redraws also
    have inside := (Array.getElem?_eq_some_iff.mp first).choose
    have likewise := (Array.getElem?_eq_some_iff.mp second).choose
    have apart : setSeed config.seed i ≠ setSeed config.seed j := fun same =>
      different ((setSeed_inj_of_ofConfig built inside likewise).mp same)
    obtain rfl := Policy.random.inj (draws.symm.trans (policy_of_ofConfig built random first))
    obtain rfl := Policy.random.inj (redraws.symm.trans (policy_of_ofConfig built random second))
    exact iterate_next_ofSeed_ne nonzero also apart

/-- The seeds for all indices but the largest word are different, so that in a random cache the
sets with seeds other than zero, which are all but at most one, are apart at the start and after
equally many steps. -/
theorem sets_draw_from_seeds_of_their_own :
    (∀ (seed : UInt64), ∀ i < UInt64.size - 1, ∀ j < UInt64.size - 1,
      i ≠ j → setSeed seed i ≠ setSeed seed j) ∧
    ∀ (config : Config) (start : Cache), ofConfig config = .ok start →
      config.policy = .random → start.DrawsApart config := by
  constructor
  · intro seed i small j also apart same
    exact apart ((setSeed_inj seed small also).mp same)
  · intro config start built random
    exact drawsApart_of_ofConfig built random

/-- Of three sets the first has zero for a seed, and the two others are apart. -/
theorem first_of_three_sets_draws_from_the_default :
    ∃ start, ofConfig Config.trio = .ok start ∧ setSeed Config.trio.seed 0 = 0 ∧
      (∀ s, start.sets[0]? = some s → s.policy = .random ⟨2, ⟨defaultSeed⟩⟩) ∧
      setSeed Config.trio.seed 0 ≠ setSeed Config.trio.seed 1 ∧
      ∃ s t l m, start.sets[1]? = some s ∧ s.policy = .random l ∧
        start.sets[2]? = some t ∧ t.policy = .random m ∧
        ∀ steps, (next^[steps] l.generator).state ≠ (next^[steps] m.generator).state := by
  obtain ⟨different, apart⟩ := sets_draw_from_seeds_of_their_own
  refine ⟨_, rfl, rfl, ?_, different _ 0 (by decide) 1 (by decide) Nat.zero_ne_one,
    _, _, _, _, rfl, rfl, rfl, rfl, ?_⟩
  · exact (apart Config.trio _ rfl rfl).starts 0
  · exact (apart Config.trio _ rfl rfl).apart 1 2 _ _ _ _ (by decide) rfl rfl (by decide) rfl rfl
      (by decide)

end Cache

end SetAssociative
