import Mathlib.Algebra.BigOperators.Group.List.Basic
import SetAssociative.Proofs.CacheRepresentation

/-! What an operation counts for can be read off its answer, so that the counters of a cache
are the sum of its answers since it was built or since they were last reset. Counters
gathered apart are put together by adding them. -/
namespace SetAssociative

namespace Stats
variable (s t : Stats)

@[simp] theorem accesses_add : (s + t).accesses = s.accesses + t.accesses := rfl
@[simp] theorem hits_add : (s + t).hits = s.hits + t.hits := rfl
@[simp] theorem misses_add : (s + t).misses = s.misses + t.misses := rfl
@[simp] theorem fills_add : (s + t).fills = s.fills + t.fills := rfl
@[simp] theorem evictions_add : (s + t).evictions = s.evictions + t.evictions := rfl
@[simp] theorem writebacks_add : (s + t).writebacks = s.writebacks + t.writebacks := rfl
@[simp] theorem exhausted_add : (s + t).exhausted = s.exhausted + t.exhausted := rfl

instance : Zero Stats := ⟨{}⟩

instance : AddCommMonoid Stats where
  add_assoc a b c := by
    show merge (merge a b) c = merge a (merge b c)
    simp only [merge, Nat.add_assoc]
  zero_add a := by
    show merge {} a = a
    simp only [merge, Nat.zero_add]
  add_zero _ := rfl
  add_comm a b := by
    show merge a b = merge b a
    simp only [merge, Nat.add_comm]
  nsmul := nsmulRec

end Stats

/-- What an access counts for, as its result tells. -/
def Access.count (a : Access) : Stats :=
  if a.hit then { accesses := 1, hits := 1 }
  else
    { accesses := 1, misses := 1, fills := 1
      evictions := if a.evicted.isSome then 1 else 0
      writebacks := if a.evicted.any Evicted.dirty then 1 else 0 }

namespace Cache
variable {c start after : Cache} {config : Config} {op : Op} {ops : List Op}

/-- What an operation counts for, as its answer tells. -/
def Answer.count : Answer → Stats
  | .accessed (.ok a) => a.count
  | .accessed (.error _) => { accesses := 1, misses := 1, exhausted := 1 }
  | .removed line => { writebacks := if line.any Evicted.dirty then 1 else 0 }
  | .flushed lines => { writebacks := lines }
  | .found _ | .done => {}

/-- Each effect of a request counts for what the answer to it tells. -/
theorem count_of_effect {s : CacheSet} {tag : Nat} {request : Request} {response : Response}
    (effect : s.Effect tag request response) (index : Nat) :
    (response.reply.answer index).count = response.count := by
  cases effect <;> rfl

/-- A step adds to the counters what its answer tells, unless it resets them. -/
theorem stats_step (sound : c.Sound) (counted : op ≠ .resetStats) :
    (c.step op).2.stats = c.stats + (c.step op).1.count := by
  rcases op.request?_or with ⟨address, request, asked⟩ | rfl | rfl
  · obtain ⟨response, effect, stepped⟩ := sound.effect_step asked
    rw [stepped, count_of_effect effect]
    rfl
  · rfl
  · exact absurd rfl counted

/-- A run adds to the counters the sum of its answers. -/
theorem stats_run (sound : c.Sound) (counted : .resetStats ∉ ops) :
    (c.run ops).2.stats = c.stats + ((c.run ops).1.map Answer.count).sum := by
  induction ops generalizing c with
  | nil => rfl
  | cons op ops ih =>
    rw [List.mem_cons, not_or] at counted
    rw [run, ih (sound.step op) counted.2, stats_step sound (Ne.symm counted.1), List.map_cons,
      List.sum_cons, add_assoc]

/-- The states in which all counters are zero: the empty cache, and every later state in
which they are reset. -/
inductive Uncounted (start : Cache) : Cache → Prop where
  | built : Uncounted start start
  | reset (before : List Op) : Uncounted start (start.run before).2.resetStats

theorem Uncounted.sound (uncounted : start.Uncounted c) (built : ofConfig config = .ok start) :
    c.Sound := by
  have sound := sound_of_ofConfig built
  cases uncounted with
  | built => exact sound
  | reset before => exact (sound.run before).step .resetStats

theorem Uncounted.stats (uncounted : start.Uncounted c) (built : ofConfig config = .ok start) :
    c.stats = 0 := by
  cases uncounted with
  | built =>
    obtain ⟨-, -, -, -, none⟩ := start_of_ofConfig built
    exact none
  | reset before => rfl

end Cache

end SetAssociative
