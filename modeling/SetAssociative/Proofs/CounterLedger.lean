import SetAssociative.Proofs.CountedAnswers
import SetAssociative.Proofs.LineTotals

/-! The counters of a cache are a ledger of its run. Each access is counted as a hit or a
miss, and each miss as a fill or as exhausted; failures and evictions are counted as often
as they are reported; and the lines that came and went make up the difference between the
lines held before and after. -/
namespace SetAssociative

namespace Cache
variable {c start : Cache} {config : Config} {op : Op} {ops : List Op}

/-- Whether an operation is an access. -/
def Op.isAccess : Op → Bool
  | .access _ _ => true
  | _ => false

/-- Whether an answer reports that an access failed. -/
def Answer.isFailure : Answer → Bool
  | .accessed (.error _) => true
  | _ => false

/-- Whether an answer reports that a line gave way to another. -/
def Answer.evicts : Answer → Bool
  | .accessed (.ok a) => a.evicted.isSome
  | _ => false

/-- The number of lines that an answer reports to have been taken out. -/
def Answer.removals : Answer → Nat
  | .removed line => if line.isSome then 1 else 0
  | .flushed lines => lines
  | _ => 0

/-- A count that agrees with some operations, the answers to them, and the number of lines
held before and after. -/
structure Balances (ops : List Op) (answers : List Answer) (before after : Nat)
    (count : Stats) : Prop where
  accesses : count.accesses = ops.countP Op.isAccess
  outcomes : count.accesses = count.hits + count.misses
  misses : count.misses = count.fills + count.exhausted
  exhausted : count.exhausted = answers.countP Answer.isFailure
  evictions : count.evictions = answers.countP Answer.evicts
  lines : after + count.evictions + (answers.map Answer.removals).sum = before + count.fills

theorem Balances.nil (lines : Nat) : Balances [] [] lines lines 0 :=
  ⟨rfl, rfl, rfl, rfl, rfl, rfl⟩

/-- A balanced run after a balanced operation is balanced. -/
theorem Balances.cons {answer : Answer} {answers : List Answer} {before middle after : Nat}
    {count counts : Stats} (first : Balances [op] [answer] before middle count)
    (rest : Balances ops answers middle after counts) :
    Balances (op :: ops) (answer :: answers) before after (count + counts) where
  accesses := by
    have one := first.accesses
    have more := rest.accesses
    simp only [List.countP_cons, List.countP_nil, Stats.accesses_add] at one ⊢
    omega
  outcomes := by
    have one := first.outcomes
    have more := rest.outcomes
    simp only [Stats.accesses_add, Stats.hits_add, Stats.misses_add]
    omega
  misses := by
    have one := first.misses
    have more := rest.misses
    simp only [Stats.misses_add, Stats.fills_add, Stats.exhausted_add]
    omega
  exhausted := by
    have one := first.exhausted
    have more := rest.exhausted
    simp only [List.countP_cons, List.countP_nil, Stats.exhausted_add] at one ⊢
    omega
  evictions := by
    have one := first.evictions
    have more := rest.evictions
    simp only [List.countP_cons, List.countP_nil, Stats.evictions_add] at one ⊢
    omega
  lines := by
    have one := first.lines
    have more := rest.lines
    simp only [List.map_cons, List.map_nil, List.sum_cons, List.sum_nil, Stats.evictions_add,
      Stats.fills_add] at one ⊢
    omega

/-- What balances for one set balances for a cache of which no other set changes. -/
theorem Balances.within {answers : List Answer} {before after all later : Nat} {count : Stats}
    (balances : Balances ops answers before after count) (others : later + before = all + after) :
    Balances ops answers all later count where
  accesses := balances.accesses
  outcomes := balances.outcomes
  misses := balances.misses
  exhausted := balances.exhausted
  evictions := balances.evictions
  lines := by
    have lines := balances.lines
    omega

/-- A request balances for the set that it goes to. -/
theorem balances_of_effect {s : CacheSet} {address : UInt64} {tag : Nat} {request : Request}
    {response : Response} (asked : op.request? = some (address, request))
    (effect : s.Effect tag request response) (index : Nat) :
    Balances [op] [response.reply.answer index] s.occupancy response.set.occupancy
      response.count := by
  cases op with
  | access address write =>
    cases asked
    cases effect with
    | hit line found held =>
      exact ⟨rfl, rfl, rfl, rfl, rfl, CacheSet.occupancy_put_of_holds held⟩
    | fill way w absent free here vacant =>
      exact ⟨rfl, rfl, rfl, rfl, rfl, CacheSet.occupancy_put_of_vacant here vacant⟩
    | replace old victim absent full chosen held released =>
      exact ⟨rfl, rfl, rfl, rfl, rfl, congrArg (· + 1) (CacheSet.occupancy_put_of_holds held)⟩
    | exhausted absent full none_open => exact ⟨rfl, rfl, rfl, rfl, rfl, rfl⟩
  | pin address | unpin address =>
    cases asked
    cases effect with
    | pinned line found held =>
      exact ⟨rfl, rfl, rfl, rfl, rfl, CacheSet.occupancy_put_of_holds held⟩
    | unfound absent => exact ⟨rfl, rfl, rfl, rfl, rfl, rfl⟩
  | invalidate address =>
    cases asked
    cases effect with
    | removed line found held => exact ⟨rfl, rfl, rfl, rfl, rfl, CacheSet.occupancy_clear held⟩
    | missing absent => exact ⟨rfl, rfl, rfl, rfl, rfl, rfl⟩
  | flush | resetStats => cases asked

/-- A flush takes out of all sets together as many lines as it reports. -/
theorem occupancy_step_flush (c : Cache) : c.flush.2.occupancy + c.flush.1 = c.occupancy := by
  rw [occupancy, total_flush, flush_fst, ← total_add]
  simp only [CacheSet.occupancy_flush]
  rfl

/-- Every operation balances that does not reset the counters. -/
theorem balances_step (sound : c.Sound) (counted : op ≠ .resetStats) :
    Balances [op] [(c.step op).1] c.occupancy (c.step op).2.occupancy (c.step op).1.count := by
  rcases op.request?_or with ⟨address, request, asked⟩ | rfl | rfl
  · obtain ⟨response, effect, stepped⟩ := sound.effect_step asked
    rw [stepped, count_of_effect effect]
    exact (balances_of_effect asked effect _).within (total_update ..)
  · exact ⟨rfl, rfl, rfl, rfl, rfl, c.occupancy_step_flush⟩
  · exact absurd rfl counted

theorem balances_run (sound : c.Sound) (counted : .resetStats ∉ ops) :
    Balances ops (c.run ops).1 c.occupancy (c.run ops).2.occupancy
      ((c.run ops).1.map Answer.count).sum := by
  induction ops generalizing c with
  | nil => exact .nil _
  | cons op ops ih =>
    rw [List.mem_cons, not_or] at counted
    rw [run, List.map_cons, List.sum_cons]
    exact (balances_step sound (Ne.symm counted.1)).cons (ih (sound.step op) counted.2)

/-- From an empty cache on, or from when the counters were last reset, they balance with the
run: accesses are as many as were asked for, and are hits and misses; misses are fills and
exhausted, the latter as many as accesses failed; evictions are as many as were reported;
and the lines held now, evicted, removed and flushed are those held then and filled since. -/
theorem counters_balance_with_runs (built : ofConfig config = .ok start)
    (uncounted : start.Uncounted c) (counted : .resetStats ∉ ops) :
    Balances ops (c.run ops).1 c.occupancy (c.run ops).2.occupancy (c.run ops).2.stats := by
  have sound := uncounted.sound built
  rw [stats_run sound counted, uncounted.stats built, zero_add]
  exact balances_run sound counted

/-- Two full ways after a failed access, a replacement, a hit and a removal. -/
theorem pair_balances_after_exhaustion :
    ∃ start, ofConfig Config.pair = .ok start ∧
      let c := (start.run [.access 0 true, .access 64 true, .pin 0, .pin 64]).2.resetStats
      let ops : List Op :=
        [.access 128 false, .unpin 0, .access 128 true, .access 64 false, .invalidate 64]
      Balances ops (c.run ops).1 2 1
        { accesses := 3, hits := 1, misses := 2, fills := 1, evictions := 1, writebacks := 2,
          exhausted := 1 } :=
  ⟨_, rfl, counters_balance_with_runs (rfl : ofConfig Config.pair = .ok _)
    (.reset [.access 0 true, .access 64 true, .pin 0, .pin 64]) (by decide)⟩

end Cache

end SetAssociative
