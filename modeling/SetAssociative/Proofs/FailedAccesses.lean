import Mathlib.Logic.Function.Iterate
import SetAssociative.Proofs.CursorTurns
import SetAssociative.Proofs.CounterLedger
import SetAssociative.Proofs.EvictionOrder

/-! An access that fails counts for itself and changes no line. What it may change is the
policy of the set that it asked in vain: two disciplines use up what they searched with, and
the other five are as they were, so that their runs can do without the accesses that fail. -/
namespace SetAssociative

/-- Whether a discipline is as it was after a search that found no way. -/
def Kind.withstandsFailure : Kind → Bool
  | .roundRobin | .fifo | .lru | .mru | .plru => true
  | .random | .nru => false

/-- When no way is evictable, all draws are made, one after the other. -/
theorem Lottery.drawEvictable_of_closed {view : View} {ways : Nat}
    (closed : ∀ way < ways, view way = false) (some_way : 0 < ways) (draws : Nat) (g : Generator) :
    drawEvictable ways view draws g = (none, Generator.next^[draws] g) := by
  induction draws generalizing g with
  | zero => rfl
  | succ draws ih =>
    have missed : view (g.draw ways).1 = false := closed _ (g.draw_lt some_way)
    simp only [drawEvictable, missed, Bool.false_eq_true, ↓reduceIte, ih,
      Function.iterate_succ_apply]
    rfl

namespace Policy
variable {p : Policy} {view : View}

/-- A policy after a search that found no way. One discipline has made a draw for each way, one
has taken away all marks, and the others are as they were. -/
def spent : Policy → Policy
  | .random lottery =>
    .random { lottery with generator := Generator.next^[lottery.ways] lottery.generator }
  | .nru marks => .nru { marks with bits := .empty }
  | .roundRobin cursor => .roundRobin cursor
  | .fifo fills => .fifo fills
  | .lru uses => .lru uses
  | .mru uses => .mru uses
  | .plru marks => .plru marks

theorem spent_eq_self (withstands : p.kind.withstandsFailure = true) : p.spent = p := by
  cases p with
  | roundRobin | fifo | lru | mru | plru => rfl
  | random | nru => cases withstands

/-- A search that finds no way spends the policy. -/
theorem search_of_closed (closed : view.candidates p.ways = []) :
    p.search view = (none, p.spent) := by
  cases p with
  | roundRobin cursor =>
    rw [search, Cursor.select_of_closed closed]
    rfl
  | fifo stamps | lru stamps =>
    rw [search, Stamps.oldest, show view.candidates stamps.ways = [] from closed]
    rfl
  | mru stamps =>
    rw [search, Stamps.newest, show view.candidates stamps.ways = [] from closed]
    rfl
  | plru marks =>
    simp only [search, Marks.select, Marks.firstUnmarked, Marks.first,
      show view.candidates marks.ways = [] from closed]
    rfl
  | random lottery =>
    have empty : view.candidates lottery.ways = [] := closed
    have drawn : Lottery.drawEvictable lottery.ways view lottery.ways lottery.generator =
        (none, Generator.next^[lottery.ways] lottery.generator) := by
      rcases lottery.ways.eq_zero_or_pos with none | some_way
      · rw [none]
        rfl
      · exact Lottery.drawEvictable_of_closed (View.candidates_eq_nil_iff.mp empty) some_way _ _
    simp only [search, Lottery.select, drawn, empty, List.isEmpty_nil, ↓reduceIte]
    rfl
  | nru marks =>
    simp only [search, Marks.selectClearing, Marks.firstUnmarked, Marks.first,
      show view.candidates marks.ways = [] from closed]
    rfl

end Policy

namespace Cache
variable {c start : Cache} {config : Config} {kind : Kind} {op : Op} {ops : List Op}
  {address : UInt64} {write : Bool} {cause : CacheError}

/-- A cache with other counters. -/
def recount (c : Cache) (stats : Stats) : Cache := { c with stats }

/-- What a failed access does to a cache: it is counted as one that missed and was exhausted,
and spends the policy of its set. -/
theorem access_of_error (sound : c.Sound) (failed : (c.access address write).1 = .error cause) :
    cause = .exhausted (c.setOf address).ways ∧
      (c.access address write).2 =
        c.update address ((c.setOf address).withPolicy (c.setOf address).policy.spent)
          { accesses := 1, misses := 1, exhausted := 1 } := by
  have asked : Op.request? (.access address write) = some (address, .access write) := rfl
  obtain ⟨response, effect, stepped⟩ := sound.effect_step asked
  have answer : Answer.accessed (.error cause) = response.reply.answer (c.locate address).1 := by
    rw [← failed]
    exact congrArg Prod.fst stepped
  have after : (c.access address write).2 = c.update address response.set response.count :=
    congrArg Prod.snd stepped
  have fits := (Everywhere.setOf sound address).fits
  cases effect with
  | hit | fill | replace => cases answer
  | exhausted absent full none_open =>
    cases answer
    have closed : (c.setOf address).view.candidates (c.setOf address).policy.ways = [] := by
      rw [fits]
      exact View.candidates_eq_nil_iff.mpr none_open
    rw [after, Policy.search_of_closed closed]
    exact ⟨rfl, rfl⟩

/-- What is left of a cache after a failed access to an address. -/
structure Intact (kind : Kind) (c : Cache) (address : UInt64) (d : Cache) : Prop where
  /-- Three counters have grown by one. -/
  stats : d.stats = { c.stats with
    accesses := c.stats.accesses + 1
    misses := c.stats.misses + 1
    exhausted := c.stats.exhausted + 1 }
  /-- The cache has kept its role and the length of its lines. -/
  shape : d.cacheType = c.cacheType ∧ d.lineBytes = c.lineBytes
  /-- No way of any set has changed. -/
  slots : ∀ index : Nat, d.sets[index]?.map CacheSet.slots = c.sets[index]?.map CacheSet.slots
  /-- No other set has changed. -/
  others : ∀ index ≠ (c.locate address).1, d.sets[index]? = c.sets[index]?
  /-- The policy of the set of the address is spent. -/
  set : d.setOf address = (c.setOf address).withPolicy (c.setOf address).policy.spent
  /-- Five disciplines withstand this, so that nothing but the counters has changed. -/
  same : kind.withstandsFailure = true → d = c.recount d.stats

theorem update_spent (kind_eq : (c.setOf address).policy.kind = kind)
    (withstands : kind.withstandsFailure = true) (count : Stats) :
    c.update address ((c.setOf address).withPolicy (c.setOf address).policy.spent) count =
      c.recount (c.stats + count) := by
  rw [Policy.spent_eq_self (kind_eq.symm ▸ withstands)]
  exact congrArg (recount · (c.stats + count)) (c.update_self address)

theorem intact_of_error (sound : c.Sound) (kind_eq : (c.setOf address).policy.kind = kind)
    (failed : (c.access address write).1 = .error cause) :
    Intact kind c address (c.access address write).2 := by
  rw [(access_of_error sound failed).2]
  refine ⟨rfl, ⟨rfl, rfl⟩, fun index => ?_, fun index away => ?_, ?_, fun withstands => ?_⟩
  · rw [getElem?_sets_update]
    by_cases here : index = (c.locate address).1
    · rw [if_pos here, here, getElem?_setOf]
      rfl
    · rw [if_neg here]
  · rw [getElem?_sets_update, if_neg away]
  · exact setOf_update ..
  · exact update_spent kind_eq withstands _

/-- Counters do not steer an operation. -/
theorem step_recount (c : Cache) (stats : Stats) (op : Op) :
    ∃ later, (c.recount stats).step op = ((c.step op).1, (c.step op).2.recount later) := by
  rcases op.request?_or with ⟨address, request, asked⟩ | rfl | rfl
  · rw [step_of_request? asked, step_of_request? asked]
    exact ⟨stats + (c.response address request).count, rfl⟩
  · exact ⟨stats + { writebacks := c.flush.1 }, rfl⟩
  · exact ⟨{}, rfl⟩

/-- The operations of a run without the accesses that fail in it. -/
def successes (c : Cache) (ops : List Op) : List Op :=
  ((c.history ops).filter fun event => !event.2.isFailure).map Prod.fst

theorem successes_cons (c : Cache) (op : Op) (ops : List Op) :
    c.successes (op :: ops) =
      if (c.step op).1.isFailure then (c.step op).2.successes ops
      else op :: (c.step op).2.successes ops := by
  simp only [successes, history, run, List.zip_cons_cons, List.filter_cons]
  cases (c.step op).1.isFailure <;> rfl

/-- Five disciplines bring a step that fails to nothing but counts. -/
theorem step_of_isFailure (everywhere : c.Everywhere fun _ s => s.Sound ∧ s.policy.kind = kind)
    (withstands : kind.withstandsFailure = true) (failed : (c.step op).1.isFailure = true) :
    (c.step op).2 = c.recount (c.step op).2.stats := by
  have sound : c.Sound := fun index s there => (everywhere index s there).1
  cases op with
  | access address write =>
    cases result : (c.access address write).1 with
    | ok a =>
      rw [step, result] at failed
      cases failed
    | error cause =>
      have intact := intact_of_error sound (Everywhere.setOf everywhere address).2 result
      exact intact.same withstands
  | pin | unpin | invalidate | flush | resetStats => cases failed

/-- A run without the accesses that fail answers the other operations as before, and leaves the
same sets. -/
theorem run_successes (everywhere : c.Everywhere fun _ s => s.Sound ∧ s.policy.kind = kind)
    (withstands : kind.withstandsFailure = true) (ops : List Op) (stats : Stats) :
    ((c.recount stats).run (c.successes ops)).1 =
        (c.run ops).1.filter (fun answer => !answer.isFailure) ∧
      ((c.recount stats).run (c.successes ops)).2.sets = (c.run ops).2.sets := by
  induction ops generalizing c stats with
  | nil => exact ⟨rfl, rfl⟩
  | cons op ops ih =>
    have next : (c.step op).2.Everywhere fun _ s => s.Sound ∧ s.policy.kind = kind := by
      refine everywhere.step (fun _ _ s kept => ?_) (fun _ s kept => ?_) op
      · exact ⟨kept.1.serve _ _, (CacheSet.kind_serve ..).trans kept.2⟩
      · exact ⟨kept.1.flush, (congrArg Build.kind (CacheSet.build_flush s)).trans kept.2⟩
    rw [successes_cons]
    cases failed : (c.step op).1.isFailure with
    | true =>
      have rest := ih next stats
      have same : (c.step op).2.recount stats = c.recount stats := by
        rw [step_of_isFailure everywhere withstands failed]
        rfl
      rw [same] at rest
      simp only [run, failed, Bool.not_true, Bool.false_eq_true, not_false_eq_true, ↓reduceIte,
        List.filter_cons_of_neg]
      exact rest
    | false =>
      obtain ⟨later, stepped⟩ := c.step_recount stats op
      obtain ⟨answers, sets⟩ := ih next later
      simp only [run, stepped, failed, Bool.not_false, Bool.false_eq_true, ↓reduceIte,
        List.filter_cons_of_pos]
      exact ⟨congrArg _ answers, sets⟩

/-- In every state, an access that fails because all ways are pinned is counted as such, and
leaves all lines and the policies of all other sets as they were. For five disciplines nothing
else has changed, so that the accesses that fail can be left out of every run: all other
operations are answered as before, and the same lines are left. Of the other two, one has lost
its marks in the set of the address, and one has made as many draws there as there are ways. -/
theorem failed_accesses_change_no_line (built : ofConfig config = .ok start) (before : List Op) :
    let c := (start.run before).2
    (∀ address write cause, (c.access address write).1 = .error cause →
      cause = .exhausted config.ways.toNat ∧
        Intact config.policy c address (c.access address write).2) ∧
    (config.policy.withstandsFailure = true → ∀ ops,
      (c.run (c.successes ops)).1 = (c.run ops).1.filter (fun answer => !answer.isFailure) ∧
        (c.run (c.successes ops)).2.sets = (c.run ops).2.sets) := by
  intro c
  have kept : c.Everywhere (Kept config start) := kept_of_run built before
  have everywhere : c.Everywhere fun _ s => s.Sound ∧ s.policy.kind = config.policy :=
    fun index s there => ⟨(kept index s there).sound, (kept index s there).kind⟩
  have sound : c.Sound := fun index s there => (kept index s there).sound
  refine ⟨fun address write cause failed => ?_, fun withstands ops => ?_⟩
  · have here := Everywhere.setOf kept address
    refine ⟨?_, intact_of_error sound here.kind failed⟩
    rw [← here.ways]
    exact (access_of_error sound failed).1
  · exact run_successes everywhere withstands ops c.stats

/-- Two of five operations on a pair fail, one before a way is released and one after the other
way is taken again. -/
theorem pinned_pair_withstands_failures :
    ∃ start, ofConfig Config.pair = .ok start ∧
      let c := (start.run [.access 0 true, .access 64 true, .pin 0, .pin 64]).2
      let ops : List Op :=
        [.access 128 false, .unpin 64, .access 128 true, .pin 128, .access 64 false]
      Intact .fifo c 128 (c.access 128 false).2 ∧
      c.successes ops = [.unpin 64, .access 128 true, .pin 128] ∧
      (c.run (c.successes ops)).1 = (c.run ops).1.filter (fun answer => !answer.isFailure) ∧
      (c.run (c.successes ops)).2.sets = (c.run ops).2.sets := by
  have law := failed_accesses_change_no_line (rfl : ofConfig Config.pair = .ok _)
    [.access 0 true, .access 64 true, .pin 0, .pin 64]
  exact ⟨_, rfl, (law.1 128 false (.exhausted 2) rfl).2, rfl, law.2 rfl _⟩

end Cache

end SetAssociative
