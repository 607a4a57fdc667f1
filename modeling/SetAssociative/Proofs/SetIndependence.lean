import Mathlib.Algebra.BigOperators.Group.Finset.Piecewise
import SetAssociative.Proofs.CountedAnswers
import SetAssociative.Proofs.EvictionOrder
import SetAssociative.Proofs.SetProjection

/-! The sets of a cache are independent of each other. In a run of operations on addresses,
those that go to one set are answered as if they were the whole run, so that only their
order matters that go to the same set; and what the whole run counts for is what these
parts of it count for, added up over all sets. -/
namespace SetAssociative

/-- A sum over a list is the sum over all places of what is at each place. -/
theorem sum_sum_filter {α M : Type} [AddCommMonoid M] (place : α → Option Nat) (f : α → M)
    {places : Nat} {xs : List α} (placed : ∀ x ∈ xs, ∃ i < places, place x = some i) :
    ∑ i ∈ Finset.range places, ((xs.filter fun x => place x == some i).map f).sum =
      (xs.map f).sum := by
  induction xs with
  | nil => exact Finset.sum_eq_zero fun _ _ => rfl
  | cons x xs ih =>
    obtain ⟨home, inside, here⟩ := placed x List.mem_cons_self
    have split : ∀ i, (((x :: xs).filter fun x => place x == some i).map f).sum =
        (if home = i then f x else 0) + ((xs.filter fun x => place x == some i).map f).sum := by
      intro i
      by_cases same : home = i
      · simp [here, same]
      · simp [here, same]
    simp only [split, Finset.sum_add_distrib, Finset.sum_ite_eq, Finset.mem_range, inside,
      ↓reduceIte, List.map_cons, List.sum_cons]
    rw [ih fun x member => placed x (List.mem_cons_of_mem _ member)]

namespace Cache
variable {c d start : Cache} {config : Config} {op : Op} {ops more : List Op} {index : Nat}

/-- The set that an operation on an address goes to. -/
def home? (c : Cache) (op : Op) : Option Nat := op.request?.map fun asked => (c.locate asked.1).1

/-- The operations of a run that go to one set. -/
def opsAt (c : Cache) (index : Nat) (ops : List Op) : List Op :=
  ops.filter fun op => c.home? op == some index

/-- The operations of a run that go to one set, with their answers. -/
def eventsAt (c : Cache) (index : Nat) (events : History) : History :=
  events.filter fun event => c.home? event.1 == some index

theorem home?_step (c : Cache) (op : Op) : (c.step op).2.home? = c.home? := by
  funext other
  simp only [home?, locate_step]

/-- Two caches that take addresses apart alike and have the same set in one place. -/
structure AgreesAt (index : Nat) (c d : Cache) : Prop where
  locate : d.locate = c.locate
  set : d.sets[index]? = c.sets[index]?

/-- An operation on one set leaves the others as they were. -/
theorem AgreesAt.elsewhere (agrees : AgreesAt index c d) (addressed : op.request?.isSome)
    (away : c.home? op ≠ some index) : AgreesAt index (c.step op).2 d where
  locate := by
    funext address
    rw [agrees.locate, locate_step]
  set := by
    obtain ⟨⟨address, request⟩, asked⟩ := Option.isSome_iff_exists.mp addressed
    have apart : index ≠ (c.locate address).1 := by
      rintro rfl
      exact away (by rw [home?, asked]; rfl)
    rw [agrees.set, step_of_request? asked, getElem?_sets_update, if_neg apart]

/-- An operation on a set in which two caches agree is answered alike by both, and leaves
them in agreement. -/
theorem AgreesAt.step (agrees : AgreesAt index c d) (here : c.home? op = some index) :
    (c.step op).1 = (d.step op).1 ∧ AgreesAt index (c.step op).2 (d.step op).2 := by
  obtain ⟨⟨address, request⟩, asked, rfl⟩ := Option.map_eq_some_iff.mp here
  have set : d.setOf address = c.setOf address := by
    apply setOf_eq_of_getElem?
    rw [agrees.locate, agrees.set, getElem?_setOf]
  have response : d.response address request = c.response address request := by
    simp only [response, set, agrees.locate]
  refine ⟨?_, ?_, ?_⟩
  · rw [step_of_request? asked, step_of_request? asked, response, agrees.locate]
  · funext other
    rw [locate_step, locate_step, agrees.locate]
  · simp only [step_of_request? asked, getElem?_sets_update, agrees.locate, response, ↓reduceIte]

/-- What goes to one set is answered in a run as in a run of its own. -/
theorem AgreesAt.eventsAt_history (agrees : AgreesAt index c d)
    (addressed : ∀ op ∈ ops, op.request?.isSome) :
    c.eventsAt index (c.history ops) = d.history (c.opsAt index ops) := by
  induction ops generalizing c d with
  | nil => rfl
  | cons op ops ih =>
    have first := addressed op List.mem_cons_self
    have later := fun op member => addressed op (List.mem_cons_of_mem _ member)
    have home := c.home?_step op
    by_cases here : c.home? op = some index
    · obtain ⟨answered, next⟩ := agrees.step here
      have rest := ih next later
      simp only [eventsAt, opsAt, home] at rest
      simp only [eventsAt, opsAt, history, run, List.zip_cons_cons, List.filter_cons, here,
        beq_self_eq_true, ↓reduceIte, answered]
      exact congrArg _ rest
    · have rest := ih (agrees.elsewhere first here) later
      simp only [eventsAt, opsAt, home] at rest
      simp only [eventsAt, opsAt, history, run, List.zip_cons_cons, List.filter_cons,
        beq_eq_false_iff_ne.mpr here, Bool.false_eq_true, ↓reduceIte]
      exact rest

theorem eventsAt_history (c : Cache) (index : Nat) (addressed : ∀ op ∈ ops, op.request?.isSome) :
    c.eventsAt index (c.history ops) = c.history (c.opsAt index ops) :=
  AgreesAt.eventsAt_history ⟨rfl, rfl⟩ addressed

theorem length_answers (c : Cache) (ops : List Op) : (c.run ops).1.length = ops.length := by
  induction ops generalizing c with
  | nil => rfl
  | cons op ops ih => exact congrArg (· + 1) (ih (c.step op).2)

theorem map_snd_history (c : Cache) (ops : List Op) :
    (c.history ops).map Prod.snd = (c.run ops).1 :=
  List.map_snd_zip (Nat.le_of_eq (c.length_answers ops))

/-- What a run counts for is the sum over all sets of what it counts for there. -/
theorem sum_count_opsAt (c : Cache) (addressed : ∀ op ∈ ops, op.request?.isSome) :
    ∑ index ∈ Finset.range c.sets.size,
        ((c.run (c.opsAt index ops)).1.map Answer.count).sum =
      ((c.run ops).1.map Answer.count).sum := by
  simp only [← map_snd_history, ← eventsAt_history c _ addressed, List.map_map]
  refine sum_sum_filter (fun event : Op × Answer => c.home? event.1) _ fun event member => ?_
  obtain ⟨⟨address, request⟩, asked⟩ :=
    Option.isSome_iff_exists.mp (addressed event.1 (List.of_mem_zip member).1)
  exact ⟨(c.locate address).1, c.locate_lt address, by rw [home?, asked]; rfl⟩

/-- The tasks of a run for one set are those of the operations that go to it. -/
theorem filterMap_task?_opsAt (c : Cache) (index : Nat)
    (addressed : ∀ op ∈ ops, op.request?.isSome) :
    (c.opsAt index ops).filterMap (c.task? index) = ops.filterMap (c.task? index) := by
  rw [opsAt, List.filterMap_filter]
  refine List.filterMap_congr fun op member => ?_
  obtain ⟨⟨address, request⟩, asked⟩ := Option.isSome_iff_exists.mp (addressed op member)
  rw [task?_of_request? asked, home?, asked]
  by_cases here : (c.locate address).1 = index <;> simp [here]

theorem cacheType_step (c : Cache) (op : Op) : (c.step op).2.cacheType = c.cacheType := by
  rcases op.request?_or with ⟨address, request, asked⟩ | rfl | rfl
  · rw [step_of_request? asked]
    rfl
  · rfl
  · rfl

theorem cacheType_run (c : Cache) (ops : List Op) : (c.run ops).2.cacheType = c.cacheType := by
  induction ops generalizing c with
  | nil => rfl
  | cons op ops ih => exact (ih (c.step op).2).trans (c.cacheType_step op)

/-- A cache is its shape, its sets and its counters. -/
theorem eq_of_parts (cacheType : c.cacheType = d.cacheType) (lineBytes : c.lineBytes = d.lineBytes)
    (sets : ∀ index : Nat, c.sets[index]? = d.sets[index]?) (stats : c.stats = d.stats) : c = d := by
  cases c
  cases d
  cases Array.ext_getElem? sets
  cases cacheType
  cases lineBytes
  cases stats
  rfl

theorem resetStats_notMem (addressed : ∀ op ∈ ops, op.request?.isSome) : .resetStats ∉ ops :=
  fun member => nomatch addressed .resetStats member

/-- The counters after a run are what they were, and for each set what its operations alone
count for. -/
theorem stats_run_eq_sum (sound : c.Sound) (addressed : ∀ op ∈ ops, op.request?.isSome) :
    (c.run ops).2.stats = c.stats + ∑ index ∈ Finset.range c.sets.size,
      ((c.run (c.opsAt index ops)).1.map Answer.count).sum := by
  rw [c.sum_count_opsAt addressed, stats_run sound (resetStats_notMem addressed)]

/-- Two runs that bring each set the same operations in the same order leave the same cache. -/
theorem run_eq_of_opsAt (sound : c.Sound) (first : ∀ op ∈ ops, op.request?.isSome)
    (second : ∀ op ∈ more, op.request?.isSome)
    (same : ∀ index, c.opsAt index ops = c.opsAt index more) :
    (c.run ops).2 = (c.run more).2 := by
  refine eq_of_parts ?_ ?_ ?_ ?_
  · rw [cacheType_run, cacheType_run]
  · rw [(c.shape_run ops).1, (c.shape_run more).1]
  · intro index
    rw [getElem?_sets_run, getElem?_sets_run, ← c.filterMap_task?_opsAt index first, same,
      c.filterMap_task?_opsAt index second]
  · simp only [stats_run_eq_sum sound first, stats_run_eq_sum sound second, same]

/-- Of two runs of operations on addresses that bring each set the same operations in the same
order, each operation gets the same answer in both, and both leave the same cache. What a
run adds to the counters is the sum over all sets of what the operations on each set add to
them when they are carried out alone. -/
theorem sets_are_independent (built : ofConfig config = .ok start) (before ops more : List Op)
    (addressed : ∀ op ∈ ops ++ more, op.request?.isSome) :
    let c := (start.run before).2
    (∀ index, c.opsAt index ops = c.opsAt index more) →
    (∀ index, c.eventsAt index (c.history ops) = c.eventsAt index (c.history more)) ∧
    (c.run ops).2 = (c.run more).2 ∧
    ∃ gain : Nat → Stats,
      (∀ index, (c.run (c.opsAt index ops)).2.stats = c.stats.merge (gain index)) ∧
      (c.run ops).2.stats = c.stats.merge (∑ index ∈ Finset.range c.sets.size, gain index) := by
  intro c same
  have sound : c.Sound := (sound_of_ofConfig built).run before
  have first : ∀ op ∈ ops, op.request?.isSome :=
    fun op member => addressed op (List.mem_append_left _ member)
  have second : ∀ op ∈ more, op.request?.isSome :=
    fun op member => addressed op (List.mem_append_right _ member)
  refine ⟨fun index => ?_, run_eq_of_opsAt sound first second same, _, fun index => ?_,
    stats_run_eq_sum sound first⟩
  · rw [eventsAt_history c index first, eventsAt_history c index second, same]
  · exact stats_run sound (resetStats_notMem fun op member =>
      first op (List.mem_of_mem_filter member))

/-- In two sets of two ways with random replacement, it does not matter which set is used
first. -/
theorem random_sets_do_not_share_draws :
    ∃ start, ofConfig { sizeBytes := 256, ways := 2, policy := .random } = .ok start ∧
      let c := (start.run [.access 0 true, .access 64 false, .access 128 false,
        .access 192 false]).2
      (c.run [.access 256 true, .access 320 true, .pin 320]).2 =
        (c.run [.access 320 true, .pin 320, .access 256 true]).2 := by
  refine ⟨_, rfl, ?_⟩
  exact (sets_are_independent
    (rfl : ofConfig { sizeBytes := 256, ways := 2, policy := .random } = .ok _)
    [.access 0 true, .access 64 false, .access 128 false, .access 192 false]
    [.access 256 true, .access 320 true, .pin 320] [.access 320 true, .pin 320, .access 256 true]
    (by decide) fun
      | 0 => rfl
      | 1 => rfl
      | _ + 2 => rfl).2.1

end Cache

end SetAssociative
