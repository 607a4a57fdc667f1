import SetAssociative.Proofs.RequestRouting

/-! A cache is its sets side by side: what a run makes of one set is what the tasks make
of it that the run has for this set, in their order. -/
namespace SetAssociative

/-- What a list yields comes from its first member, if that yields any, and then from the rest. -/
theorem filterMap_cons_append {α β : Type} (f : α → Option β) (x : α) (xs : List α) :
    (x :: xs).filterMap f = (f x).toList ++ xs.filterMap f := by
  rw [List.filterMap_cons]
  cases f x <;> rfl

/-- What a cache may ask one of its sets to do. -/
inductive Task where
  | serve (tag : Nat) (request : Request)
  | flush
  deriving DecidableEq, Repr

namespace CacheSet

/-- A set after a task. -/
def perform (s : CacheSet) : Task → CacheSet
  | .serve tag request => (s.serve tag request).set
  | .flush => s.flush.2

/-- A set after a sequence of tasks. -/
def performAll (s : CacheSet) (tasks : List Task) : CacheSet := tasks.foldl perform s

theorem performAll_append (s : CacheSet) (tasks more : List Task) :
    s.performAll (tasks ++ more) = (s.performAll tasks).performAll more :=
  List.foldl_append

theorem build_perform (s : CacheSet) (task : Task) : (s.perform task).build = s.build := by
  cases task with
  | serve tag request => exact build_serve s tag request
  | flush => exact build_flush s

@[simp] theorem ways_perform (s : CacheSet) (task : Task) : (s.perform task).ways = s.ways :=
  congrArg Build.ways (build_perform s task)

theorem build_performAll (s : CacheSet) (tasks : List Task) :
    (s.performAll tasks).build = s.build := by
  induction tasks generalizing s with
  | nil => rfl
  | cons task tasks ih => exact (ih (s.perform task)).trans (build_perform s task)

@[simp] theorem ways_performAll (s : CacheSet) (tasks : List Task) :
    (s.performAll tasks).ways = s.ways := congrArg Build.ways (build_performAll s tasks)

@[simp] theorem kind_performAll (s : CacheSet) (tasks : List Task) :
    (s.performAll tasks).policy.kind = s.policy.kind :=
  congrArg Build.kind (build_performAll s tasks)

/-- The tasks of a sequence of accesses to one set, each to a tag and either read or
write. -/
def accessTasks (uses : List (Nat × Bool)) : List Task :=
  uses.map fun use => .serve use.1 (.access use.2)

end CacheSet

namespace Cache
variable {c : Cache} {index : Nat} {address : UInt64} {request : Request} {op : Op}

/-- The task that an operation has for one set, if any. -/
def task? (c : Cache) (index : Nat) (op : Op) : Option Task :=
  match op.request? with
  | some (address, request) =>
    if (c.locate address).1 = index then some (.serve (c.locate address).2 request) else none
  | none => if op = .flush then some .flush else none

theorem task?_of_request? (asked : op.request? = some (address, request)) :
    c.task? index op =
      if (c.locate address).1 = index then some (.serve (c.locate address).2 request)
      else none := by
  simp only [task?, asked]

/-- A set after a step is what the task of the step makes of it. -/
theorem getElem?_sets_step (c : Cache) (op : Op) (index : Nat) :
    (c.step op).2.sets[index]? =
      c.sets[index]?.map fun s => s.performAll (c.task? index op).toList := by
  rcases op.request?_or with ⟨address, request, asked⟩ | rfl | rfl
  · rw [step_of_request? asked, getElem?_sets_update, task?_of_request? asked]
    by_cases here : (c.locate address).1 = index
    · subst here
      rw [if_pos rfl, if_pos rfl, getElem?_setOf]
      rfl
    · rw [if_neg (Ne.symm here), if_neg here]
      exact (Option.map_id' ..).symm
  · exact getElem?_sets_flush
  · exact (Option.map_id' ..).symm

theorem task?_step (c : Cache) (op : Op) (index : Nat) :
    (c.step op).2.task? index = c.task? index := by
  funext other
  simp only [task?, locate_step]

/-- A set after a run is what the tasks of the run make of it. -/
theorem getElem?_sets_run (c : Cache) (ops : List Op) (index : Nat) :
    (c.run ops).2.sets[index]? =
      c.sets[index]?.map fun s => s.performAll (ops.filterMap (c.task? index)) := by
  induction ops generalizing c with
  | nil => exact (Option.map_id' ..).symm
  | cons op ops ih =>
    rw [run, ih, getElem?_sets_step, task?_step, Option.map_map, filterMap_cons_append]
    simp only [Function.comp_def, CacheSet.performAll_append]

/-- The set of an address after a run. -/
theorem setOf_run (c : Cache) (ops : List Op) (address : UInt64) :
    (c.run ops).2.setOf address =
      (c.setOf address).performAll (ops.filterMap (c.task? (c.locate address).1)) := by
  apply setOf_eq_of_getElem?
  rw [locate_run, getElem?_sets_run, getElem?_setOf, Option.map_some]

/-- A run of accesses, each to an address and either read or write. -/
def accesses (uses : List (UInt64 × Bool)) : List Op := uses.map fun use => .access use.1 use.2

/-- The accesses that go to one set, by their tags. -/
def usesAt (c : Cache) (index : Nat) (uses : List (UInt64 × Bool)) : List (Nat × Bool) :=
  uses.filterMap fun use =>
    if (c.locate use.1).1 = index then some ((c.locate use.1).2, use.2) else none

theorem filterMap_task?_accesses (c : Cache) (index : Nat) (uses : List (UInt64 × Bool)) :
    (accesses uses).filterMap (c.task? index) = CacheSet.accessTasks (c.usesAt index uses) := by
  rw [accesses, List.filterMap_map, CacheSet.accessTasks, usesAt, List.map_filterMap]
  congr 1
  funext use
  have asked : Op.request? (.access use.1 use.2) = some (use.1, .access use.2) := rfl
  rw [Function.comp_apply, task?_of_request? asked]
  split <;> rfl

end Cache

end SetAssociative
