import SetAssociative.Proofs.CacheRepresentation
import SetAssociative.Proofs.LineTotals
import SetAssociative.Proofs.SetProjection

/-! What a set does to its lines is decided by the victims that its policy names. A request
brings the policy a few events: a report of the way that was used, after a search if a way
had to be found in a full set. A set with another policy that names the same victims
replies alike and holds the same lines. -/
namespace SetAssociative

namespace CacheSet
variable {s : CacheSet} {q : Policy} {tag way : Nat} {request : Request}

/-- The events that a request brings to the policy of a set. -/
def events (s : CacheSet) (tag : Nat) : Request → List Policy.Event
  | .access _ =>
    match s.find? tag, s.freeWay? with
    | some way, _ => [.used (.hit way)]
    | none, some way => [.used (.fill way)]
    | none, none =>
      .asked s.view :: ((s.policy.search s.view).1.map fun way => .used (.fill way)).toList
  | .setPinned _ | .invalidate => []

theorem change_withPolicy (s : CacheSet) (q : Policy) (way : Nat) (update : Way → Way) :
    (s.withPolicy q).change way update =
      ((s.change way update).1, (s.change way update).2.withPolicy q) := by
  have same : (s.withPolicy q).way? way = s.way? way := rfl
  simp only [change, same]
  split <;> rfl

theorem invalidate_withPolicy (s : CacheSet) (q : Policy) (way : Nat) :
    (s.withPolicy q).invalidate way =
      ((s.invalidate way).1, (s.invalidate way).2.withPolicy q) := by
  have same : (s.withPolicy q).resident? way = s.resident? way := rfl
  simp only [invalidate, same]
  split <;> rfl

/-- An access to a set whose policy names the victims of another. -/
theorem access_withPolicy (ways : q.ways = s.policy.ways)
    (alike : s.freeWay? = none → (q.search s.view).1 = (s.policy.search s.view).1)
    (tag : Nat) (write : Bool) :
    (s.withPolicy q).access tag write =
      { s.access tag write with
        set := (s.access tag write).set.withPolicy (q.run (s.events tag (.access write))).2 } := by
  -- the policy is told of events only, so the set with the other policy is searched as this one
  have find : (s.withPolicy q).find? = s.find? := rfl
  have free : (s.withPolicy q).freeWay? = s.freeWay? := rfl
  cases found : s.find? tag with
  | some way =>
    obtain ⟨line, rfl, held⟩ := holds_of_find? found
    have also : (s.withPolicy q).Holds tag line := held
    simp only [access, find, found, hit_of_holds held, hit_of_holds also, events]
    rfl
  | none =>
    cases vacant : s.freeWay? with
    | some way =>
      obtain ⟨⟨w, here, -⟩, -⟩ := way?_of_freeWay? vacant
      have inside := lt_ways_of_way? here
      have also : way < (s.withPolicy q).ways := inside
      rw [access_of_freeWay? found vacant, access_of_freeWay? (find ▸ found) (free ▸ vacant),
        fill_of_lt inside, fill_of_lt also]
      simp only [events, found, vacant]
      rfl
    | none =>
      have same := alike vacant
      cases chosen : (s.policy.search s.view).1 with
      | some way =>
        obtain ⟨old, victim, rfl, held, -⟩ := holds_of_search chosen
        rw [chosen] at same
        have inside : victim.way < (s.withPolicy (s.policy.search s.view).2).ways := held.inside
        have also : victim.way < ((s.withPolicy q).withPolicy
            ((s.withPolicy q).policy.search (s.withPolicy q).view).2).ways := held.inside
        rw [access_of_search found vacant chosen,
          access_of_search (find ▸ found) (free ▸ vacant) same, fill_of_lt inside, fill_of_lt also]
        simp only [events, found, vacant, chosen, Option.map_some, Option.toList_some, Policy.run,
          Policy.step, Policy.selectVictim_snd]
        rfl
      | none =>
        rw [chosen] at same
        rw [access_of_search_none found vacant chosen,
          access_of_search_none (find ▸ found) (free ▸ vacant) same]
        simp only [events, found, vacant, chosen, Option.map_none, Option.toList_none, Policy.run,
          Policy.step, Policy.selectVictim_snd]
        rw [← ways]
        rfl

/-- A set whose policy names the victims of another replies to a request as with that one, and
is the same afterwards but for the policy, which has seen the events of the request. -/
theorem serve_withPolicy (ways : q.ways = s.policy.ways)
    (alike : s.freeWay? = none → (q.search s.view).1 = (s.policy.search s.view).1)
    (tag : Nat) (request : Request) :
    (s.withPolicy q).serve tag request =
      { s.serve tag request with
        set := (s.serve tag request).set.withPolicy (q.run (s.events tag request)).2 } := by
  have find : (s.withPolicy q).find? = s.find? := rfl
  cases request with
  | access write =>
    simp only [serve]
    rw [access_withPolicy ways alike]
  | setPinned pinned =>
    simp only [serve, find]
    cases s.find? tag with
    | none => rfl
    | some way => cases pinned <;> simp only [pin, unpin, change_withPolicy] <;> rfl
  | invalidate =>
    simp only [serve, find]
    cases s.find? tag with
    | none => rfl
    | some way =>
      simp only [invalidate_withPolicy]
      rfl

/-- The policy of a set after a request has seen the events of the request. -/
theorem policy_serve (s : CacheSet) (tag : Nat) (request : Request) :
    (s.serve tag request).set.policy = (s.policy.run (s.events tag request)).2 :=
  congrArg (fun response => response.set.policy)
    (serve_withPolicy (q := s.policy) rfl (fun _ => rfl) tag request)

end CacheSet

/-- Sets are related to policies that name the same victims, and stay so through requests of
some kind, of which the policies see the events. -/
structure Interchange (R : CacheSet → Policy → Prop) (allowed : Request → Prop) : Prop where
  ways : ∀ {s q}, R s q → q.ways = s.policy.ways
  alike : ∀ {s q}, R s q → s.freeWay? = none → (q.search s.view).1 = (s.policy.search s.view).1
  kept : ∀ {s q request}, R s q → allowed request → ∀ tag,
    R (s.serve tag request).set (q.run (s.events tag request)).2

namespace Cache
variable {R : CacheSet → Policy → Prop} {allowed : Request → Prop} {c d : Cache} {op : Op}
  {ops : List Op} {address : UInt64} {request : Request}

/-- Two caches that differ in the policies of their sets alone. -/
structure Exchanged (R : CacheSet → Policy → Prop) (c d : Cache) : Prop where
  locate : d.locate = c.locate
  stats : d.stats = c.stats
  size : d.sets.size = c.sets.size
  sets : ∀ (index : Nat) s, c.sets[index]? = some s →
    ∃ q, R s q ∧ d.sets[index]? = some (s.withPolicy q)

/-- Two empty caches of one configuration but for the discipline. -/
theorem exchanged_of_geometry {config : Config} {kind other : Kind}
    (built : ofConfig { config with policy := kind } = .ok c)
    (also : ofConfig { config with policy := other } = .ok d)
    (related : ∀ g : Geometry, config.geometry = .ok g → ∀ seed : UInt64,
      R (CacheSet.ofGeometry { config with policy := kind } g seed)
        (.fresh other g.ways seed)) : Exchanged R c d := by
  have same : ∀ policy, { config with policy }.capacity = config.capacity := fun _ => rfl
  obtain ⟨capacity, found, rfl⟩ := ofConfig_eq_ok_iff.mp built
  obtain ⟨wanted, agreed, rfl⟩ := ofConfig_eq_ok_iff.mp also
  rw [same] at found agreed
  obtain rfl := Except.ok.inj (found.symm.trans agreed)
  refine ⟨?_, rfl, ?_, ?_⟩
  · funext address
    simp only [locate, ofCapacity, size_freshSets]
  · simp only [ofCapacity, size_freshSets]
  · intro index s there
    simp only [ofCapacity, freshSets, Array.getElem?_ofFn] at there ⊢
    split at there
    · rename_i inside
      cases there
      exact ⟨_, related _ (Config.of_capacity found).1 _, dif_pos inside⟩
    · cases there

theorem exchanged_of_ofConfig {config : Config} {kind other : Kind}
    (built : ofConfig { config with policy := kind } = .ok c)
    (also : ofConfig { config with policy := other } = .ok d)
    (related : ∀ (g : Geometry) (seed : UInt64),
      R (CacheSet.ofGeometry { config with policy := kind } g seed)
        (.fresh other g.ways seed)) : Exchanged R c d :=
  exchanged_of_geometry built also fun g _ => related g

/-- A request is answered alike by two such caches. -/
theorem Exchanged.step (exchanged : Exchanged R c d) (interchange : Interchange R allowed)
    (asked : op.request? = some (address, request)) (fair : allowed request) :
    (c.step op).1 = (d.step op).1 ∧ Exchanged R (c.step op).2 (d.step op).2 := by
  obtain ⟨q, related, there⟩ := exchanged.sets _ _ (c.getElem?_setOf address)
  have set : d.setOf address = (c.setOf address).withPolicy q := by
    apply setOf_eq_of_getElem?
    rw [exchanged.locate, there]
  have served : d.response address request =
      { c.response address request with
        set := (c.response address request).set.withPolicy
          (q.run ((c.setOf address).events (c.locate address).2 request)).2 } := by
    rw [response, set, exchanged.locate]
    exact CacheSet.serve_withPolicy (interchange.ways related) (interchange.alike related) _ _
  refine ⟨?_, ?_, ?_, ?_, ?_⟩
  · rw [step_of_request? asked, step_of_request? asked, served, exchanged.locate]
  · funext other
    rw [locate_step, locate_step, exchanged.locate]
  · rw [step_of_request? asked, step_of_request? asked, served]
    exact congrArg (· + (c.response address request).count) exchanged.stats
  · rw [(d.shape_step op).2, (c.shape_step op).2, exchanged.size]
  · intro index s here
    rw [step_of_request? asked, getElem?_sets_update] at here ⊢
    rw [exchanged.locate]
    split at here
    · cases here
      rename_i same
      exact ⟨_, interchange.kept related fair _, by rw [if_pos same, served]⟩
    · rename_i apart
      rw [if_neg apart]
      exact exchanged.sets index s here

/-- The sets of two such caches hold the same in the same ways. -/
theorem Exchanged.slots (exchanged : Exchanged R c d) (index : Nat) :
    d.sets[index]?.map CacheSet.slots = c.sets[index]?.map CacheSet.slots := by
  cases there : c.sets[index]? with
  | some s =>
    obtain ⟨q, -, also⟩ := exchanged.sets index s there
    rw [also]
    rfl
  | none =>
    have outside := Array.getElem?_eq_none_iff.mp there
    rw [Array.getElem?_eq_none (exchanged.size ▸ outside)]

/-- A flush takes the same lines out of two such caches. -/
theorem Exchanged.flush (exchanged : Exchanged R c d)
    (flushed : ∀ {s q}, R s q → R s.flush.2 q) :
    c.flush.1 = d.flush.1 ∧ Exchanged R c.flush.2 d.flush.2 := by
  have written : d.flush.1 = c.flush.1 := by
    rw [flush_fst, flush_fst]
    refine total_congr fun index => ?_
    -- how many lines a flush takes out of a set is told by what the set holds
    have held := congrArg (Option.map (List.countP CacheSet.flushes)) (exchanged.slots index)
    rwa [Option.map_map, Option.map_map] at held
  refine ⟨written.symm, ?_, ?_, ?_, ?_⟩
  · rw [locate_flush, locate_flush, exchanged.locate]
  · have counted : d.flush.2.stats = d.stats + { writebacks := d.flush.1 } := rfl
    rw [counted, written, exchanged.stats]
    rfl
  · exact (d.shape_step .flush).2.trans (exchanged.size.trans (c.shape_step .flush).2.symm)
  · intro index s here
    rw [getElem?_sets_flush] at here ⊢
    obtain ⟨before, there, rfl⟩ := Option.map_eq_some_iff.mp here
    obtain ⟨q, related, also⟩ := exchanged.sets index before there
    exact ⟨q, flushed related, by rw [also]; rfl⟩

/-- Two such caches answer a run alike if they answer each operation alike, and then differ in
policies alone. -/
theorem Exchanged.run_of_step (exchanged : Exchanged R c d)
    (step : ∀ op ∈ ops, ∀ {c d}, Exchanged R c d →
      (c.step op).1 = (d.step op).1 ∧ Exchanged R (c.step op).2 (d.step op).2) :
    (c.run ops).1 = (d.run ops).1 ∧ Exchanged R (c.run ops).2 (d.run ops).2 := by
  induction ops generalizing c d with
  | nil => exact ⟨rfl, exchanged⟩
  | cons op ops ih =>
    obtain ⟨answered, next⟩ := step op List.mem_cons_self exchanged
    obtain ⟨answers, last⟩ := ih next fun other member => step other (List.mem_cons_of_mem _ member)
    exact ⟨by simp only [Cache.run, answered, answers], last⟩

theorem Exchanged.run (exchanged : Exchanged R c d) (interchange : Interchange R allowed)
    (fair : ∀ op ∈ ops, ∃ address request, op.request? = some (address, request) ∧
      allowed request) :
    (c.run ops).1 = (d.run ops).1 ∧ Exchanged R (c.run ops).2 (d.run ops).2 := by
  refine exchanged.run_of_step fun op member _ _ exchanged => ?_
  obtain ⟨address, request, asked, first⟩ := fair op member
  exact exchanged.step interchange asked first

/-- Where the same victims are named after every request and after a flush, no operation tells
two such caches apart. -/
theorem Exchanged.run_all (exchanged : Exchanged R c d)
    (interchange : Interchange R fun _ => True) (flushed : ∀ {s q}, R s q → R s.flush.2 q)
    (ops : List Op) :
    (c.run ops).1 = (d.run ops).1 ∧ Exchanged R (c.run ops).2 (d.run ops).2 := by
  refine exchanged.run_of_step fun op _ c d exchanged => ?_
  rcases op.request?_or with ⟨address, request, asked⟩ | rfl | rfl
  · exact exchanged.step interchange asked trivial
  · obtain ⟨written, after⟩ := exchanged.flush flushed
    exact ⟨congrArg Answer.flushed written, after⟩
  · exact ⟨rfl, exchanged.locate, rfl, exchanged.size, exchanged.sets⟩

end Cache

end SetAssociative
