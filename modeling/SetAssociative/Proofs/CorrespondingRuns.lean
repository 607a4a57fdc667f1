import SetAssociative.Proofs.CorrespondingSets
import SetAssociative.Proofs.LineTotals
import SetAssociative.Proofs.SetIndependence

/-! Caches of corresponding sets. They take corresponding operations to the same sets, answer
them correspondingly, and count alike but for the lines written back. So they do over every
run, from the empty caches of two configurations on whose sets are built alike. -/
namespace SetAssociative

/-- An answer with the lines exchanged that it reports to have left. -/
def Cache.Answer.mapEvicted (f : Evicted → Evicted) : Answer → Answer
  | .accessed result => .accessed (result.map fun a => { a with evicted := a.evicted.map f })
  | .removed line => .removed (line.map f)
  | .found held => .found held
  | .flushed lines => .flushed lines
  | .done => .done

namespace Likeness
open Cache
variable (m : Likeness)

/-- The same answer, up to the lines of one set that are reported to have left. -/
inductive Answers : Option Nat → Answer → Answer → Prop where
  | replied {index : Nat} {first second : Reply} (replies : m.Replies index first second) :
      Answers (some index) (first.answer index) (second.answer index)
  | flushed (lines : Nat) : Answers none (.flushed lines) (.flushed lines)
  | done : Answers none .done .done

/-- Corresponding operations: the same request to the same set about the renamed tag, or the
same operation on all sets. A flush is one only where the same lines are dirty. -/
inductive Ops (c : Cache) : Op → Op → Prop where
  | addressed {op also : Op} {address target : UInt64} {request other : Request}
      (first : op.request? = some (address, request))
      (second : also.request? = some (target, other))
      (home : (c.locate target).1 = (c.locate address).1)
      (renamed : (c.locate target).2 = m.rename (c.locate address).1 (c.locate address).2)
      (known : (c.locate address).2 ∈ m.tags) (asked : m.Requests request other) : Ops c op also
  | flush (exact : ∀ {a b : Nat}, m.dirt.allows a b → a = b) : Ops c .flush .flush
  | resetStats : Ops c .resetStats .resetStats

/-- Caches that take addresses apart alike and have corresponding sets and counts. -/
structure Caches (c d : Cache) : Prop where
  locate : d.locate = c.locate
  sets : ∀ index : Nat, Option.Rel (m.Sets index) c.sets[index]? d.sets[index]?
  stats : m.dirt.Counts c.stats d.stats

variable {m : Likeness} {c d start rival : Cache} {config other : Config} {op also : Op}
  {ops more : List Op} {address target : UInt64} {index : Nat}

/-- Empty sets correspond if they have the same policy. -/
theorem sets_empty (m : Likeness) (index : Nat) {cacheType role : CacheType} {g : Geometry}
    {policy : Policy} {contract mode : Contract} :
    m.Sets index (.empty cacheType g policy contract) (.empty role g policy mode) where
  policy := rfl
  ways := by
    intro way
    have same : (CacheSet.empty role g policy mode).way? way =
        (CacheSet.empty cacheType g policy contract).way? way := rfl
    rw [same]
    cases held : (CacheSet.empty cacheType g policy contract).way? way with
    | none => exact .none
    | some v =>
      obtain rfl := List.eq_of_mem_replicate (List.mem_of_getElem? held)
      exact .some ⟨rfl, rfl, m.dirt.refl _, rfl⟩
  known held := absurd held CacheSet.not_holds_empty

/-- Two empty caches correspond if their sets have the same shapes and the same policies. -/
theorem caches_of_ofConfig (m : Likeness) (built : ofConfig config = .ok start)
    (also : ofConfig other = .ok rival) (same : other.capacity = config.capacity)
    (policies : ∀ ways index, Policy.fresh other.policy ways (setSeed other.seed index) =
      .fresh config.policy ways (setSeed config.seed index)) : m.Caches start rival := by
  have locate := locate_eq_of_ofConfig built also same
  obtain ⟨capacity, found, -, sets, stats⟩ := start_of_ofConfig built
  obtain ⟨wanted, agreed, -, sets', stats'⟩ := start_of_ofConfig also
  obtain rfl := Except.ok.inj (found.symm.trans (same.symm.trans agreed))
  refine ⟨locate, fun index => ?_, ?_⟩
  · rw [sets, sets']
    simp only [freshSets, Array.getElem?_ofFn]
    split
    · refine .some ?_
      simp only [CacheSet.ofGeometry, policies]
      exact m.sets_empty index
    · exact .none
  · rw [stats, stats']
    exact .same ..

theorem Caches.setOf (caches : m.Caches c d)
    (home : (c.locate target).1 = (c.locate address).1) :
    m.Sets (c.locate address).1 (c.setOf address) (d.setOf target) := by
  have sets := caches.sets (c.locate address).1
  have there := d.getElem?_setOf target
  rw [caches.locate, home] at there
  rw [c.getElem?_setOf, there] at sets
  cases sets with
  | some sets => exact sets

/-- A line is found where its renamed tag is found. -/
theorem Caches.find? (caches : m.Caches c d)
    (home : (c.locate target).1 = (c.locate address).1)
    (renamed : (c.locate target).2 = m.rename (c.locate address).1 (c.locate address).2)
    (known : (c.locate address).2 ∈ m.tags) : d.find? target = c.find? address := by
  rw [Cache.find?, caches.locate, renamed]
  exact (caches.setOf home).find? known

/-- Sets that are replaced by corresponding ones leave corresponding caches. -/
theorem Caches.update (caches : m.Caches c d)
    (home : (c.locate target).1 = (c.locate address).1) {s t : CacheSet} {count counts : Stats}
    (sets : m.Sets (c.locate address).1 s t) (counted : m.dirt.Counts count counts) :
    m.Caches (c.update address s count) (d.update target t counts) where
  locate := by rw [locate_update, locate_update, caches.locate]
  sets := by
    intro index
    rw [getElem?_sets_update, getElem?_sets_update, caches.locate, home]
    split
    · rename_i here
      subst here
      exact .some sets
    · exact caches.sets index
  stats := caches.stats.add counted

/-- Where the same is dirty on both sides, a flush writes back as many lines. -/
theorem Caches.flush (caches : m.Caches c d)
    (exact : ∀ {a b : Nat}, m.dirt.allows a b → a = b) :
    d.flush.1 = c.flush.1 ∧ m.Caches c.flush.2 d.flush.2 := by
  have written : d.flush.1 = c.flush.1 := by
    rw [flush_fst, flush_fst]
    refine total_congr fun index => ?_
    have sets := caches.sets index
    generalize c.sets[index]? = old, d.sets[index]? = new at sets
    cases sets with
    | none => rfl
    | some sets => exact congrArg some (sets.flush exact).1
  refine ⟨written, ?_, fun index => ?_, ?_⟩
  · rw [locate_flush, locate_flush, caches.locate]
  · have sets := caches.sets index
    rw [getElem?_sets_flush, getElem?_sets_flush]
    generalize c.sets[index]? = old, d.sets[index]? = new at sets
    cases sets with
    | none => exact .none
    | some sets => exact .some (sets.flush exact).2
  · refine caches.stats.add (u := { writebacks := c.flush.1 }) (v := { writebacks := d.flush.1 }) ?_
    rw [written]
    exact .same ..

/-- Corresponding operations get corresponding answers and leave corresponding caches. -/
theorem Caches.step (caches : m.Caches c d) (sound : c.Sound) (ops : m.Ops c op also) :
    m.Answers (c.home? op) (c.step op).1 (d.step also).1 ∧
      m.Caches (c.step op).2 (d.step also).2 := by
  cases ops with
  | @addressed _ _ address target request other first second home renamed known asked =>
    have served := (caches.setOf home).serve known asked (Everywhere.setOf sound address).fits
    have there : (c.home? op) = some (c.locate address).1 := by rw [home?, first]; rfl
    rw [step_of_request? first, step_of_request? second, response, response, caches.locate, renamed,
      home, there]
    exact ⟨.replied served.reply, caches.update home served.set served.count⟩
  | flush exact =>
    obtain ⟨written, after⟩ := caches.flush exact
    refine ⟨?_, after⟩
    show m.Answers none (.flushed c.flush.1) (.flushed d.flush.1)
    rw [written]
    exact .flushed _
  | resetStats => exact ⟨.done, caches.locate, caches.sets, .same ..⟩

/-- Where no tag is renamed, an operation corresponds to itself, a flush as far as it may. -/
theorem Ops.same {dirt : Tolerance}
    (exact : op = .flush → ∀ {a b : Nat}, dirt.allows a b → a = b) :
    (unrenamed dirt).Ops c op op := by
  rcases op.request?_or with ⟨address, request, asked⟩ | rfl | rfl
  · exact .addressed asked asked rfl rfl (Set.mem_univ _) (.same _ request)
  · exact .flush (exact rfl)
  · exact .resetStats

theorem Ops.step (ops : m.Ops c op also) (before : Op) : m.Ops (c.step before).2 op also := by
  cases ops with
  | addressed first second home renamed known asked =>
    refine .addressed first second ?_ ?_ ?_ asked
    · simpa only [locate_step] using home
    · simpa only [locate_step] using renamed
    · simpa only [locate_step] using known
  | flush exact => exact .flush exact
  | resetStats => exact .resetStats

/-- Corresponding runs get corresponding answers and leave corresponding caches. -/
theorem Caches.run (caches : m.Caches c d) (sound : c.Sound)
    (both : List.Forall₂ (m.Ops c) ops more) :
    List.Forall₂ (fun event answer => m.Answers (c.home? event.1) event.2 answer) (c.history ops)
        (d.run more).1 ∧
      m.Caches (c.run ops).2 (d.run more).2 := by
  induction ops generalizing c d more with
  | nil =>
    cases both
    exact ⟨.nil, caches⟩
  | cons op ops ih =>
    cases both with
    | cons first rest =>
      -- addresses keep their places, so the rest corresponds for the caches after the step too
      obtain ⟨answered, next⟩ := caches.step sound first
      obtain ⟨answers, last⟩ := ih next (sound.step op) (rest.imp fun _ _ alike => alike.step op)
      rw [home?_step] at answers
      exact ⟨.cons answered answers, last⟩

/-- What corresponding lines show alike, the answers show alike that report them. -/
theorem Answers.mapEvicted {home : Option Nat} {first second : Answer} {f g : Evicted → Evicted}
    (answers : m.Answers home first second)
    (alike : ∀ index ∈ home, ∀ line other, m.Leaving index line other → f line = g other) :
    first.mapEvicted f = second.mapEvicted g := by
  cases answers with
  | @replied index first second replies =>
    have lines : ∀ left gone, Option.Rel (m.Leaving index) left gone → left.map f = gone.map g := by
      intro left gone related
      cases related with
      | none => rfl
      | some like => exact congrArg some (alike index rfl _ _ like)
    cases replies with
    | placed related =>
      simp only [Reply.answer, Answer.mapEvicted, Except.map, lines _ _ related]
    | removed related => simp only [Reply.answer, Answer.mapEvicted, lines _ _ related]
    | failed cause | found held => rfl
  | flushed lines => rfl
  | done => rfl

/-- What corresponding lines show alike, the answers to corresponding runs show alike. -/
theorem Caches.map_answers (caches : m.Caches c d) (sound : c.Sound)
    (both : List.Forall₂ (m.Ops c) ops more) {f : Option Nat → Evicted → Evicted}
    {g : Evicted → Evicted}
    (alike : ∀ index line other, m.Leaving index line other → f (some index) line = g other) :
    (c.history ops).map (fun event => event.2.mapEvicted (f (c.home? event.1))) =
      (d.run more).1.map (Answer.mapEvicted g) := by
  rw [← List.forall₂_eq_eq_eq, List.forall₂_map_left_iff, List.forall₂_map_right_iff]
  refine (caches.run sound both).1.imp fun event answer answers => answers.mapEvicted ?_
  intro index home line other like
  rw [home]
  exact alike index line other like

end Likeness

end SetAssociative
