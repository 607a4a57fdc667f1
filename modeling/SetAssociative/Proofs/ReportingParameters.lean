import SetAssociative.Proofs.TagRenaming

/-! What a cache is for, how a set answers a report of a way that it does not have, and the
seed of a policy that draws no numbers are parameters for reports. A set acts alike under both
contracts, and only such a report is answered differently. A cache never makes one, so that its
accesses fail for one reason only, and caches that differ in these parameters answer alike. -/
namespace SetAssociative

theorem Policy.fresh_congr {kind : Kind} {seed other : UInt64}
    (same : kind = .random → other = seed) (ways : Nat) :
    Policy.fresh kind ways other = .fresh kind ways seed := by
  cases kind with
  | random => rw [same rfl]
  | roundRobin | fifo | lru | mru | plru | nru => rfl

namespace CacheSet
variable {s : CacheSet} {contract : Contract} {op : Op} {ops : List Op} {o : Outcome}

theorem change_withContract (s : CacheSet) (contract : Contract) (way : Nat) (update : Way → Way) :
    (s.withContract contract).change way update =
      ((s.change way update).1, (s.change way update).2.withContract contract) := by
  have same : (s.withContract contract).way? way = s.way? way := rfl
  simp only [change, same]
  split <;> rfl

theorem invalidate_withContract (s : CacheSet) (contract : Contract) (way : Nat) :
    (s.withContract contract).invalidate way =
      ((s.invalidate way).1, (s.invalidate way).2.withContract contract) := by
  have same : (s.withContract contract).resident? way = s.resident? way := rfl
  simp only [invalidate, same]
  split <;> rfl

/-- A way that the set does not have is passed over or refused, as the contract says. The set
stays as it is. -/
theorem step_record_of_le (outside : s.ways ≤ o.way) :
    s.step (.record o) = (match s.contract with
      | .lenient => .recorded
      | .strict => .failed (.noSuchWay o.way s.ways), s) := by
  simp only [step, record, if_neg (Nat.not_lt.mpr outside)]
  cases s.contract <;> rfl

theorem step_record_of_lt (inside : o.way < s.ways) :
    s.step (.record o) = (.recorded, s.withPolicy (s.policy.record o)) := by
  simp only [step, record, if_pos inside]
  rfl

/-- An operation that reports no way but those of the set comes to the same under every
contract. -/
theorem step_withContract (contract : Contract)
    (inside : ∀ o, op = .record o → o.way < s.ways) :
    (s.withContract contract).step op =
      ((s.step op).1, (s.step op).2.withContract contract) := by
  have ways : (s.withContract contract).ways = s.ways := rfl
  cases op with
  | install way tag dirty =>
    simp only [step, install, ways]
    by_cases there : way < s.ways
    · simp only [if_pos there]
      rfl
    · simp only [if_neg there]
  | markDirty way | pin way | unpin way =>
    simp only [step, markDirty, pin, unpin, change_withContract]
  | invalidate way => simp only [step, invalidate_withContract]
  | record o =>
    have there := inside o rfl
    have also : o.way < (s.withContract contract).ways := there
    rw [step_record_of_lt there, step_record_of_lt also]
    rfl
  | selectVictim =>
    simp only [step, selectVictim]
    have chosen : (s.withContract contract).policy.selectVictim (s.withContract contract).view =
      s.policy.selectVictim s.view := rfl
    rw [chosen]
    cases (s.policy.selectVictim s.view).1 <;> rfl

/-- Under every contract, an operation does the same to the set. -/
theorem step_withContract_snd (s : CacheSet) (contract : Contract) (op : Op) :
    ((s.withContract contract).step op).2 = (s.step op).2.withContract contract := by
  -- a report that the contracts answer differently changes the set under neither
  by_cases inside : ∀ o, op = .record o → o.way < s.ways
  · rw [step_withContract contract inside]
  · simp only [not_forall, Nat.not_lt] at inside
    obtain ⟨o, rfl, outside⟩ := inside
    have also : (s.withContract contract).ways ≤ o.way := outside
    rw [step_record_of_le outside, step_record_of_le also]

theorem run_withContract (s : CacheSet) (contract : Contract) (ops : List Op) :
    ((s.withContract contract).run ops).2 = (s.run ops).2.withContract contract := by
  induction ops generalizing s with
  | nil => rfl
  | cons op ops ih => rw [run, run, step_withContract_snd, ih]

theorem build_run (s : CacheSet) (ops : List Op) : (s.run ops).2.build = s.build := by
  induction ops generalizing s with
  | nil => rfl
  | cons op ops ih => exact (ih _).trans (s.build_step op)

/-- Two sets that differ in their contracts alone stay so, and answer an operation alike unless
it reports a way that they do not have. -/
theorem contracts_differ_in_misreports (s : CacheSet) (before : List Op) (op : Op) :
    let lenient := ((s.withContract .lenient).run before).2
    let strict := ((s.withContract .strict).run before).2
    strict = lenient.withContract .strict ∧
    ((∀ o, op = .record o → o.way < s.ways) → (strict.step op).1 = (lenient.step op).1) ∧
    ∀ o, op = .record o → s.ways ≤ o.way →
      lenient.step op = (.recorded, lenient) ∧
      strict.step op = (.failed (.noSuchWay o.way s.ways), strict) := by
  intro lenient strict
  have same : strict = lenient.withContract .strict :=
    run_withContract (s.withContract .lenient) .strict before
  have first := build_run (s.withContract .lenient) before
  have second := build_run (s.withContract .strict) before
  have ways : lenient.ways = s.ways := congrArg Build.ways first
  refine ⟨same, fun inside => ?_, ?_⟩
  · rw [same, step_withContract .strict (ways ▸ inside)]
  · rintro o rfl outside
    have passed : lenient.contract = .lenient := congrArg Build.contract first
    have refused : strict.contract = .strict := congrArg Build.contract second
    have width : strict.ways = s.ways := congrArg Build.ways second
    rw [step_record_of_le (ways ▸ outside), step_record_of_le (width ▸ outside), passed, refused,
      width]
    exact ⟨rfl, rfl⟩

/-- The one error of an access is that no way may be evicted. -/
theorem Effect.eq_exhausted {tag index : Nat} {request : Request} {response : Response}
    {cause : CacheError} (effect : s.Effect tag request response)
    (failed : response.reply.answer index = .accessed (.error cause)) :
    cause = .exhausted s.ways := by
  cases effect with
  | exhausted =>
    cases failed
    rfl
  | hit | fill | replace | pinned | unfound | removed | missing => cases failed

end CacheSet

/-- Configurations that differ at most in the role of the cache, in the contract, and in the
seed if that is not used. -/
structure Config.EqualButReports (config rival : Config) : Prop where
  shape : rival = { config with
    cacheType := rival.cacheType, contract := rival.contract, seed := rival.seed }
  seed : config.policy = .random → rival.seed = config.seed

namespace Cache
variable {start other : Cache} {config rival : Config} {ops : List Op}

theorem cause_of_run (built : ofConfig config = .ok start) {cause : CacheError}
    (failed : .accessed (.error cause) ∈ (start.run ops).1) :
    cause = .exhausted config.ways.toNat := by
  induction ops using List.reverseRecOn with
  | nil => cases failed
  | append_singleton ops op ih =>
    rw [run_append, List.mem_append] at failed
    rcases failed with before | last
    · exact ih before
    · have answer : .accessed (.error cause) = ((start.run ops).2.step op).1 :=
        List.mem_singleton.mp last
      rcases op.request?_or with ⟨address, request, asked⟩ | rfl | rfl
      · have kept := Everywhere.setOf (kept_of_run built ops) address
        rw [step_of_request? asked] at answer
        rw [← kept.ways]
        exact (CacheSet.effect_serve kept.sound.fits _ request).eq_exhausted answer.symm
      · cases answer
      · cases answer

/-- Caches whose configurations differ in reports start with the same lines and policies. -/
theorem caches_of_equalButReports (equal : config.EqualButReports rival)
    (built : ofConfig config = .ok start) (also : ofConfig rival = .ok other) :
    (Likeness.unrenamed .exact).Caches start other := by
  have policy : rival.policy = config.policy := by rw [equal.shape]
  have capacity : rival.capacity = config.capacity := by
    apply Config.capacity_congr
    all_goals rw [equal.shape]
  refine Likeness.caches_of_ofConfig _ built also capacity fun ways index => ?_
  rw [policy]
  exact Policy.fresh_congr (fun drawn => by rw [equal.seed drawn]) ways

/-- Whatever is done to two sets that differ in their contracts alone, their lines and their
policies stay equal, and all answers are, but for reports of ways that the sets do not have.
Whatever is done to two caches that differ in the parameters for reports alone, they give the
same answers, count the same and hold the same lines, and the one error of their accesses is
that no way of a set may be evicted. -/
theorem reporting_parameters_never_steer :
    (∀ (s : CacheSet) (before : List CacheSet.Op) (op : CacheSet.Op),
      let lenient := ((s.withContract .lenient).run before).2
      let strict := ((s.withContract .strict).run before).2
      strict = lenient.withContract .strict ∧
      ((∀ o, op = .record o → o.way < s.ways) → (strict.step op).1 = (lenient.step op).1) ∧
      ∀ o, op = .record o → s.ways ≤ o.way →
        lenient.step op = (.recorded, lenient) ∧
        strict.step op = (.failed (.noSuchWay o.way s.ways), strict)) ∧
    ∀ {config rival : Config} {start other : Cache}, config.EqualButReports rival →
      ofConfig config = .ok start → ofConfig rival = .ok other → ∀ ops,
        (other.run ops).1 = (start.run ops).1 ∧
        (other.run ops).2.stats = (start.run ops).2.stats ∧
        (∀ address, (other.run ops).2.contains address = (start.run ops).2.contains address) ∧
        ∀ cause, .accessed (.error cause) ∈ (start.run ops).1 →
          cause = .exhausted config.ways.toNat := by
  refine ⟨CacheSet.contracts_differ_in_misreports, ?_⟩
  intro config rival start other equal built also ops
  have alike := caches_of_equalButReports equal built also
  have sound := sound_of_ofConfig built
  have both : List.Forall₂ ((Likeness.unrenamed .exact).Ops start) ops ops :=
    List.forall₂_same.mpr fun op _ => .same fun _ => id
  have after := (alike.run sound both).2
  refine ⟨?_, after.stats.eq, fun address => ?_, fun cause => cause_of_run built⟩
  · have answers := alike.map_answers sound both (f := fun _ => id) (g := id)
      fun _ _ _ like => like.rename id
    rw [Answer.mapEvicted_id, List.map_id] at answers
    rw [← answers]
    exact start.map_snd_history ops
  · exact congrArg Option.isSome (after.find? rfl rfl (Set.mem_univ _))

/-- A set of two ways answers a report of a third way as its contract says. Two caches that
differ in role, contract and seed serve the same accesses, the last of which fails in both. -/
theorem third_way_of_two_is_only_reported :
    ∃ (s : CacheSet) (start other : Cache), ofConfig Config.pair = .ok start ∧
      ofConfig { Config.pair with cacheType := .data, contract := .strict, seed := 7 } =
        .ok other ∧ start.sets[0]? = some s ∧
      (((s.withContract .lenient).run [.install 0 5 true]).2.step (.record (.fill 2))).1 =
        .recorded ∧
      (((s.withContract .strict).run [.install 0 5 true]).2.step (.record (.fill 2))).1 =
        .failed (.noSuchWay 2 2) ∧
      let ops : List Op := [.access 0 true, .pin 0, .access 64 false, .pin 64, .access 128 false]
      (other.run ops).1 = (start.run ops).1 ∧
      .accessed (.error (.exhausted 2)) ∈ (start.run ops).1 := by
  have equal : Config.pair.EqualButReports
      { Config.pair with cacheType := .data, contract := .strict, seed := 7 } := ⟨rfl, nofun⟩
  refine ⟨_, _, _, rfl, rfl, rfl, ?_, ?_, ?_⟩
  · exact congrArg Prod.fst ((reporting_parameters_never_steer.1 _ [.install 0 5 true] _).2.2
      (.fill 2) rfl (by decide)).1
  · exact congrArg Prod.fst ((reporting_parameters_never_steer.1 _ [.install 0 5 true] _).2.2
      (.fill 2) rfl (by decide)).2
  · refine ⟨(reporting_parameters_never_steer.2 equal rfl rfl _).1, ?_⟩
    exact .tail _ (.tail _ (.tail _ (.tail _ (.head _))))

end Cache

end SetAssociative
