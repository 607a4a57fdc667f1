import SetAssociative.Proofs.CorrespondingRuns
import SetAssociative.Proofs.WritebackConservation

/-! Whether an access is a write decides what is dirty, and nothing else. Two runs that differ
in the write flags of their accesses alone find, fill and evict in the same ways, as long as
nothing is flushed. A run that writes more leaves more lines dirty and writes more lines back. -/
namespace SetAssociative

/-- A way as if its line had not been written. -/
def Way.cleaned (w : Way) : Way := { w with dirty := false }

/-- A line that left, as if it had not been written. -/
def Evicted.cleaned (line : Evicted) : Evicted := { line with dirty := false }

namespace Likeness
variable {dirt : Tolerance} {index : Nat} {s t : CacheSet} {line other : Evicted}

theorem Leaving.cleaned (like : (unrenamed dirt).Leaving index line other) :
    line.cleaned = other.cleaned := by
  cases line
  cases other
  obtain ⟨rfl, rfl, -⟩ := like
  rfl

theorem Sets.cleaned (sets : (unrenamed dirt).Sets index s t) :
    s.slots.map Way.cleaned = t.slots.map Way.cleaned := by
  refine sets.map_slots fun v w _ like => ?_
  have tag : w.tag = v.tag := like.tag.trans (ite_self _)
  rw [Way.cleaned, Way.cleaned, tag, like.valid, like.pinned]

/-- A line that is found dirty in the one set is found dirty in the other. -/
theorem Sets.dirty_line? (sets : (unrenamed .rising).Sets index s t) {tag : Nat}
    (dirty : (s.line? tag).any Line.dirty = true) : (t.line? tag).any Line.dirty = true := by
  have find : t.find? tag = s.find? tag := sets.find? (Set.mem_univ tag)
  unfold CacheSet.line? at dirty ⊢
  rw [find]
  cases found : s.find? tag with
  | none =>
    rw [found] at dirty
    exact dirty
  | some way =>
    have here := sets.ways way
    rw [found, Option.bind_some] at dirty
    rw [Option.bind_some]
    generalize s.way? way = old, t.way? way = new at here dirty ⊢
    cases here with
    | none => exact dirty
    | @some v w like =>
      have risen : v.dirty.toNat ≤ w.dirty.toNat := like.dirty
      have written : v.dirty = true := dirty
      rw [written] at risen
      have raised : w.dirty = true := by
        refine Bool.of_not_eq_false fun clean => ?_
        rw [clean] at risen
        cases risen
      exact raised

end Likeness

/-- What replacement in a set depends on: its ways but for the dirty bits, and its policy. -/
def CacheSet.guiding (s : CacheSet) : List Way × Policy := (s.slots.map Way.cleaned, s.policy)

namespace Cache
variable {c d start : Cache} {config : Config} {op other : Op} {ops more : List Op}

/-- Operations that differ at most in whether an access is a write. -/
inductive Op.EqualButWrite : Op → Op → Prop where
  | access (address : UInt64) (write other : Bool) :
      EqualButWrite (.access address write) (.access address other)
  | same (op : Op) : EqualButWrite op op

/-- Whether an operation is a write. -/
def Op.writes : Op → Bool
  | .access _ write => write
  | _ => false

theorem Op.EqualButWrite.corresponds {dirt : Tolerance} (equal : op.EqualButWrite other)
    (unflushed : op ≠ .flush) (allowed : dirt.allows op.writes.toNat other.writes.toNat) :
    (Likeness.unrenamed dirt).Ops c op other := by
  cases equal with
  | access address write other =>
    exact .addressed rfl rfl rfl rfl (Set.mem_univ _) (.access allowed)
  | same op => exact .same fun flushed => absurd flushed unflushed

theorem forall₂_ops {dirt : Tolerance} (both : List.Forall₂ Op.EqualButWrite ops more)
    (unflushed : .flush ∉ ops)
    (allowed : List.Forall₂ (fun op other => dirt.allows op.writes.toNat other.writes.toNat)
      ops more) : List.Forall₂ ((Likeness.unrenamed dirt).Ops c) ops more := by
  induction both with
  | nil => exact .nil
  | cons equal rest ih =>
    rw [List.mem_cons, not_or] at unflushed
    cases allowed with
    | cons first later =>
      exact .cons (equal.corresponds (Ne.symm unflushed.1) first) (ih unflushed.2 later)

/-- Two runs from an empty cache that differ in write flags alone, and in which nothing is
flushed, get the same answers but for the dirty bits of lines that leave. After every step
the caches agree in all that replacement depends on and in all counts but the lines written
back. If the second run writes wherever the first does, every line that is dirty in the first
is dirty in the second, and no more lines were written back in the first. -/
theorem write_flags_steer_only_writebacks (built : ofConfig config = .ok start)
    (both : List.Forall₂ Op.EqualButWrite ops more) (unflushed : .flush ∉ ops) :
    (start.run ops).1.map (Answer.mapEvicted Evicted.cleaned) =
      (start.run more).1.map (Answer.mapEvicted Evicted.cleaned) ∧
    (∀ n, let c := (start.run (ops.take n)).2
      let d := (start.run (more.take n)).2
      (∀ index : Nat, c.sets[index]?.map CacheSet.guiding = d.sets[index]?.map CacheSet.guiding) ∧
      { c.stats with writebacks := 0 } = { d.stats with writebacks := 0 }) ∧
    (List.Forall₂ (fun op other => op.writes = true → other.writes = true) ops more →
      ∀ n, let c := (start.run (ops.take n)).2
        let d := (start.run (more.take n)).2
        (∀ key, c.lines.dirty key = true → d.lines.dirty key = true) ∧
        c.stats.writebacks ≤ d.stats.writebacks) := by
  have sound := sound_of_ofConfig built
  have alike : ∀ dirt, (Likeness.unrenamed dirt).Caches start start :=
    fun dirt => Likeness.caches_of_ofConfig _ built built rfl fun _ _ => rfl
  -- whatever the flags are, the runs correspond but for the dirty bits; for these to grow, the
  -- runs are compared once more under the narrower tolerance
  have any : List.Forall₂ ((Likeness.unrenamed .any).Ops start) ops more :=
    forall₂_ops both unflushed (both.imp fun _ _ _ => trivial)
  refine ⟨?_, fun n => ?_, fun more_writes n => ?_⟩
  · have answers := (alike .any).map_answers sound any (f := fun _ => Evicted.cleaned)
      fun _ _ _ like => like.cleaned
    rw [← answers, ← map_snd_history, List.map_map]
    rfl
  · have after := ((alike .any).run sound (List.forall₂_take n any)).2
    refine ⟨fun index => ?_, ?_⟩
    · have sets := after.sets index
      generalize (start.run (ops.take n)).2.sets[index]? = old,
        (start.run (more.take n)).2.sets[index]? = new at sets ⊢
      cases sets with
      | none => rfl
      | some sets => exact congrArg some (Prod.ext sets.cleaned sets.policy.symm)
    · rw [after.stats.rest]
  · have rising : List.Forall₂ ((Likeness.unrenamed .rising).Ops start) ops more := by
      exact forall₂_ops both unflushed (more_writes.imp fun _ _ writes =>
        Bool.toNat_le_toNat (Bool.le_iff_imp.mpr writes))
    have after := ((alike .rising).run sound (List.forall₂_take n rising)).2
    refine ⟨fun key dirty => ?_, after.stats.writebacks⟩
    have sets := after.sets key.1
    unfold Lines.dirty lines at dirty ⊢
    generalize (start.run (ops.take n)).2.sets[key.1]? = old,
      (start.run (more.take n)).2.sets[key.1]? = new at sets dirty ⊢
    cases sets with
    | none => exact dirty
    | some sets => exact sets.dirty_line? dirty

/-- A run that writes to its first line as well writes that line back when it gives way, and
the line that is removed in both. -/
theorem one_more_write_is_written_back :
    ∃ start, ofConfig Config.pair = .ok start ∧
      let ops : List Op := [.access 0 false, .access 64 true, .access 128 false, .invalidate 64]
      let more : List Op := [.access 0 true, .access 64 true, .access 128 false, .invalidate 64]
      (start.run ops).1.map (Answer.mapEvicted Evicted.cleaned) =
        (start.run more).1.map (Answer.mapEvicted Evicted.cleaned) ∧
      (start.run ops).2.stats.writebacks ≤ (start.run more).2.stats.writebacks ∧
      (start.run ops).2.stats.writebacks = 1 ∧ (start.run more).2.stats.writebacks = 2 := by
  obtain ⟨answers, -, rising⟩ := write_flags_steer_only_writebacks
    (rfl : ofConfig Config.pair = .ok _)
    (.cons (.access 0 false true) (.cons (.same (.access 64 true))
      (.cons (.same (.access 128 false)) (.cons (.same (.invalidate 64)) .nil)))) (by decide)
  refine ⟨_, rfl, answers, (rising ?_ 4).2, by decide, by decide⟩
  exact .cons nofun (.cons id (.cons id (.cons id .nil)))

end Cache

end SetAssociative
