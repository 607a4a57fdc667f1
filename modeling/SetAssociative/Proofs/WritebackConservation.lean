import SetAssociative.Proofs.CountedAnswers
import SetAssociative.Proofs.LineTotals
import SetAssociative.Proofs.PinnedResidency

/-! What becomes dirty is written back once. A line becomes dirty when a write to it succeeds
that did not find it dirty; it is written back when it gives way, is removed or is flushed
while it is dirty. Over every run these events alternate for each line, and the counter of
lines written back makes up for the dirty lines that are no longer there. -/
namespace SetAssociative

/-- Whether there is a dirty line of a set and a tag. -/
def Lines.dirty (m : Lines) (key : Nat × Nat) : Bool := (m key.1 key.2).any Line.dirty

namespace Lines
variable {m : Lines} {key place : Nat × Nat} {write : Bool} {line : Option Line}

theorem dirty_assign_same : (m.assign key.1 key.2 line).dirty key = line.any Line.dirty := by
  rw [dirty, assign, if_pos ⟨rfl, rfl⟩]

theorem dirty_assign_of_ne (apart : place ≠ key) :
    (m.assign place.1 place.2 line).dirty key = m.dirty key := by
  rw [dirty, assign_of_ne apart, dirty]

theorem dirty_modify_pinned (place : Nat × Nat) (pinned : Bool) :
    (m.modify place.1 place.2 ({ · with pinned })).dirty key = m.dirty key := by
  by_cases same : place = key
  · subst same
    rw [modify, dirty_assign_same, Option.any_map]
    rfl
  · exact dirty_assign_of_ne same

/-- A line that leaves is the only one of which it changes whether it is dirty. -/
theorem Leaves.dirty_drop {way : Nat} {evicted : Option Evicted}
    (leaves : m.Leaves place.1 way evicted) (key : Nat × Nat) :
    ((m.drop place.1 evicted).dirty key).toNat +
        (evicted.any fun line => line.dirty && (place.1, line.tag) == key).toNat =
      (m.dirty key).toNat := by
  cases evicted with
  | none => rfl
  | some line =>
    by_cases same : (place.1, line.tag) = key
    · subst same
      have held := leaves.2
      simp only [drop, dirty, assign, held, Option.any_some, Option.any_none, true_and, ↓reduceIte,
        beq_self_eq_true, Bool.and_true, Bool.toNat_false, Nat.zero_add]
    · rw [drop, dirty_assign_of_ne same, Option.any_some,
        beq_eq_false_iff_ne.mpr same, Bool.and_false]
      rfl

/-- After an access that found or put its line, that line is dirty if it was before, unless
another gave way to it, or if the access is a write. -/
theorem dirty_noteAccess {a : Access} {locate : UInt64 → Nat × Nat} {address : UInt64}
    (foretold : m.Foretell locate (.access address write) (.accessed (.ok a)))
    (key : Nat × Nat) :
    ((m.noteAccess (locate address) write (.ok a)).dirty key).toNat +
        (a.evicted.any fun line => line.dirty && (a.set, line.tag) == key).toNat =
      (m.dirty key).toNat + (locate address == key && (write && !m.dirty key)).toNat := by
  obtain ⟨placed, outcome⟩ := foretold
  rw [placed] at outcome ⊢
  cases hit : a.hit with
  | true =>
    simp only [hit, ↓reduceIte, Option.map_eq_some_iff] at outcome
    obtain ⟨⟨line, held, -⟩, unmoved⟩ := outcome
    simp only [noteAccess, hit, ↓reduceIte, unmoved, Option.any_none]
    by_cases same : locate address = key
    · subst same
      rw [modify, dirty_assign_same, dirty, held, beq_self_eq_true]
      cases dirty : line.dirty <;> cases write <;> simp [dirty]
    · rw [modify, dirty_assign_of_ne same, beq_eq_false_iff_ne.mpr same]
      rfl
  | false =>
    simp only [hit, Bool.false_eq_true, ↓reduceIte] at outcome
    obtain ⟨absent, leaves⟩ := outcome
    have dropped := leaves.dirty_drop key
    simp only [noteAccess, hit, Bool.false_eq_true, ↓reduceIte, placed]
    by_cases same : locate address = key
    · -- the line that was evicted is another, since this one was absent
      subst same
      have clean : m.dirty (locate address) = false := by rw [dirty, absent, Option.any_none]
      rw [clean, Bool.toNat_false, Nat.add_eq_zero_iff] at dropped
      rw [dirty_assign_same, dropped.2, clean, beq_self_eq_true, Option.any_some, Bool.not_false,
        Bool.and_true, Bool.true_and, Bool.toNat_false, Nat.zero_add, Nat.add_zero]
    · rw [dirty_assign_of_ne same, dropped, beq_eq_false_iff_ne.mpr same]
      rfl

end Lines

namespace CacheSet
variable {s : CacheSet} {tag way : Nat} {w : Way} {line : Line} {request : Request}
  {response : Response}

theorem dirtyLines_put (here : s.way? way = some w) (tag : Nat) (dirty pinned : Bool) :
    (s.put tag way dirty pinned).dirtyLines + (flushes w).toNat = s.dirtyLines + dirty.toNat :=
  countP_setWay here _

theorem dirtyLines_put_of_holds {old : Nat} (held : s.Holds old line) (tag : Nat)
    (dirty pinned : Bool) :
    (s.put tag line.way dirty pinned).dirtyLines + line.dirty.toNat =
      s.dirtyLines + dirty.toNat := dirtyLines_put held ..

theorem dirtyLines_clear (held : s.Holds tag line) :
    (s.clear line.way).dirtyLines + line.dirty.toNat = s.dirtyLines :=
  countP_setWay held .empty

/-- Whether a request makes the line of its tag dirty: it is a write that succeeds, and that
does not find the line dirty. -/
def soils (s : CacheSet) (tag : Nat) : Request → Reply → Bool
  | .access write, .placed (.ok _) => write && !(s.line? tag).any Line.dirty
  | _, _ => false

/-- The dirty lines of a set grow by the line that a request makes dirty, and shrink by the
line that it writes back. -/
theorem dirtyLines_of_effect (tidy : s.Tidy) (effect : s.Effect tag request response) :
    response.set.dirtyLines + response.count.writebacks =
      s.dirtyLines + (s.soils tag request response.reply).toNat := by
  cases effect with
  | @hit write line found held =>
    have changed := dirtyLines_put_of_holds held tag (line.dirty || write) line.pinned
    have grown : (line.dirty || write).toNat = line.dirty.toNat + (write && !line.dirty).toNat := by
      cases line.dirty <;> cases write <;> rfl
    simp only [soils, line?_of_holds tidy held, Option.any_some]
    show (s.put tag line.way (line.dirty || write) line.pinned).dirtyLines + 0 = _
    omega
  | @fill write way w absent free here vacant =>
    have blank : flushes w = false := by simp only [flushes, vacant, Bool.false_and]
    have changed := dirtyLines_put here tag write false
    rw [blank] at changed
    simp only [soils, line?_of_find? absent, Option.any_none, Bool.not_false, Bool.and_true]
    exact changed
  | @replace write old victim absent full chosen held released =>
    have changed := dirtyLines_put_of_holds held tag write false
    simp only [soils, line?_of_find? absent, Option.any_none, Bool.not_false, Bool.and_true]
    rw [← changed]
    cases victim.dirty <;> rfl
  | exhausted absent full none_open => rfl
  | @pinned pinned line found held =>
    exact Nat.add_right_cancel (dirtyLines_put_of_holds held ..)
  | unfound absent => rfl
  | removed line found held =>
    rw [← dirtyLines_clear held]
    cases line.dirty <;> rfl
  | missing absent => rfl

end CacheSet

namespace Cache
variable {c start : Cache} {config : Config} {op : Op} {ops : List Op} {key : Nat × Nat}

/-- The operations of a run, each with the cache in which it is carried out. -/
def stages (c : Cache) : List Op → List (Cache × Op)
  | [] => []
  | op :: ops => (c, op) :: stages (c.step op).2 ops

/-- The line that an operation makes dirty, by its set and its tag: that of a write which
succeeds and did not find its line dirty. -/
def soiled? (c : Cache) (op : Op) : Option (Nat × Nat) :=
  match op, (c.step op).1 with
  | .access address true, .accessed (.ok _) =>
    if c.lines.dirty (c.locate address) then none else some (c.locate address)
  | _, _ => none

/-- Whether an operation writes a line back: the line is dirty and gives way to another, is
removed, or is flushed. -/
def writesBack (c : Cache) (key : Nat × Nat) (op : Op) : Bool :=
  match op, (c.step op).1 with
  | .access _ _, .accessed (.ok a) =>
    a.evicted.any fun line => line.dirty && (a.set, line.tag) == key
  | .invalidate address, .removed line =>
    line.any fun line => line.dirty && c.locate address == key
  | .flush, _ => c.lines.dirty key
  | _, _ => false

theorem dirtyLines_update {address : UInt64} {response : Response} {soiled : Nat}
    (changed : response.set.dirtyLines + response.count.writebacks =
      (c.setOf address).dirtyLines + soiled) :
    (c.update address response.set response.count).dirtyLines + response.count.writebacks =
      c.dirtyLines + soiled := by
  have others := c.total_update address response.set response.count CacheSet.dirtyLines
  simp only [dirtyLines]
  omega

/-- A flush writes all dirty lines back. -/
theorem dirtyLines_flush (c : Cache) : c.flush.2.dirtyLines + c.flush.1 = c.dirtyLines := by
  rw [dirtyLines, total_flush, flush_fst, ← total_add]
  simp only [CacheSet.dirtyLines_flush, Nat.zero_add]
  rfl

theorem dirty_lines_locate (c : Cache) (address : UInt64) :
    c.lines.dirty (c.locate address) =
      ((c.setOf address).line? (c.locate address).2).any Line.dirty := by
  rw [Lines.dirty, lines_locate]

/-- An operation on an address makes a line dirty if its request does. -/
theorem isSome_soiled? {address : UInt64} {request : Request} {response : Response}
    (asked : op.request? = some (address, request))
    (answered : (c.step op).1 = response.reply.answer (c.locate address).1) :
    (c.soiled? op).isSome =
      (c.setOf address).soils (c.locate address).2 request response.reply := by
  obtain ⟨reply, set, count⟩ := response
  simp only [soiled?, answered]
  cases op with
  | access target write =>
    cases asked
    cases reply with
    | placed result =>
      cases result with
      | error cause => cases write <;> rfl
      | ok p =>
        cases write with
        | false => rfl
        | true =>
          simp only [Reply.answer, Except.map, CacheSet.soils, ← dirty_lines_locate]
          cases c.lines.dirty (c.locate address) <;> rfl
    | found held | removed line => cases write <;> rfl
  | pin target | unpin target | invalidate target =>
    cases asked
    rfl
  | flush | resetStats => cases asked

/-- The dirty lines of a cache grow by the line that an operation makes dirty, and shrink by
those that it writes back. -/
theorem dirtyLines_step (sound : c.Sound) (op : Op) :
    (c.step op).2.dirtyLines + (c.step op).1.count.writebacks =
      c.dirtyLines + (c.soiled? op).isSome.toNat := by
  rcases op.request?_or with ⟨address, request, asked⟩ | rfl | rfl
  · obtain ⟨response, effect, stepped⟩ := sound.effect_step asked
    rw [isSome_soiled? asked (congrArg Prod.fst stepped), stepped, count_of_effect effect]
    exact dirtyLines_update
      (CacheSet.dirtyLines_of_effect (Everywhere.setOf sound address).tidy effect)
  · exact c.dirtyLines_flush
  · rfl

theorem dirtyLines_run (sound : c.Sound) (ops : List Op) :
    (c.run ops).2.dirtyLines + ((c.run ops).1.map Answer.count).sum.writebacks =
      c.dirtyLines + (c.stages ops).countP fun stage => (stage.1.soiled? stage.2).isSome := by
  induction ops generalizing c with
  | nil => rfl
  | cons op ops ih =>
    have first := dirtyLines_step sound op
    have rest := ih (sound.step op)
    simp only [run, stages, List.map_cons, List.sum_cons, Stats.writebacks_add, List.countP_cons,
      toNat_eq_ite] at first ⊢
    omega

/-- Which line an access makes dirty that found or put its line. -/
theorem soiled?_access {a : Access} {address : UInt64} {write : Bool}
    (answered : (c.access address write).1 = .ok a) (key : Nat × Nat) :
    (c.soiled? (.access address write) == some key) =
      (c.locate address == key && (write && !c.lines.dirty key)) := by
  simp only [soiled?, step, answered]
  cases write with
  | false => simp
  | true =>
    by_cases same : c.locate address = key
    · subst same
      cases dirty : c.lines.dirty (c.locate address) <;> simp [dirty]
    · cases dirty : c.lines.dirty (c.locate address) <;> simp [dirty, same]

/-- Whether one line is dirty changes when an operation makes it dirty or writes it back. -/
theorem dirty_step (sound : c.Sound) (op : Op) (key : Nat × Nat) :
    ((c.step op).2.lines.dirty key).toNat + (c.writesBack key op).toNat =
      (c.lines.dirty key).toNat + (c.soiled? op == some key).toNat := by
  have noted := lines_step sound op
  have foretold := foretell_step sound op
  rw [noted]
  cases op with
  | access address write =>
    cases answered : (c.access address write).1 with
    | ok a =>
      rw [soiled?_access answered]
      simp only [step, answered, writesBack] at foretold ⊢
      exact Lines.dirty_noteAccess foretold key
    | error cause =>
      simp only [step, answered, writesBack, soiled?]
      cases write <;> rfl
  | pin address | unpin address =>
    rw [Lines.note, Lines.dirty_modify_pinned]
    rfl
  | invalidate address =>
    rw [Lines.note]
    have removed := removed_invalidate sound address
    simp only [writesBack, removed, Option.any_map]
    by_cases same : c.locate address = key
    · subst same
      rw [Lines.dirty_assign_same]
      simp [Lines.dirty, soiled?]
    · have apart := beq_eq_false_iff_ne.mpr same
      rw [Lines.dirty_assign_of_ne same]
      simp [apart, soiled?]
  | flush =>
    have clean : (c.lines.note c.locate .flush (c.step .flush).1).dirty key = false := by
      simp only [Lines.note, Lines.dirty]
      cases c.lines key.1 key.2 with
      | none => rfl
      | some line => cases dirty : line.dirty <;> simp [Option.filter, dirty]
    rw [clean]
    simp [writesBack, soiled?]
  | resetStats => rfl

theorem dirty_run (sound : c.Sound) (ops : List Op) (key : Nat × Nat) :
    ((c.run ops).2.lines.dirty key).toNat +
        (c.stages ops).countP (fun stage => stage.1.writesBack key stage.2) =
      (c.lines.dirty key).toNat +
        (c.stages ops).countP (fun stage => stage.1.soiled? stage.2 == some key) := by
  induction ops generalizing c with
  | nil => rfl
  | cons op ops ih =>
    have first := dirty_step sound op key
    have rest := ih (sound.step op)
    simp only [run, stages, List.countP_cons, toNat_eq_ite] at first rest ⊢
    omega

/-- From an empty cache on, or from when the counters were last reset, the lines written back
and the lines that are dirty now are together those that were dirty then and those that
became dirty since, which a write does that succeeds and did not find its line dirty. So it is
for each line: it was written back as often as it became dirty, save once if it is dirty
now, and once more if it was dirty in the beginning. -/
theorem writebacks_are_conserved (built : ofConfig config = .ok start)
    (uncounted : start.Uncounted c) (counted : .resetStats ∉ ops) :
    (c.run ops).2.stats.writebacks + (c.run ops).2.dirtyLines =
      c.dirtyLines + (c.stages ops).countP (fun stage => (stage.1.soiled? stage.2).isSome) ∧
    ∀ key,
      (c.stages ops).countP (fun stage => stage.1.writesBack key stage.2) +
          ((c.run ops).2.lines.dirty key).toNat =
        (c.lines.dirty key).toNat +
          (c.stages ops).countP (fun stage => stage.1.soiled? stage.2 == some key) := by
  have sound := uncounted.sound built
  constructor
  · rw [stats_run sound counted, uncounted.stats built, zero_add, Nat.add_comm]
    exact dirtyLines_run sound ops
  · intro key
    rw [Nat.add_comm]
    exact dirty_run sound ops key

/-- A line that was dirty when the counters were reset is written back when it gives way. The
line that took its way is written twice, but becomes dirty once, and is written back once,
when it is removed. -/
theorem pair_writes_back_once :
    ∃ start, ofConfig Config.pair = .ok start ∧
      let c := (start.run [.access 0 true, .access 64 false]).2.resetStats
      let ops : List Op := [.access 128 true, .access 128 true, .invalidate 128]
      2 + (c.run ops).2.dirtyLines = 1 + 1 ∧
      (c.stages ops).countP (fun stage => stage.1.writesBack (0, 2) stage.2) + 0 = 0 + 1 := by
  have conserved := writebacks_are_conserved (rfl : ofConfig Config.pair = .ok _)
    (.reset [.access 0 true, .access 64 false])
    (by decide : .resetStats ∉ ([.access 128 true, .access 128 true, .invalidate 128] : List Op))
  exact ⟨_, rfl, conserved.1, conserved.2 (0, 2)⟩

end Cache

end SetAssociative
