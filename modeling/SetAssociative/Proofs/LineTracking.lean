import SetAssociative.Proofs.CacheRepresentation

/-! A record of lines that is kept from the answers of a cache alone, without a look inside
it, always agrees with what the cache holds: every line is in the way where its fill was
reported, as dirty and as pinned as the record says, and nothing else is held. Each answer
can be foretold from the record as far as it speaks of lines. -/
namespace SetAssociative

/-- Lines by the index of their set and by their tag. -/
abbrev Lines := Nat → Nat → Option Line

namespace Lines

/-- No line at all. -/
def empty : Lines := fun _ _ => none

/-- The lines with that of one tag in one set exchanged. -/
def assign (m : Lines) (index tag : Nat) (line : Option Line) : Lines :=
  fun i t => if i = index ∧ t = tag then line else m i t

/-- The lines with that of one tag in one set changed, if there is one. -/
def modify (m : Lines) (index tag : Nat) (update : Line → Line) : Lines :=
  m.assign index tag ((m index tag).map update)

/-- The lines without the one that an access reported to have left. -/
def drop (m : Lines) (index : Nat) : Option Evicted → Lines
  | some evicted => m.assign index evicted.tag none
  | none => m

/-- The lines after an access, as its result tells. A hit that writes leaves its line
dirty; a miss puts a line where it was filled, after the evicted line went; a failed access
changes nothing. -/
def noteAccess (m : Lines) (place : Nat × Nat) (write : Bool) : Except CacheError Access → Lines
  | .error _ => m
  | .ok a =>
    if a.hit then
      m.modify place.1 place.2 fun line => { line with dirty := line.dirty || write }
    else
      (m.drop a.set a.evicted).assign place.1 place.2
        (some { way := a.way, dirty := write, pinned := false })

/-- The lines after an operation, as its answer tells. -/
def note (m : Lines) (locate : UInt64 → Nat × Nat) (op : Cache.Op) (answer : Cache.Answer) :
    Lines :=
  match op with
  | .access address write =>
    match answer with
    | .accessed result => m.noteAccess (locate address) write result
    | _ => m
  | .pin address =>
    m.modify (locate address).1 (locate address).2 ({ · with pinned := true })
  | .unpin address =>
    m.modify (locate address).1 (locate address).2 ({ · with pinned := false })
  | .invalidate address => m.assign (locate address).1 (locate address).2 none
  | .flush => fun index tag => (m index tag).filter fun line => !line.dirty
  | .resetStats => m

theorem assign_self {m : Lines} {index tag : Nat} {line : Option Line} (same : m index tag = line) :
    m.assign index tag line = m := by
  funext i t
  unfold assign
  split
  · rename_i here
    rw [here.1, here.2, same]
  · rfl

theorem modify_of_some {m : Lines} {index tag : Nat} {line : Line}
    (there : m index tag = some line) (update : Line → Line) :
    m.modify index tag update = m.assign index tag (some (update line)) := by
  rw [modify, there]
  rfl

theorem modify_of_none {m : Lines} {index tag : Nat} (absent : m index tag = none)
    (update : Line → Line) : m.modify index tag update = m := by
  rw [modify, absent]
  exact assign_self absent

/-- The lines after a run, as its answers tell. -/
def track (m : Lines) (locate : UInt64 → Nat × Nat) :
    List Cache.Op → List Cache.Answer → Lines
  | op :: ops, answer :: answers => (m.note locate op answer).track locate ops answers
  | _, _ => m

/-- What an access to an absent line may report to have left: nothing, if the way was
vacant, or else the line that was held there, which was not pinned. -/
def Leaves (m : Lines) (index way : Nat) : Option Evicted → Prop
  | none => ∀ tag line, m index tag = some line → line.way ≠ way
  | some evicted => evicted.way = way ∧
    m index evicted.tag = some { way, dirty := evicted.dirty, pinned := false }

/-- The answers that the lines before an operation allow. -/
def Foretell (m : Lines) (locate : UInt64 → Nat × Nat) : Cache.Op → Cache.Answer → Prop
  | .access address _, .accessed (.ok a) =>
    a.set = (locate address).1 ∧
      if a.hit then
        (m (locate address).1 (locate address).2).map Line.way = some a.way ∧ a.evicted = none
      else m (locate address).1 (locate address).2 = none ∧ m.Leaves a.set a.way a.evicted
  | .access address _, .accessed (.error _) => m (locate address).1 (locate address).2 = none
  | .pin address, .found held => held = (m (locate address).1 (locate address).2).isSome
  | .unpin address, .found held => held = (m (locate address).1 (locate address).2).isSome
  | .invalidate address, .removed left =>
    left = (m (locate address).1 (locate address).2).map fun line =>
      { way := line.way, tag := (locate address).2, dirty := line.dirty }
  | .flush, .flushed _ => True
  | .resetStats, .done => True
  | _, _ => False

end Lines

namespace CacheSet
variable {s : CacheSet} {tag other way : Nat} {dirty pinned : Bool} {line : Line}

/-- The line of a tag, found as an access finds it. -/
def line? (s : CacheSet) (tag : Nat) : Option Line :=
  (s.find? tag).bind fun way => (s.way? way).map fun w =>
    { way, dirty := w.dirty, pinned := w.pinned }

theorem line?_eq_some_iff (tidy : s.Tidy) : s.line? tag = some line ↔ s.Holds tag line := by
  unfold line?
  constructor
  · intro found
    obtain ⟨way, there, rest⟩ := Option.bind_eq_some_iff.mp found
    obtain ⟨w, here, rfl⟩ := Option.map_eq_some_iff.mp rest
    obtain ⟨kept, rfl, held⟩ := holds_of_find? there
    rw [held] at here
    cases here
    exact held
  · intro held
    rw [tidy.find?_of_holds held, Option.bind_some, held]
    rfl

theorem line?_of_holds (tidy : s.Tidy) (held : s.Holds tag line) : s.line? tag = some line :=
  (line?_eq_some_iff tidy).mpr held

theorem line?_of_find? (absent : s.find? tag = none) : s.line? tag = none := by
  rw [line?, absent]
  rfl

/-- Putting a line into a way brings in that line, and leaves a tag alone whose line is
in another way. -/
theorem line?_put (tidy : s.Tidy) (inside : way < s.ways)
    (alone : ∀ kept, s.Holds tag kept → kept.way = way)
    (elsewhere : other ≠ tag → ∀ kept, s.Holds other kept → kept.way ≠ way) :
    (s.put tag way dirty pinned).line? other =
      if other = tag then some { way, dirty, pinned } else s.line? other := by
  have after : (s.put tag way dirty pinned).Tidy := tidy.put inside alone
  by_cases same : other = tag
  · rw [if_pos same]
    exact line?_of_holds after ((holds_put inside).mpr (.inl ⟨same, rfl⟩))
  · rw [if_neg same]
    apply Option.ext
    intro kept
    rw [line?_eq_some_iff after, line?_eq_some_iff tidy, holds_put inside]
    constructor
    · rintro (⟨shared, -⟩ | ⟨-, held⟩)
      · exact absurd shared same
      · exact held
    · intro held
      exact .inr ⟨elsewhere same kept held, held⟩

/-- Other tags keep their lines when a held line is put again into its way. -/
theorem line?_put_of_holds (tidy : s.Tidy) (held : s.Holds tag line) :
    (s.put tag line.way dirty pinned).line? other =
      if other = tag then some { way := line.way, dirty, pinned } else s.line? other := by
  refine line?_put tidy held.inside (tidy.alone_of_holds held) ?_
  intro apart kept also shared
  exact apart (also.eq_of_way held shared).1

/-- All lines stay when a line is put into a vacant way. -/
theorem line?_put_of_vacant (tidy : s.Tidy) {w : Way} (here : s.way? way = some w)
    (vacant : w.valid = false) (absent : s.find? tag = none) :
    (s.put tag way dirty pinned).line? other =
      if other = tag then some { way, dirty, pinned } else s.line? other := by
  refine line?_put tidy (lt_ways_of_way? here) (alone_of_find? absent) ?_
  intro _ kept also
  exact also.way_ne here vacant

/-- The line that held the way goes when another is put there. -/
theorem line?_put_of_victim (tidy : s.Tidy) {old : Nat} {victim : Line}
    (held : s.Holds old victim) (absent : s.find? tag = none) :
    (s.put tag victim.way dirty pinned).line? other =
      if other = tag then some { way := victim.way, dirty, pinned }
      else if other = old then none else s.line? other := by
  have alone : ∀ kept, s.Holds tag kept → kept.way = victim.way := alone_of_find? absent
  by_cases gone : other = old
  · subst gone
    have apart : other ≠ tag := by
      rintro rfl
      exact find?_eq_none_iff.mp absent victim held
    rw [if_neg apart, if_pos rfl, Option.eq_none_iff_forall_ne_some]
    intro kept there
    rcases (holds_put held.inside).mp ((line?_eq_some_iff (tidy.put held.inside alone)).mp there)
      with ⟨same, -⟩ | ⟨elsewhere, also⟩
    · exact apart same
    · exact elsewhere (congrArg Line.way (tidy.unique also held))
  · rw [if_neg gone]
    refine line?_put tidy held.inside alone ?_
    intro _ kept also shared
    exact gone (also.eq_of_way held shared).1

theorem line?_clear (tidy : s.Tidy) (held : s.Holds tag line) :
    (s.clear line.way).line? other = if other = tag then none else s.line? other := by
  apply Option.ext
  intro kept
  rw [line?_eq_some_iff (tidy.clear held.inside), holds_clear held.inside]
  by_cases same : other = tag
  · subst same
    simp only [↓reduceIte, reduceCtorEq, iff_false, not_and]
    intro elsewhere also
    exact elsewhere (congrArg Line.way (tidy.unique also held))
  · rw [if_neg same, line?_eq_some_iff tidy]
    constructor
    · exact And.right
    · intro also
      exact ⟨fun shared => same (Holds.eq_of_way also held shared).1, also⟩

theorem line?_flush (tidy : s.Tidy) :
    s.flush.2.line? tag = (s.line? tag).filter fun line => !line.dirty := by
  apply Option.ext
  intro kept
  rw [line?_eq_some_iff tidy.flush, holds_flush, Option.filter_eq_some_iff,
    line?_eq_some_iff tidy, Bool.not_eq_true']

end CacheSet

namespace Cache
variable {c start : Cache} {config : Config} {address : UInt64} {s : CacheSet} {count : Stats}

/-- The lines that a cache holds. -/
def lines (c : Cache) : Lines := fun index tag => c.sets[index]?.bind fun s => s.line? tag

theorem lines_locate (c : Cache) (address : UInt64) (tag : Nat) :
    c.lines (c.locate address).1 tag = (c.setOf address).line? tag := by
  rw [lines, getElem?_setOf, Option.bind_some]

theorem lines_locate_eq_some_iff (sound : c.Sound) {tag : Nat} {line : Line} :
    c.lines (c.locate address).1 tag = some line ↔ (c.setOf address).Holds tag line := by
  rw [lines_locate]
  exact CacheSet.line?_eq_some_iff (Everywhere.setOf sound address).tidy

theorem lines_of_holds (sound : c.Sound) {tag : Nat} {line : Line}
    (held : (c.setOf address).Holds tag line) : c.lines (c.locate address).1 tag = some line :=
  (lines_locate_eq_some_iff sound).mpr held

theorem lines_of_find? {tag : Nat} (absent : (c.setOf address).find? tag = none) :
    c.lines (c.locate address).1 tag = none :=
  (c.lines_locate address tag).trans (CacheSet.line?_of_find? absent)

/-- A set that replaces another changes the lines of its own index only. -/
theorem lines_update (index tag : Nat) :
    (c.update address s count).lines index tag =
      if index = (c.locate address).1 then s.line? tag else c.lines index tag := by
  unfold lines
  rw [getElem?_sets_update]
  split
  · exact Option.bind_some ..
  · rfl

theorem lines_update_eq_assign {m : Lines} {tag : Nat} {line : Option Line}
    (others : ∀ index ≠ (c.locate address).1, m index = c.lines index)
    (changed : ∀ other, s.line? other =
      if other = tag then line else m (c.locate address).1 other) :
    (c.update address s count).lines = m.assign (c.locate address).1 tag line := by
  funext index other
  rw [lines_update]
  by_cases here : index = (c.locate address).1
  · subst here
    simp only [↓reduceIte, changed, Lines.assign, true_and]
  · simp only [here, ↓reduceIte, Lines.assign, false_and, others index here]

theorem lines_update_eq_self (same : ∀ tag, s.line? tag = (c.setOf address).line? tag) :
    (c.update address s count).lines = c.lines := by
  funext index tag
  rw [lines_update]
  split
  · rename_i here
    rw [here, lines_locate, same]
  · rfl

theorem lines_flush (sound : c.Sound) (index tag : Nat) :
    c.flush.2.lines index tag = (c.lines index tag).filter fun line => !line.dirty := by
  unfold lines
  rw [getElem?_sets_flush]
  cases there : c.sets[index]? with
  | none => rfl
  | some s => exact CacheSet.line?_flush (sound index s there).tidy

/-- The lines after an access are those that its answer tells. -/
theorem lines_access (sound : c.Sound) (address : UInt64) (write : Bool) :
    (c.step (.access address write)).2.lines =
      c.lines.note c.locate (.access address write) (c.step (.access address write)).1 := by
  have tidy := (Everywhere.setOf sound address).tidy
  have asked : Op.request? (.access address write) = some (address, .access write) := rfl
  obtain ⟨response, effect, stepped⟩ := sound.effect_step asked
  rw [stepped]
  cases effect with
  | hit line found held =>
    have there := lines_of_holds sound held
    simp only [Reply.answer, Except.map, Lines.note, Lines.noteAccess, ↓reduceIte,
      Lines.modify_of_some there]
    apply lines_update_eq_assign (fun _ _ => rfl)
    intro other
    rw [lines_locate]
    exact CacheSet.line?_put_of_holds tidy held
  | fill way w absent free here vacant =>
    apply lines_update_eq_assign (fun _ _ => rfl)
    intro other
    rw [lines_locate]
    exact CacheSet.line?_put_of_vacant tidy here vacant absent
  | replace old victim absent full chosen held released =>
    apply lines_update_eq_assign
    · intro index apart
      funext tag
      simp only [Lines.drop, Lines.assign, apart, false_and, ↓reduceIte]
    · intro other
      simp only [Lines.drop, Lines.assign, true_and, lines_locate]
      exact CacheSet.line?_put_of_victim tidy held absent
  | exhausted absent full none_open => exact lines_update_eq_self fun tag => rfl

/-- The lines after pinning or unpinning are as before but for the one named. -/
theorem lines_setPinned (sound : c.Sound) {op : Op} {pinned : Bool}
    (asked : op.request? = some (address, .setPinned pinned)) :
    (c.step op).2.lines =
      c.lines.modify (c.locate address).1 (c.locate address).2 ({ · with pinned }) := by
  have tidy := (Everywhere.setOf sound address).tidy
  obtain ⟨response, effect, stepped⟩ := sound.effect_step asked
  rw [stepped]
  cases effect with
  | pinned line found held =>
    have there := lines_of_holds sound held
    rw [Lines.modify_of_some there]
    apply lines_update_eq_assign (fun _ _ => rfl)
    intro other
    rw [lines_locate]
    exact CacheSet.line?_put_of_holds tidy held
  | unfound absent =>
    have missing := lines_of_find? absent
    rw [Lines.modify_of_none missing]
    exact lines_update_eq_self fun tag => rfl

theorem lines_invalidate (sound : c.Sound) (address : UInt64) :
    (c.step (.invalidate address)).2.lines =
      c.lines.assign (c.locate address).1 (c.locate address).2 none := by
  have tidy := (Everywhere.setOf sound address).tidy
  have asked : Op.request? (.invalidate address) = some (address, .invalidate) := rfl
  obtain ⟨response, effect, stepped⟩ := sound.effect_step asked
  rw [stepped]
  cases effect with
  | removed line found held =>
    apply lines_update_eq_assign (fun _ _ => rfl)
    intro other
    rw [lines_locate]
    exact CacheSet.line?_clear tidy held
  | missing absent =>
    have missing := lines_of_find? absent
    rw [Lines.assign_self missing]
    exact lines_update_eq_self fun tag => rfl

/-- The lines after a step are those before it, changed as the answer tells. -/
theorem lines_step (sound : c.Sound) (op : Op) :
    (c.step op).2.lines = c.lines.note c.locate op (c.step op).1 := by
  cases op with
  | access address write => exact lines_access sound address write
  | pin address => exact lines_setPinned sound rfl
  | unpin address => exact lines_setPinned sound rfl
  | invalidate address => exact lines_invalidate sound address
  | flush =>
    funext index tag
    exact lines_flush sound index tag
  | resetStats => rfl

theorem lines_run (sound : c.Sound) (ops : List Op) :
    (c.run ops).2.lines = c.lines.track c.locate ops (c.run ops).1 := by
  induction ops generalizing c with
  | nil => rfl
  | cons op ops ih =>
    have same : (c.step op).2.locate = c.locate := funext fun address => c.locate_step op address
    rw [run, ih (sound.step op), lines_step sound op, same]
    rfl

/-- The lines before an access foretell what it answers. -/
theorem foretell_access (sound : c.Sound) (address : UInt64) (write : Bool) :
    c.lines.Foretell c.locate (.access address write) (c.step (.access address write)).1 := by
  have asked : Op.request? (.access address write) = some (address, .access write) := rfl
  obtain ⟨response, effect, stepped⟩ := sound.effect_step asked
  rw [stepped]
  cases effect with
  | hit line found held =>
    refine ⟨rfl, ?_⟩
    simp only [↓reduceIte, lines_of_holds sound held, Option.map_some, and_self]
  | fill way w absent free here vacant =>
    refine ⟨rfl, ?_⟩
    simp only [Bool.false_eq_true, ↓reduceIte, lines_of_find? absent, true_and]
    intro tag line there
    rw [lines_locate_eq_some_iff sound] at there
    exact there.way_ne here vacant
  | replace old victim absent full chosen held released =>
    refine ⟨rfl, ?_⟩
    simp only [Bool.false_eq_true, ↓reduceIte, lines_of_find? absent, true_and]
    refine ⟨rfl, ?_⟩
    rw [lines_of_holds sound held, ← released]
  | exhausted absent full none_open => exact lines_of_find? absent

theorem found_setPinned (sound : c.Sound) {op : Op} {pinned : Bool}
    (asked : op.request? = some (address, .setPinned pinned)) :
    (c.step op).1 = .found (c.lines (c.locate address).1 (c.locate address).2).isSome := by
  obtain ⟨response, effect, stepped⟩ := sound.effect_step asked
  rw [stepped]
  cases effect with
  | pinned line found held =>
    rw [lines_of_holds sound held]
    rfl
  | unfound absent =>
    rw [lines_of_find? absent]
    rfl

theorem removed_invalidate (sound : c.Sound) (address : UInt64) :
    (c.step (.invalidate address)).1 =
      .removed ((c.lines (c.locate address).1 (c.locate address).2).map fun line =>
        { way := line.way, tag := (c.locate address).2, dirty := line.dirty }) := by
  have asked : Op.request? (.invalidate address) = some (address, .invalidate) := rfl
  obtain ⟨response, effect, stepped⟩ := sound.effect_step asked
  rw [stepped]
  cases effect with
  | removed line found held =>
    rw [lines_of_holds sound held]
    rfl
  | missing absent =>
    rw [lines_of_find? absent]
    rfl

/-- The lines before an operation foretell what it answers. -/
theorem foretell_step (sound : c.Sound) (op : Op) :
    c.lines.Foretell c.locate op (c.step op).1 := by
  cases op with
  | access address write => exact foretell_access sound address write
  | pin address =>
    have asked : Op.request? (.pin address) = some (address, .setPinned true) := rfl
    rw [found_setPinned sound asked]
    rfl
  | unpin address =>
    have asked : Op.request? (.unpin address) = some (address, .setPinned false) := rfl
    rw [found_setPinned sound asked]
    rfl
  | invalidate address =>
    rw [removed_invalidate sound address]
    rfl
  | flush | resetStats => trivial

theorem lines_ofConfig (built : ofConfig config = .ok start) : start.lines = .empty := by
  obtain ⟨g, -, -, fresh⟩ := of_ofConfig built
  funext index tag
  unfold lines
  cases there : start.sets[index]? with
  | none => rfl
  | some s =>
    rw [Option.bind_some, fresh index s there]
    refine CacheSet.line?_of_find? (CacheSet.find?_eq_none_iff.mpr fun line held => ?_)
    have blank := List.eq_of_mem_replicate (List.mem_of_getElem? held)
    cases blank

theorem lines_eq_some_iff (sound : c.Sound) {index tag : Nat} {line : Line} :
    c.lines index tag = some line ↔ ∃ s, c.sets[index]? = some s ∧ s.Holds tag line := by
  unfold lines
  rw [Option.bind_eq_some_iff]
  refine exists_congr fun s => and_congr_right fun there => ?_
  exact CacheSet.line?_eq_some_iff (sound index s there).tidy

theorem contains_eq_isSome_lines (sound : c.Sound) (address : UInt64) :
    c.contains address = (c.lines (c.locate address).1 (c.locate address).2).isSome := by
  unfold contains find?
  cases found : (c.setOf address).find? (c.locate address).2 with
  | none =>
    rw [lines_of_find? found]
    rfl
  | some way =>
    obtain ⟨line, -, held⟩ := CacheSet.holds_of_find? found
    rw [lines_of_holds sound held]
    rfl

/-- The record of the answers of any run says exactly which lines the cache holds then,
in which ways, which of them are dirty and which are pinned. From it the answer to the
next operation is foretold: a hit names the way of the line, an access or a removal
reports a line to have left as the record has it. -/
theorem records_of_answers_are_exact (built : ofConfig config = .ok start) (ops : List Op) :
    let c := (start.run ops).2
    let m := Lines.empty.track start.locate ops (start.run ops).1
    (∀ index tag line, m index tag = some line ↔ ∃ s, c.sets[index]? = some s ∧
      s.way? line.way =
        some { tag, valid := true, dirty := line.dirty, pinned := line.pinned }) ∧
    (∀ address,
      c.contains address = (m (start.locate address).1 (start.locate address).2).isSome) ∧
    ∀ op, m.Foretell start.locate op (c.step op).1 := by
  intro c m
  have sound : c.Sound := (sound_of_ofConfig built).run ops
  have same : c.locate = start.locate := funext fun address => start.locate_run ops address
  have recorded : c.lines = m :=
    calc
      c.lines = start.lines.track start.locate ops (start.run ops).1 :=
        lines_run (sound_of_ofConfig built) ops
      _ = m := by rw [lines_ofConfig built]
  rw [← recorded, ← same]
  exact ⟨fun _ _ _ => lines_eq_some_iff sound, contains_eq_isSome_lines sound, foretell_step sound⟩

/-- A line that took the way of another is where its fill was reported. -/
theorem record_of_replacement_is_exact :
    ∃ start, ofConfig Config.pair = .ok start ∧
      ∃ s, (start.run [.access 0 true, .access 64 false, .access 128 true, .pin 128]).2.sets[0]? =
          some s ∧
        s.way? 0 = some { tag := 2, valid := true, dirty := true, pinned := true } := by
  have exactly := records_of_answers_are_exact (rfl : ofConfig Config.pair = .ok _)
    [.access 0 true, .access 64 false, .access 128 true, .pin 128]
  exact ⟨_, rfl, (exactly.1 0 2 { way := 0, dirty := true, pinned := true }).mp rfl⟩

end Cache

end SetAssociative
