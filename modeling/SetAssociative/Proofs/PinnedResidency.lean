import SetAssociative.Proofs.LineTracking

/-! A pinned line stays in its way. Only to unpin or to invalidate that line, or to flush
while it is dirty, can end this, whatever is done to other lines. The argument is about
the record of the answers: the line that gives way to another was never pinned. -/
namespace SetAssociative

namespace Lines
variable {m : Lines} {index tag i t way : Nat} {line : Option Line}

theorem assign_of_ne (apart : (index, tag) ≠ (i, t)) :
    m.assign index tag line i t = m i t := by
  refine if_neg ?_
  rintro ⟨rfl, rfl⟩
  exact apart rfl

theorem modify_of_ne (apart : (index, tag) ≠ (i, t)) (update : Line → Line) :
    m.modify index tag update i t = m i t :=
  assign_of_ne apart

theorem modify_same (m : Lines) (index tag : Nat) (update : Line → Line) :
    m.modify index tag update index tag = (m index tag).map update :=
  if_pos ⟨rfl, rfl⟩

/-- The record has a pinned line in a way. -/
def Pins (m : Lines) (key : Nat × Nat) (way : Nat) : Prop :=
  ∃ dirty, m key.1 key.2 = some { way, dirty, pinned := true }

/-- An operation that is not meant to release or to remove the line of a set and a tag. -/
def Spares (m : Lines) (locate : UInt64 → Nat × Nat) (key : Nat × Nat) : Cache.Op → Prop
  | .unpin address => locate address ≠ key
  | .invalidate address => locate address ≠ key
  | .flush => ∀ line, m key.1 key.2 = some line → line.dirty = false
  | _ => True

variable {key : Nat × Nat}

/-- A pinned line never is the one that an access reports to have left. -/
theorem Leaves.ne_of_pins {evicted : Evicted} (leaves : m.Leaves index i (some evicted))
    (pins : m.Pins key way) : (index, evicted.tag) ≠ key := by
  rintro rfl
  obtain ⟨dirty, held⟩ := pins
  have released := leaves.2
  rw [held] at released
  cases released

theorem Leaves.drop_of_pins {evicted : Option Evicted} (leaves : m.Leaves index i evicted)
    (pins : m.Pins key way) : m.drop index evicted key.1 key.2 = m key.1 key.2 := by
  cases evicted with
  | none => rfl
  | some evicted => exact assign_of_ne (leaves.ne_of_pins pins)

/-- What may happen to a line at its own place keeps it pinned if it leaves the way and
the pin alone. -/
theorem Pins.modify (pins : m.Pins key way) (place : Nat × Nat) {update : Line → Line}
    (kept : ∀ dirty, ∃ after, update { way, dirty, pinned := true } =
      { way, dirty := after, pinned := true }) :
    (m.modify place.1 place.2 update).Pins key way := by
  obtain ⟨dirty, held⟩ := pins
  by_cases same : place = key
  · subst same
    obtain ⟨after, changed⟩ := kept dirty
    refine ⟨after, ?_⟩
    rw [modify_same, held, Option.map_some, changed]
  · exact ⟨dirty, (modify_of_ne same update).trans held⟩

/-- A pinned line stays pinned in its way through every operation that spares it. -/
theorem Pins.note {locate : UInt64 → Nat × Nat} {op : Cache.Op} {answer : Cache.Answer}
    (pins : m.Pins key way) (foretold : m.Foretell locate op answer)
    (spared : m.Spares locate key op) : (m.note locate op answer).Pins key way := by
  cases op with
  | access address write =>
    cases answer with
    | accessed result =>
      cases result with
      | error cause => exact pins
      | ok a =>
        by_cases hit : a.hit = true
        · simp only [Lines.note, noteAccess, hit, ↓reduceIte]
          exact pins.modify (locate address) fun dirty => ⟨dirty || write, rfl⟩
        · simp only [Lines.note, noteAccess, hit, Bool.false_eq_true, ↓reduceIte]
          simp only [Foretell, hit, Bool.false_eq_true, ↓reduceIte] at foretold
          obtain ⟨-, absent, leaves⟩ := foretold
          obtain ⟨dirty, held⟩ := pins
          have apart : locate address ≠ key := by
            rintro rfl
            rw [absent] at held
            cases held
          refine ⟨dirty, (assign_of_ne apart).trans ?_⟩
          exact (leaves.drop_of_pins ⟨dirty, held⟩).trans held
    | found | removed | flushed | done => exact foretold.elim
  | pin address => exact pins.modify (locate address) fun dirty => ⟨dirty, rfl⟩
  | unpin address =>
    obtain ⟨dirty, held⟩ := pins
    exact ⟨dirty, (modify_of_ne spared _).trans held⟩
  | invalidate address =>
    obtain ⟨dirty, held⟩ := pins
    exact ⟨dirty, (assign_of_ne spared).trans held⟩
  | flush =>
    obtain ⟨dirty, held⟩ := pins
    have clean : dirty = false := spared _ held
    refine ⟨dirty, ?_⟩
    simp only [Lines.note, held, clean, Option.filter_some, Bool.not_false, ↓reduceIte]
  | resetStats => exact pins

end Lines

namespace Cache
variable {c start : Cache} {config : Config} {address other : UInt64} {op : Op} {way : Nat}

/-- Two addresses lie in the same line. -/
def SameLine (c : Cache) (one other : UInt64) : Prop :=
  one.toNat / c.lineBytes = other.toNat / c.lineBytes

instance (c : Cache) (one other : UInt64) : Decidable (c.SameLine one other) :=
  inferInstanceAs (Decidable (_ = _))

/-- Addresses share a set and a tag exactly when they lie in the same line. -/
theorem locate_eq_iff {one other : UInt64} :
    c.locate one = c.locate other ↔ c.SameLine one other := by
  constructor
  · intro same
    have remainder := congrArg Prod.fst same
    have quotient := congrArg Prod.snd same
    simp only [locate] at remainder quotient
    unfold SameLine
    rw [← Nat.div_add_mod (one.toNat / c.lineBytes) c.sets.size, quotient, remainder,
      Nat.div_add_mod]
  · intro same
    simp only [locate, SameLine] at same ⊢
    rw [same]

/-- Whether the cache holds the line of an address as written. -/
def isDirty (c : Cache) (address : UInt64) : Bool :=
  ((c.find? address).bind (c.setOf address).way?).any Way.dirty

/-- An operation that is not meant to release or to remove the line of an address: it
neither unpins nor invalidates an address in that line, nor flushes it as dirty. -/
def Spares (c : Cache) (address : UInt64) : Op → Prop
  | .unpin other => ¬ c.SameLine other address
  | .invalidate other => ¬ c.SameLine other address
  | .flush => c.isDirty address = false
  | _ => True

instance decidableSpares (c : Cache) (address : UInt64) :
    (op : Op) → Decidable (c.Spares address op)
  | .unpin _ | .invalidate _ => inferInstanceAs (Decidable (¬ _))
  | .flush => inferInstanceAs (Decidable (_ = false))
  | .access _ _ | .pin _ | .resetStats => .isTrue trivial

/-- A run whose every operation spares the line of an address. -/
def SparedBy (c : Cache) (address : UInt64) : List Op → Prop
  | [] => True
  | op :: ops => c.Spares address op ∧ (c.step op).2.SparedBy address ops

instance decidableSparedBy (c : Cache) (address : UInt64) :
    (ops : List Op) → Decidable (c.SparedBy address ops)
  | [] => .isTrue trivial
  | op :: ops =>
    have := decidableSparedBy (c.step op).2 address ops
    inferInstanceAs (Decidable (_ ∧ _))

theorem SparedBy.of_append {done rest : List Op} (spared : c.SparedBy address (done ++ rest)) :
    c.SparedBy address done := by
  induction done generalizing c with
  | nil => trivial
  | cons op done ih => exact ⟨spared.1, ih spared.2⟩

/-- An access that reports the line of a set and a tag to have been evicted. -/
def Answer.Evicts (key : Nat × Nat) : Answer → Prop
  | .accessed (.ok a) => ∃ evicted, a.evicted = some evicted ∧ (a.set, evicted.tag) = key
  | _ => False

/-- The line of an address is pinned in a way, is found there, and is hit by every access
to an address in the line. -/
structure HeldFast (c : Cache) (address : UInt64) (way : Nat) : Prop where
  found : c.find? address = some way
  contained : c.contains address = true
  pinned : ∃ dirty, (c.setOf address).way? way =
    some { tag := (c.locate address).2, valid := true, dirty, pinned := true }
  hit : ∀ other write, c.SameLine other address → (c.access other write).1 =
    .ok { hit := true, set := (c.locate address).1, way, evicted := none }

theorem find?_of_lines (sound : c.Sound) {line : Line}
    (there : c.lines (c.locate address).1 (c.locate address).2 = some line) :
    c.find? address = some line.way :=
  (Everywhere.setOf sound address).tidy.find?_of_holds ((lines_locate_eq_some_iff sound).mp there)

/-- A line that is held is hit in its way. -/
theorem access_of_lines (sound : c.Sound) {line : Line}
    (there : c.lines (c.locate address).1 (c.locate address).2 = some line) (write : Bool) :
    (c.access address write).1 =
      .ok { hit := true, set := (c.locate address).1, way := line.way, evicted := none } := by
  have foretold := foretell_access sound address write
  simp only [step] at foretold
  cases answer : (c.access address write).1 with
  | error cause =>
    rw [answer] at foretold
    exact absurd (there.symm.trans foretold) (Option.some_ne_none line)
  | ok a =>
    rw [answer] at foretold
    obtain ⟨hit, set, place, evicted⟩ := a
    simp only [Lines.Foretell, there] at foretold
    obtain ⟨rfl, rest⟩ := foretold
    cases hit with
    | true =>
      obtain ⟨ways, rfl⟩ := rest
      cases ways
      rfl
    | false => cases rest.1

theorem heldFast_of_pins (sound : c.Sound) (pins : c.lines.Pins (c.locate address) way) :
    c.HeldFast address way := by
  obtain ⟨dirty, there⟩ := pins
  have found := find?_of_lines sound there
  refine ⟨found, ?_, ⟨dirty, (lines_locate_eq_some_iff sound).mp there⟩, ?_⟩
  · rw [contains, found]
    rfl
  · intro other write same
    have place : c.locate other = c.locate address := locate_eq_iff.mpr same
    rw [← place] at there ⊢
    exact access_of_lines sound there write

/-- Pinning reports success only for a line that is held, and pins it where it is. -/
theorem pins_of_pin (sound : c.Sound) (pinned : (c.pin address).1 = true) :
    ∃ way, c.find? address = some way ∧ (c.pin address).2.lines.Pins (c.locate address) way := by
  have asked : Op.request? (.pin address) = some (address, .setPinned true) := rfl
  have found := Answer.found.inj (found_setPinned sound asked)
  rw [pinned] at found
  obtain ⟨line, there⟩ := Option.isSome_iff_exists.mp found.symm
  refine ⟨line.way, find?_of_lines sound there, line.dirty, ?_⟩
  have changed : (c.pin address).2.lines = _ := lines_setPinned sound asked
  rw [changed, Lines.modify_same, there]
  rfl

theorem Spares.lines (sound : c.Sound) (spares : c.Spares address op) :
    c.lines.Spares c.locate (c.locate address) op := by
  cases op with
  | unpin other | invalidate other => exact fun same => spares (locate_eq_iff.mp same)
  | flush =>
    intro line there
    have clean : c.isDirty address = false := spares
    have held := (lines_locate_eq_some_iff sound).mp there
    rw [isDirty, find?_of_lines sound there, Option.bind_some, held] at clean
    exact clean
  | access | pin | resetStats => trivial

theorem pins_step (sound : c.Sound) (pins : c.lines.Pins (c.locate address) way)
    (spares : c.Spares address op) : (c.step op).2.lines.Pins (c.locate address) way := by
  rw [lines_step sound op]
  exact pins.note (foretell_step sound op) (spares.lines sound)

theorem not_evicts_step (sound : c.Sound) (pins : c.lines.Pins (c.locate address) way) (op : Op) :
    ¬ (c.step op).1.Evicts (c.locate address) := by
  have foretold := foretell_step sound op
  generalize (c.step op).1 = answer at foretold
  intro evicts
  cases answer with
  | found | removed | flushed | done => exact evicts
  | accessed result =>
    cases result with
    | error cause => exact evicts
    | ok a =>
      obtain ⟨evicted, left, key⟩ := evicts
      cases op with
      | access target write =>
        obtain ⟨-, rest⟩ := foretold
        rw [left] at rest
        split at rest
        · cases rest.2
        · exact rest.2.ne_of_pins pins key
      | pin | unpin | invalidate | flush | resetStats => exact foretold

/-- A run that spares a pinned line leaves it pinned in its way and never evicts it. -/
theorem pins_run (sound : c.Sound) (pins : c.lines.Pins (c.locate address) way) {ops : List Op}
    (spared : c.SparedBy address ops) :
    (c.run ops).2.lines.Pins (c.locate address) way ∧
      ∀ answer ∈ (c.run ops).1, ¬ answer.Evicts (c.locate address) := by
  induction ops generalizing c with
  | nil => exact ⟨pins, fun _ member => absurd member List.not_mem_nil⟩
  | cons op ops ih =>
    have next := pins_step sound pins spared.1
    have first := not_evicts_step sound pins op
    rw [← locate_step c op] at next first ⊢
    obtain ⟨last, later⟩ := ih (sound.step op) next spared.2
    refine ⟨last, ?_⟩
    intro answer member
    rcases List.mem_cons.mp member with rfl | member
    · exact first
    · exact later answer member

/-- Once a line has been pinned, it stays in its way, pinned and found by every access to
it, after every operation of any further run that neither unpins nor invalidates the line
nor flushes it as dirty. No access of the run reports it as evicted. -/
theorem pinned_lines_stay (built : ofConfig config = .ok start) (before : List Op)
    (address : UInt64) (pinned : ((start.run before).2.pin address).1 = true) (after : List Op)
    (spared : ((start.run before).2.pin address).2.SparedBy address after) :
    let c := ((start.run before).2.pin address).2
    ∃ way, (start.run before).2.find? address = some way ∧
      (∀ done, done <+: after → (c.run done).2.HeldFast address way) ∧
      ∀ answer ∈ (c.run after).1, ¬ answer.Evicts (start.locate address) := by
  intro c
  have reached : (start.run before).2.Sound := (sound_of_ofConfig built).run before
  have sound : c.Sound := reached.step (.pin address)
  obtain ⟨way, found, pins⟩ := pins_of_pin reached pinned
  have same : c.locate address = start.locate address :=
    calc
      c.locate address = (start.run before).2.locate address := locate_step _ (.pin address) address
      _ = start.locate address := start.locate_run before address
  rw [locate_run, ← same] at pins
  refine ⟨way, found, ?_, ?_⟩
  · rintro done ⟨rest, rfl⟩
    have stays := (pins_run sound pins spared.of_append).1
    rw [← c.locate_run done] at stays
    exact heldFast_of_pins (sound.run done) stays
  · rw [← same]
    exact (pins_run sound pins spared).2

/-- A line pinned in one of two ways outlives two others that need a way, and a flush. -/
theorem pinned_line_outlives_its_neighbours :
    ∃ start, ofConfig Config.pair = .ok start ∧ ((start.run [.access 0 false]).2.pin 0).1 = true ∧
      (((start.run [.access 0 false]).2.pin 0).2.run
        [.access 64 true, .access 128 true, .unpin 64, .flush]).2.HeldFast 0 0 := by
  refine ⟨_, rfl, by decide, ?_⟩
  obtain ⟨way, found, held, -⟩ := pinned_lines_stay (rfl : ofConfig Config.pair = .ok _)
    [.access 0 false] 0 (by decide) [.access 64 true, .access 128 true, .unpin 64, .flush]
    (by decide)
  cases found
  exact held _ (List.prefix_refl _)

end Cache

end SetAssociative
