import Mathlib.Data.Set.Function
import SetAssociative.Proofs.CheckedRuns
import SetAssociative.Proofs.PinnedResidency

/-! An address is taken apart by division: into a set, the tag of a line in it, and how far the
byte stands from the beginning of the line. No two addresses have the same place, and a cache
asks no more of an address than its set and its tag, so that it cannot tell two addresses of one
line apart, and does not confuse two lines. -/
namespace SetAssociative

namespace Lines
variable {m : Lines} {index tag : Nat} {key : Nat × Nat} {locate : UInt64 → Nat × Nat}
  {op : Cache.Op} {answer : Cache.Answer}

theorem isSome_of_assign_none (held : (m.assign index tag none key.1 key.2).isSome) :
    (m key.1 key.2).isSome := by
  by_cases same : (index, tag) = key
  · subst same
    rw [assign, if_pos ⟨rfl, rfl⟩] at held
    cases held
  · rwa [assign_of_ne same] at held

theorem isSome_modify (update : Line → Line) :
    (m.modify index tag update key.1 key.2).isSome = (m key.1 key.2).isSome := by
  by_cases same : (index, tag) = key
  · subst same
    rw [modify_same, Option.isSome_map]
  · rw [modify_of_ne same]

/-- The record gets a line that it did not have from an access to that line alone. -/
theorem isSome_of_note (held : (m.note locate op answer key.1 key.2).isSome) :
    (m key.1 key.2).isSome ∨
      ∃ address write, op = .access address write ∧ locate address = key := by
  cases op with
  | access address write =>
    by_cases same : locate address = key
    · exact .inr ⟨address, write, rfl, same⟩
    · left
      cases answer with
      | accessed result =>
        cases result with
        | error cause => exact held
        | ok a =>
          simp only [note, noteAccess] at held
          split at held
          · rwa [isSome_modify] at held
          · rw [assign_of_ne same] at held
            cases left : a.evicted with
            | none => rwa [left] at held
            | some evicted =>
              rw [left] at held
              exact isSome_of_assign_none held
      | found | removed | flushed | done => exact held
  | pin address | unpin address => exact .inl (isSome_modify _ ▸ held)
  | invalidate address => exact .inl (isSome_of_assign_none held)
  | flush => exact .inl (Option.isSome_of_isSome_filter _ _ held)
  | resetStats => exact .inl held

end Lines

namespace Cache
variable {c start : Cache} {config : Config} {a b address : UInt64} {op also : Op}
  {ops more : List Op}

/-- Where a byte is: the set and the tag of its line, and how far it is from the first byte. -/
def placeOf (c : Cache) (address : UInt64) : (Nat × Nat) × Nat :=
  (c.locate address, address.toNat % c.lineBytes)

/-- The places that have an address: in a set and a line that exist, and not past the last byte
that 64 bits can name. -/
def places (c : Cache) : Set ((Nat × Nat) × Nat) :=
  {place | place.1.1 < c.sets.size ∧ place.2 < c.lineBytes ∧
    c.byteOf place.1.1 place.1.2 + place.2 < UInt64.size}

/-- An address is taken apart to a set that exists, and put together again from the parts. -/
structure TakesApart (c : Cache) (address : UInt64) : Prop where
  /-- The machine divides without a trap. -/
  divides : c.locateChecked address = .ok (c.locate address)
  inside : (c.locate address).1 < c.sets.size
  whole : ((c.locate address).2 * c.sets.size + (c.locate address).1) * c.lineBytes +
    address.toNat % c.lineBytes = address.toNat
  /-- On the way from the parts to the whole no number is too large for a word. -/
  words : ∀ number ∈ [(c.locate address).2, (c.locate address).2 * c.sets.size,
    (c.locate address).2 * c.sets.size + (c.locate address).1,
    ((c.locate address).2 * c.sets.size + (c.locate address).1) * c.lineBytes],
    number < UInt64.size

/-- The number of the line of an address is put together from its set and its tag. -/
theorem line_of_locate (c : Cache) (address : UInt64) :
    (c.locate address).2 * c.sets.size + (c.locate address).1 = address.toNat / c.lineBytes :=
  Nat.div_add_mod' ..

theorem takesApart (wide : 0 < c.lineBytes) (address : UInt64) : c.TakesApart address := by
  have line := c.line_of_locate address
  have first : (c.locate address).2 ≤ (c.locate address).2 * c.sets.size :=
    Nat.le_mul_of_pos_right _ c.sets_pos
  have few : address.toNat / c.lineBytes ≤ address.toNat := Nat.div_le_self ..
  have before : address.toNat / c.lineBytes * c.lineBytes ≤ address.toNat := Nat.div_mul_le_self ..
  have small : address.toNat < UInt64.size := address.toNat_lt
  refine ⟨locateChecked_eq wide address, c.locate_lt address, ?_, ?_⟩
  · rw [line, Nat.div_add_mod']
  · simp only [List.forall_mem_cons, List.not_mem_nil, false_implies, implies_true, and_true]
    rw [line]
    omega

/-- Every byte of a line is taken apart to the set and the tag of the line. -/
theorem locate_byteOf_add {index tag offset : Nat} (inside : index < c.sets.size)
    (within : offset < c.lineBytes) (small : c.byteOf index tag + offset < UInt64.size) :
    c.locate (UInt64.ofNat (c.byteOf index tag + offset)) = (index, tag) := by
  have wide := Nat.zero_lt_of_lt within
  have first : c.byteOf index tag < UInt64.size := Nat.lt_of_le_of_lt (Nat.le_add_right ..) small
  rw [← locate_byteOf wide inside first, locate_eq_iff, SameLine, UInt64.toNat_ofNat_of_lt' small,
    UInt64.toNat_ofNat_of_lt' first, byteOf, Nat.mul_comm, Nat.mul_add_div wide,
    Nat.div_eq_of_lt within, Nat.mul_div_cancel_left _ wide, Nat.add_zero]

/-- Every address has a place of its own, and every place has an address. -/
theorem bijOn_placeOf (wide : 0 < c.lineBytes) : Set.BijOn c.placeOf Set.univ c.places := by
  refine ⟨?_, ?_, ?_⟩
  · intro address _
    have apart := takesApart wide address
    refine ⟨apart.inside, Nat.mod_lt _ wide, ?_⟩
    exact apart.whole.symm ▸ address.toNat_lt
  · intro a _ b _ same
    obtain ⟨line, offset⟩ := Prod.mk.inj same
    rw [← UInt64.toNat_inj, ← (takesApart wide a).whole, line, offset, (takesApart wide b).whole]
  · rintro ⟨⟨index, tag⟩, offset⟩ ⟨inside, within, small⟩
    refine ⟨UInt64.ofNat (c.byteOf index tag + offset), Set.mem_univ _, ?_⟩
    rw [placeOf, locate_byteOf_add inside within small, UInt64.toNat_ofNat_of_lt' small, byteOf,
      Nat.mul_add_mod', Nat.mod_eq_of_lt within]

/-- Every operation on one of two addresses that a cache cannot tell apart is the operation on the
other, in what it answers and in what it leaves. -/
structure CannotTell (c : Cache) (a b : UInt64) : Prop where
  contains : c.contains a = c.contains b
  access : ∀ write, c.access a write = c.access b write
  pin : c.pin a = c.pin b
  unpin : c.unpin a = c.unpin b
  invalidate : c.invalidate a = c.invalidate b

theorem setOf_eq_of_locate (same : c.locate a = c.locate b) : c.setOf a = c.setOf b := by
  apply setOf_eq_of_getElem?
  rw [same, getElem?_setOf]

theorem update_eq_of_locate (same : c.locate a = c.locate b) : c.update a = c.update b := by
  funext s count
  simp only [update, same]

/-- A cache asks no more of an address than its place. -/
theorem cannotTell_of_locate (same : c.locate a = c.locate b) : c.CannotTell a b := by
  have set := setOf_eq_of_locate same
  have update := update_eq_of_locate same
  have found : c.find? a = c.find? b := by rw [find?, find?, same, set]
  refine ⟨?_, fun write => ?_, ?_, ?_, ?_⟩
  · rw [contains, contains, found]
  · rw [access, access, same, set, update]
  · rw [pin, pin, change, change, found, set, update]
  · rw [unpin, unpin, change, change, found, set, update]
  · rw [invalidate, invalidate, found, set, update]

theorem sameLine_step (c : Cache) (op : Op) : (c.step op).2.SameLine = c.SameLine := by
  funext a b
  rw [SameLine, (c.shape_step op).1, SameLine]

/-- Two operations that ask the same of the same line, or are the same. -/
inductive SameRequest (c : Cache) : Op → Op → Prop
  | addressed {op also : Op} {a b : UInt64} {request : Request}
      (first : op.request? = some (a, request)) (second : also.request? = some (b, request))
      (line : c.SameLine a b) : SameRequest c op also
  | same (op : Op) : SameRequest c op op

theorem SameRequest.step_eq (alike : c.SameRequest op also) : c.step op = c.step also := by
  cases alike with
  | addressed first second line =>
    have same := locate_eq_iff.mpr line
    rw [step_of_request? first, step_of_request? second, response, response, same,
      setOf_eq_of_locate same, update_eq_of_locate same]
  | same => rfl

theorem SameRequest.step (alike : c.SameRequest op also) (before : Op) :
    (c.step before).2.SameRequest op also := by
  cases alike with
  | addressed first second line =>
    refine .addressed first second ?_
    rwa [sameLine_step]
  | same => exact .same op

/-- Runs that ask the same of the same lines are the same. -/
theorem run_eq_of_sameRequest (both : List.Forall₂ c.SameRequest ops more) :
    c.run ops = c.run more := by
  induction ops generalizing c more with
  | nil =>
    cases both
    rfl
  | cons op ops ih =>
    cases both with
    | cons first rest =>
      rw [run, run, ih (rest.imp fun _ _ alike => alike.step op), first.step_eq]

/-- A cache comes to hold a line by an access to that line alone. -/
theorem contains_of_step (sound : c.Sound) (held : (c.step op).2.contains address = true) :
    c.contains address = true ∨ ∃ a write, op = .access a write ∧ c.SameLine a address := by
  rw [contains_eq_isSome_lines (sound.step op), locate_step, lines_step sound] at held
  rw [contains_eq_isSome_lines sound]
  simpa only [locate_eq_iff] using Lines.isSome_of_note held

/-- What a cache holds after a run it held before, unless the run has an access to it. -/
theorem contains_of_run (sound : c.Sound) (held : (c.run ops).2.contains address = true) :
    c.contains address = true ∨ ∃ a write, .access a write ∈ ops ∧ c.SameLine a address := by
  induction ops generalizing c with
  | nil => exact .inl held
  | cons op ops ih =>
    rcases ih (sound.step op) held with before | ⟨a, write, member, line⟩
    · rcases contains_of_step sound before with earlier | ⟨a, write, rfl, line⟩
      · exact .inl earlier
      · exact .inr ⟨a, write, List.mem_cons_self, line⟩
    · rw [sameLine_step] at line
      exact .inr ⟨a, write, List.mem_cons_of_mem _ member, line⟩

/-- What becomes of addresses in a cache. -/
structure KeepsLinesApart (c : Cache) : Prop where
  apart : ∀ address, c.TakesApart address
  bijective : Set.BijOn c.placeOf Set.univ c.places
  /-- Two addresses have one set and one tag exactly when they lie in the same line. -/
  locate : ∀ a b, c.locate a = c.locate b ↔ a.toNat / c.lineBytes = b.toNat / c.lineBytes
  /-- Addresses in the same line cannot be told apart, by one operation or by a run of them. -/
  within : ∀ a b, a.toNat / c.lineBytes = b.toNat / c.lineBytes → c.CannotTell a b
  runs : ∀ ops more, List.Forall₂ c.SameRequest ops more → c.run ops = c.run more
  /-- No access to one line makes the cache contain another. -/
  between : ∀ a b write, a.toNat / c.lineBytes ≠ b.toNat / c.lineBytes →
    (c.access a write).2.contains b = true → c.contains b = true
  /-- What a run makes the cache contain, it accesses. -/
  accessed : ∀ ops b, (c.run ops).2.contains b = true → c.contains b = true ∨
    ∃ a write, .access a write ∈ ops ∧ a.toNat / c.lineBytes = b.toNat / c.lineBytes

theorem keepsLinesApart (sound : c.Sound) (wide : 0 < c.lineBytes) : c.KeepsLinesApart where
  apart := takesApart wide
  bijective := bijOn_placeOf wide
  locate _ _ := locate_eq_iff
  within _ _ line := cannotTell_of_locate (locate_eq_iff.mpr line)
  runs _ _ := run_eq_of_sameRequest
  between := by
    intro a b write apart held
    have stepped : (c.step (.access a write)).2.contains b = true := held
    refine (contains_of_step sound stepped).resolve_right ?_
    rintro ⟨target, flag, same, line⟩
    cases same
    exact apart line
  accessed _ _ := contains_of_run sound

/-- Whatever was done to a cache, it takes addresses apart into places of their own, does not tell
addresses of one line apart, and does not confuse two lines. -/
theorem addresses_are_known_by_their_lines (built : ofConfig config = .ok start) (ops : List Op) :
    (start.run ops).2.KeepsLinesApart :=
  keepsLinesApart ((sound_of_ofConfig built).run ops) (lineBytes_pos_of_run built ops)

/-- In a cache of three sets, the last of all addresses is in the first set, and to access it is
to access the first byte of its line. -/
theorem last_address_is_in_one_of_three_sets :
    let config : Config := { sizeBytes := 192, lineBytes := 64, ways := 1 }
    ∃ start, ofConfig config = .ok start ∧
      let c := (start.run [.access 64 true]).2
      c.locate 0xFFFFFFFFFFFFFFFF = (0, 96076792050570581) ∧ c.KeepsLinesApart ∧
      c.access 0xFFFFFFFFFFFFFFFF false = c.access 0xFFFFFFFFFFFFFFC0 false :=
  have known := addresses_are_known_by_their_lines
    (rfl : ofConfig { sizeBytes := 192, lineBytes := 64, ways := 1 } = .ok _) [.access 64 true]
  ⟨_, rfl, by decide, known, (known.within _ _ (by decide)).access false⟩

end Cache

end SetAssociative
