import SetAssociative.Proofs.CorrespondingRuns

/-! Tags are compared with each other and with nothing else. If every address of a run gives
way to one in the same set whose tag is the renamed tag, where each set renames its tags as it
likes but keeps them apart, then the run comes to the same with all tags renamed. No tag is
special, not even zero, which is what ways without a line carry. -/
namespace SetAssociative

/-- A way with the tag of its line renamed. A way without a line stays as it is. -/
def Way.rename (f : Nat → Nat) (w : Way) : Way := if w.valid then { w with tag := f w.tag } else w

/-- A line that left, with its tag renamed. -/
def Evicted.rename (f : Nat → Nat) (line : Evicted) : Evicted := { line with tag := f line.tag }

namespace Likeness

/-- Tags are renamed, and the same lines are dirty. -/
def renamed (rename : Nat → Nat → Nat)
    (apart : ∀ index, Set.InjOn (rename index) {tag | tag < UInt64.size}) : Likeness where
  rename
  tags := {tag | tag < UInt64.size}
  apart
  dirt := .exact

variable {m : Likeness} {index : Nat} {s t : CacheSet} {line other : Evicted}

/-- Where the same lines are dirty, a line that left is known but for its tag. -/
theorem Leaving.rename (like : m.Leaving index line other)
    (exact : ∀ {a b : Nat}, m.dirt.allows a b → a = b) :
    line.rename (m.rename index) = other := by
  have dirty : line.dirty = other.dirty := eq_of_toNat_eq (exact like.dirty)
  show _ = Evicted.mk other.way other.tag other.dirty
  rw [like.way, like.tag, ← dirty]
  rfl

theorem Ways.rename {v w : Way} (like : m.Ways index v w)
    (exact : ∀ {a b : Nat}, m.dirt.allows a b → a = b) : v.rename (m.rename index) = w := by
  have dirty : v.dirty = w.dirty := eq_of_toNat_eq (exact like.dirty)
  show _ = Way.mk w.tag w.valid w.dirty w.pinned
  rw [like.tag, like.valid, ← dirty, like.pinned, Way.rename]
  split <;> rfl

theorem Sets.rename (sets : m.Sets index s t)
    (exact : ∀ {a b : Nat}, m.dirt.allows a b → a = b) :
    s.slots.map (Way.rename (m.rename index)) = t.slots := by
  rw [sets.map_slots (q := id) fun v w _ like => like.rename exact, List.map_id]

end Likeness

namespace Cache
variable {c start : Cache} {config : Config} {op other : Op} {ops more : List Op}
  {rename : Nat → Nat → Nat}

/-- The same operation, about an address in the same set whose tag is the renamed tag if it is
about an address. -/
inductive Renames (c : Cache) (rename : Nat → Nat → Nat) : Op → Op → Prop where
  | addressed {op other : Op} {address target : UInt64} {request : Request}
      (first : op.request? = some (address, request))
      (second : other.request? = some (target, request))
      (home : (c.locate target).1 = (c.locate address).1)
      (renamed : (c.locate target).2 = rename (c.locate address).1 (c.locate address).2) :
      Renames c rename op other
  | flush : Renames c rename .flush .flush
  | resetStats : Renames c rename .resetStats .resetStats

/-- The tag of an address is no larger than the address. -/
theorem tag_lt (c : Cache) (address : UInt64) : (c.locate address).2 < UInt64.size :=
  Nat.lt_of_le_of_lt (Nat.le_trans (Nat.div_le_self ..) (Nat.div_le_self ..)) address.toNat_lt

theorem Renames.corresponds (renames : c.Renames rename op other)
    (apart : ∀ index, Set.InjOn (rename index) {tag | tag < UInt64.size}) :
    (Likeness.renamed rename apart).Ops c op other := by
  cases renames with
  | @addressed _ _ address _ request first second home renamed =>
    exact .addressed first second home renamed (c.tag_lt address) (.same _ request)
  | flush => exact .flush id
  | resetStats => exact .resetStats

theorem Answer.mapEvicted_id : Answer.mapEvicted id = id := by
  funext answer
  cases answer with
  | accessed result => cases result <;> simp [mapEvicted, Except.map]
  | removed line => simp [mapEvicted]
  | found held | flushed lines | done => rfl

/-- A run from an empty cache whose addresses keep their sets and have their tags renamed, apart
from each other in each set, gets the answers of the first run with the tags of the lines
renamed that left. After every step the counts are equal, and in the end the ways hold the
renamed lines, with the same policies. -/
theorem tags_are_only_compared (built : ofConfig config = .ok start)
    (apart : ∀ index, Set.InjOn (rename index) {tag | tag < UInt64.size})
    (renamed : List.Forall₂ (start.Renames rename) ops more) :
    (start.run more).1 = (start.history ops).map (fun event =>
      event.2.mapEvicted (Evicted.rename ((start.home? event.1).elim id rename))) ∧
    (∀ n, (start.run (more.take n)).2.stats = (start.run (ops.take n)).2.stats) ∧
    (∀ index : Nat, (start.run more).2.sets[index]?.map (fun s => (s.slots, s.policy)) =
      (start.run ops).2.sets[index]?.map
        fun s => (s.slots.map (Way.rename (rename index)), s.policy)) := by
  have sound := sound_of_ofConfig built
  have alike : (Likeness.renamed rename apart).Caches start start :=
    Likeness.caches_of_ofConfig _ built built rfl fun _ _ => rfl
  have both : List.Forall₂ ((Likeness.renamed rename apart).Ops start) ops more :=
    renamed.imp fun _ _ renames => renames.corresponds apart
  refine ⟨?_, fun n => ?_, fun index => ?_⟩
  · rw [alike.map_answers sound both (g := id) (f := fun home => .rename (home.elim id rename))
      fun _ _ _ like => like.rename id, Answer.mapEvicted_id, List.map_id]
  · have after := (alike.run sound (List.forall₂_take n both)).2
    exact after.stats.eq
  · have sets := (alike.run sound both).2.sets index
    generalize (start.run ops).2.sets[index]? = old, (start.run more).2.sets[index]? = new at sets ⊢
    cases sets with
    | none => rfl
    | some sets => exact congrArg some (Prod.ext (sets.rename id).symm sets.policy)

/-- The tags zero and three change places in a run that leaves a hole next to the line of tag
zero, and fills the hole with that of tag three. -/
theorem tag_of_holes_is_not_special :
    ∃ start, ofConfig Config.pair = .ok start ∧
      let ops : List Op := [.access 0 true, .access 64 false, .invalidate 64, .access 192 false,
        .access 128 false, .flush]
      let more : List Op := [.access 192 true, .access 64 false, .invalidate 64, .access 0 false,
        .access 128 false, .flush]
      (start.run more).1 = (start.history ops).map (fun event => event.2.mapEvicted
        (Evicted.rename ((start.home? event.1).elim id fun _ => Equiv.swap 0 3))) ∧
      (start.run more).2.stats = (start.run ops).2.stats := by
  refine ⟨_, rfl, ?_⟩
  intro ops more
  have swapped := tags_are_only_compared (rfl : ofConfig Config.pair = .ok _)
    (fun _ => (Equiv.swap 0 3).injective.injOn)
    (show List.Forall₂ (Renames _ _) ops more by
      refine .cons (.addressed rfl rfl ?_ ?_) <| .cons (.addressed rfl rfl ?_ ?_) <|
        .cons (.addressed rfl rfl ?_ ?_) <| .cons (.addressed rfl rfl ?_ ?_) <|
        .cons (.addressed rfl rfl ?_ ?_) <| .cons .flush .nil
      all_goals rfl)
  exact ⟨swapped.1, swapped.2.1 6⟩

end Cache

end SetAssociative
