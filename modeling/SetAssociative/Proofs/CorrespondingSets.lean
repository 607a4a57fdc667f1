import Mathlib.Data.Set.Function
import SetAssociative.Proofs.LineRequests

/-! Sets that hold corresponding lines in the same ways. A set compares tags with each other
and passes dirty bits on, and does nothing else with either. So a set with other tags in its
ways, which are told apart as before, or with other dirty bits, finds a line, a free way and a
victim where the first set does, and still corresponds to it after a corresponding request. -/
namespace SetAssociative

theorem eq_of_toNat_eq {a b : Bool} (same : a.toNat = b.toNat) : a = b := by
  revert a b
  decide

/-- Which numbers of dirty lines may stand for each other. One line counts as one if it is
dirty. -/
structure Tolerance where
  allows : Nat → Nat → Prop
  refl : ∀ a, allows a a
  add : ∀ {a b c d : Nat}, allows a b → allows c d → allows (a + c) (b + d)
  or : ∀ {a b c d : Bool}, allows a.toNat b.toNat → allows c.toNat d.toNat →
    allows (a || c).toNat (b || d).toNat

namespace Tolerance

/-- Whether lines are dirty does not matter. -/
def any : Tolerance where
  allows _ _ := True
  refl _ := trivial
  add _ _ := trivial
  or _ _ := trivial

/-- What is dirty on the one side is dirty on the other. -/
def rising : Tolerance where
  allows a b := a ≤ b
  refl := Nat.le_refl
  add := Nat.add_le_add
  or {a b c d} := by cases a <;> cases b <;> cases c <;> cases d <;> decide

/-- The same is dirty on both sides. -/
def exact : Tolerance where
  allows a b := a = b
  refl _ := rfl
  add := congrArg₂ (· + ·)
  or {a b c d} := by cases a <;> cases b <;> cases c <;> cases d <;> decide

/-- Counts that agree but for the lines written back, of which the numbers are allowed. -/
structure Counts (dirt : Tolerance) (s t : Stats) : Prop where
  rest : t = { s with writebacks := t.writebacks }
  writebacks : dirt.allows s.writebacks t.writebacks

theorem Counts.same (dirt : Tolerance) (s : Stats) : dirt.Counts s s := ⟨rfl, dirt.refl _⟩

theorem Counts.eq {s t : Stats} (counts : exact.Counts s t) : t = s := by
  have writebacks : s.writebacks = t.writebacks := counts.writebacks
  rw [counts.rest, ← writebacks]

theorem Counts.written (s : Stats) {dirt : Tolerance} {a b : Bool}
    (allowed : dirt.allows a.toNat b.toNat) :
    dirt.Counts { s with writebacks := if a then 1 else 0 }
      { s with writebacks := if b then 1 else 0 } := by
  refine ⟨rfl, ?_⟩
  cases a <;> cases b <;> exact allowed

theorem Counts.add {dirt : Tolerance} {s t u v : Stats} (first : dirt.Counts s t)
    (second : dirt.Counts u v) : dirt.Counts (s + u) (t + v) where
  rest := by
    rw [first.rest, second.rest]
    rfl
  writebacks := dirt.add first.writebacks second.writebacks

end Tolerance

/-- How the lines of a set may stand for those of another: a tag by another tag, for each set
its own, and dirty bits as far as they are tolerated. -/
structure Likeness where
  rename : Nat → Nat → Nat
  /-- The tags that occur, which stay apart when they are renamed. -/
  tags : Set Nat
  apart : ∀ index, Set.InjOn (rename index) tags
  dirt : Tolerance

namespace Likeness

/-- Every tag stands for itself. -/
def unrenamed (dirt : Tolerance) : Likeness where
  rename _ := id
  tags := Set.univ
  apart _ := Function.injective_id.injOn
  dirt

variable (m : Likeness) (index : Nat)

/-- A way stands for another: the tag of its line is renamed, if there is a line. -/
structure Ways (v w : Way) : Prop where
  tag : w.tag = if v.valid then m.rename index v.tag else v.tag
  valid : w.valid = v.valid
  dirty : m.dirt.allows v.dirty.toNat w.dirty.toNat
  pinned : w.pinned = v.pinned

/-- A line that left stands for another that left. -/
structure Leaving (line other : Evicted) : Prop where
  way : other.way = line.way
  tag : other.tag = m.rename index line.tag
  dirty : m.dirt.allows line.dirty.toNat other.dirty.toNat

/-- The same request, up to whether an access is a write. -/
inductive Requests : Request → Request → Prop where
  | access {write other : Bool} (dirt : m.dirt.allows write.toNat other.toNat) :
      Requests (.access write) (.access other)
  | setPinned (pinned : Bool) : Requests (.setPinned pinned) (.setPinned pinned)
  | invalidate : Requests .invalidate .invalidate

/-- The same reply, up to the lines that are reported to have left. -/
inductive Replies : Reply → Reply → Prop where
  | placed {hit : Bool} {way : Nat} {left other : Option Evicted}
      (lines : Option.Rel (m.Leaving index) left other) :
      Replies (.placed (.ok { hit, way, evicted := left }))
        (.placed (.ok { hit, way, evicted := other }))
  | failed (cause : CacheError) : Replies (.placed (.error cause)) (.placed (.error cause))
  | found (held : Bool) : Replies (.found held) (.found held)
  | removed {left other : Option Evicted} (lines : Option.Rel (m.Leaving index) left other) :
      Replies (.removed left) (.removed other)

/-- A set of which each way stands for the same way of another, with the same policy. -/
structure Sets (s t : CacheSet) : Prop where
  policy : t.policy = s.policy
  ways : ∀ way, Option.Rel (m.Ways index) (s.way? way) (t.way? way)
  known : ∀ {tag line}, s.Holds tag line → tag ∈ m.tags

/-- Responses that correspond in all their parts. -/
structure Responses (first second : Response) : Prop where
  reply : m.Replies index first.reply second.reply
  set : m.Sets index first.set second.set
  count : m.dirt.Counts first.count second.count

end Likeness

theorem exists_of_rel_some {α β : Type} {R : α → β → Prop} {a : α} {y : Option β}
    (rel : Option.Rel R (some a) y) : ∃ b, y = some b ∧ R a b := by
  cases rel with
  | some related => exact ⟨_, rfl, related⟩

namespace Likeness
variable {m : Likeness} {index tag way : Nat} {s t : CacheSet} {v w : Way} {line : Line}

theorem Requests.same (m : Likeness) (request : Request) : m.Requests request request := by
  cases request with
  | access write => exact .access (m.dirt.refl _)
  | setPinned pinned => exact .setPinned pinned
  | invalidate => exact .invalidate

/-- What each way shows alike, the slots of corresponding sets show alike. -/
theorem Sets.map_slots {α : Type} {p q : Way → α} (sets : m.Sets index s t)
    (alike : ∀ v w, v ∈ s.slots → m.Ways index v w → p v = q w) :
    s.slots.map p = t.slots.map q := by
  refine List.ext_getElem? fun way => ?_
  have here : Option.Rel (m.Ways index) s.slots[way]? t.slots[way]? := sets.ways way
  rw [List.getElem?_map, List.getElem?_map]
  cases found : s.slots[way]? with
  | none =>
    rw [found] at here
    generalize t.slots[way]? = there at here
    cases here
    rfl
  | some v =>
    rw [found] at here
    obtain ⟨w, there, like⟩ := exists_of_rel_some here
    rw [there, Option.map_some, Option.map_some, alike v w (List.mem_of_getElem? found) like]

theorem Sets.ways_eq (sets : m.Sets index s t) : t.ways = s.ways := by
  have slots := sets.map_slots (p := fun _ => ()) (q := fun _ => ()) fun _ _ _ _ => rfl
  have lengths := congrArg List.length slots
  rw [List.length_map, List.length_map] at lengths
  exact lengths.symm

theorem Sets.findIdx? {p q : Way → Bool} (sets : m.Sets index s t)
    (alike : ∀ v w, v ∈ s.slots → m.Ways index v w → p v = q w) :
    t.slots.findIdx? q = s.slots.findIdx? p := by
  have slots := congrArg (List.findIdx? id) (sets.map_slots alike)
  rw [List.findIdx?_map, List.findIdx?_map] at slots
  exact slots.symm

/-- A renamed tag is found where the tag is. -/
theorem Sets.find? (sets : m.Sets index s t) (known : tag ∈ m.tags) :
    t.find? (m.rename index tag) = s.find? tag := by
  refine sets.findIdx? fun v w member like => ?_
  rw [like.valid, like.tag]
  cases valid : v.valid with
  | false => rfl
  | true =>
    obtain ⟨way, here⟩ := List.mem_iff_getElem?.mp member
    have occurs : v.tag ∈ m.tags := sets.known (CacheSet.holds_of_valid here valid)
    have same : (v.tag == tag) = (m.rename index v.tag == m.rename index tag) := by
      rw [Bool.eq_iff_iff, beq_iff_eq, beq_iff_eq, (m.apart index).eq_iff occurs known]
    exact congrArg (true && ·) same

theorem Sets.freeWay? (sets : m.Sets index s t) : t.freeWay? = s.freeWay? :=
  sets.findIdx? fun v w _ like => by rw [like.valid]

/-- The policies of corresponding sets see the same. -/
theorem Sets.view (sets : m.Sets index s t) : t.view = s.view := by
  funext way
  have here := sets.ways way
  unfold CacheSet.view
  generalize s.way? way = old, t.way? way = new at here
  cases here with
  | none => rfl
  | some like => simp only [Option.any_some, Way.evictable, like.valid, like.pinned]

theorem Sets.search (sets : m.Sets index s t) :
    t.policy.search t.view = s.policy.search s.view := by
  rw [sets.policy, sets.view]

/-- A line is held in the same way under the renamed tag. -/
theorem Sets.holds (sets : m.Sets index s t) (held : s.Holds tag line) :
    ∃ dirty : Bool, m.dirt.allows line.dirty.toNat dirty.toNat ∧
      t.Holds (m.rename index tag) { line with dirty } := by
  have here := sets.ways line.way
  rw [held] at here
  obtain ⟨w, there, like⟩ := exists_of_rel_some here
  have named : w.tag = m.rename index tag := like.tag
  have pinned : line.pinned = w.pinned := like.pinned.symm
  refine ⟨w.dirty, like.dirty, ?_⟩
  rw [← named, pinned]
  exact CacheSet.holds_of_valid there like.valid

/-- Corresponding ways that are replaced leave corresponding sets. -/
theorem Sets.setWay (sets : m.Sets index s t) (like : m.Ways index v w)
    (occurs : v.valid = true → v.tag ∈ m.tags) (inside : way < s.ways) :
    m.Sets index (s.setWay way v) (t.setWay way w) where
  policy := sets.policy
  ways := by
    intro place
    rw [CacheSet.way?_setWay s v inside, CacheSet.way?_setWay t w (sets.ways_eq ▸ inside)]
    split
    · exact .some like
    · exact sets.ways place
  known := by
    intro tag line held
    unfold CacheSet.Holds at held
    rw [CacheSet.way?_setWay s v inside] at held
    split at held
    · cases held
      exact occurs rfl
    · exact sets.known held

theorem Sets.put (sets : m.Sets index s t) (known : tag ∈ m.tags) (inside : way < s.ways)
    {dirty other : Bool} (dirt : m.dirt.allows dirty.toNat other.toNat) (pinned : Bool) :
    m.Sets index (s.put tag way dirty pinned) (t.put (m.rename index tag) way other pinned) :=
  sets.setWay ⟨rfl, rfl, dirt, rfl⟩ (fun _ => known) inside

theorem Sets.clear (sets : m.Sets index s t) (inside : way < s.ways) :
    m.Sets index (s.clear way) (t.clear way) :=
  sets.setWay ⟨rfl, rfl, m.dirt.refl _, rfl⟩ (fun valid => nomatch valid) inside

theorem Sets.withPolicy (sets : m.Sets index s t) (policy : Policy) :
    m.Sets index (s.withPolicy policy) (t.withPolicy policy) :=
  ⟨rfl, sets.ways, sets.known⟩

/-- Where the same is dirty on both sides, a flush takes out corresponding lines. -/
theorem Sets.flush (sets : m.Sets index s t)
    (exact : ∀ {a b : Nat}, m.dirt.allows a b → a = b) :
    t.flush.1 = s.flush.1 ∧ m.Sets index s.flush.2 t.flush.2 := by
  have alike : ∀ v w, m.Ways index v w → CacheSet.flushes v = CacheSet.flushes w := by
    intro v w like
    have dirty : v.dirty = w.dirty := eq_of_toNat_eq (exact like.dirty)
    rw [CacheSet.flushes, CacheSet.flushes, like.valid, dirty]
  refine ⟨?_, sets.policy, fun way => ?_, fun held => ?_⟩
  · have slots := congrArg (List.countP id) (sets.map_slots fun v w _ => alike v w)
    rw [List.countP_map, List.countP_map] at slots
    exact slots.symm
  · rw [CacheSet.way?_flush, CacheSet.way?_flush]
    have here := sets.ways way
    generalize s.way? way = old, t.way? way = new at here
    cases here with
    | none => exact .none
    | @some v w like =>
      rw [Option.map_some, Option.map_some, ← alike v w like]
      split
      · exact .some ⟨rfl, rfl, m.dirt.refl _, rfl⟩
      · exact .some like
  · exact sets.known (CacheSet.holds_flush.mp held).1

/-- What a request comes to in a set, the corresponding request comes to in a corresponding
set. -/
theorem Sets.effect (sets : m.Sets index s t) (known : tag ∈ m.tags) {request other : Request}
    (asked : m.Requests request other) {response : Response}
    (effect : s.Effect tag request response) :
    ∃ also, t.Effect (m.rename index tag) other also ∧ m.Responses index response also := by
  -- the other set finds the tag, a free way and a victim in the same places, so that the case
  -- that arises here arises there
  have find := sets.find? known
  have free := sets.freeWay?
  cases effect with
  | hit line found held =>
    cases asked with
    | access write =>
      obtain ⟨dirty, dirt, there⟩ := sets.holds held
      refine ⟨_, .hit { line with dirty } (find.trans found) there, .placed .none, ?_, .same ..⟩
      rw [sets.policy]
      exact (sets.put known held.inside (m.dirt.or dirt write) _).withPolicy _
  | fill way v absent vacant here empty =>
    cases asked with
    | access write =>
      have like := sets.ways way
      rw [here] at like
      obtain ⟨w, there, like⟩ := exists_of_rel_some like
      refine ⟨_, .fill way w (find.trans absent) (free.trans vacant) there (like.valid.trans empty),
        .placed .none, ?_, .same ..⟩
      rw [sets.policy]
      exact (sets.put known (CacheSet.lt_ways_of_way? here) write _).withPolicy _
  | replace old victim absent full chosen held released =>
    cases asked with
    | access write =>
      obtain ⟨dirty, dirt, there⟩ := sets.holds held
      have picked : (t.policy.search t.view).1 = some victim.way := sets.search ▸ chosen
      refine ⟨_, .replace _ { victim with dirty } (find.trans absent) (free.trans full) picked there
        released, .placed (.some ⟨rfl, rfl, dirt⟩), ?_,
        .written { accesses := 1, misses := 1, fills := 1, evictions := 1 } dirt⟩
      rw [sets.search]
      exact (sets.put known held.inside write _).withPolicy _
  | exhausted absent full none_open =>
    cases asked with
    | access write =>
      have closed : ∀ way < t.ways, t.view way = false := by
        rw [sets.ways_eq, sets.view]
        exact none_open
      refine ⟨_, .exhausted (find.trans absent) (free.trans full) closed, ?_, ?_, .same ..⟩
      · rw [sets.ways_eq]
        exact .failed _
      · rw [sets.search]
        exact sets.withPolicy _
  | pinned line found held =>
    cases asked with
    | setPinned pinned =>
      obtain ⟨dirty, dirt, there⟩ := sets.holds held
      exact ⟨_, .pinned { line with dirty } (find.trans found) there, .found true,
        sets.put known held.inside dirt _, .same ..⟩
  | unfound absent =>
    cases asked with
    | setPinned pinned =>
      exact ⟨_, .unfound (find.trans absent), .found false, sets, .same ..⟩
  | removed line found held =>
    cases asked with
    | invalidate =>
      obtain ⟨dirty, dirt, there⟩ := sets.holds held
      exact ⟨_, .removed { line with dirty } (find.trans found) there,
        .removed (.some ⟨rfl, rfl, dirt⟩), sets.clear held.inside, .written {} dirt⟩
  | missing absent =>
    cases asked with
    | invalidate => exact ⟨_, .missing (find.trans absent), .removed .none, sets, .same ..⟩

theorem Sets.serve (sets : m.Sets index s t) (known : tag ∈ m.tags) {request other : Request}
    (asked : m.Requests request other) (fits : s.Fits) :
    m.Responses index (s.serve tag request) (t.serve (m.rename index tag) other) := by
  obtain ⟨also, effect, alike⟩ := sets.effect known asked (CacheSet.effect_serve fits tag request)
  have fitting : t.Fits := by
    rw [CacheSet.Fits, sets.policy, sets.ways_eq]
    exact fits
  rwa [effect.eq_serve fitting] at alike

end Likeness

end SetAssociative
