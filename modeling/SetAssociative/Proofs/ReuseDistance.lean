import Mathlib.Data.Finset.Card
import Mathlib.Data.List.DropRight
import SetAssociative.Proofs.PinnedResidency
import SetAssociative.Proofs.RecencyStack

/-! Under the least recently used discipline a hit is decided by the reuse distance: the
number of other lines of the set that were used since the line itself was. A run of
accesses leaves in a set the top of the stack of all tags that were ever used there, and
the height above a tag in that stack is its distance. -/
namespace SetAssociative

section Recency
variable {tags order : List Nat} {tag other : Nat} {ways : Nat}

/-- The tags of a sequence of uses, without repetition, the one used last first. -/
def recency (tags : List Nat) : List Nat :=
  tags.foldl (fun order tag => tag :: order.erase tag) []

theorem recency_concat (tags : List Nat) (tag : Nat) :
    recency (tags ++ [tag]) = tag :: (recency tags).erase tag :=
  List.foldl_concat ..

theorem nodup_recency (tags : List Nat) : (recency tags).Nodup := by
  induction tags using List.reverseRecOn with
  | nil => exact .nil
  | append_singleton tags tag ih =>
    rw [recency_concat]
    exact List.nodup_cons.mpr ⟨ih.not_mem_erase, ih.erase tag⟩

theorem mem_recency : tag ∈ recency tags ↔ tag ∈ tags := by
  induction tags using List.reverseRecOn with
  | nil => exact Iff.rfl
  | append_singleton tags used ih =>
    rw [recency_concat, List.mem_cons, (nodup_recency tags).mem_erase_iff, ih, List.mem_append,
      List.mem_singleton]
    by_cases same : tag = used <;> simp [same]

/-- To strike out a member on the way to a tag is to strike it out before. -/
theorem takeWhile_erase {p : Nat → Bool} (wanted : p other = true) (order : List Nat) :
    (order.erase other).takeWhile p = (order.takeWhile p).erase other := by
  induction order with
  | nil => rfl
  | cons first rest ih =>
    by_cases same : first = other
    · subst same
      rw [List.erase_cons_head, List.takeWhile_cons_of_pos wanted, List.erase_cons_head]
    · rw [List.erase_cons_tail (by simpa using same)]
      by_cases passes : p first = true
      · rw [List.takeWhile_cons_of_pos passes, List.takeWhile_cons_of_pos passes, ih,
          List.erase_cons_tail (by simpa using same)]
      · rw [List.takeWhile_cons_of_neg passes, List.takeWhile_cons_of_neg passes, List.erase_nil]

/-- Above a tag in the stack are the tags that were used since its latest use. -/
theorem mem_takeWhile_recency :
    other ∈ (recency tags).takeWhile (· != tag) ↔ other ∈ tags.rtakeWhile (· != tag) := by
  induction tags using List.reverseRecOn with
  | nil => exact Iff.rfl
  | append_singleton tags used ih =>
    rw [recency_concat]
    by_cases same : used = tag
    · subst same
      rw [List.takeWhile_cons_of_neg (by simp), List.rtakeWhile_concat_neg _ _ _ (by simp)]
    · have apart : (used != tag) = true := bne_iff_ne.mpr same
      have nodup := (nodup_recency tags).sublist (List.takeWhile_sublist (· != tag))
      rw [List.takeWhile_cons_of_pos (p := (· != tag)) apart,
        takeWhile_erase (p := (· != tag)) apart, List.mem_cons,
        nodup.mem_erase_iff, ih, List.rtakeWhile_concat_pos (· != tag) _ _ apart, List.mem_append,
        List.mem_singleton]
      by_cases equal : other = used <;> simp [equal]

/-- The height above a tag in the stack is the number of distinct tags used since. -/
theorem length_takeWhile_recency (tags : List Nat) (tag : Nat) :
    ((recency tags).takeWhile (· != tag)).length =
      (tags.rtakeWhile (· != tag)).toFinset.card := by
  have nodup := (nodup_recency tags).sublist (List.takeWhile_sublist (· != tag))
  rw [← List.toFinset_card_of_nodup nodup]
  congr 1
  ext other
  rw [List.mem_toFinset, List.mem_toFinset, mem_takeWhile_recency]

theorem mem_take_iff : tag ∈ order.take ways ↔
    tag ∈ order ∧ (order.takeWhile (· != tag)).length < ways := by
  induction order generalizing ways with
  | nil => simp
  | cons first rest ih =>
    cases ways with
    | zero => simp
    | succ ways =>
      rw [List.take_succ_cons, List.mem_cons, List.mem_cons, ih]
      by_cases same : first = tag
      · simp [same]
      · have apart : (first != tag) = true := bne_iff_ne.mpr same
        rw [List.takeWhile_cons_of_pos (p := (· != tag)) apart, List.length_cons,
          Nat.add_lt_add_iff_right]
        simp [Ne.symm same]

theorem take_erase_take (tag : Nat) (order : List Nat) (ways : Nat) :
    ((order.take (ways + 1)).erase tag).take ways = (order.erase tag).take ways := by
  induction order generalizing ways with
  | nil => rfl
  | cons first rest ih =>
    rw [List.take_succ_cons]
    by_cases same : first = tag
    · subst same
      rw [List.erase_cons_head, List.erase_cons_head, List.take_take, Nat.min_self]
    · rw [List.erase_cons_tail (by simpa using same), List.erase_cons_tail (by simpa using same)]
      cases ways with
      | zero => rfl
      | succ ways => rw [List.take_succ_cons, List.take_succ_cons, ih]

/-- The top of the stack after a use depends on the top before it alone. -/
theorem take_cons_erase_take (tag : Nat) (order : List Nat) (ways : Nat) :
    (tag :: (order.take ways).erase tag).take ways = (tag :: order.erase tag).take ways := by
  cases ways with
  | zero => rfl
  | succ ways => rw [List.take_succ_cons, List.take_succ_cons, take_erase_take]

end Recency

namespace CacheSet
variable {s : CacheSet} {order : List Nat}

/-- After accesses to an empty set, it holds the top of the stack of the tags used. -/
theorem Stack.performAll (stack : s.Stack []) (uses : List (Nat × Bool)) :
    (s.performAll (accessTasks uses)).Stack ((recency (uses.map Prod.fst)).take s.ways) := by
  induction uses using List.reverseRecOn with
  | nil =>
    rw [List.map_nil, recency, List.foldl_nil, List.take_nil]
    exact stack
  | append_singleton uses use ih =>
    have next := ih.access use.1 use.2
    rw [ways_performAll, take_cons_erase_take, ← recency_concat] at next
    rw [accessTasks, List.map_append, List.map_append, performAll_append]
    exact next

end CacheSet

namespace Cache
variable {c start : Cache} {config : Config} {index : Nat} {address : UInt64}

/-- The tags that were used in one set. -/
def tagsAt (c : Cache) (index : Nat) (uses : List (UInt64 × Bool)) : List Nat :=
  (c.usesAt index uses).map Prod.fst

theorem tagsAt_eq_filterMap (c : Cache) (index : Nat) (uses : List (UInt64 × Bool)) :
    c.tagsAt index uses = uses.filterMap fun use =>
      if (c.locate use.1).1 = index then some (c.locate use.1).2 else none := by
  rw [tagsAt, usesAt, List.map_filterMap]
  congr 1
  funext use
  split <;> rfl

theorem mem_tagsAt {uses : List (UInt64 × Bool)} {tag : Nat} :
    tag ∈ c.tagsAt index uses ↔ ∃ use ∈ uses, c.locate use.1 = (index, tag) := by
  rw [tagsAt_eq_filterMap, List.mem_filterMap]
  refine exists_congr fun use => and_congr_right fun _ => ?_
  rw [Option.ite_none_right_eq_some, Option.some_inj, Prod.ext_iff]

/-- The uses of a set since the latest of a tag come from the accesses since the latest to
the line of that tag. -/
theorem tagsAt_rtakeWhile (c : Cache) (address : UInt64) (uses : List (UInt64 × Bool)) :
    (c.tagsAt (c.locate address).1 uses).rtakeWhile (· != (c.locate address).2) =
      c.tagsAt (c.locate address).1 (uses.rtakeWhile fun use => !c.SameLine use.1 address) := by
  rw [tagsAt_eq_filterMap, tagsAt_eq_filterMap, List.rtakeWhile, List.rtakeWhile,
    ← List.filterMap_reverse, List.takeWhile_filterMap, List.filterMap_reverse]
  congr 3
  funext use
  have same : c.SameLine use.1 address ↔ (c.locate use.1).1 = (c.locate address).1 ∧
      (c.locate use.1).2 = (c.locate address).2 := by
    rw [← locate_eq_iff, Prod.ext_iff]
  by_cases here : (c.locate use.1).1 = (c.locate address).1
  · simp [same, here, bne, beq_eq_decide]
  · simp [same, here]

/-- The lines of the set of an address that were accessed since the latest access to the
line of the address itself, or ever if there was none. -/
def usedSince (c : Cache) (address : UInt64) (uses : List (UInt64 × Bool)) :
    Finset (Nat × Nat) :=
  ((uses.rtakeWhile fun use => !c.SameLine use.1 address).map fun use => c.locate use.1).toFinset
    |>.filter fun place => place.1 = (c.locate address).1

/-- The lines used since are as many as the tags above the one of the address in the stack. -/
theorem card_usedSince (c : Cache) (address : UInt64) (uses : List (UInt64 × Bool)) :
    (c.usedSince address uses).card =
      ((recency (c.tagsAt (c.locate address).1 uses)).takeWhile
        (· != (c.locate address).2)).length := by
  rw [length_takeWhile_recency, tagsAt_rtakeWhile]
  generalize within : uses.rtakeWhile (fun use => !c.SameLine use.1 address) = since
  have lines : c.usedSince address uses =
      (c.tagsAt (c.locate address).1 since).toFinset.image (Prod.mk (c.locate address).1) := by
    ext ⟨index, tag⟩
    simp only [usedSince, within, Finset.mem_filter, List.mem_toFinset, List.mem_map,
      Finset.mem_image, mem_tagsAt, Prod.mk.injEq]
    constructor
    · rintro ⟨⟨use, member, place⟩, rfl⟩
      exact ⟨tag, ⟨use, member, place⟩, rfl, rfl⟩
    · rintro ⟨_, ⟨use, member, place⟩, rfl, rfl⟩
      exact ⟨⟨use, member, place⟩, rfl⟩
  rw [lines, Finset.card_image_of_injective _ (Prod.mk_right_injective _)]

/-- After accesses to an empty cache, a set holds the top of the stack of its tags. -/
theorem stack_run (built : ofConfig config = .ok start) (lru : config.policy = .lru)
    (address : UInt64) (uses : List (UInt64 × Bool)) :
    ((start.run (accesses uses)).2.setOf address).Stack
      ((recency (start.tagsAt (start.locate address).1 uses)).take config.ways.toNat) := by
  obtain ⟨stack, ways⟩ := Everywhere.setOf (stack_of_ofConfig built lru) address
  rw [setOf_run, filterMap_task?_accesses, ← ways]
  exact stack.performAll _

/-- Accesses to an empty cache that evicts the least recently used line never fail. Each
hits exactly when its line was accessed before, and fewer other lines of its set than there
are ways have been accessed since. -/
theorem hits_by_reuse_distance (built : ofConfig config = .ok start) (lru : config.policy = .lru)
    (before : List (UInt64 × Bool)) (address : UInt64) (write : Bool) :
    ∃ a, ((start.run (accesses before)).2.access address write).1 = .ok a ∧
      (a.hit = true ↔ (∃ use ∈ before, start.SameLine use.1 address) ∧
        (start.usedSince address before).card < config.ways.toNat) := by
  have stack := stack_run built lru address before
  obtain ⟨a, answered, hit⟩ := access_of_unpinned stack.unpinned write
  refine ⟨a, answered, ?_⟩
  have earlier : (start.locate address).2 ∈ start.tagsAt (start.locate address).1 before ↔
      ∃ use ∈ before, start.SameLine use.1 address := by
    simp only [mem_tagsAt, ← locate_eq_iff]
  calc
    a.hit = true
      ↔ (((start.run (accesses before)).2.setOf address).find?
          (start.locate address).2).isSome := by
        rw [hit, contains, find?, locate_run]
    _ ↔ _ := by
        rw [← stack.ranked.member, mem_take_iff, mem_recency, earlier, card_usedSince]

/-- With two ways, a line is still there after one other was used, even twice, and gone after
two others were. -/
theorem reuse_within_two_ways :
    ∃ start, ofConfig { Config.pair with policy := .lru } = .ok start ∧
      (∃ a, ((start.run (accesses [(0, true), (64, false), (64, true)])).2.access 0 false).1 =
        .ok a ∧ a.hit = true) ∧
      ∃ a, ((start.run (accesses [(0, true), (64, false), (128, true)])).2.access 0 false).1 =
        .ok a ∧ a.hit = false := by
  refine ⟨_, rfl, ?_, ?_⟩
  · obtain ⟨a, answered, hit⟩ := hits_by_reuse_distance
      (rfl : ofConfig { Config.pair with policy := .lru } = .ok _) rfl
      [(0, true), (64, false), (64, true)] 0 false
    exact ⟨a, answered, hit.mpr (by decide)⟩
  · obtain ⟨a, answered, hit⟩ := hits_by_reuse_distance
      (rfl : ofConfig { Config.pair with policy := .lru } = .ok _) rfl
      [(0, true), (64, false), (128, true)] 0 false
    exact ⟨a, answered, Bool.eq_false_iff.mpr fun found => absurd (hit.mp found) (by decide)⟩

end Cache

end SetAssociative
