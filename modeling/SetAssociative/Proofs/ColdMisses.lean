import Mathlib.Data.Finset.Card
import SetAssociative.Proofs.CacheRepresentation
import SetAssociative.Proofs.LineTotals
import SetAssociative.Proofs.PinnedResidency
import SetAssociative.Proofs.SetProjection

/-! A set fills before it evicts. While only accesses are made and lines are pinned and
unpinned, no line leaves a set that still has a free way, and a set that is full stays full.
So it holds as many lines as were used, up to its ways, and while all of them have room it
misses exactly the lines that are new to it. No choice of the policy has a part in this. -/
namespace SetAssociative

namespace CacheSet
variable {s : CacheSet} {seen : Finset Nat} {tag : Nat} {write : Bool}

/-- A set that was filled with the lines of the tags used so far, as far as it has ways. -/
structure Filled (s : CacheSet) (seen : Finset Nat) : Prop where
  sound : s.Sound
  used : ∀ tag ∈ s.tags, tag ∈ seen
  occupancy : s.occupancy = min s.ways seen.card

/-- As long as all lines have room, the set holds every one of them. -/
theorem Filled.holds_all (filled : s.Filled seen) (room : seen.card ≤ s.ways)
    (used : tag ∈ seen) : (s.find? tag).isSome := by
  have lines : s.tags.toFinset.card = seen.card := by
    rw [List.toFinset_card_of_nodup filled.sound.tidy.nodup_tags, length_tags, filled.occupancy,
      Nat.min_eq_right room]
  have all : s.tags.toFinset = seen :=
    Finset.eq_of_subset_of_card_le (fun tag member => filled.used tag (List.mem_toFinset.mp member))
      lines.ge
  rw [← all, List.mem_toFinset] at used
  exact mem_tags.mp used

/-- As long as all lines have room, a tag that is not found is new. -/
theorem Filled.unused_of_find? (filled : s.Filled seen) (room : seen.card ≤ s.ways)
    (absent : s.find? tag = none) : tag ∉ seen := by
  intro used
  have held := filled.holds_all room used
  rw [absent] at held
  cases held

theorem Filled.used_of_find? (filled : s.Filled seen) {way : Nat}
    (found : s.find? tag = some way) : tag ∈ seen :=
  filled.used tag (mem_tags.mpr (Option.isSome_of_eq_some found))

/-- A set without a free way was filled with as many lines at least. -/
theorem Filled.ways_le_card (filled : s.Filled seen) (full : s.freeWay? = none) :
    s.ways ≤ seen.card := by
  have all := filled.occupancy
  rw [occupancy_eq_ways full] at all
  exact all ▸ Nat.min_le_right ..

/-- A set with a free way has room for one line more. -/
theorem Filled.card_lt_ways (filled : s.Filled seen) {way : Nat} (free : s.freeWay? = some way) :
    seen.card < s.ways := by
  have less := occupancy_lt_ways free
  have all := filled.occupancy
  omega

/-- An access leaves the set filled with the line accessed and with all lines before. -/
theorem Filled.access (filled : s.Filled seen) (tag : Nat) (write : Bool) :
    (s.serve tag (.access write)).set.Filled (insert tag seen) where
  sound := filled.sound.serve tag _
  used := by
    intro other held
    exact Finset.mem_insert.mpr ((filled.sound.mem_tags_serve held).imp_right (filled.used other))
  occupancy := by
    have all := filled.occupancy
    have grows : seen.card ≤ (insert tag seen).card := Finset.card_le_card (Finset.subset_insert ..)
    rw [ways_serve]
    have effect := effect_serve filled.sound.fits tag (.access write)
    generalize s.serve tag (.access write) = response at effect
    cases effect with
    | hit line found held =>
      rw [Finset.insert_eq_of_mem (filled.used_of_find? found)]
      exact (occupancy_put_of_holds held).trans all
    | fill way w absent free here vacant =>
      have room := filled.card_lt_ways free
      have more : (s.put tag way write false).occupancy = s.occupancy + 1 :=
        occupancy_put_of_vacant here vacant
      refine more.trans ?_
      rw [Finset.card_insert_of_notMem (filled.unused_of_find? room.le absent), all]
      omega
    | replace old victim absent full chosen held released =>
      have kept : (s.put tag victim.way write false).occupancy = s.occupancy :=
        occupancy_put_of_holds held
      rw [Nat.min_eq_left ((filled.ways_le_card full).trans grows), ← occupancy_eq_ways full]
      exact kept
    | exhausted absent full none_open =>
      rw [Nat.min_eq_left ((filled.ways_le_card full).trans grows), ← occupancy_eq_ways full]
      rfl

/-- To pin or to unpin a line brings none and takes none. -/
theorem Filled.setPinned (filled : s.Filled seen) (tag : Nat) (pinned : Bool) :
    (s.serve tag (.setPinned pinned)).set.Filled seen := by
  have sound := filled.sound.serve tag (.setPinned pinned)
  have ways := s.ways_serve tag (.setPinned pinned)
  have before : ∀ other ∈ (s.serve tag (.setPinned pinned)).set.tags,
      other = tag ∨ other ∈ s.tags := fun _ held => filled.sound.mem_tags_serve held
  have effect := effect_serve filled.sound.fits tag (.setPinned pinned)
  generalize s.serve tag (.setPinned pinned) = response at effect sound ways before
  cases effect with
  | pinned line found held =>
    refine ⟨sound, fun other member => ?_, ?_⟩
    · rcases before other member with rfl | old
      · exact filled.used_of_find? found
      · exact filled.used other old
    · rw [ways, ← filled.occupancy]
      exact occupancy_put_of_holds held
  | unfound absent => exact filled

/-- While all lines used have room, an access is served without an eviction, and hits exactly
the lines that were used before. -/
theorem Filled.reply_access (filled : s.Filled seen) (room : (insert tag seen).card ≤ s.ways)
    (write : Bool) : ∃ p, (s.serve tag (.access write)).reply = .placed (.ok p) ∧
      p.evicted = none ∧ (p.hit = true ↔ tag ∈ seen) := by
  have fits : seen.card ≤ s.ways :=
    (Finset.card_le_card (Finset.subset_insert ..)).trans room
  -- a line that is not found is new, and finds a way free since it has room as well
  have unfull : s.find? tag = none → s.freeWay? ≠ none := by
    intro absent full
    rw [Finset.card_insert_of_notMem (filled.unused_of_find? fits absent)] at room
    exact absurd (filled.ways_le_card full) (Nat.not_le.mpr room)
  have effect := effect_serve filled.sound.fits tag (.access write)
  generalize s.serve tag (.access write) = response at effect
  cases effect with
  | hit line found held => exact ⟨_, rfl, rfl, iff_of_true rfl (filled.used_of_find? found)⟩
  | fill way w absent free here vacant =>
    exact ⟨_, rfl, rfl, iff_of_false Bool.false_ne_true (filled.unused_of_find? fits absent)⟩
  | replace _ _ absent full | exhausted absent full => exact absurd full (unfull absent)

/-- An empty set was filled with nothing. -/
theorem filled_ofGeometry (config : Config) (g : Geometry) (seed : UInt64) :
    (ofGeometry config g seed).Filled ∅ where
  sound := sound_empty (Policy.ways_fresh ..)
  used := by
    intro tag member
    rw [mem_tags, ← (ranked_ofGeometry config g seed).member] at member
    cases member
  occupancy := by
    rw [Finset.card_empty, Nat.min_zero]
    have sound : (ofGeometry config g seed).Sound := sound_empty (Policy.ways_fresh ..)
    exact ((ranked_ofGeometry config g seed).length_eq sound.tidy).symm

end CacheSet

namespace Cache
variable {c start : Cache} {config : Config} {op : Op} {index tag : Nat}

/-- An operation that takes no line out of a set but to make room for another. -/
def Op.keepsLines : Op → Bool
  | .invalidate _ | .flush => false
  | _ => true

/-- The tag that an operation uses in one set, if it is an access to that set. -/
def tagUsed? (c : Cache) (index : Nat) : Op → Option Nat
  | .access address _ =>
    if (c.locate address).1 = index then some (c.locate address).2 else none
  | _ => none

/-- The distinct tags of one set that a run accesses, whether or not an access succeeds. -/
def tagsUsed (c : Cache) (index : Nat) (ops : List Op) : Finset Nat :=
  (ops.filterMap (c.tagUsed? index)).toFinset

theorem mem_tagsUsed {ops : List Op} : tag ∈ c.tagsUsed index ops ↔
    ∃ address write, .access address write ∈ ops ∧ c.locate address = (index, tag) := by
  rw [tagsUsed, List.mem_toFinset, List.mem_filterMap]
  constructor
  · rintro ⟨op, member, used⟩
    cases op with
    | access address write =>
      simp only [tagUsed?] at used
      split at used
      · rename_i here
        exact ⟨address, write, member, Prod.ext here (Option.some.inj used)⟩
      · cases used
    | pin | unpin | invalidate | flush | resetStats => cases used
  · rintro ⟨address, write, member, place⟩
    refine ⟨_, member, ?_⟩
    simp only [tagUsed?, place, ↓reduceIte]

theorem tagsUsed_concat (c : Cache) (index : Nat) (ops : List Op) (op : Op) :
    c.tagsUsed index (ops ++ [op]) =
      (c.tagUsed? index op).elim (c.tagsUsed index ops) (insert · (c.tagsUsed index ops)) := by
  rw [tagsUsed, List.filterMap_append, List.toFinset_append, filterMap_cons_append]
  cases c.tagUsed? index op with
  | none => exact Finset.union_empty _
  | some tag => exact Finset.union_comm _ _

/-- The task that an operation has for a set leaves it filled with what was used. -/
theorem filled_perform {s : CacheSet} {seen : Finset Nat} (filled : s.Filled seen)
    (keeps : op.keepsLines = true) :
    (s.performAll (c.task? index op).toList).Filled
      ((c.tagUsed? index op).elim seen (insert · seen)) := by
  cases op with
  | access address write =>
    simp only [task?, Op.request?, tagUsed?]
    split
    · exact filled.access _ write
    · exact filled
  | pin address | unpin address =>
    simp only [task?, Op.request?]
    split
    · exact filled.setPinned ..
    · exact filled
  | resetStats => exact filled
  | invalidate | flush => cases keeps

theorem filled_performAll (c : Cache) (index : Nat) {s : CacheSet} (empty : s.Filled ∅)
    {ops : List Op} (keeps : ∀ op ∈ ops, op.keepsLines = true) :
    (s.performAll (ops.filterMap (c.task? index))).Filled (c.tagsUsed index ops) := by
  induction ops using List.reverseRecOn with
  | nil => exact empty
  | append_singleton ops op ih =>
    rw [List.forall_mem_append] at keeps
    rw [List.filterMap_append, CacheSet.performAll_append, filterMap_cons_append,
      List.filterMap_nil, List.append_nil, tagsUsed_concat]
    exact filled_perform (ih keeps.1) (keeps.2 op (List.mem_singleton_self op))

theorem filled_of_run (built : ofConfig config = .ok start) {ops : List Op}
    (keeps : ∀ op ∈ ops, op.keepsLines = true) :
    (start.run ops).2.Everywhere fun index s => s.Filled (start.tagsUsed index ops) := by
  obtain ⟨g, -, -, fresh⟩ := of_ofConfig built
  intro index s there
  rw [getElem?_sets_run] at there
  obtain ⟨before, here, rfl⟩ := Option.map_eq_some_iff.mp there
  rw [fresh index before here]
  exact filled_performAll start index (CacheSet.filled_ofGeometry ..) keeps

/-- While lines are only accessed, pinned and unpinned, every set of a new cache holds as many
lines as were accessed in it, up to its ways. As long as all of these have room, an access to
the set succeeds, evicts nothing, and hits exactly if its line was accessed before. -/
theorem sets_fill_before_they_evict (built : ofConfig config = .ok start) {before : List Op}
    (keeps : ∀ op ∈ before, op.keepsLines = true) :
    (∀ (index : Nat) (s : CacheSet), (start.run before).2.sets[index]? = some s →
      s.occupancy = min config.ways.toNat (start.tagsUsed index before).card) ∧
    ∀ (address : UInt64) (write : Bool),
      (start.tagsUsed (start.locate address).1 (before ++ [.access address write])).card ≤
        config.ways.toNat →
      ∃ a, ((start.run before).2.access address write).1 = .ok a ∧ a.evicted = none ∧
        (a.hit = true ↔ ∃ other w, .access other w ∈ before ∧ start.SameLine other address) := by
  have filled := filled_of_run built keeps
  have kept := kept_of_run built before
  refine ⟨fun index s there => ?_, fun address write room => ?_⟩
  · rw [(filled index s there).occupancy, (kept index s there).ways]
  · have here := Everywhere.setOf filled address
    have ways := (Everywhere.setOf kept address).ways
    simp only [locate_run] at here
    have used : start.tagUsed? (start.locate address).1 (.access address write) =
        some (start.locate address).2 := if_pos rfl
    rw [tagsUsed_concat, used, Option.elim_some, ← ways] at room
    obtain ⟨p, replied, kept, hit⟩ := here.reply_access room write
    rw [← locate_run start before address] at replied
    refine ⟨_, access_of_placed replied, kept, ?_⟩
    rw [hit, mem_tagsUsed]
    simp only [Prod.eta, locate_eq_iff]

/-- Both ways are taken and pinned, and stay taken when a third line finds no place. Before it
comes, the first line is still found. -/
theorem pinned_pair_stays_full :
    ∃ start, ofConfig Config.pair = .ok start ∧
      let two : List Op := [.access 0 true, .pin 0, .access 64 false, .pin 64]
      (∀ s, (start.run (two ++ [.access 128 false])).2.sets[0]? = some s →
        s.occupancy = min 2 (start.tagsUsed 0 (two ++ [.access 128 false])).card) ∧
      (start.tagsUsed 0 (two ++ [.access 128 false])).card = 3 ∧
      ∃ a, ((start.run two).2.access 0 false).1 = .ok a ∧ a.evicted = none ∧ a.hit = true := by
  have built : ofConfig Config.pair = .ok _ := rfl
  have keeps : ∀ op ∈ ([.access 0 true, .pin 0, .access 64 false, .pin 64] : List Op),
      op.keepsLines = true := by decide
  refine ⟨_, built, ?_, by decide, ?_⟩
  · exact (sets_fill_before_they_evict built (by decide)).1 0
  · obtain ⟨a, served, kept, hit⟩ :=
      (sets_fill_before_they_evict built keeps).2 0 false (by decide)
    exact ⟨a, served, kept, hit.mpr ⟨0, true, by decide, by decide⟩⟩

end Cache

end SetAssociative
