import SetAssociative.Proofs.Occupancy

/-! A set in which nothing is pinned serves every access. Under two disciplines its lines
are a list ordered by recency: an access brings its line to the front, and when the set is
full the line that gives way is the last of the list, or the first. -/
namespace SetAssociative

/-- A request to access or to remove a line. -/
def Request.isPlain : Request → Bool
  | .access _ | .invalidate => true
  | .setPinned _ => false

namespace CacheSet
variable {s : CacheSet} {tag old : Nat} {order : List Nat} {victim : Line}

/-- A set with some way, and with no line pinned. -/
structure Unpinned (s : CacheSet) : Prop where
  sound : s.Sound
  some_way : 0 < s.ways
  released : ∀ {tag line}, s.Holds tag line → line.pinned = false

/-- The sets of an empty cache hold nothing that could be pinned. -/
theorem unpinned_ofGeometry (config : Config) (g : Geometry) (seed : UInt64) :
    (ofGeometry config g seed).Unpinned where
  sound := sound_empty (Policy.ways_fresh ..)
  some_way := by
    simpa only [ofGeometry, empty, ways, List.length_replicate] using g.ways_pos
  released held := absurd held not_holds_empty

/-- A way that holds a line may be evicted. -/
theorem Unpinned.view_of_valid (unpinned : s.Unpinned) {way : Nat} {w : Way}
    (here : s.way? way = some w) (valid : w.valid = true) : s.view way = true := by
  have held := holds_of_valid here valid
  exact held.view_of_released (unpinned.released held)

/-- In a full set every way may be evicted. -/
theorem Unpinned.view_of_full (unpinned : s.Unpinned) (full : s.freeWay? = none) {way : Nat}
    (inside : way < s.ways) : s.view way = true := by
  have here : s.way? way = some _ := List.getElem?_eq_getElem inside
  refine unpinned.view_of_valid here ?_
  simpa using List.findIdx?_eq_none_iff.mp full _ (List.mem_of_getElem? here)

/-- A set that is full of lines that are not pinned has a way to give up. -/
theorem Unpinned.not_closed (unpinned : s.Unpinned) (full : s.freeWay? = none) :
    ¬ ∀ way < s.ways, s.view way = false := by
  intro closed
  have open_way := unpinned.view_of_full full unpinned.some_way
  rw [closed 0 unpinned.some_way] at open_way
  cases open_way

/-- Accesses and removals pin nothing. -/
theorem Unpinned.serve (unpinned : s.Unpinned) (tag : Nat) {request : Request}
    (plain : request.isPlain = true) : (s.serve tag request).set.Unpinned := by
  have sound := unpinned.sound.serve tag request
  refine ⟨sound, (ways_serve ..).symm ▸ unpinned.some_way, ?_⟩
  intro other line after
  have effect := effect_serve unpinned.sound.fits tag request
  generalize s.serve tag request = response at effect after
  cases effect with
  | hit kept found held =>
    have still : kept.pinned = false := unpinned.released held
    rcases (holds_put held.inside).mp after with ⟨-, rfl⟩ | ⟨-, before⟩
    · exact still
    · exact unpinned.released before
  | fill way w absent free here vacant =>
    rcases (holds_put (lt_ways_of_way? here)).mp after with ⟨-, rfl⟩ | ⟨-, before⟩
    · rfl
    · exact unpinned.released before
  | replace gone victim absent full chosen held released =>
    rcases (holds_put held.inside).mp after with ⟨-, rfl⟩ | ⟨-, before⟩
    · rfl
    · exact unpinned.released before
  | removed kept found held => exact unpinned.released ((holds_clear held.inside).mp after).2
  | exhausted | missing => exact unpinned.released after
  | pinned | unfound => cases plain

/-- An access to a set without pinned lines succeeds, and hits what the set holds. -/
theorem Unpinned.reply_access (unpinned : s.Unpinned) (tag : Nat) (write : Bool) :
    ∃ p, (s.serve tag (.access write)).reply = .placed (.ok p) ∧
      p.hit = (s.find? tag).isSome := by
  have effect := effect_serve unpinned.sound.fits tag (.access write)
  generalize s.serve tag (.access write) = response at effect
  cases effect with
  | hit line found held => exact ⟨_, rfl, by rw [found]; rfl⟩
  | fill way w absent free here vacant => exact ⟨_, rfl, by rw [absent]; rfl⟩
  | replace gone victim absent full chosen held released => exact ⟨_, rfl, by rw [absent]; rfl⟩
  | exhausted absent full none_open => exact absurd none_open (unpinned.not_closed full)

/-- The line with the earliest stamp is the last of the ranking. -/
theorem Ranked.eq_dropLast_append (ranked : s.Ranked order) (member : old ∈ order)
    (least : ∀ tag ∈ order, s.stamp old ≤ s.stamp tag) : order = order.dropLast ++ [old] := by
  have some := List.ne_nil_of_mem member
  have last : order.getLast some = old := by
    refine Classical.byContradiction fun apart => ?_
    have split := List.dropLast_concat_getLast some
    have inside : old ∈ order.dropLast := by
      rw [← split, List.mem_append, List.mem_singleton] at member
      exact member.resolve_right (Ne.symm apart)
    have falls := ranked.descending
    rw [← split, List.pairwise_append] at falls
    have less := falls.2.2 old inside _ (List.mem_singleton_self _)
    exact absurd (least _ (List.getLast_mem some)) (Nat.not_le.mpr less)
  rw [← last]
  exact (List.dropLast_concat_getLast some).symm

/-- To strike out the line with the earliest stamp is to drop the last. -/
theorem Ranked.erase_oldest (ranked : s.Ranked order) (member : old ∈ order)
    (least : ∀ tag ∈ order, s.stamp old ≤ s.stamp tag) : order.erase old = order.dropLast := by
  have last := ranked.eq_dropLast_append member least
  have alone : old ∉ order.dropLast := by
    have nodup := ranked.nodup
    rw [last, List.nodup_append] at nodup
    exact fun inside => nodup.2.2 old inside old (List.mem_singleton_self old) rfl
  calc
    order.erase old = (order.dropLast ++ [old]).erase old := by rw [← last]
    _ = order.dropLast ++ [old].erase old := List.erase_append_right _ alone
    _ = order.dropLast := by rw [List.erase_cons_head, List.append_nil]

/-- To strike out the line with the latest stamp is to drop the first. -/
theorem Ranked.erase_newest (ranked : s.Ranked order) (member : old ∈ order)
    (greatest : ∀ tag ∈ order, s.stamp tag ≤ s.stamp old) : order.erase old = order.tail := by
  cases order with
  | nil => cases member
  | cons first rest =>
    rcases List.mem_cons.mp member with rfl | later
    · exact List.erase_cons_head ..
    · have less := (List.pairwise_cons.mp ranked.descending).1 old later
      exact absurd (greatest first List.mem_cons_self) (Nat.not_le.mpr less)

/-- An access finds its line, or there is room for it, or the victim of the policy is struck
out for it. -/
theorem Unpinned.access_cases (unpinned : s.Unpinned) (ranked : s.Ranked order)
    (stamped : s.policy.kind.stampsOn .fill = true) (tag : Nat) (write : Bool) :
    let after := (s.serve tag (.access write)).set
    (tag ∈ order ∧
      after.Ranked (if s.policy.kind.stampsOn .hit then tag :: order.erase tag else order)) ∨
    (tag ∉ order ∧ order.length < s.ways ∧ after.Ranked (tag :: order)) ∨
    (tag ∉ order ∧ order.length = s.ways ∧ ∃ old victim,
      (s.policy.search s.view).1 = some victim.way ∧ s.Holds old victim ∧
        after.Ranked (tag :: order.erase old)) := by
  intro after
  have length := ranked.length_eq unpinned.sound.tidy
  have reranked := ranked.serve unpinned.sound stamped tag (.access write)
  have effect := effect_serve unpinned.sound.fits tag (.access write)
  have same : after = (s.serve tag (.access write)).set := rfl
  rw [same]
  generalize s.serve tag (.access write) = response at effect reranked
  cases effect with
  | hit line found held => exact .inl ⟨ranked.member.mpr (by rw [found]; rfl), reranked⟩
  | fill way w absent free here vacant =>
    exact .inr (.inl ⟨ranked.not_mem absent, length ▸ occupancy_lt_ways free, reranked⟩)
  | replace old victim absent full chosen held released =>
    refine .inr (.inr ⟨ranked.not_mem absent, ?_, old, victim, chosen, held, reranked⟩)
    rw [length, occupancy_eq_ways full]
  | exhausted absent full none_open => exact absurd none_open (unpinned.not_closed full)

/-- After an access under the least recently used discipline, its line comes first, and the
last line is gone if there are more of them than ways. -/
theorem Unpinned.ranked_access_lru (unpinned : s.Unpinned) (ranked : s.Ranked order)
    (lru : s.policy.kind = .lru) (tag : Nat) (write : Bool) :
    (s.serve tag (.access write)).set.Ranked ((tag :: order.erase tag).take s.ways) := by
  have tidy := unpinned.sound.tidy
  have bound : order.length ≤ s.ways := ranked.length_eq tidy ▸ s.occupancy_le_ways
  rcases unpinned.access_cases ranked (by rw [lru]; rfl) tag write with
    ⟨member, after⟩ | ⟨absent, room, after⟩ | ⟨absent, full, old, victim, chosen, held, after⟩
  · have fits : (tag :: order.erase tag).length ≤ s.ways := by
      have positive := List.length_pos_of_mem member
      rw [List.length_cons, List.length_erase_of_mem member]
      omega
    rw [lru] at after
    rwa [List.take_of_length_le fits]
  · have fits : (tag :: order).length ≤ s.ways := room
    rwa [List.erase_of_not_mem absent, List.take_of_length_le fits]
  · have struck : order.erase old = order.dropLast := by
      have member := (ranked.mem_iff_holds tidy).mpr ⟨victim, held⟩
      refine ranked.erase_oldest member fun other listed => ?_
      obtain ⟨line, also⟩ := (ranked.mem_iff_holds tidy).mp listed
      exact stamp_oldest_le unpinned.sound (.inl lru) chosen held also (unpinned.released also)
    rw [struck, List.dropLast_eq_take, full] at after
    rwa [List.erase_of_not_mem absent, List.take_cons unpinned.some_way]

/-- After an access under the most recently used discipline, its line comes first, and the
line that came first before is gone if a full set did not hold the line. -/
theorem Unpinned.ranked_access_mru (unpinned : s.Unpinned) (ranked : s.Ranked order)
    (mru : s.policy.kind = .mru) (tag : Nat) (write : Bool) :
    (s.serve tag (.access write)).set.Ranked
      (if tag ∈ order then tag :: order.erase tag
        else if order.length < s.ways then tag :: order else tag :: order.tail) := by
  have tidy := unpinned.sound.tidy
  rcases unpinned.access_cases ranked (by rw [mru]; rfl) tag write with
    ⟨member, after⟩ | ⟨absent, room, after⟩ | ⟨absent, full, old, victim, chosen, held, after⟩
  · rw [mru] at after
    rwa [if_pos member]
  · rwa [if_neg absent, if_pos room]
  · have struck : order.erase old = order.tail := by
      have member := (ranked.mem_iff_holds tidy).mpr ⟨victim, held⟩
      refine ranked.erase_newest member fun other listed => ?_
      obtain ⟨line, also⟩ := (ranked.mem_iff_holds tidy).mp listed
      exact le_stamp_newest unpinned.sound mru chosen held also (unpinned.released also)
    rw [if_neg absent, if_neg (Nat.not_lt.mpr (Nat.le_of_eq full.symm)), ← struck]
    exact after

end CacheSet

/-- The sets of an empty cache have the ways and the discipline of its configuration, and rank
no line. -/
theorem Cache.fresh_of_ofConfig {config : Config} {start : Cache}
    (built : ofConfig config = .ok start) :
    start.Everywhere fun _ s => s.Unpinned ∧ s.Ranked [] ∧ s.policy.kind = config.policy ∧
      s.ways = config.ways.toNat := by
  obtain ⟨g, sound, -, fresh⟩ := of_ofConfig built
  intro index s there
  rw [fresh index s there, ← (Config.of_geometry sound).1]
  exact ⟨CacheSet.unpinned_ofGeometry .., CacheSet.ranked_ofGeometry .., Policy.kind_fresh ..,
    List.length_replicate⟩

/-- An access to an address whose set has nothing pinned succeeds, and hits what the cache
contains. -/
theorem Cache.access_of_unpinned {c : Cache} {address : UInt64}
    (unpinned : (c.setOf address).Unpinned) (write : Bool) :
    ∃ a, (c.access address write).1 = .ok a ∧ a.hit = c.contains address := by
  obtain ⟨p, replied, hit⟩ := unpinned.reply_access (c.locate address).2 write
  exact ⟨_, access_of_placed replied, hit⟩

end SetAssociative
