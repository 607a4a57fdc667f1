import SetAssociative.Proofs.StampOrder

/-! How many lines a set holds. The tags of its valid ways are as many as these ways, and
every ranking of the lines is a permutation of them. -/
namespace SetAssociative.CacheSet
variable {s : CacheSet} {tag way : Nat} {order : List Nat}

/-- The number of valid ways. -/
def occupancy (s : CacheSet) : Nat := s.slots.countP Way.valid

/-- The tags of the valid ways, in the order of the ways. -/
def tags (s : CacheSet) : List Nat := (s.slots.filter Way.valid).map Way.tag

theorem length_tags (s : CacheSet) : s.tags.length = s.occupancy := by
  rw [tags, List.length_map, occupancy, List.countP_eq_length_filter]

theorem mem_tags : tag ∈ s.tags ↔ (s.find? tag).isSome := by
  simp only [tags, find?, List.mem_map, List.mem_filter, List.findIdx?_isSome, List.any_eq_true,
    Bool.and_eq_true, beq_iff_eq, and_assoc]

theorem occupancy_le_ways (s : CacheSet) : s.occupancy ≤ s.ways := List.countP_le_length

theorem occupancy_eq_ways (full : s.freeWay? = none) : s.occupancy = s.ways := by
  refine List.countP_eq_length.mpr fun w member => ?_
  simpa using List.findIdx?_eq_none_iff.mp full w member

theorem occupancy_lt_ways (free : s.freeWay? = some way) : s.occupancy < s.ways := by
  refine Nat.lt_of_le_of_ne s.occupancy_le_ways fun all => ?_
  obtain ⟨⟨w, here, vacant⟩, -⟩ := way?_of_freeWay? free
  have valid := List.countP_eq_length.mp all w (List.mem_of_getElem? here)
  rw [vacant] at valid
  cases valid

/-- No tag is listed twice in a tidy set. -/
theorem Tidy.nodup_tags (tidy : s.Tidy) : s.tags.Nodup := by
  have apart : s.slots.Pairwise fun v w => v.valid = true → w.valid = true → v.tag ≠ w.tag := by
    refine List.pairwise_iff_getElem.mpr fun i j first second less left right same => ?_
    have one := holds_of_valid (List.getElem?_eq_getElem first) left
    have other := holds_of_valid (List.getElem?_eq_getElem second) right
    rw [← same] at other
    exact Nat.ne_of_lt less (congrArg Line.way (tidy.unique one other))
  refine List.pairwise_map.mpr (List.pairwise_filter.mpr ?_)
  exact apart.imp fun differ left right => differ left right

/-- A request brings no tag into a sound set but its own. -/
theorem Sound.mem_tags_serve (sound : s.Sound) {used other : Nat} {request : Request}
    (held : other ∈ (s.serve used request).set.tags) : other = used ∨ other ∈ s.tags := by
  rw [mem_tags, (sound.serve used request).tidy.isSome_find?_iff] at held
  rw [mem_tags, sound.tidy.isSome_find?_iff]
  obtain ⟨line, there⟩ := held
  exact holds_of_serve sound.fits there

/-- A ranking lists as many lines as there are valid ways. -/
theorem Ranked.length_eq (ranked : s.Ranked order) (tidy : s.Tidy) :
    order.length = s.occupancy := by
  rw [← length_tags]
  refine List.Perm.length_eq ((List.perm_ext_iff_of_nodup ranked.nodup tidy.nodup_tags).mpr ?_)
  intro tag
  rw [ranked.member, mem_tags]

end SetAssociative.CacheSet
