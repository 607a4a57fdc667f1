import Mathlib.Data.Nat.Count
import SetAssociative.Proofs.SetProjection
import SetAssociative.Proofs.UnpinnedSets

/-! A loop over more lines than a set has ways. Between two uses of a line all others are
used, so that a set can only hit what it already held one lap ago; and of its ways one is
always taken by the line used last. This bounds the hits of every discipline. -/
namespace SetAssociative

/-- A sequence of tags that goes around a number of distinct ones. -/
structure Loop (tag : Nat → Nat) (period : Nat) : Prop where
  returns : ∀ i, tag (i + period) = tag i
  apart : ∀ {i j : Nat}, i < j → j < i + period → tag i ≠ tag j

theorem Loop.eq_of_tag_eq {tag : Nat → Nat} {period i j : Nat} (loop : Loop tag period)
    (near : i < j + period) (close : j < i + period) (same : tag i = tag j) : i = j := by
  rcases Nat.lt_trichotomy i j with before | equal | behind
  · exact absurd same (loop.apart before close)
  · exact equal
  · exact absurd same.symm (loop.apart behind near)

namespace CacheSet
variable {s : CacheSet} {tag : Nat → Nat} {write : Nat → Bool} {period i n : Nat}

/-- A set after the first accesses of a sequence. -/
def after (s : CacheSet) (tag : Nat → Nat) (write : Nat → Bool) (n : Nat) : CacheSet :=
  s.performAll (accessTasks ((List.range n).map fun i => (tag i, write i)))

/-- Whether an access of the sequence finds its line. -/
def hitsAt (s : CacheSet) (tag : Nat → Nat) (write : Nat → Bool) (i : Nat) : Prop :=
  tag i ∈ (s.after tag write i).tags

instance (s : CacheSet) (tag : Nat → Nat) (write : Nat → Bool) :
    DecidablePred (s.hitsAt tag write) :=
  fun i => inferInstanceAs (Decidable (tag i ∈ (s.after tag write i).tags))

theorem after_succ (s : CacheSet) (tag : Nat → Nat) (write : Nat → Bool) (n : Nat) :
    s.after tag write (n + 1) =
      ((s.after tag write n).serve (tag n) (.access (write n))).set := by
  rw [after, List.range_succ, List.map_append, accessTasks, List.map_append, performAll_append]
  rfl

@[simp] theorem ways_after (s : CacheSet) (tag : Nat → Nat) (write : Nat → Bool) (n : Nat) :
    (s.after tag write n).ways = s.ways := ways_performAll ..

@[simp] theorem kind_after (s : CacheSet) (tag : Nat → Nat) (write : Nat → Bool) (n : Nat) :
    (s.after tag write n).policy.kind = s.policy.kind := kind_performAll ..

theorem Unpinned.after (unpinned : s.Unpinned) (tag : Nat → Nat) (write : Nat → Bool) (n : Nat) :
    (s.after tag write n).Unpinned := by
  induction n with
  | zero => exact unpinned
  | succ n ih =>
    rw [after_succ]
    exact ih.serve (tag n) rfl

/-- The line of an access is held after it. -/
theorem Unpinned.used_mem_tags (unpinned : s.Unpinned) (used : Nat) (write : Bool) :
    used ∈ (s.serve used (.access write)).set.tags := by
  rw [mem_tags, (unpinned.sound.serve used (.access write)).tidy.isSome_find?_iff]
  have effect := effect_serve unpinned.sound.fits used (.access write)
  generalize s.serve used (.access write) = response at effect
  cases effect with
  | hit line found held => exact ⟨_, (holds_put held.inside).mpr (.inl ⟨rfl, rfl⟩)⟩
  | fill way w absent free here vacant =>
    exact ⟨_, (holds_put (lt_ways_of_way? here)).mpr (.inl ⟨rfl, rfl⟩)⟩
  | replace old victim absent full chosen held released =>
    exact ⟨_, (holds_put held.inside).mpr (.inl ⟨rfl, rfl⟩)⟩
  | exhausted absent full none_open => exact absurd none_open (unpinned.not_closed full)

/-- What is held after some accesses to other lines was held before them. -/
theorem Unpinned.mem_tags_after (unpinned : s.Unpinned) {other steps : Nat}
    (held : other ∈ (s.after tag write (i + steps)).tags)
    (unused : ∀ step < steps, tag (i + step) ≠ other) : other ∈ (s.after tag write i).tags := by
  induction steps with
  | zero => exact held
  | succ steps ih =>
    rw [← Nat.add_assoc, after_succ] at held
    have sound := (unpinned.after tag write (i + steps)).sound
    apply ih
    · exact (sound.mem_tags_serve held).resolve_left (unused steps (Nat.lt_succ_self steps)).symm
    · exact fun step less => unused step (Nat.lt_succ_of_lt less)

theorem card_tags_le (s : CacheSet) : s.tags.toFinset.card ≤ s.ways :=
  calc
    s.tags.toFinset.card ≤ s.tags.length := s.tags.toFinset_card_le
    _ = s.occupancy := s.length_tags
    _ ≤ s.ways := s.occupancy_le_ways

/-- No access of the first lap finds its line in a set that was empty. -/
theorem Unpinned.not_hitsAt (unpinned : s.Unpinned) (blank : s.Ranked []) (write : Nat → Bool)
    (loop : Loop tag period) (first : i < period) : ¬ s.hitsAt tag write i := by
  intro hit
  have kept : tag i ∈ (s.after tag write (0 + i)).tags := by rwa [Nat.zero_add]
  have before : tag i ∈ s.tags :=
    unpinned.mem_tags_after kept fun step less => loop.apart (by omega) (by omega)
  rw [mem_tags, ← blank.member] at before
  cases before

/-- Of fewer accesses than a lap takes, no more hit than there are ways besides one: all lines
found were already there at the beginning, next to the line used just before. -/
theorem Unpinned.hits_le_of_lt (unpinned : s.Unpinned) (loop : Loop tag period)
    (write : Nat → Bool) {steps : Nat} (within : steps < period) (i : Nat) :
    Nat.count (fun step => s.hitsAt tag write (i + 1 + step)) steps ≤ s.ways - 1 := by
  have used : tag i ∈ (s.after tag write (i + 1)).tags.toFinset := by
    rw [List.mem_toFinset, after_succ]
    exact (unpinned.after tag write i).used_mem_tags (tag i) (write i)
  have bound := (s.after tag write (i + 1)).card_tags_le
  rw [ways_after] at bound
  calc
    Nat.count (fun step => s.hitsAt tag write (i + 1 + step)) steps
      = ((Finset.range steps).filter fun step => s.hitsAt tag write (i + 1 + step)).card :=
        Nat.count_eq_card_filter_range ..
    _ ≤ ((s.after tag write (i + 1)).tags.toFinset.erase (tag i)).card := by
        apply Finset.card_le_card_of_injOn fun step => tag (i + 1 + step)
        · intro step member
          obtain ⟨less, hit⟩ := Finset.mem_filter.mp member
          have bound := Finset.mem_range.mp less
          refine Finset.mem_erase.mpr ⟨(loop.apart (by omega) (by omega)).symm, ?_⟩
          rw [List.mem_toFinset]
          exact unpinned.mem_tags_after hit fun other less => loop.apart (by omega) (by omega)
        · intro one first other second same
          have less := Finset.mem_range.mp (Finset.mem_filter.mp first).1
          have also := Finset.mem_range.mp (Finset.mem_filter.mp second).1
          exact Nat.add_left_cancel (loop.eq_of_tag_eq (by omega) (by omega) same)
    _ = (s.after tag write (i + 1)).tags.toFinset.card - 1 := Finset.card_erase_of_mem used
    _ ≤ s.ways - 1 := Nat.sub_le_sub_right bound 1

end CacheSet

/-- Of the steps of one period, those below a bound are as many as the bound. -/
theorem count_mod_lt {bound period steps : Nat} (within : steps ≤ period) :
    Nat.count (fun step => step % period < bound) steps = min steps bound := by
  induction steps with
  | zero => simp
  | succ steps ih =>
    rw [Nat.count_succ, ih (by omega), Nat.mod_eq_of_lt (by omega)]
    split <;> omega

namespace CacheSet
variable {s : CacheSet} {tag : Nat → Nat} {write : Nat → Bool} {period i n : Nat}

/-- From any access on, no discipline hits more often than if every stretch one step shorter
than a lap began with all the hits that it can have. -/
theorem Unpinned.hits_le (unpinned : s.Unpinned) (loop : Loop tag (period + 1))
    (fits : s.ways ≤ period) (write : Nat → Bool) (i steps : Nat) :
    Nat.count (fun step => s.hitsAt tag write (i + 1 + step)) steps ≤
      Nat.count (fun step => step % period < s.ways - 1) steps := by
  induction steps using Nat.strong_induction_on generalizing i with
  | h steps ih =>
    -- either no whole stretch is left, or one comes first and the rest is a shorter run
    by_cases short : steps ≤ period
    · rw [count_mod_lt short]
      exact Nat.le_min.mpr ⟨Nat.count_le _, unpinned.hits_le_of_lt loop write (by omega) i⟩
    · obtain ⟨rest, rfl⟩ := Nat.exists_eq_add_of_le (Nat.le_of_not_le short)
      have positive : 0 < period := Nat.lt_of_lt_of_le unpinned.some_way fits
      rw [Nat.count_add, Nat.count_add, count_mod_lt (Nat.le_refl period)]
      have first := unpinned.hits_le_of_lt loop write (Nat.lt_succ_self period) i
      have later := ih rest (by omega) (i + period)
      simp only [Nat.add_mod_left]
      rw [Nat.min_eq_right (by omega)]
      refine Nat.add_le_add first ?_
      simpa only [Nat.add_assoc, Nat.add_left_comm, Nat.add_comm] using later

end CacheSet

end SetAssociative
