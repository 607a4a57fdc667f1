import Mathlib.Order.Bounds.Defs
import SetAssociative.Proofs.CheckedReplacement

/-! Marks are the bits of a word, one for each way, and a search goes for the lowest evictable
way whose bit is clear. What is set and what is found can be said without the word. -/
namespace SetAssociative

/-- What a search finds is the lowest of the candidates that it accepts. -/
theorem View.find?_candidates_eq_some_iff {view : View} {accepts : Nat → Bool} {ways way : Nat} :
    (view.candidates ways).find? accepts = some way ↔
      IsLeast {way | way < ways ∧ view way = true ∧ accepts way = true} way := by
  rw [candidates, List.find?_filter, List.find?_range_eq_some]
  constructor
  · rintro ⟨wanted, inside, lower⟩
    refine ⟨⟨List.mem_range.mp inside, of_decide_eq_true wanted⟩, fun other also => ?_⟩
    refine Nat.le_of_not_lt fun less => ?_
    have refused := lower other less
    rw [decide_eq_true also.2] at refused
    cases refused
  · rintro ⟨⟨inside, wanted⟩, least⟩
    refine ⟨decide_eq_true wanted, List.mem_range.mpr inside, fun other less => ?_⟩
    rw [Bool.not_eq_true', decide_eq_false_iff_not]
    intro also
    exact Nat.not_le.mpr less (least ⟨Nat.lt_trans less inside, also⟩)

namespace WayBits
variable {b : WayBits} {ways : Nat}

theorem toNat_below (few : ways ≤ 64) : (below ways).word.toNat = 1 <<< ways - 1 := by
  rw [below]
  split
  · rename_i many
    rw [Nat.le_antisymm few many]
    rfl
  · rename_i small
    have bit := toNat_single (Nat.lt_of_not_le small)
    rw [single] at bit
    have some_bit : (1 : UInt64) ≤ 1 <<< UInt64.ofNat ways := by
      rw [UInt64.le_iff_toNat_le, bit, Nat.one_shiftLeft]
      exact Nat.two_pow_pos ways
    rw [UInt64.toNat_sub_of_le _ _ some_bit, bit]
    rfl

theorem contains_below (few : ways ≤ 64) (way : Nat) :
    (below ways).contains way = decide (way < ways) := by
  rw [contains, toNat_below few, Nat.one_shiftLeft, Nat.testBit_two_pow_sub_one]

/-- The comparison of two words comes to a question about each way. -/
theorem coversBelow_iff (few : ways ≤ 64) :
    b.coversBelow ways = true ↔ ∀ way < ways, b.contains way = true := by
  have bits : ∀ way, (b.word &&& (below ways).word).toNat.testBit way =
      (b.contains way && decide (way < ways)) := by
    intro way
    rw [← contains_below few, UInt64.toNat_and, Nat.testBit_and]
    rfl
  rw [coversBelow, beq_iff_eq, ← UInt64.toNat_inj]
  constructor
  · intro same way inside
    have bit := bits way
    rw [same, ← contains, contains_below few, decide_eq_true inside, Bool.and_true] at bit
    exact bit.symm
  · intro all
    refine Nat.eq_of_testBit_eq fun way => ?_
    rw [bits, ← contains, contains_below few]
    by_cases inside : way < ways
    · rw [all way inside, Bool.true_and]
    · rw [decide_eq_false inside, Bool.and_false]

end WayBits

namespace Marks
variable {m : Marks} {view : View} {way other : Nat}

theorem contains_mark (few : m.ways ≤ 64) (inside : way < m.ways) :
    (m.mark way).bits.contains other = true ↔ other = way ∨ m.bits.contains other = true := by
  have small : way < 64 := Nat.lt_of_lt_of_le inside few
  rw [mark, if_pos inside, WayBits.contains_insert _ small, Bool.or_eq_true, decide_eq_true_eq,
    or_comm, eq_comm]

/-- The mark that would be the last one takes all others away. -/
theorem contains_markInPhase (few : m.ways ≤ 64) (inside : way < m.ways) :
    (m.markInPhase way).bits.contains other = true ↔
      other = way ∨ m.bits.contains other = true ∧
        ∃ spare < m.ways, spare ≠ way ∧ m.bits.contains spare = false := by
  have small : way < 64 := Nat.lt_of_lt_of_le inside few
  have covered : (m.bits.insert way).coversBelow m.ways = true ↔
      ¬ ∃ spare < m.ways, spare ≠ way ∧ m.bits.contains spare = false := by
    simp only [WayBits.coversBelow_iff few, WayBits.contains_insert _ small, Bool.or_eq_true,
      decide_eq_true_eq, not_exists, not_and, Bool.not_eq_false]
    refine forall₂_congr fun spare _ => ?_
    rw [or_comm, Decidable.or_iff_not_imp_left, ne_comm]
  simp only [markInPhase, if_pos inside]
  by_cases last : (m.bits.insert way).coversBelow m.ways = true
  · have none_spare := covered.mp last
    rw [if_pos last, WayBits.contains_single small, decide_eq_true_eq, eq_comm]
    exact ⟨.inl, fun marked => marked.resolve_right fun rest => none_spare rest.2⟩
  · have spare := Classical.not_not.mp (mt covered.mpr last)
    rw [if_neg last, WayBits.contains_insert _ small, Bool.or_eq_true, decide_eq_true_eq,
      or_comm, eq_comm]
    exact or_congr_right (and_iff_left spare).symm

theorem firstUnmarked_eq_some_iff :
    m.firstUnmarked view = some way ↔
      IsLeast {way | way < m.ways ∧ view way = true ∧ m.bits.contains way = false} way := by
  simp only [firstUnmarked, View.find?_candidates_eq_some_iff, Bool.not_eq_true']

theorem firstUnmarked_eq_none_iff :
    m.firstUnmarked view = none ↔
      ∀ way < m.ways, view way = true → m.bits.contains way = true := by
  simp only [firstUnmarked, List.find?_eq_none, View.mem_candidates, Bool.not_eq_true',
    Bool.not_eq_false, and_imp]

theorem first_eq_some_iff :
    m.first view = some way ↔ IsLeast {way | way < m.ways ∧ view way = true} way := by
  have found : m.first view = (view.candidates m.ways).find? fun _ => true := by
    rw [first]
    cases view.candidates m.ways <;> rfl
  simp only [found, View.find?_candidates_eq_some_iff, and_true]

/-- As long as an evictable way has no mark, none is selected that has one or is higher. -/
theorem select_of_clear (selected : m.select view = some way) (inside : other < m.ways)
    (open_way : view other = true) (clear : m.bits.contains other = false) :
    m.bits.contains way = false ∧ way ≤ other := by
  cases first : m.firstUnmarked view with
  | none =>
    rw [firstUnmarked_eq_none_iff.mp first other inside open_way] at clear
    cases clear
  | some lowest =>
    rw [select, first, Option.some_or] at selected
    obtain rfl := Option.some.inj selected
    obtain ⟨⟨-, -, unmarked⟩, least⟩ := firstUnmarked_eq_some_iff.mp first
    exact ⟨unmarked, least ⟨inside, open_way, clear⟩⟩

end Marks

end SetAssociative
