import Mathlib.Data.Fintype.EquivFin
import Mathlib.Logic.Function.Iterate
import SetAssociative.Proofs.SetFrame
import SetAssociative.Replacement.Events

/-! A step of the generator can be taken back. Each of its three shifts mixes a bit with one bit
on one side of it, so the bits of a word can be told from those of the mixed word, one after the
other from the side that nothing was mixed into. Hence the step permutes the words and fixes
zero, a generator never comes to zero, and all a random policy does is to take further steps. -/
namespace SetAssociative.Generator

variable {bit : Nat}

theorem testBit_eq_false (x : UInt64) (beyond : 64 ≤ bit) : x.toNat.testBit bit = false :=
  Nat.testBit_lt_two_pow (Nat.lt_of_lt_of_le x.toNat_lt (Nat.pow_le_pow_right (by omega) beyond))

theorem testBit_xor_shiftLeft (x amount : UInt64) (inside : bit < 64) :
    (x ^^^ (x <<< amount)).toNat.testBit bit =
      (x.toNat.testBit bit ^^
        (decide (amount.toNat % 64 ≤ bit) && x.toNat.testBit (bit - amount.toNat % 64))) := by
  rw [UInt64.toNat_xor, Nat.testBit_xor, UInt64.toNat_shiftLeft, Nat.testBit_mod_two_pow,
    Nat.testBit_shiftLeft, decide_eq_true inside, Bool.true_and]

theorem testBit_xor_shiftRight (x amount : UInt64) (bit : Nat) :
    (x ^^^ (x >>> amount)).toNat.testBit bit =
      (x.toNat.testBit bit ^^ x.toNat.testBit (amount.toNat % 64 + bit)) := by
  rw [UInt64.toNat_xor, Nat.testBit_xor, UInt64.toNat_shiftRight, Nat.testBit_shiftRight]

/-- Bits below the shift are those of the word, and every other is found from a lower one. -/
theorem xor_shiftLeft_injective (amount : UInt64) (moves : 0 < amount.toNat % 64) :
    Function.Injective fun x : UInt64 => x ^^^ (x <<< amount) := by
  intro x y same
  refine UInt64.toNat_inj.mp (Nat.eq_of_testBit_eq fun bit => ?_)
  induction bit using Nat.strongRecOn with
  | ind bit lower =>
    by_cases inside : bit < 64
    · have mixed := congrArg (fun word : UInt64 => word.toNat.testBit bit) same
      simp only [testBit_xor_shiftLeft _ _ inside] at mixed
      by_cases shifted : amount.toNat % 64 ≤ bit
      · rw [lower (bit - amount.toNat % 64) (by omega)] at mixed
        exact Bool.xor_left_inj.mp mixed
      · simpa only [shifted, decide_false, Bool.false_and, Bool.xor_false] using mixed
    · rw [testBit_eq_false x (by omega), testBit_eq_false y (by omega)]

/-- There are no bits past the highest one, and every other is found from a higher one. -/
theorem xor_shiftRight_injective (amount : UInt64) (moves : 0 < amount.toNat % 64) :
    Function.Injective fun x : UInt64 => x ^^^ (x >>> amount) := by
  intro x y same
  have agree (distance bit : Nat) (near : 64 ≤ bit + distance) :
      x.toNat.testBit bit = y.toNat.testBit bit := by
    induction distance generalizing bit with
    | zero =>
      have beyond : 64 ≤ bit := near
      rw [testBit_eq_false x beyond, testBit_eq_false y beyond]
    | succ distance higher =>
      have mixed := congrArg (fun word : UInt64 => word.toNat.testBit bit) same
      simp only [testBit_xor_shiftRight] at mixed
      rw [higher (amount.toNat % 64 + bit) (by omega)] at mixed
      exact Bool.xor_left_inj.mp mixed
  exact UInt64.toNat_inj.mp (Nat.eq_of_testBit_eq fun bit => agree 64 bit (by omega))

theorem advance_injective : Function.Injective advance := by
  have first := xor_shiftLeft_injective 13 (by decide)
  have second := xor_shiftRight_injective 7 (by decide)
  have third := xor_shiftLeft_injective 17 (by decide)
  exact (third.comp second).comp first

theorem next_injective : Function.Injective next := by
  intro g h same
  exact congrArg mk (advance_injective (congrArg state same))

end SetAssociative.Generator

namespace SetAssociative
open Generator

/-- Draws only take further steps of the generator. -/
theorem Lottery.drawEvictable_eq_iterate (ways : Nat) (view : View) (draws : Nat) (g : Generator) :
    ∃ steps, (drawEvictable ways view draws g).2 = next^[steps] g := by
  induction draws generalizing g with
  | zero => exact ⟨0, rfl⟩
  | succ draws ih =>
    rw [drawEvictable]
    split
    · exact ⟨1, rfl⟩
    · obtain ⟨steps, later⟩ := ih g.next
      exact ⟨steps + 1, later⟩

theorem Lottery.select_eq_iterate (l : Lottery) (view : View) :
    ∃ steps, (l.select view).2 = { l with generator := next^[steps] l.generator } := by
  obtain ⟨steps, drawn⟩ := drawEvictable_eq_iterate l.ways view l.ways l.generator
  rw [select]
  split
  · rename_i found
    rw [found] at drawn
    exact ⟨steps, by rw [← drawn]⟩
  · rename_i after found
    rw [found] at drawn
    dsimp only
    split
    · exact ⟨steps, by rw [← drawn]⟩
    · refine ⟨steps + 1, ?_⟩
      rw [Function.iterate_succ_apply', ← drawn]
      rfl

/-- Whatever happens to a random policy, its generator only takes further steps. -/
theorem Policy.run_random (l : Lottery) (events : List Event) :
    ∃ steps, ((Policy.random l).run events).2 =
      .random { l with generator := next^[steps] l.generator } := by
  induction events generalizing l with
  | nil => exact ⟨0, rfl⟩
  | cons event events ih =>
    cases event with
    | used outcome => exact ih l
    | asked view =>
      obtain ⟨steps, drawn⟩ := l.select_eq_iterate view
      obtain ⟨more, later⟩ := ih (l.select view).2
      refine ⟨more + steps, ?_⟩
      rw [run]
      simp only [step, selectVictim_snd, search, later]
      rw [drawn, Function.iterate_add_apply]

end SetAssociative
