/-! A set of way indices below 64, kept as the bits of one word. -/
namespace SetAssociative

/-- The word whose bit `w` says whether way `w` is in the set. -/
structure WayBits where
  word : UInt64
  deriving DecidableEq, Repr

namespace WayBits

/-- The empty set. -/
def empty : WayBits := ⟨0⟩

/-- Whether a way is in the set. -/
def contains (b : WayBits) (way : Nat) : Bool := b.word.toNat.testBit way

/-- The set of one way below 64. -/
def single (way : Nat) : WayBits := ⟨1 <<< UInt64.ofNat way⟩

/-- A set with one more way below 64. -/
def insert (b : WayBits) (way : Nat) : WayBits := ⟨b.word ||| (single way).word⟩

/-- The set of all ways below a bound, which is at most 64. -/
def below (ways : Nat) : WayBits :=
  ⟨if 64 ≤ ways then 0xFFFFFFFFFFFFFFFF else (1 <<< UInt64.ofNat ways) - 1⟩

/-- Whether every way below a bound is in the set. -/
def coversBelow (b : WayBits) (ways : Nat) : Bool :=
  b.word &&& (below ways).word == (below ways).word

@[simp] theorem contains_empty (way : Nat) : empty.contains way = false := by
  simp [contains, empty]

theorem toNat_single {way : Nat} (small : way < 64) : (single way).word.toNat = 1 <<< way := by
  have amount : (UInt64.ofNat way).toNat = way :=
    UInt64.toNat_ofNat_of_lt' (Nat.lt_trans small (by decide))
  rw [single, UInt64.toNat_shiftLeft, amount, Nat.mod_eq_of_lt small]
  refine Nat.mod_eq_of_lt ?_
  rw [UInt64.toNat_one, Nat.one_shiftLeft]
  exact Nat.pow_lt_pow_right (by decide) small

theorem contains_single {way : Nat} (small : way < 64) (other : Nat) :
    (single way).contains other = decide (way = other) := by
  rw [contains, toNat_single small, Nat.one_shiftLeft, Nat.testBit_two_pow]

theorem contains_insert (b : WayBits) {way : Nat} (small : way < 64) (other : Nat) :
    (b.insert way).contains other = (b.contains other || decide (way = other)) := by
  rw [← contains_single small]
  simp [contains, insert, Nat.testBit_or]

end WayBits

end SetAssociative
