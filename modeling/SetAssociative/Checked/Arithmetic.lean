/-! The arithmetic of 64-bit words on a machine that stops rather than go wrong: it stops at an
index past the end, a division by zero, a shift by the length of a word, and a result that is
no word. -/
namespace SetAssociative

/-- Why the machine stops. -/
inductive Trap where
  | index
  | division
  | shift
  | overflow
  deriving DecidableEq, Repr

/-- A computation that may stop. -/
abbrev Checked (α : Type) := Except Trap α

namespace Checked
variable {α β : Type} {a b amount : Nat} {w : UInt64}

@[simp] theorem ok_bind (x : α) (next : α → Checked β) :
    ((Except.ok x : Checked α) >>= next) = next x := rfl

/-- A sum that must be a word. -/
def add (a b : Nat) : Checked Nat := if a + b < UInt64.size then pure (a + b) else throw .overflow

theorem add_of_lt (fits : a + b < UInt64.size) : add a b = .ok (a + b) := if_pos fits

/-- A quotient by a number that must not be zero. -/
def divide (a b : Nat) : Checked Nat := if b = 0 then throw .division else pure (a / b)

theorem divide_of_pos (positive : 0 < b) : divide a b = .ok (a / b) :=
  if_neg (Nat.pos_iff_ne_zero.mp positive)

/-- A remainder by a number that must not be zero. -/
def remainder (a b : Nat) : Checked Nat := if b = 0 then throw .division else pure (a % b)

theorem remainder_of_pos (positive : 0 < b) : remainder a b = .ok (a % b) :=
  if_neg (Nat.pos_iff_ne_zero.mp positive)

/-- A word shifted left, by fewer bits than it has. -/
def shiftLeft (w : UInt64) (amount : Nat) : Checked UInt64 :=
  if amount < 64 then pure (w <<< UInt64.ofNat amount) else throw .shift

theorem shiftLeft_of_lt (small : amount < 64) :
    shiftLeft w amount = .ok (w <<< UInt64.ofNat amount) := if_pos small

/-- A word shifted right, by fewer bits than it has. -/
def shiftRight (w : UInt64) (amount : Nat) : Checked UInt64 :=
  if amount < 64 then pure (w >>> UInt64.ofNat amount) else throw .shift

theorem shiftRight_of_lt (small : amount < 64) :
    shiftRight w amount = .ok (w >>> UInt64.ofNat amount) := if_pos small

/-- The word before one that must not be zero. -/
def decrement (w : UInt64) : Checked UInt64 := if w = 0 then throw .overflow else pure (w - 1)

theorem decrement_of_ne (positive : w ≠ 0) : decrement w = .ok (w - 1) := if_neg positive

/-- What is found at an index, which must be there. -/
def fetch : Option α → Checked α
  | none => throw .index
  | some x => pure x

@[simp] theorem fetch_some (x : α) : fetch (some x) = .ok x := rfl

end Checked

end SetAssociative
