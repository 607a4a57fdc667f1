import SetAssociative.CacheSet

/-! A set driven by single operations, as a controller of its own would use it. -/
namespace SetAssociative.CacheSet

/-- An operation on a set. -/
inductive Op where
  | install (way tag : Nat) (dirty : Bool)
  | markDirty (way : Nat)
  | pin (way : Nat)
  | unpin (way : Nat)
  | invalidate (way : Nat)
  | record (outcome : Outcome)
  | selectVictim
  deriving DecidableEq, Repr

/-- What an operation answers. -/
inductive Answer where
  | installed (replaced : Option Evicted)
  | changed (held : Bool)
  | removed (line : Option Evicted)
  | recorded
  | victim (way : Nat)
  | failed (cause : CacheError)

/-- One operation. A failed one leaves the lines as they were. -/
def step (s : CacheSet) : Op → Answer × CacheSet
  | .install way tag dirty =>
    match s.install way tag dirty with
    | .ok (replaced, s) => (.installed replaced, s)
    | .error cause => (.failed cause, s)
  | .markDirty way => (.changed (s.markDirty way).1, (s.markDirty way).2)
  | .pin way => (.changed (s.pin way).1, (s.pin way).2)
  | .unpin way => (.changed (s.unpin way).1, (s.unpin way).2)
  | .invalidate way => (.removed (s.invalidate way).1, (s.invalidate way).2)
  | .record outcome =>
    match s.record outcome with
    | .ok s => (.recorded, s)
    | .error cause => (.failed cause, s)
  | .selectVictim =>
    match s.selectVictim with
    | (.ok way, s) => (.victim way, s)
    | (.error cause, s) => (.failed cause, s)

/-- The answers to a sequence of operations, and the set after it. -/
def run (s : CacheSet) : List Op → List Answer × CacheSet
  | [] => ([], s)
  | op :: ops =>
    let rest := run (s.step op).2 ops
    ((s.step op).1 :: rest.1, rest.2)

end SetAssociative.CacheSet
