import SetAssociative.Cache

/-! A cache driven by a sequence of operations. Questions about it that change
nothing, such as whether it holds a line, are asked between the operations. -/
namespace SetAssociative.Cache

/-- An operation on a cache. -/
inductive Op where
  | access (address : UInt64) (write : Bool)
  | pin (address : UInt64)
  | unpin (address : UInt64)
  | invalidate (address : UInt64)
  | flush
  | resetStats
  deriving DecidableEq, Repr

/-- What an operation answers. -/
inductive Answer where
  | accessed (result : Except CacheError Access)
  | found (held : Bool)
  | removed (line : Option Evicted)
  | flushed (lines : Nat)
  | done

/-- One operation. -/
def step (c : Cache) : Op → Answer × Cache
  | .access address write => (.accessed (c.access address write).1, (c.access address write).2)
  | .pin address => (.found (c.pin address).1, (c.pin address).2)
  | .unpin address => (.found (c.unpin address).1, (c.unpin address).2)
  | .invalidate address => (.removed (c.invalidate address).1, (c.invalidate address).2)
  | .flush => (.flushed c.flush.1, c.flush.2)
  | .resetStats => (.done, c.resetStats)

/-- The answers to a sequence of operations, and the cache after it. -/
def run (c : Cache) : List Op → List Answer × Cache
  | [] => ([], c)
  | op :: ops =>
    let rest := run (c.step op).2 ops
    ((c.step op).1 :: rest.1, rest.2)

end SetAssociative.Cache
