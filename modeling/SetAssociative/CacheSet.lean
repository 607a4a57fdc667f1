import SetAssociative.Replacement.Policy

/-! One set of a cache: its ways, and the policy that chooses which line gives way
to a new one. Operations that name a way are checked against the ways the set
has; the policy sees only which ways may be evicted. -/
namespace SetAssociative

/-- One way: the tag of its line, and whether it holds a line, whether that line
was written since it came, and whether it is pinned in place. -/
structure Way where
  tag : Nat := 0
  valid : Bool := false
  dirty : Bool := false
  pinned : Bool := false
  deriving DecidableEq, Repr

namespace Way

/-- A way without a line. -/
def empty : Way := {}

/-- A way may be evicted when it holds a line that is not pinned. -/
def evictable (w : Way) : Bool := w.valid && !w.pinned

end Way

/-- A line that left its way. -/
structure Evicted where
  way : Nat
  tag : Nat
  dirty : Bool
  deriving DecidableEq, Repr

/-- The ways of a set and its policy. -/
structure CacheSet where
  cacheType : CacheType
  lineBytes : Nat
  slots : List Way
  policy : Policy
  contract : Contract
  deriving DecidableEq, Repr

namespace CacheSet

/-- A set of the given shape without lines. -/
def empty (cacheType : CacheType) (g : Geometry) (policy : Policy) (contract : Contract) :
    CacheSet where
  cacheType
  lineBytes := g.lineBytes
  slots := List.replicate g.ways .empty
  policy
  contract

/-- An empty set of the given shape. The policy must be built for its ways. -/
def ofPolicy (cacheType : CacheType) (g : Geometry) (policy : Policy) :
    Except ConfigError CacheSet :=
  if policy.ways = g.ways then .ok (empty cacheType g policy .lenient)
  else .error (.policyMismatch policy.ways g.ways)

/-- The set with another contract. -/
def withContract (s : CacheSet) (contract : Contract) : CacheSet := { s with contract }

/-- An empty set as a configuration asks for, with a seed of its own. The policy is built first,
and the set is built for it; each of them judges the sizes. -/
def ofConfig (c : Config) (seed : UInt64) : Except ConfigError CacheSet := do
  let policy ← Policy.ofSizes c.policy c.ways.toNat c.lineBytes.toNat seed
  let g ← c.geometry
  let s ← ofPolicy c.cacheType g policy
  pure (s.withContract c.contract)

/-- An empty set of a shape, with a fresh policy of the configured discipline. -/
def ofGeometry (c : Config) (g : Geometry) (seed : UInt64) : CacheSet :=
  empty c.cacheType g (.fresh c.policy g.ways seed) c.contract

/-- A set is built for every sound shape, since its policy is built for as many ways. -/
theorem ofConfig_eq (c : Config) (seed : UInt64) :
    ofConfig c seed = c.geometry.map fun g => ofGeometry c g seed := by
  have policy : Policy.ofSizes c.policy c.ways.toNat c.lineBytes.toNat seed =
      c.geometry.map fun g => .fresh c.policy g.ways seed := rfl
  rw [ofConfig, policy]
  cases c.geometry with
  | error cause => rfl
  | ok g =>
    have fits : (Policy.fresh c.policy g.ways seed).ways = g.ways := Policy.ways_fresh ..
    have set : ofPolicy c.cacheType g (.fresh c.policy g.ways seed) =
        .ok (empty c.cacheType g (.fresh c.policy g.ways seed) .lenient) := if_pos fits
    simp only [Except.map, bind, Except.bind, set]
    rfl

/-- The number of ways. -/
def ways (s : CacheSet) : Nat := s.slots.length

/-- A way that the set has. -/
def way? (s : CacheSet) (way : Nat) : Option Way := s.slots[way]?

/-- Which ways may be evicted now. -/
def view (s : CacheSet) : View := fun way => (s.way? way).any Way.evictable

/-- The way that holds the line of a tag. -/
def find? (s : CacheSet) (tag : Nat) : Option Nat :=
  s.slots.findIdx? fun w => w.valid && w.tag == tag

/-- The first way without a line. -/
def freeWay? (s : CacheSet) : Option Nat := s.slots.findIdx? fun w => !w.valid

/-- Whether every way holds a line. -/
def isFull (s : CacheSet) : Bool := s.slots.all Way.valid

/-- The tag of the line in a way. -/
def tag? (s : CacheSet) (way : Nat) : Option Nat :=
  ((s.way? way).filter Way.valid).map Way.tag

/-- The line that a way holds, as it would leave it. -/
def resident? (s : CacheSet) (way : Nat) : Option Evicted :=
  ((s.way? way).filter Way.valid).map fun w => { way, tag := w.tag, dirty := w.dirty }

/-- The set with one way replaced. -/
def setWay (s : CacheSet) (way : Nat) (w : Way) : CacheSet :=
  { s with slots := s.slots.set way w }

@[simp] theorem ways_setWay (s : CacheSet) (way : Nat) (w : Way) :
    (s.setWay way w).ways = s.ways := by simp [setWay, ways]

/-- Replacing a way changes no other way. -/
theorem way?_setWay (s : CacheSet) {way : Nat} (w : Way) (inside : way < s.ways) (other : Nat) :
    (s.setWay way w).way? other = if way = other then some w else s.way? other := by
  have held : way < s.slots.length := inside
  by_cases same : way = other
  · subst same
    simp [setWay, way?, held]
  · simp [setWay, way?, same]

/-- A change to the line of a way, and whether there was one to change. -/
def change (s : CacheSet) (way : Nat) (update : Way → Way) : Bool × CacheSet :=
  match (s.way? way).filter Way.valid with
  | some w => (true, s.setWay way (update w))
  | none => (false, s)

/-- The line in a way counts as written. -/
def markDirty (s : CacheSet) (way : Nat) : Bool × CacheSet :=
  s.change way ({ · with dirty := true })

/-- The line in a way is pinned, which keeps it from being evicted. -/
def pin (s : CacheSet) (way : Nat) : Bool × CacheSet :=
  s.change way ({ · with pinned := true })

/-- The line in a way is pinned no longer. -/
def unpin (s : CacheSet) (way : Nat) : Bool × CacheSet :=
  s.change way ({ · with pinned := false })

/-- A line leaves its way, which is empty afterwards. -/
def invalidate (s : CacheSet) (way : Nat) : Option Evicted × CacheSet :=
  match s.resident? way with
  | some line => (some line, s.setWay way .empty)
  | none => (none, s)

/-- A new line takes a way; the line that was there leaves. The policy is not told. -/
def install (s : CacheSet) (way tag : Nat) (dirty : Bool) :
    Except CacheError (Option Evicted × CacheSet) :=
  if way < s.ways then
    .ok (s.resident? way, s.setWay way { tag, valid := true, dirty, pinned := false })
  else .error (.noSuchWay way s.ways)

/-- The policy is told how a way was used. A way that the set does not have is
passed over, or refused under the strict contract. -/
def record (s : CacheSet) (o : Outcome) : Except CacheError CacheSet :=
  if o.way < s.ways then .ok { s with policy := s.policy.record o }
  else
    match s.contract with
    | .lenient => .ok s
    | .strict => .error (.noSuchWay o.way s.ways)

/-- The way that the policy would evict now. The policy may change by being asked. -/
def selectVictim (s : CacheSet) : Except CacheError Nat × CacheSet :=
  ((s.policy.selectVictim s.view).1, { s with policy := (s.policy.selectVictim s.view).2 })

end CacheSet

end SetAssociative
