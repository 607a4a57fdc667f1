import SetAssociative.Geometry
import SetAssociative.Replacement.Cursor
import SetAssociative.Replacement.Lottery
import SetAssociative.Replacement.Marks
import SetAssociative.Replacement.Stamps

/-! A replacement policy: one of the seven disciplines with its state for one set.
It is told which ways are used and how, and asked for victims. -/
namespace SetAssociative

/-- How a way was used: its line was found there, or was put there. -/
inductive Use where
  | hit
  | fill
  deriving DecidableEq, Repr

/-- A way and how it was used. -/
structure Outcome where
  use : Use
  way : Nat
  deriving DecidableEq, Repr

/-- The report of a hit. -/
def Outcome.hit (way : Nat) : Outcome := ⟨.hit, way⟩

/-- The report of a fill. -/
def Outcome.fill (way : Nat) : Outcome := ⟨.fill, way⟩

/-- The discipline that an identifier names. One that names none is refused as it was given. -/
def Kind.ofIdentifier (id : String) : Except ConfigError Kind :=
  match ofIdentifier? id with
  | none => .error (.unknownPolicy id)
  | some kind => .ok kind

/-- A discipline and its state. -/
inductive Policy where
  | roundRobin (cursor : Cursor)
  | fifo (fills : Stamps)
  | lru (uses : Stamps)
  | mru (uses : Stamps)
  | plru (marks : Marks)
  | random (lottery : Lottery)
  | nru (marks : Marks)
  deriving DecidableEq, Repr

namespace Policy

/-- The discipline. -/
def kind : Policy → Kind
  | .roundRobin _ => .roundRobin
  | .fifo _ => .fifo
  | .lru _ => .lru
  | .mru _ => .mru
  | .plru _ => .plru
  | .random _ => .random
  | .nru _ => .nru

/-- The number of ways that the policy was built for. -/
def ways : Policy → Nat
  | .roundRobin cursor => cursor.ways
  | .fifo fills => fills.ways
  | .lru uses => uses.ways
  | .mru uses => uses.ways
  | .plru marks => marks.ways
  | .random lottery => lottery.ways
  | .nru marks => marks.ways

/-- A policy in its initial state. The seed matters to the random one only. -/
def fresh (kind : Kind) (ways : Nat) (seed : UInt64) : Policy :=
  match kind with
  | .roundRobin => .roundRobin (.start ways)
  | .fifo => .fifo (.untouched ways)
  | .lru => .lru (.untouched ways)
  | .mru => .mru (.untouched ways)
  | .plru => .plru (.unmarked ways)
  | .random => .random (.start ways seed)
  | .nru => .nru (.unmarked ways)

/-- A fresh policy for sets of the given sizes, which must be sound. -/
def ofSizes (kind : Kind) (ways lineBytes : Nat) (seed : UInt64) : Except ConfigError Policy :=
  (Geometry.ofSizes ways lineBytes).map fun g => fresh kind g.ways seed

/-- A fresh policy of the discipline that an identifier names. The identifier is
judged before the sizes. -/
def ofIdentifier (id : String) (ways lineBytes : Nat) (seed : UInt64) :
    Except ConfigError Policy :=
  match Kind.ofIdentifier id with
  | .error cause => .error cause
  | .ok kind => ofSizes kind ways lineBytes seed

/-- The policy after a way was used. -/
def record (p : Policy) (o : Outcome) : Policy :=
  match p with
  | .roundRobin cursor => .roundRobin cursor
  | .fifo fills =>
    match o.use with
    | .hit => .fifo fills
    | .fill => .fifo (fills.touch o.way)
  | .lru uses => .lru (uses.touch o.way)
  | .mru uses => .mru (uses.touch o.way)
  | .plru marks => .plru (marks.markInPhase o.way)
  | .random lottery => .random lottery
  | .nru marks => .nru (marks.mark o.way)

/-- The way to evict, if any way is evictable, and the policy after the search. -/
def search (p : Policy) (view : View) : Option Nat × Policy :=
  match p with
  | .roundRobin cursor => ((cursor.select view).1, .roundRobin (cursor.select view).2)
  | .fifo fills => (fills.oldest view, p)
  | .lru uses => (uses.oldest view, p)
  | .mru uses => (uses.newest view, p)
  | .plru marks => (marks.select view, p)
  | .random lottery => ((lottery.select view).1, .random (lottery.select view).2)
  | .nru marks => ((marks.selectClearing view).1, .nru (marks.selectClearing view).2)

/-- The way to evict, or the error that none is evictable. -/
def selectVictim (p : Policy) (view : View) : Except CacheError Nat × Policy :=
  match (p.search view).1 with
  | some way => (.ok way, (p.search view).2)
  | none => (.error (.exhausted p.ways), (p.search view).2)

theorem ways_fresh (kind : Kind) (ways : Nat) (seed : UInt64) :
    (fresh kind ways seed).ways = ways := by
  cases kind <;> simp [fresh, Policy.ways, Stamps.untouched, Stamps.ways, Cursor.start,
    Marks.unmarked, Lottery.start]

theorem kind_fresh (kind : Kind) (ways : Nat) (seed : UInt64) :
    (fresh kind ways seed).kind = kind := by
  cases kind <;> rfl

@[simp] theorem ways_record (p : Policy) (o : Outcome) : (p.record o).ways = p.ways := by
  cases p <;> simp only [record, Policy.ways, Stamps.ways_touch, Marks.ways_mark,
    Marks.ways_markInPhase]
  cases o.use <;> simp

@[simp] theorem kind_record (p : Policy) (o : Outcome) : (p.record o).kind = p.kind := by
  cases p <;> simp only [record, kind]
  cases o.use <;> rfl

end Policy

end SetAssociative
