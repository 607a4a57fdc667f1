import SetAssociative.Checked.Arithmetic
import SetAssociative.Replacement.Events

/-! The seven disciplines on the machine that stops. Searches are written as the loops that
they are, with every index, division, shift and increment that a loop carries out. -/
namespace SetAssociative

namespace Cursor

/-- So many steps of a turn: the way at the cursor is looked at after the cursor has moved. -/
def turnChecked (view : View) : Nat → Cursor → Checked (Option Nat × Cursor)
  | 0, c => pure (none, c)
  | steps + 1, c => do
    let past ← Checked.add c.next 1
    let next ← Checked.remainder past c.ways
    if view c.next then pure (some c.next, { c with next })
    else turnChecked view steps { c with next }

/-- A turn of as many steps as there are ways. -/
def selectChecked (c : Cursor) (view : View) : Checked (Option Nat × Cursor) :=
  turnChecked view c.ways c

end Cursor

namespace Stamps

/-- A way that exists gets the next time. -/
def touchChecked (s : Stamps) (way : Nat) : Checked Stamps :=
  if way < s.ways then do
    let clock ← Checked.add s.clock 1
    pure ⟨s.times.set way clock, clock⟩
  else pure s

/-- A pass over ways with the best one so far, which gives way to a preferred stamp. -/
def passChecked (s : Stamps) (view : View) (prefers : Nat → Nat → Bool) :
    List Nat → Option Nat → Checked (Option Nat)
  | [], best => pure best
  | way :: ways, best =>
    if view way then
      match best with
      | none => passChecked s view prefers ways (some way)
      | some leader => do
        let time ← Checked.fetch (s.time? way)
        let record ← Checked.fetch (s.time? leader)
        passChecked s view prefers ways (some (if prefers time record then way else leader))
    else passChecked s view prefers ways best

/-- A pass over all ways for the evictable one with the preferred stamp. -/
def selectChecked (s : Stamps) (view : View) (prefers : Nat → Nat → Bool) :
    Checked (Option Nat) :=
  s.passChecked view prefers (List.range s.ways) none

/-- The first evictable way, and a pass for an older one over the ways after it. -/
def selectFirstChecked (s : Stamps) (view : View) : Checked (Option Nat) :=
  match (List.range s.ways).find? view with
  | none => pure none
  | some first => do
    let second ← Checked.add first 1
    s.passChecked view (fun time record => decide (time < record))
      ((List.range s.ways).drop second) (some first)

end Stamps

namespace WayBits

/-- Whether the bit of a way is clear. -/
def isClearChecked (b : WayBits) (way : Nat) : Checked Bool := do
  let shifted ← Checked.shiftRight b.word way
  pure (shifted &&& 1 == 0)

/-- The bits of all ways. -/
def belowChecked (ways : Nat) : Checked WayBits :=
  if 64 ≤ ways then pure ⟨0xFFFFFFFFFFFFFFFF⟩
  else do
    let next ← Checked.shiftLeft 1 ways
    let word ← Checked.decrement next
    pure ⟨word⟩

end WayBits

namespace Marks

/-- A way that exists gets its mark. -/
def markChecked (m : Marks) (way : Nat) : Checked Marks :=
  if way < m.ways then do
    let mask ← Checked.shiftLeft 1 way
    pure { m with bits := ⟨m.bits.word ||| mask⟩ }
  else pure m

/-- A way that exists gets its mark, and takes away all others once every way is marked. -/
def markInPhaseChecked (m : Marks) (way : Nat) : Checked Marks :=
  if way < m.ways then do
    let mask ← Checked.shiftLeft 1 way
    let marked := m.bits.word ||| mask
    let ones ← WayBits.belowChecked m.ways
    pure { m with bits := if marked &&& ones.word == ones.word then ⟨mask⟩ else ⟨marked⟩ }
  else pure m

/-- The first of some ways that is evictable and has no mark. -/
def firstUnmarkedChecked (m : Marks) (view : View) : List Nat → Checked (Option Nat)
  | [] => pure none
  | way :: ways =>
    if view way then do
      let clear ← m.bits.isClearChecked way
      if clear then pure (some way) else firstUnmarkedChecked m view ways
    else firstUnmarkedChecked m view ways

/-- The first evictable way without a mark, else the first evictable way. -/
def selectChecked (m : Marks) (view : View) : Checked (Option Nat) := do
  let unmarked ← m.firstUnmarkedChecked view (List.range m.ways)
  pure (unmarked.or ((List.range m.ways).find? view))

/-- The first evictable way without a mark. If there is none, all marks are taken away and the
search is made again. -/
def selectClearingChecked (m : Marks) (view : View) : Checked (Option Nat × Marks) := do
  match ← m.firstUnmarkedChecked view (List.range m.ways) with
  | some way => pure (some way, m)
  | none =>
    let again ← (unmarked m.ways).firstUnmarkedChecked view (List.range m.ways)
    pure (again, unmarked m.ways)

end Marks

namespace Lottery

/-- The next number reduced below a bound. -/
def drawChecked (g : Generator) (bound : Nat) : Checked (Nat × Generator) := do
  let number ← Checked.remainder g.next.state.toNat bound
  pure (number, g.next)

/-- The first evictable way among some draws. -/
def drawEvictableChecked (ways : Nat) (view : View) :
    Nat → Generator → Checked (Option Nat × Generator)
  | 0, g => pure (none, g)
  | draws + 1, g => do
    let drawn ← drawChecked g ways
    if view drawn.1 then pure (some drawn.1, drawn.2)
    else drawEvictableChecked ways view draws drawn.2

/-- As many draws as there are ways, and one more among the evictable ways if none of the draws
is evictable but some way is. -/
def selectChecked (l : Lottery) (view : View) : Checked (Option Nat × Lottery) := do
  match ← drawEvictableChecked l.ways view l.ways l.generator with
  | (some way, g) => pure (some way, { l with generator := g })
  | (none, g) =>
    let candidates := view.candidates l.ways
    if candidates.isEmpty then pure (none, { l with generator := g })
    else
      let drawn ← drawChecked g candidates.length
      pure (candidates[drawn.1]?, { l with generator := drawn.2 })

end Lottery

namespace Policy

/-- The policy after a way was used. -/
def recordChecked (p : Policy) (o : Outcome) : Checked Policy :=
  match p with
  | .roundRobin cursor => pure (.roundRobin cursor)
  | .fifo fills =>
    match o.use with
    | .hit => pure (.fifo fills)
    | .fill => .fifo <$> fills.touchChecked o.way
  | .lru uses => .lru <$> uses.touchChecked o.way
  | .mru uses => .mru <$> uses.touchChecked o.way
  | .plru marks => .plru <$> marks.markInPhaseChecked o.way
  | .random lottery => pure (.random lottery)
  | .nru marks => .nru <$> marks.markChecked o.way

/-- The way to evict, if any way is evictable, and the policy after the search. -/
def searchChecked (p : Policy) (view : View) : Checked (Option Nat × Policy) :=
  match p with
  | .roundRobin cursor =>
    (fun found => (found.1, .roundRobin found.2)) <$> cursor.selectChecked view
  | .fifo fills => (·, p) <$> fills.selectFirstChecked view
  | .lru uses => (·, p) <$> uses.selectChecked view fun time record => decide (time < record)
  | .mru uses => (·, p) <$> uses.selectChecked view fun time record => decide (record < time)
  | .plru marks => (·, p) <$> marks.selectChecked view
  | .random lottery => (fun found => (found.1, .random found.2)) <$> lottery.selectChecked view
  | .nru marks => (fun found => (found.1, .nru found.2)) <$> marks.selectClearingChecked view

/-- One event. -/
def stepChecked (p : Policy) : Event → Checked (Answer × Policy)
  | .used outcome => do
    let after ← p.recordChecked outcome
    pure (none, after)
  | .asked view => do
    match ← p.searchChecked view with
    | (some way, after) => pure (some (.ok way), after)
    | (none, after) => pure (some (.error (.exhausted p.ways)), after)

/-- The answers to a sequence of events, and the policy after it. -/
def runChecked (p : Policy) : List Event → Checked (List Answer × Policy)
  | [] => pure ([], p)
  | event :: events => do
    let (answer, next) ← p.stepChecked event
    let (answers, last) ← runChecked next events
    pure (answer :: answers, last)

end Policy

end SetAssociative
