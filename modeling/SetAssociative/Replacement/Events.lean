import SetAssociative.Replacement.Policy

/-! A policy driven by events: reports of used ways, and requests for a victim,
each request with a view of its own. -/
namespace SetAssociative.Policy

/-- An event in the life of a policy. -/
inductive Event where
  | used (outcome : Outcome)
  | asked (view : View)

/-- What an event answers: nothing, or the result of a search. -/
abbrev Answer := Option (Except CacheError Nat)

/-- One event. -/
def step (p : Policy) : Event → Answer × Policy
  | .used outcome => (none, p.record outcome)
  | .asked view => (some (p.selectVictim view).1, (p.selectVictim view).2)

/-- The answers to a sequence of events, and the policy after it. -/
def run (p : Policy) : List Event → List Answer × Policy
  | [] => ([], p)
  | event :: events =>
    let rest := run (p.step event).2 events
    ((p.step event).1 :: rest.1, rest.2)

end SetAssociative.Policy
