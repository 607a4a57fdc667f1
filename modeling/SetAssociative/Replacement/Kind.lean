/-! The seven replacement disciplines and their identifiers. An identifier is read
without regard to case, hyphens and underscores. -/
namespace SetAssociative

/-- A replacement discipline. -/
inductive Kind where
  | roundRobin
  | fifo
  | lru
  | mru
  | plru
  | random
  | nru
  deriving DecidableEq, Repr

namespace Kind

/-- Every discipline. -/
def all : List Kind := [.roundRobin, .fifo, .lru, .mru, .plru, .random, .nru]

theorem mem_all (k : Kind) : k ∈ all := by cases k <;> decide

/-- The short name. -/
def name : Kind → String
  | .roundRobin => "rr"
  | .fifo => "fifo"
  | .lru => "lru"
  | .mru => "mru"
  | .plru => "plru"
  | .random => "random"
  | .nru => "nru"

/-- The name in capitalised words. -/
def title : Kind → String
  | .roundRobin => "RoundRobin"
  | .fifo => "Fifo"
  | .lru => "Lru"
  | .mru => "Mru"
  | .plru => "Plru"
  | .random => "Random"
  | .nru => "Nru"

/-- The name in capitals, its words run together. -/
def capitals (kind : Kind) : String := String.ofList (kind.title.toList.map Char.toUpper)

/-- The spellings of a discipline in lowercase letters alone. -/
def spellings : Kind → List String
  | .roundRobin => ["rr", "roundrobin"]
  | .fifo => ["fifo"]
  | .lru => ["lru"]
  | .mru => ["mru"]
  | .plru => ["plru", "pseudolru"]
  | .random => ["random", "rand"]
  | .nru => ["nru", "notrecentlyused"]

/-- An identifier without its hyphens and underscores, in lowercase. -/
def normalize (id : String) : String :=
  String.ofList ((id.toList.filter fun c => c != '-' && c != '_').map Char.toLower)

/-- The discipline that an identifier names. -/
def ofIdentifier? (id : String) : Option Kind :=
  all.find? fun kind => kind.spellings.contains (normalize id)

end Kind

end SetAssociative
