import SetAssociative.Config

/-! The fields of a configuration document: their keys, their order, and the names
that stand for the values of those that are no numbers. -/
namespace SetAssociative.Config

/-- The fields of a configuration. -/
inductive Field where
  | cacheType
  | sizeBytes
  | lineBytes
  | ways
  | policy
  | seed
  | contract
  deriving DecidableEq, Repr

namespace Field

/-- The order of the fields in a sequence. -/
def all : List Field := [.cacheType, .sizeBytes, .lineBytes, .ways, .policy, .seed, .contract]

/-- The key of a field in a map. -/
def key : Field → String
  | .cacheType => "cache_type"
  | .sizeBytes => "size_bytes"
  | .lineBytes => "line_bytes"
  | .ways => "ways"
  | .policy => "policy"
  | .seed => "seed"
  | .contract => "contract"

/-- The field of a key, which must match to the letter. -/
def ofKey? (key : String) : Option Field := all.find? fun field => field.key == key

end Field

/-- The names of the roles. -/
def cacheTypeNames : List (String × CacheType) := CacheType.all.map fun t => (t.title, t)

/-- The names of the contracts. -/
def contractNames : List (String × Contract) := Contract.all.map fun c => (c.title, c)

/-- The names of the disciplines: in capitals, in capitalised words, and for one
of them the short name. Other spellings of an identifier are not names here. -/
def policyNames : List (String × Kind) := [
  ("ROUNDROBIN", .roundRobin), ("RoundRobin", .roundRobin), ("rr", .roundRobin),
  ("FIFO", .fifo), ("Fifo", .fifo),
  ("LRU", .lru), ("Lru", .lru),
  ("MRU", .mru), ("Mru", .mru),
  ("PLRU", .plru), ("Plru", .plru),
  ("RANDOM", .random), ("Random", .random),
  ("NRU", .nru), ("Nru", .nru)]

end SetAssociative.Config
