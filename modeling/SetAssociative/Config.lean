import SetAssociative.Replacement.Generator
import SetAssociative.Replacement.Kind

/-! What a cache is built from. All sizes are 64-bit words, as a document gives
them; whether they fit together is decided when the cache is built. -/
namespace SetAssociative

/-- Role of a cache. It is reported and never changes behaviour. -/
inductive CacheType where
  | instruction
  | data
  | unified
  deriving DecidableEq, Repr

namespace CacheType

/-- The name in a report. -/
def label : CacheType → String
  | .instruction => "icache"
  | .data => "dcache"
  | .unified => "unified"

/-- The name in a document. -/
def title : CacheType → String
  | .instruction => "Instruction"
  | .data => "Data"
  | .unified => "Unified"

/-- Every role. -/
def all : List CacheType := [.instruction, .data, .unified]

end CacheType

/-- What happens when a way is reported that the set does not have: nothing, or
an error. -/
inductive Contract where
  | lenient
  | strict
  deriving DecidableEq, Repr

namespace Contract

/-- The name in a document. -/
def title : Contract → String
  | .lenient => "Lenient"
  | .strict => "Strict"

/-- Both modes. -/
def all : List Contract := [.lenient, .strict]

end Contract

/-- The parameters of a cache. Without further ones it is a unified cache of 4
KiB in four-way sets of 64-byte lines, with the least recently used line evicted. -/
structure Config where
  cacheType : CacheType := .unified
  sizeBytes : UInt64 := 4096
  lineBytes : UInt64 := 64
  ways : UInt64 := 4
  policy : Kind := .lru
  seed : UInt64 := defaultSeed
  contract : Contract := .lenient
  deriving DecidableEq, Repr

end SetAssociative
