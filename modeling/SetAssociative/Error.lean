import SetAssociative.Config.Fault

/-! Why a cache cannot be built, and why an operation on one cannot be carried
out. Every cause has one text. -/
namespace SetAssociative

/-- The most ways that a set may have, so that one bit per way fits a word. -/
def maxWays : Nat := 64

/-- Why a cache, a set or a policy cannot be built. -/
inductive ConfigError where
  | noWays
  | tooManyWays (ways : Nat)
  | lineSizeNotPowerOfTwo (lineBytes : Nat)
  | unknownPolicy (id : String)
  | policyMismatch (policyWays setWays : Nat)
  | sizeNotMultiple (sizeBytes setBytes : Nat)
  | malformed (fault : Config.Fault)

/-- The text of a refusal to build. -/
def ConfigError.message : ConfigError → String
  | .noWays => "associativity must be at least 1"
  | .tooManyWays ways => s!"associativity {ways} exceeds the maximum of {maxWays}"
  | .lineSizeNotPowerOfTwo lineBytes =>
    s!"block size {lineBytes} is not a positive power of two"
  | .unknownPolicy id => "unknown policy `" ++ id ++ "`"
  | .policyMismatch policyWays setWays =>
    s!"policy built for {policyWays} ways attached to a {setWays}-way set"
  | .sizeNotMultiple sizeBytes setBytes =>
    s!"cache size {sizeBytes} is not a positive multiple of {setBytes} bytes per set"
  | .malformed fault => "malformed cache configuration: " ++ fault.message

/-- Why an operation on a set or a cache failed. -/
inductive CacheError where
  /-- The cache could not be built. -/
  | config (cause : ConfigError)
  /-- No way of the set holds a line that may be evicted. -/
  | exhausted (ways : Nat)
  /-- A way was named that the set does not have. -/
  | noSuchWay (way ways : Nat)

/-- The text of a failed operation. -/
def CacheError.message : CacheError → String
  | .config cause => cause.message
  | .exhausted ways => s!"no evictable way among {ways} ways"
  | .noSuchWay way ways => s!"way {way} is out of range for a {ways}-way set"

end SetAssociative
