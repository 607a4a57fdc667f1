import SetAssociative.Decimal.Shortest
import SetAssociative.Json.Head
import SetAssociative.Text.Quoted

/-! What can be wrong with a configuration document. A document that is no JSON,
or whose shape no fault below describes, is ill formed and nothing more is said
about it. -/
namespace SetAssociative.Config

/-- What a value was read for. -/
inductive Wanted where
  | configuration
  | nothing
  | size
  | word
  deriving DecidableEq, Repr

/-- The wording of what was wanted. -/
def Wanted.text : Wanted → String
  | .configuration => "struct CacheConfig"
  | .nothing => "unit"
  | .size => "usize"
  | .word => "u64"

/-- The first fault of a document. -/
inductive Fault where
  /-- The text is not a document of the expected shape. -/
  | illFormed
  /-- A name that is none of the expected ones. -/
  | unknownName (name : String) (expected : List String)
  /-- A value of another type than expected. -/
  | wrongType (found : Json.Head) (wanted : Wanted)
  /-- A whole number outside the expected range. -/
  | wrongValue (found : Int) (wanted : Wanted)
  /-- A field that the document gives twice. -/
  | duplicateField (name : String)

namespace Fault

/-- How numbers with a fraction or an exponent are shown: positionally from
0.00001 up to sixteen digits before the point, else with an exponent. -/
def numberLayout : Decimal.Layout where
  lowestPositional := -5
  highestPositional := 15

/-- A text between backticks. -/
def ticked (text : String) : String := "`" ++ text ++ "`"

/-- What a value turned out to be. -/
def describe : Json.Head → String
  | .null => "null"
  | .boolean value => "boolean " ++ ticked (if value then "true" else "false")
  | .integer value => "integer " ++ ticked (toString value)
  | .float value => "floating point " ++ ticked (numberLayout.text value)
  | .text value => "string " ++ Text.quoted value
  | .sequence => "sequence"
  | .map => "map"

/-- The names to choose from. -/
def choices : List String → String
  | [first, second] => ticked first ++ " or " ++ ticked second
  | names => "one of " ++ String.intercalate ", " (names.map ticked)

/-- The text of a fault. -/
def message : Fault → String
  | .illFormed => "syntax"
  | .unknownName name expected =>
    "unknown variant " ++ ticked name ++ ", expected " ++ choices expected
  | .wrongType found wanted =>
    "invalid type: " ++ describe found ++ ", expected " ++ wanted.text
  | .wrongValue found wanted =>
    "invalid value: integer " ++ ticked (toString found) ++ ", expected " ++ wanted.text
  | .duplicateField name => "duplicate field " ++ ticked name

end Fault

end SetAssociative.Config
