import CacheModel.Decimal.Shortest
import CacheModel.Geometry
import CacheModel.Json.Node
import CacheModel.ReadFailure
import CacheModel.Text.Exposed

/-!
# Problems of descriptions

A description is refused because its text is not structured data, or because the data does not
describe anything.
-/

namespace CacheModel.Description

/-- What would have been right at some place. -/
inductive Expectation where
  | boolean
  | hierarchy
  | nothing
  deriving Repr, DecidableEq

/-- The wording of an expectation. -/
def Expectation.describe : Expectation → String
  | boolean => "a boolean"
  | hierarchy => "struct HierarchyConfig"
  | nothing => "unit"

/-- Why structured data does not describe anything. -/
inductive Problem where
  | invalidType (found : Json.Node) (expected : Expectation)
  | unknownField (key : String)
  | duplicateField (key : String)
  | unknownChoice (name : String) (known : List String)
  /-- The value is neither a geometry text nor an object with the members of a geometry. -/
  | noLevel
  | refused (error : GeometryError)

/-- Why a description is refused. -/
inductive Error where
  | unreadable (failure : ReadFailure)
  | notData (fault : Json.Fault)
  | unfit (problem : Problem)

/-- The keys of a hierarchy description. -/
def knownKeys : List String := ["icache", "dcache", "l2", "log_misses"]

/-- Several names between backquotes. -/
def quotedList (names : List String) : String :=
  String.intercalate ", " (names.map fun name => "`" ++ name ++ "`")

/-- The wording of a value that stands where another kind of value belongs. -/
def describe : Json.Node → String
  | .null => "null"
  | .boolean b => s!"boolean `{b}`"
  | .number (.natural n) => s!"integer `{n}`"
  | .number (.negative n) => s!"integer `-{n}`"
  | .number (.real x) =>
    s!"floating point `{Decimal.shortestText .standard (.ofBits x.toBits)}`"
  | .text s => "string " ++ Text.inspect s
  | .array _ => "sequence"
  | .object _ => "map"
  | .broken _ _ => "nothing"

/-- The sentence shown for a problem. -/
def Problem.message : Problem → String
  | invalidType found expected => s!"invalid type: {describe found}, expected {expected.describe}"
  | unknownField key => s!"unknown field `{key}`, expected one of {quotedList knownKeys}"
  | duplicateField key => s!"duplicate field `{key}`"
  | unknownChoice name known => s!"unknown variant `{name}`, expected one of {quotedList known}"
  | noLevel => "data did not match any variant of untagged enum CacheConfigRepr"
  | refused error => error.message

/-- The sentence shown for a fault of the text. -/
def faultMessage : Json.Fault → String
  | .misplaced => "the text is not structured data"
  | .ended => "the text ends too early"

/-- The sentence shown for a refused description. -/
def Error.message : Error → String
  | unreadable failure => "cannot read hierarchy description: " ++ failure.message
  | notData fault => "invalid hierarchy description: " ++ faultMessage fault
  | unfit problem => "invalid hierarchy description: " ++ problem.message

end CacheModel.Description
