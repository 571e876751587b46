import XmlHarvest.Json.Numeral
import XmlHarvest.Text.Quoted

/-!
# Faults of a JSON text

A text is refused because it does not follow the notation, because it ends too early, or because
data that are well written are not what is expected. Only faults of the last kind are described.

## Main definitions

* `Json.Fault`: why a text is refused.
* `Json.Unexpected`: a value that stands where another one is expected.
* `Json.invalidType`, `Json.unknownField`, `Json.unknownVariant`, `Json.duplicateField`,
  `Json.missingField`: the faults.
-/

namespace XmlHarvest.Json

/-- Why a JSON text is refused. -/
inductive Fault where
  /-- The text does not follow the notation. -/
  | malformed
  /-- The text ends too early. -/
  | truncated
  /-- The data are not what is expected. -/
  | data (reason : String)
deriving DecidableEq, Repr

/-- A value that stands where another one is expected. Lists and records are not looked into. -/
inductive Unexpected where
  | null
  | bool (b : Bool)
  | number (n : Numeral)
  | string (s : String)
  | array
  | object

/-- A value in words. -/
def Unexpected.describe : Unexpected → String
  | .null => "null"
  | .bool b => "boolean `" ++ (if b then "true" else "false") ++ "`"
  | .number n => n.describe
  | .string s => "string " ++ Text.quote s
  | .array => "sequence"
  | .object => "map"

/-- Names in backticks with commas between them. -/
def oneOf (names : List String) : String :=
  "one of " ++ String.intercalate ", " (names.map fun n => s!"`{n}`")

/-- A value of the wrong type. -/
def invalidType (found : Unexpected) (expected : String) : Fault :=
  .data ("invalid type: " ++ found.describe ++ ", expected " ++ expected)

/-- A record has a field that is not known. -/
def unknownField (name : String) (known : List String) : Fault :=
  .data (s!"unknown field `{name}`, expected " ++ oneOf known)

/-- A name is not one of those allowed. -/
def unknownVariant (name : String) (known : List String) : Fault :=
  .data (s!"unknown variant `{name}`, expected " ++ oneOf known)

/-- A record has a field twice. -/
def duplicateField (name : String) : Fault :=
  .data s!"duplicate field `{name}`"

/-- A record lacks a field. -/
def missingField (name : String) : Fault :=
  .data s!"missing field `{name}`"

end XmlHarvest.Json
