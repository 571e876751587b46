import XmlHarvest.Document.Basic
import XmlHarvest.Number.Decimal
import XmlHarvest.Query.Error

/-!
# Values

An expression evaluates to nodes, to a text, to a number or to a truth value, and each of these
can be read as any of the other three simple types.

## Main definitions

* `Query.Value`: the values.
* `Query.Value.toBoolean`, `Query.Value.toNumber`, `Query.Value.toText`: the conversions.
* `Query.Value.toNodes`: the nodes of a value that has to be a node-set.
-/

namespace XmlHarvest.Query

/-- The values of expressions. -/
inductive Value where
  /-- Nodes in document order, none twice. -/
  | nodes (ids : List NodeId)
  | text (s : String)
  | number (x : Float)
  | boolean (b : Bool)
deriving Repr

namespace Value

/-- The name of a value's type. -/
def typeName : Value → String
  | .nodes _ => "node-set"
  | .text _ => "string"
  | .number _ => "number"
  | .boolean _ => "boolean"

/-- Nodes and texts are true unless empty, numbers unless they are zero or not a number. -/
def toBoolean : Value → Bool
  | .nodes ids => !ids.isEmpty
  | .text s => s ≠ ""
  | .number x => !(x == 0.0) && !x.isNaN
  | .boolean b => b

variable (d : Document)

/-- The number of a value. For nodes it is what the first one's string-value denotes, and not a
number without nodes. -/
def toNumber : Value → Float
  | .nodes [] => Number.nan
  | .nodes (i :: _) => Number.ofText (d.stringValue i)
  | .text s => Number.ofText s
  | .number x => x
  | .boolean b => if b then 1.0 else 0.0

/-- The text of a value. For nodes it is the string-value of the first one, and empty without
nodes. -/
def toText : Value → String
  | .nodes [] => ""
  | .nodes (i :: _) => d.stringValue i
  | .text s => s
  | .number x => Number.toText x
  | .boolean b => if b then "true" else "false"

/-- The nodes of a value that has to be a node-set. -/
def toNodes : Value → Except Error (List NodeId)
  | .nodes ids => .ok ids
  | v => .error (.notNodes v.typeName)

end Value

end XmlHarvest.Query
