/-!
# Functions of the query language

The core functions that an expression can call, their names and the numbers of arguments that
they take.

## Main definitions

* `Query.Function`: the functions.
* `Query.Function.ofName?`: the function with a given name.
* `Query.Function.minArity`, `Query.Function.maxArity?`: how many arguments a function takes.
-/

namespace XmlHarvest.Query

/-- The core functions. -/
inductive Function where
  | last
  | position
  | count
  | localName
  | namespaceUri
  | name
  | string
  | concat
  | startsWith
  | endsWith
  | contains
  | substringBefore
  | substringAfter
  | substring
  | stringLength
  | normalizeSpace
  | translate
  | boolean
  | not
  | true
  | false
  | lang
  | number
  | sum
  | floor
  | ceiling
  | round
deriving DecidableEq, Repr

namespace Function

/-- Every function. -/
def all : List Function :=
  [.last, .position, .count, .localName, .namespaceUri, .name, .string, .concat, .startsWith,
    .endsWith, .contains, .substringBefore, .substringAfter, .substring, .stringLength,
    .normalizeSpace, .translate, .boolean, .not, .true, .false, .lang, .number, .sum, .floor,
    .ceiling, .round]

/-- The name of a function in expressions. -/
def spell : Function → String
  | .last => "last"
  | .position => "position"
  | .count => "count"
  | .localName => "local-name"
  | .namespaceUri => "namespace-uri"
  | .name => "name"
  | .string => "string"
  | .concat => "concat"
  | .startsWith => "starts-with"
  | .endsWith => "ends-with"
  | .contains => "contains"
  | .substringBefore => "substring-before"
  | .substringAfter => "substring-after"
  | .substring => "substring"
  | .stringLength => "string-length"
  | .normalizeSpace => "normalize-space"
  | .translate => "translate"
  | .boolean => "boolean"
  | .not => "not"
  | .true => "true"
  | .false => "false"
  | .lang => "lang"
  | .number => "number"
  | .sum => "sum"
  | .floor => "floor"
  | .ceiling => "ceiling"
  | .round => "round"

/-- The function with a name. -/
def ofName? (name : String) : Option Function :=
  all.find? fun f => f.spell = name

/-- The least number of arguments. -/
def minArity : Function → Nat
  | .last | .position | .true | .false => 0
  | .localName | .namespaceUri | .name | .string | .stringLength | .normalizeSpace | .number => 0
  | .count | .boolean | .not | .lang | .sum | .floor | .ceiling | .round => 1
  | .startsWith | .endsWith | .contains | .substringBefore | .substringAfter => 2
  | .substring => 2
  | .translate => 3
  | .concat => 2

/-- The greatest number of arguments; `concat` takes any number. -/
def maxArity? : Function → Option Nat
  | .last | .position | .true | .false => some 0
  | .localName | .namespaceUri | .name | .string | .stringLength | .normalizeSpace | .number =>
    some 1
  | .count | .boolean | .not | .lang | .sum | .floor | .ceiling | .round => some 1
  | .startsWith | .endsWith | .contains | .substringBefore | .substringAfter => some 2
  | .substring => some 3
  | .translate => some 3
  | .concat => none

/-- Whether a function takes a number of arguments. -/
def accepts (f : Function) (arity : Nat) : Bool :=
  f.minArity ≤ arity && f.maxArity?.all (arity ≤ ·)

end Function

end XmlHarvest.Query
