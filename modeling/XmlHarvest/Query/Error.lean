import XmlHarvest.Query.Expr

/-!
# Faults of expressions

The causes for which an expression is refused, or for which its evaluation fails. Each has a code
and belongs either to compilation or to evaluation.

## Main definitions

* `Query.Error`: the causes.
* `Query.Error.code`, `Query.Error.isStatic`, `Query.Error.message`: how a cause is reported.
-/

namespace XmlHarvest.Query

/-- Why an expression cannot be compiled or evaluated. -/
inductive Error where
  /-- The text does not follow the grammar. -/
  | malformed
  /-- A step goes along the namespace axis. -/
  | namespaceAxis
  /-- Expressions have no variables. -/
  | undeclaredVariable (name : WrittenName)
  /-- There is no function of that name that takes that many arguments. -/
  | unknownFunction (name : WrittenName) (arity : Nat)
  /-- A name test uses a qualifier that is not bound. -/
  | unboundQualifier (qualifier : String)
  /-- A function lacks an argument. -/
  | missingArgument
  /-- Nodes are needed and a value of the named type was found. -/
  | notNodes (found : String)
deriving DecidableEq, Repr

namespace Error

/-- The code of a fault. -/
def code : Error → String
  | .malformed | .namespaceAxis => "err:XPST0003"
  | .undeclaredVariable _ => "err:XPST0008"
  | .unknownFunction _ _ => "err:XPST0017"
  | .unboundQualifier _ => "err:XPST0081"
  | .missingArgument => "err:XPTY0004"
  | .notNodes _ => "err:XPTY0019"

/-- Whether a fault is found when an expression is compiled. -/
def isStatic : Error → Bool
  | .malformed | .namespaceAxis | .undeclaredVariable _ | .unknownFunction _ _
  | .unboundQualifier _ => true
  | .missingArgument | .notNodes _ => false

/-- What is wrong. -/
def reason : Error → String
  | .malformed => "the expression does not follow the grammar"
  | .namespaceAxis => "the namespace axis is not supported"
  | .undeclaredVariable name => s!"variable ${name.toText} is not declared"
  | .unknownFunction name arity => s!"unknown function {name.toText}#{arity}"
  | .unboundQualifier qualifier => s!"namespace prefix `{qualifier}` is not bound"
  | .missingArgument => "missing function argument"
  | .notNodes found => s!"expected a node-set, found {found}"

/-- The full wording: when the fault was found, its code and what is wrong. -/
def message (e : Error) : String :=
  (if e.isStatic then "static" else "dynamic") ++ " error " ++ e.code ++ ": " ++ e.reason

end Error

end XmlHarvest.Query
