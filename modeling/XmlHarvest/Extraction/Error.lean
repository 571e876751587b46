import XmlHarvest.Binding.Error
import XmlHarvest.Query.Error
import XmlHarvest.Template.Mark

/-!
# Faults of an extraction

What can go wrong between a document and the values that are taken from it. A fault in resolving
an expression is reported with that expression around its cause.

## Main definitions

* `Extraction.Error`: the causes.
* `Extraction.Error.rootCause`: the cause inside.
* `Extraction.Error.message`: their wording.
-/

namespace XmlHarvest.Extraction

/-- Why an extraction fails. -/
inductive Error where
  | invalidExpression (expression : String) (cause : Query.Error)
  /-- An expression that must start from the context node does not. -/
  | notRelative (expression : String)
  /-- The context node belongs to another document. -/
  | foreignNode
  | evaluation (expression : String) (cause : Query.Error)
  | resolution (expression : String) (cause : Error)
  | template (cause : Template.Mismatch)
  | binding (cause : Binding.Error)
deriving DecidableEq, Repr

namespace Error

/-- The cause inside of all resolutions. -/
def rootCause : Error → Error
  | .resolution _ cause => cause.rootCause
  | e => e

/-- The wording of a fault. -/
def message : Error → String
  | .invalidExpression expression cause =>
    s!"invalid expression `{expression}`: " ++ cause.message
  | .notRelative expression => s!"relative expression `{expression}` must start with `.`"
  | .foreignNode => "context node belongs to a different document"
  | .evaluation expression cause => s!"evaluation of `{expression}` failed: " ++ cause.message
  | .resolution expression cause => s!"failed to resolve `{expression}`: " ++ cause.message
  | .template cause => cause.message
  | .binding cause => cause.message

end Error

end XmlHarvest.Extraction
