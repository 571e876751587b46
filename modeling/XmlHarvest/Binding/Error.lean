/-!
# Faults of bindings

The causes for which a field declaration is refused, or a field cannot be found.

## Main definitions

* `Cardinality`: the shapes of field values.
* `Binding.Error`: the causes.
* `Binding.Error.message`: their wording.
-/

namespace XmlHarvest

/-- The shape of a field's value: one text or a list of texts, for all locales together or for each
locale by itself. -/
inductive Cardinality where
  | single
  | list
  | localeMap
  | localeMapList
deriving DecidableEq, Repr, Inhabited

/-- A shape in words. -/
def Cardinality.describe : Cardinality → String
  | .single => "a single value"
  | .list => "a list"
  | .localeMap => "a locale map"
  | .localeMapList => "a locale map of lists"

namespace Binding

/-- Why a field declaration is refused, or a field is not found. -/
inductive Error where
  | ambiguousDeclaration (field : String)
  | missingVariable (field : String) (names : List String)
  | incompatibleCardinality (field : String) (cardinality : Cardinality)
  | emptyExpressionList (field : String)
  | duplicateVariable (field name : String)
  | emptyFieldName
  | duplicateField (field : String)
  | unknownField (field : String)
deriving DecidableEq, Repr

/-- The wording of a fault. -/
def Error.message : Error → String
  | .ambiguousDeclaration field =>
    s!"field `{field}` must declare exactly one of an expression list or a template"
  | .missingVariable field names =>
    s!"field `{field}` uses undeclared template variables: " ++ String.intercalate ", " names
  | .incompatibleCardinality field cardinality =>
    s!"field `{field}` is templated and cannot produce " ++ cardinality.describe
  | .emptyExpressionList field => s!"field `{field}` declares an empty expression list"
  | .duplicateVariable field name => s!"field `{field}` declares variable `{name}` more than once"
  | .emptyFieldName => "binding declared without a field name"
  | .duplicateField field => s!"field `{field}` is registered more than once"
  | .unknownField field => s!"no binding registered for field `{field}`"

end Binding

end XmlHarvest
