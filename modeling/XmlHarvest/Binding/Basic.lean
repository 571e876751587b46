import XmlHarvest.Extraction.Reader
import XmlHarvest.Json.Writing

/-!
# Bindings

A binding says where the value of a field comes from and what shape it has: from a list of
expressions in any shape, or from a template, which gives one text in each locale and so cannot give
lists. A declaration is checked once when the binding is built; a binding that exists can always be
resolved up to faults of the document's queries.

## Main definitions

* `Binding.Strategy`: where a value comes from.
* `Binding.Declaration`: a declaration that has not been checked.
* `Binding`: a checked declaration.
* `Binding.Declaration.build`: check a declaration.
* `FieldValue`: the value of a field.
* `Binding.resolve`: the value of a field in a document.
-/

namespace XmlHarvest

open Extraction (Reader Run Variable)

/-! ## Values -/

/-- The value of a field, in one of the four shapes. -/
inductive FieldValue where
  | single (value : Option String)
  | list (values : List String)
  | localeMap (values : OrderedMap Locale String)
  | localeMapList (values : ResolvedVariable)

namespace FieldValue

/-- The shape of a value. -/
def cardinality : FieldValue → Cardinality
  | .single _ => .single
  | .list _ => .list
  | .localeMap _ => .localeMap
  | .localeMapList _ => .localeMapList

/-- The text of a single value. -/
def asSingle : FieldValue → Option String
  | .single value => value
  | _ => none

/-- Whether nothing was found. -/
def isAbsent : FieldValue → Bool
  | .single value => value.isNone
  | .list values => values.isEmpty
  | .localeMap values => values.isEmpty
  | .localeMapList values => values.isEmpty

/-- A value as JSON text. -/
def toJson : FieldValue → String
  | .single value => value.elim "null" Json.quote
  | .list values => Json.array (values.map Json.quote)
  | .localeMap values => Json.object (values.entries.map fun (l, v) => (l.toText, Json.quote v))
  | .localeMapList values =>
    Json.object (values.entries.map fun (l, vs) => (l.toText, Json.array (vs.map Json.quote)))

end FieldValue

/-! ## Bindings -/

/-- The shapes that a template can give. A binding with a template has one of these, since
`Binding.buildTemplate` refuses the lists. -/
inductive TextShape where
  | single
  | localeMap
deriving DecidableEq, Repr

/-- A shape that a template can give as a shape of values. -/
def TextShape.cardinality : TextShape → Cardinality
  | .single => .single
  | .localeMap => .localeMap

/-- The shape of values as one that a template can give. -/
def Cardinality.textShape? : Cardinality → Option TextShape
  | .single => some .single
  | .localeMap => some .localeMap
  | .list | .localeMapList => none

/-- Where a value comes from, and its shape. -/
inductive Binding.Strategy where
  | expressions (list : List String) (shape : Cardinality)
  | template (template : Template) (vars : List Variable) (shape : TextShape)

/-- A field and where its value comes from. -/
structure Binding where
  field : String
  strategy : Binding.Strategy

namespace Binding

/-- The shape of a binding's values. -/
def cardinality (b : Binding) : Cardinality :=
  match b.strategy with
  | .expressions _ shape => shape
  | .template _ _ shape => shape.cardinality

/-- A declaration as it is given. -/
structure Declaration where
  field : String
  expressions : Option (List String)
  template : Option String
  vars : List Variable
  cardinality : Cardinality
deriving DecidableEq, Repr

/-- The first fault of a list of variables: one without expressions, or one whose name occurred
before. `declared` holds the names so far. -/
def variableFault? (field : String) (declared : List String) : List Variable → Option Error
  | [] => none
  | v :: vs =>
    if v.expressions.isEmpty then some (.emptyExpressionList field)
    else if v.name ∈ declared then some (.duplicateVariable field v.name)
    else variableFault? field (v.name :: declared) vs

/-- The names of placeholders that no variable has, in order of code points. -/
def undeclared (t : Template) (vs : List Variable) : List String :=
  (t.names.filter fun n => n ∉ vs.map Variable.name).mergeSort fun a b => a ≤ b

/-- Check the template of a declaration and its variables. This is the place where the shape of a
template is checked. -/
def buildTemplate (field source : String) (vs : List Variable) (c : Cardinality) :
    Except Extraction.Error Strategy :=
  match c.textShape? with
  | none => .error (.binding (.incompatibleCardinality field c))
  | some shape =>
    match Template.parse source with
    | .error mismatch => .error (.template mismatch)
    | .ok t =>
      match variableFault? field [] vs with
      | some fault => .error (.binding fault)
      | none =>
        match undeclared t vs with
        | [] => .ok (.template t vs shape)
        | names => .error (.binding (.missingVariable field names))

/-- Check a declaration: the field has a name, and either expressions stand alone, or a template
with its variables. -/
def Declaration.build (d : Declaration) : Except Extraction.Error Binding :=
  if (Text.trimChars d.field.toList).isEmpty then .error (.binding .emptyFieldName)
  else
    match d.expressions, d.template with
    | some list, none =>
      if !d.vars.isEmpty then .error (.binding (.ambiguousDeclaration d.field))
      else if list.isEmpty then .error (.binding (.emptyExpressionList d.field))
      else .ok ⟨d.field, .expressions list d.cardinality⟩
    | none, some source => do
      return ⟨d.field, ← buildTemplate d.field source d.vars d.cardinality⟩
    | _, _ => .error (.binding (.ambiguousDeclaration d.field))

/-- The value of a field in a document. That a template has the shape of a list, which would be the
fault `incompatibleCardinality`, is excluded by `TextShape`: the shape has been checked by
`buildTemplate`. -/
def resolve (b : Binding) (r : Reader) : Run FieldValue :=
  match b.strategy with
  | .expressions list .single => do return .single (← r.single list)
  | .expressions list .list => do return .list (← r.multi list)
  | .expressions list .localeMap => do return .localeMap (← r.firstPerLocale list)
  | .expressions list .localeMapList => do return .localeMapList (← r.localized list)
  | .template t vs .single => do return .single (← r.renderedFirst t vs)
  | .template t vs .localeMap => do return .localeMap (← r.rendered t vs)

end Binding

end XmlHarvest
