import XmlHarvest.Name
import XmlHarvest.OrderedMap

/-!
# Static contexts

What compilation knows about namespaces: the namespace of element names without a qualifier, and
the namespaces that qualifiers are bound to. Compiled expressions hold the namespaces themselves,
so an expression belongs to the context it was compiled in.

## Main definitions

* `Query.StaticContext`: a default namespace and bound qualifiers.
* `Query.StaticContext.withDefault`, `Query.StaticContext.withSpace`: changed contexts.
* `Query.StaticContext.space?`: the namespace of a qualifier.
-/

namespace XmlHarvest.Query

/-- A default namespace for element names and the namespaces bound to qualifiers. -/
structure StaticContext where
  defaultSpace : Option String
  spaces : OrderedMap String String

namespace StaticContext

/-- The context without a default namespace in which only `xml` is bound. -/
def initial : StaticContext :=
  ⟨none, OrderedMap.empty.insert "xml" xmlSpace⟩

instance : Inhabited StaticContext := ⟨initial⟩

/-- A default namespace as it is given; the empty string stands for none. -/
def nonempty (space : Option String) : Option String :=
  space.filter fun s => s ≠ ""

/-- The context with another default namespace. -/
def withDefault (c : StaticContext) (space : Option String) : StaticContext :=
  ⟨nonempty space, c.spaces⟩

/-- The context with a qualifier bound. The qualifier `xml` keeps its namespace. -/
def withSpace (c : StaticContext) (qualifier space : String) : StaticContext :=
  if qualifier = "xml" then c else ⟨c.defaultSpace, c.spaces.insert qualifier space⟩

/-- The namespace bound to a qualifier. -/
def space? (c : StaticContext) (qualifier : String) : Option String :=
  c.spaces.get? qualifier

end StaticContext

end XmlHarvest.Query
