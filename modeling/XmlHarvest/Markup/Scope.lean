import XmlHarvest.Name
import XmlHarvest.Text.Search
import XmlHarvest.Markup.Tag

/-!
# Namespaces in scope

Attributes named `xmlns` or `xmlns:p` declare namespaces for the element that carries them and for
everything inside it. A scope lists the declarations that hold at a point, the nearest first.

## Main definitions

* `Markup.Scope`: the declarations in force.
* `Markup.Scope.declare?`: the scope inside a tag.
* `Markup.Scope.elementSpace`, `Markup.Scope.qualifiedSpace?`: the namespace of a name.
* `Markup.splitName`: the qualifier and the local part of a written name.
-/

namespace XmlHarvest.Markup

open Text

/-- The declarations in force, the nearest first. A declaration without a qualifier sets the
default namespace. The value is the namespace as written; an empty one takes a binding back. -/
structure Scope where
  declarations : List (Option String × String)
deriving Repr

namespace Scope

/-- The scope outside of every element: only the reserved qualifiers are bound. -/
def initial : Scope :=
  ⟨[(some "xml", xmlSpace), (some "xmlns", xmlnsSpace)]⟩

/-- What an attribute name declares: nothing, the default namespace, or a qualifier. -/
inductive Declares where
  | nothing
  | default
  | qualifier (name : String)

/-- What an attribute of this name declares. `xmlns:` with nothing behind the colon declares the
default namespace. -/
def declares (name : List Char) : Declares :=
  match stripStart ['x', 'm', 'l', 'n', 's'] name with
  | some [] => .default
  | some (':' :: q) => .qualifier (String.ofList q)
  | _ => .nothing

/-- The scope behind one attribute. The qualifier `xml` may only be bound to its own namespace,
`xmlns` not at all, and no other qualifier to the namespaces of these two. -/
def declareOne? (scope : Scope) (a : RawAttribute) : Option Scope :=
  let value := String.ofList a.value
  match declares a.name with
  | .nothing => some scope
  | .default => some ⟨(none, value) :: scope.declarations⟩
  | .qualifier q =>
    if q = "xml" then if value = xmlSpace then some scope else none
    else if q = "xmlns" || value = xmlSpace || value = xmlnsSpace then none
    else some ⟨((if q = "" then none else some q), value) :: scope.declarations⟩

/-- The scope inside a tag with these attributes. All declarations of a tag count for all of
it. -/
def declare? (scope : Scope) (as : List RawAttribute) : Option Scope :=
  as.foldlM declareOne? scope

/-- The namespace bound to a qualifier. -/
def qualifiedSpace? (scope : Scope) (q : String) : Option String :=
  match scope.declarations.find? fun d => d.1 = some q with
  | some (_, value) => if value = "" then none else some value
  | none => none

/-- The namespace of an element name without a qualifier. -/
def elementSpace (scope : Scope) : Option String :=
  match scope.declarations.find? fun d => d.1 = none with
  | some (_, value) => if value = "" then none else some value
  | none => none

end Scope

/-- The qualifier and the local part of a written name: what stands before and behind the first
colon. -/
def splitName (name : List Char) : Option String × String :=
  match splitAt (· = ':') name with
  | some (q, _, l) => (some (String.ofList q), String.ofList l)
  | none => (none, String.ofList name)

end XmlHarvest.Markup
