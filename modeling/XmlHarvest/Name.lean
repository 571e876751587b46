/-!
# Qualified names

A name in a document is written with an optional qualifier and stands in an optional namespace.
Name tests look at the expanded name alone: the namespace and the local part.

## Main definitions

* `QName`: a name as written, with its namespace.
* `ExpandedName`: the part of a name that name tests compare.
* `xmlSpace`: the namespace of the reserved qualifier `xml`.
-/

namespace XmlHarvest

/-- The namespace of the reserved qualifier `xml`. -/
def xmlSpace : String :=
  "http://www.w3.org/XML/1998/namespace"

/-- The namespace of the reserved qualifier `xmlns`. -/
def xmlnsSpace : String :=
  "http://www.w3.org/2000/xmlns/"

/-- A namespace and a local part. -/
structure ExpandedName where
  space : Option String
  localPart : String
deriving DecidableEq, Repr, Inhabited

/-- A name as it is written, with the namespace it was found in. -/
structure QName where
  qualifier : Option String
  localPart : String
  space : Option String
deriving DecidableEq, Repr, Inhabited

namespace ExpandedName

/-- `Q`, the namespace in braces and the local part; the local part alone without a namespace. -/
def toText (n : ExpandedName) : String :=
  match n.space with
  | some s => "Q\x7b" ++ s ++ "\x7d" ++ n.localPart
  | none => n.localPart

end ExpandedName

namespace QName

/-- The namespace and the local part. -/
def expanded (n : QName) : ExpandedName :=
  ⟨n.space, n.localPart⟩

/-- The name as written: the qualifier, a colon and the local part. -/
def qualified (n : QName) : String :=
  match n.qualifier with
  | some q => q ++ ":" ++ n.localPart
  | none => n.localPart

end QName

end XmlHarvest
