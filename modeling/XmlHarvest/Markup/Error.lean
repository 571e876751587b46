/-!
# Faults of a document

The causes for which a document text is refused. Offsets count bytes from the start of the text
behind a byte order mark, and point at the piece of markup that is at fault.

## Main definitions

* `Markup.Error`: the causes.
* `Markup.Error.message`: their wording.
-/

namespace XmlHarvest.Markup

/-- Why a document text is refused. -/
inductive Error where
  /-- The piece of markup at this offset is not well formed. -/
  | malformed (offset : Nat)
  /-- The tag at this offset uses a qualifier that no declaration binds. -/
  | undeclaredQualifier (offset : Nat) (qualifier : String)
  /-- A reference in character data that names no character. -/
  | unknownReference (name : String)
  /-- The text ends inside this element. -/
  | unclosed (name : String)
  /-- The document has more nodes than there are numbers for them. -/
  | tooLarge
deriving DecidableEq, Repr

/-- The wording of a fault. -/
def Error.message : Error → String
  | .malformed offset => s!"XML parse error at byte {offset}"
  | .undeclaredQualifier offset qualifier =>
    s!"XML parse error at byte {offset}: undeclared namespace prefix `{qualifier}`"
  | .unknownReference name => "unknown entity reference `&" ++ name ++ ";`"
  | .unclosed name => s!"unexpected end of XML inside `{name}`"
  | .tooLarge => "document exceeds the supported number of nodes"

end XmlHarvest.Markup
