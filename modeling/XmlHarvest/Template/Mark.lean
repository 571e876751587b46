import XmlHarvest.Text.Blank

/-!
# Marks of a template

A template is text in which angle brackets delimit contexts. A backslash in front of an angle
bracket makes it an ordinary character; in front of anything else it is one itself.

## Main definitions

* `Template.Mark`: a character or a delimiter.
* `Template.marks`: the marks of a text, with their positions in bytes.
* `Template.Mismatch`: a delimiter without its partner.
-/

namespace XmlHarvest.Template

/-- A character of a template or a delimiter of a context. -/
inductive Mark where
  | char (c : Char)
  | opening
  | closing
deriving DecidableEq, Repr

/-- The mark that a character is when no backslash stands in front of it. -/
def Mark.plain (c : Char) : Mark :=
  if c = '<' then .opening else if c = '>' then .closing else .char c

/-- Whether a character needs a backslash to be ordinary text. -/
def isDelimiter (c : Char) : Bool :=
  c = '<' || c = '>'

/-- The marks of a text that begins at a position, each with its own position. -/
def marks (position : Nat) : List Char → List (Nat × Mark)
  | [] => []
  | [c] => [(position, .plain c)]
  | c :: d :: r =>
    if c = '\\' && isDelimiter d then (position, .char d) :: marks (position + 2) r
    else (position, .plain c) :: marks (position + c.utf8Size) (d :: r)

/-- A delimiter without its partner, at a position in bytes. -/
structure Mismatch where
  position : Nat
deriving DecidableEq, Repr

/-- The wording of a mismatch. -/
def Mismatch.message (m : Mismatch) : String :=
  s!"mismatched context delimiter at byte {m.position}"

end XmlHarvest.Template
