import XmlHarvest.Name
import XmlHarvest.Markup.Error
import XmlHarvest.Markup.Piece
import XmlHarvest.Markup.Reference
import XmlHarvest.Markup.Scope
import XmlHarvest.Markup.Tag

/-!
# Events

The pieces of a document text are read from left to right. Each becomes an event with its names
put into namespaces and its references resolved, or is a fault for which the text is refused.
Nothing is read behind the first fault.

## Main definitions

* `Markup.Event`: what one piece tells.
* `Markup.Reading`: the events before the first fault, and the fault.
* `Markup.readPieces`: what a list of pieces tells.
* `Markup.read`: what a text tells.
-/

namespace XmlHarvest.Markup

open Text

/-- What one piece of markup tells. -/
inductive Event where
  /-- An element begins. -/
  | opening (name : QName) (attributes : List (QName × String))
  /-- The innermost open element ends. -/
  | closing
  /-- An element without content. -/
  | empty (name : QName) (attributes : List (QName × String))
  | text (chars : String)
  | characterData (chars : String)
  /-- A reference, given by the text that it stands for. -/
  | reference (chars : String)
  | comment (content : String)
  | instruction (target data : String)
  | declaration
  | doctype
deriving DecidableEq, Repr

/-! ## Names -/

/-- The name of an element in its namespace. -/
def elementName (offset : Nat) (scope : Scope) (name : List Char) : Except Error QName :=
  match splitName name with
  | (none, l) => .ok ⟨none, l, scope.elementSpace⟩
  | (some q, l) =>
    match scope.qualifiedSpace? q with
    | some space => .ok ⟨some q, l, some space⟩
    | none => .error (.undeclaredQualifier offset q)

/-- The name of an attribute in its namespace. The default namespace does not extend to
attributes. -/
def attributeName (offset : Nat) (scope : Scope) (name : List Char) : Except Error QName :=
  match splitName name with
  | (none, l) => .ok ⟨none, l, none⟩
  | (some q, l) =>
    match scope.qualifiedSpace? q with
    | some space => .ok ⟨some q, l, some space⟩
    | none => .error (.undeclaredQualifier offset q)

/-- Whether an attribute is a namespace declaration, which is no attribute of the element. -/
def isDeclaration (name : List Char) : Bool :=
  name = ['x', 'm', 'l', 'n', 's'] ||
    (stripStart ['x', 'm', 'l', 'n', 's', ':'] name).isSome

/-- The attributes of an element, in order. `seen` holds the names of the attributes before, none
of which may occur again, and `complete` says whether the list ends well. -/
def elementAttributes (offset : Nat) (scope : Scope) (complete : Bool) (seen : List (List Char)) :
    List RawAttribute → Except Error (List (QName × String))
  | [] => if complete then .ok [] else .error (.malformed offset)
  | a :: as =>
    if a.name ∈ seen then .error (.malformed offset)
    else if isDeclaration a.name then
      elementAttributes offset scope complete (a.name :: seen) as
    else do
      let name ← attributeName offset scope a.name
      match unescape? a.value with
      | none => .error (.malformed offset)
      | some value =>
        let rest ← elementAttributes offset scope complete (a.name :: seen) as
        return (name, String.ofList value) :: rest

/-! ## Reading the pieces -/

/-- Where reading stands: the namespaces in scope, and for every open element, the innermost
first, its written name and the namespaces in scope around it. -/
structure Nesting where
  scope : Scope
  enclosing : List (List Char × Scope)

namespace Nesting

/-- Outside of every element. -/
def outermost : Nesting :=
  ⟨.initial, []⟩

/-- The event of a start tag. -/
def enter (nesting : Nesting) (offset : Nat) (tag : Tag) : Except Error (Event × Nesting) :=
  match nesting.scope.declare? tag.attributes with
  | none => .error (.malformed offset)
  | some scope => do
    let name ← elementName offset scope tag.name
    let attributes ← elementAttributes offset scope tag.complete [] tag.attributes
    if tag.selfClosing then return (.empty name attributes, nesting)
    else return (.opening name attributes, ⟨scope, (tag.name, nesting.scope) :: nesting.enclosing⟩)

/-- The event of an end tag, which must have the name of the innermost open element. -/
def leave (nesting : Nesting) (offset : Nat) (name : List Char) : Except Error (Event × Nesting) :=
  match nesting.enclosing with
  | [] => .error (.malformed offset)
  | (opened, scope) :: enclosing =>
    if opened = name then .ok (.closing, ⟨scope, enclosing⟩) else .error (.malformed offset)

end Nesting

/-- The event of a processing instruction, or of the declaration at the head of a document. The
target ends at the first blank, and the blanks around the data are dropped. -/
def instructionEvent (body : List Char) : Event :=
  let isDeclared : Bool :=
    match stripStart ['x', 'm', 'l'] body with
    | some [] => true
    | some (c :: _) => isSpacing c
    | none => false
  if isDeclared then .declaration
  else
    match splitAt isBlank body with
    | some (target, _, data) => .instruction (String.ofList target) (trim (String.ofList data))
    | none => .instruction (String.ofList body) ""

/-- The event of a piece. -/
def readPiece (nesting : Nesting) (offset : Nat) : Piece → Except Error (Event × Nesting)
  | .text chars => .ok (.text (String.ofList chars), nesting)
  | .reference name =>
    match resolve? name with
    | some c => .ok (.reference (String.singleton c), nesting)
    | none => .error (.unknownReference (String.ofList name))
  | .opening body => nesting.enter offset (.ofBody body)
  | .closing body => nesting.leave offset (closingName body)
  | .comment body => .ok (.comment (String.ofList body), nesting)
  | .characterData body => .ok (.characterData (String.ofList body), nesting)
  | .instruction body => .ok (instructionEvent body, nesting)
  | .doctype _ => .ok (.doctype, nesting)
  | .broken _ => .error (.malformed offset)

/-- What is read of a text: the events before the first fault, and this fault, if there is one. -/
structure Reading where
  events : List Event
  fault? : Option Error
deriving DecidableEq, Repr

/-- What a list of pieces tells. -/
def readPieces (nesting : Nesting) : List (Nat × Piece) → Reading
  | [] => ⟨[], none⟩
  | (offset, p) :: ps =>
    match readPiece nesting offset p with
    | .ok (event, nesting) =>
      let rest := readPieces nesting ps
      ⟨event :: rest.events, rest.fault?⟩
    | .error fault => ⟨[], some fault⟩

/-- What a document text tells. A byte order mark at its start is no part of the text. -/
def read (s : List Char) : Reading :=
  let s := match s with
    | '\ufeff' :: r => r
    | r => r
  readPieces .outermost (locate 0 (pieces s))

end XmlHarvest.Markup
