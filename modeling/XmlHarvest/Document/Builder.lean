import XmlHarvest.Document.Node
import XmlHarvest.Markup.Event

/-!
# Building documents

A document is built from the events of its text from left to right. Every node is put behind the
nodes before it and gets its number at once, but where an element stops is known only when it
ends: until then it stops directly behind itself. Character data are held back until something
else comes, so that data that meet become one text.

Numbers and stops are taken from the number of nodes so far. If there are too many nodes for that,
the event is at fault.

## Main definitions

* `Builder`: a document of which a part has been read.
* `Builder.counted`: the only fault there is.
* `Builder.step`: the work of one event.
* `Builder.run`: the work of a list of events.
-/

namespace XmlHarvest

open Markup (Event)

/-- A document of which a part has been read: its nodes so far, the numbers of the elements that are
open, the innermost first, and the character data that no node holds yet. -/
structure Builder where
  nodes : Array Node
  opened : List NodeId
  text : String

namespace Builder

/-! ## Nodes -/

/-- Before the first event there is only the root. -/
def initial : Builder :=
  ⟨#[⟨.root, none, [], [], 1⟩], [], ""⟩

/-- The node that the next node belongs to: the innermost open element, or the root. -/
def innermost (b : Builder) : NodeId :=
  b.opened.headD 0

/-- The builder with one more node. -/
def add (b : Builder) (content : Content) : Builder :=
  let id := b.nodes.size
  let p := b.innermost
  { b with nodes := (b.nodes.push (.leaf content p id)).modify p (·.adopt content.kind id) }

/-- The builder with one more element, which is open. -/
def enter (b : Builder) (name : QName) : Builder :=
  { b.add (.element name) with opened := b.nodes.size :: b.opened }

/-- The builder without its innermost open element, which stops behind the last node. Nothing
happens if no element is open. -/
def leave (b : Builder) : Builder :=
  match b.opened with
  | [] => b
  | i :: opened => { b with nodes := b.nodes.modify i (·.close b.nodes.size), opened := opened }

theorem innermost_eq {b : Builder} {i : NodeId} {is : List NodeId} (h : b.opened = i :: is) :
    b.innermost = i := by
  rw [innermost, h]
  rfl

theorem leave_eq_self {b : Builder} (h : b.opened = []) : b.leave = b := by
  rw [leave, h]

theorem leave_eq {b : Builder} {i : NodeId} {is : List NodeId} (h : b.opened = i :: is) :
    b.leave = { b with nodes := b.nodes.modify i (·.close b.nodes.size), opened := is } := by
  rw [leave, h]

/-! ## Events -/

/-- A result in which the number of nodes has been used as a number. -/
def counted {α : Type} (count : Nat) (result : α) : Except Markup.Error α :=
  if count < nodeLimit then .ok result else .error .tooLarge

theorem counted_eq_ok_iff {α : Type} {count : Nat} {a a' : α} :
    counted count a = .ok a' ↔ count < nodeLimit ∧ a = a' := by
  unfold counted
  split <;> simp [*]

/-- A node behind the nodes so far. -/
def push (b : Builder) (content : Content) : Except Markup.Error Builder :=
  counted b.nodes.size (b.add content)

/-- The character data are put into a text. Data outside of every element are dropped. -/
def flushText (b : Builder) : Except Markup.Error Builder :=
  if b.text = "" then .ok b
  else if b.opened.isEmpty then .ok { b with text := "" }
  else { b with text := "" : Builder }.push (.text b.text)

/-- A node without content. -/
def leaf (b : Builder) (content : Content) : Except Markup.Error Builder := do
  let b ← b.flushText
  b.push content

/-- The attributes of the innermost open element. -/
def pushAttributes (b : Builder) : List (QName × String) → Except Markup.Error Builder
  | [] => .ok b
  | (name, value) :: rest => do
    let b ← b.push (.attribute name value)
    b.pushAttributes rest

/-- The start of an element. -/
def openElement (b : Builder) (name : QName) (attributes : List (QName × String)) :
    Except Markup.Error Builder := do
  let b ← b.flushText
  let b ← counted b.nodes.size (b.enter name)
  b.pushAttributes attributes

/-- The end of the innermost open element, with the character data before it. -/
def closeElement (b : Builder) : Except Markup.Error Builder := do
  let b ← b.flushText
  if b.opened.isEmpty then .ok b else counted b.nodes.size b.leave

/-- The work of one event. Declarations leave no trace. -/
def step (b : Builder) : Event → Except Markup.Error Builder
  | .opening name attributes => b.openElement name attributes
  | .closing => b.closeElement
  | .empty name attributes => do
    let b ← b.openElement name attributes
    b.closeElement
  | .text chars | .characterData chars | .reference chars => .ok { b with text := b.text ++ chars }
  | .comment content => b.leaf (.comment content)
  | .instruction target data => b.leaf (.instruction target data)
  | .declaration | .doctype => .ok b

/-- The work of a list of events. -/
def run (b : Builder) : List Event → Except Markup.Error Builder
  | [] => .ok b
  | e :: es => do
    let b ← b.step e
    b.run es

end Builder

end XmlHarvest
