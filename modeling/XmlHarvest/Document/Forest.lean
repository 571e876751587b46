import XmlHarvest.Markup.Event

/-!
# Forests

The content of a document as a tree: a sequence of elements, texts, comments and instructions, in
which every element has a sequence of its own. A forest is written with its first member and the
members behind it, so that recursion over a document needs one function only.

A forest is assembled from events by reading them from the right. What stands behind an event is
already a forest, and an end tag opens a new one that its start tag takes in as content.

## Main definitions

* `Forest`: a sequence of nodes with their content.
* `Forest.prependText`: character data in front of a forest.
* `Forest.ofEvents`: the forest that a sequence of events spells.
-/

namespace XmlHarvest

open Markup (Event)

/-- A sequence of nodes, given by its first member and the members behind it. -/
inductive Forest where
  | nil
  | element (name : QName) (attributes : List (QName × String)) (content rest : Forest)
  | text (chars : String) (rest : Forest)
  | comment (content : String) (rest : Forest)
  | instruction (target data : String) (rest : Forest)
deriving DecidableEq, Repr, Inhabited

namespace Forest

/-- Character data in front of a forest. Data that meet are one text, and empty data leave no
trace. -/
def prependText (chars : String) : Forest → Forest
  | .text more rest => .text (chars ++ more) rest
  | f => if chars = "" then f else .text chars f

/-! ## Assembling -/

/-- Why a sequence of events spells no forest. -/
inductive Imbalance where
  /-- An element has no end; of several the innermost is named. -/
  | unclosed (name : QName)
  /-- An end tag has no beginning. -/
  | unopened
deriving DecidableEq, Repr

/-- What a sequence of events amounts to that may begin inside of elements: the forest up to the
first end tag whose start tag is missing, and the forests behind each of these end tags, the
nearest first. -/
structure Partial where
  here : Forest
  behind : List Forest

/-- An event in front of what is behind it. Character data count only inside of an element, that
is, where an end tag is still to come; declarations leave no trace. -/
def Partial.prepend (p : Partial) : Event → Except Imbalance Partial
  | .closing => .ok ⟨.nil, p.here :: p.behind⟩
  | .opening name attributes =>
    match p.behind with
    | rest :: behind => .ok ⟨.element name attributes p.here rest, behind⟩
    | [] => .error (.unclosed name)
  | .empty name attributes => .ok ⟨.element name attributes .nil p.here, p.behind⟩
  | .text chars | .characterData chars | .reference chars =>
    .ok (if p.behind.isEmpty then p else ⟨prependText chars p.here, p.behind⟩)
  | .comment content => .ok ⟨.comment content p.here, p.behind⟩
  | .instruction target data => .ok ⟨.instruction target data p.here, p.behind⟩
  | .declaration | .doctype => .ok p

/-- What a sequence of events amounts to. -/
def Partial.ofEvents : List Event → Except Imbalance Partial
  | [] => .ok ⟨.nil, []⟩
  | e :: es => do
    let p ← Partial.ofEvents es
    p.prepend e

/-- The forest that a sequence of events spells. -/
def ofEvents (es : List Event) : Except Imbalance Forest := do
  let p ← Partial.ofEvents es
  if p.behind.isEmpty then return p.here else .error .unopened

end Forest

end XmlHarvest
