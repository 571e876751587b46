import XmlHarvest.Query.Value

/-!
# Comparison

Two simple values are equal as truth values, numbers or texts, whichever of these types comes
first and is the type of one of them; they are ordered as numbers. Nodes are compared through
their string-values, and a comparison with nodes holds if it holds for some of them, except that a
truth value asks only whether there are any.

## Main definitions

* `Query.Relation`: the comparisons.
* `Query.Relation.holdsSimple`: comparison of simple values.
* `Query.Relation.holds`: comparison of any two values.
-/

namespace XmlHarvest.Query

/-- The comparisons of the language. -/
inductive Relation where
  | eq
  | ne
  | lt
  | le
  | gt
  | ge
deriving DecidableEq, Repr

namespace Relation

variable (d : Document)

/-- Whether two simple values are equal. -/
def equalSimple (l r : Value) : Bool :=
  match l, r with
  | .boolean _, _ | _, .boolean _ => l.toBoolean == r.toBoolean
  | .number _, _ | _, .number _ => l.toNumber d == r.toNumber d
  | _, _ => l.toText d == r.toText d

/-- Whether a comparison holds between two simple values. -/
def holdsSimple (rel : Relation) (l r : Value) : Bool :=
  match rel with
  | .eq => equalSimple d l r
  | .ne => !equalSimple d l r
  | .lt => l.toNumber d < r.toNumber d
  | .le => l.toNumber d ≤ r.toNumber d
  | .gt => r.toNumber d < l.toNumber d
  | .ge => r.toNumber d ≤ l.toNumber d

/-- The string-value of a node as a value. -/
def textOf (i : NodeId) : Value :=
  .text (d.stringValue i)

/-- Whether a comparison holds between two values. -/
def holds (rel : Relation) (l r : Value) : Bool :=
  match l, r with
  | .nodes _, .boolean _ | .boolean _, .nodes _ =>
    rel.holdsSimple d (.boolean l.toBoolean) (.boolean r.toBoolean)
  | .nodes is, .nodes js =>
    is.any fun i => js.any fun j => rel.holdsSimple d (textOf d i) (textOf d j)
  | .nodes is, v => is.any fun i => rel.holdsSimple d (textOf d i) v
  | v, .nodes js => js.any fun j => rel.holdsSimple d v (textOf d j)
  | _, _ => rel.holdsSimple d l r

end Relation

end XmlHarvest.Query
