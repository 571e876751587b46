import XmlHarvest.Document.Axis

/-!
# Expressions

The trees that expressions are read into and evaluated from. The same tree serves both ends of
compilation: it is parametrised by a vocabulary, which says how the tree names variables,
functions, nodes and namespaces. Reading gives a tree over written names, and compilation
replaces them, leaf by leaf, by what they stand for.

## Main definitions

* `Query.Vocabulary`: how a tree names things.
* `Query.Expr`, `Query.Start`, `Query.Step`: expressions, starting points of paths, and steps.
* `Query.written`: the vocabulary of written names.
-/

namespace XmlHarvest.Query

/-- A name as it is written in an expression. -/
structure WrittenName where
  qualifier : Option String
  localPart : String
deriving DecidableEq, Repr, Inhabited

/-- The qualifier, a colon and the local part. -/
def WrittenName.toText (n : WrittenName) : String :=
  match n.qualifier with
  | some q => q ++ ":" ++ n.localPart
  | none => n.localPart

/-- The operators with two operands. -/
inductive BinaryOp where
  | or
  | and
  | eq
  | ne
  | lt
  | le
  | gt
  | ge
  | add
  | sub
  | mul
  | div
  | mod
deriving DecidableEq, Repr

/-- How a tree names variables, functions, nodes and namespaces. -/
structure Vocabulary where
  references : Type
  functions : Type
  names : Type
  spaces : Type

/-- Names as they are written. -/
abbrev written : Vocabulary where
  references := WrittenName
  functions := WrittenName
  names := WrittenName
  spaces := String

/-- What a step asks of the nodes along its axis. -/
inductive NodeTest (v : Vocabulary) where
  /-- A node of the axis's own kind with this name. -/
  | named (name : v.names)
  /-- A node of the axis's own kind with a name in this namespace. -/
  | inSpace (space : v.spaces)
  /-- A node of the axis's own kind. -/
  | any
  /-- A node of any kind. -/
  | node
  | text
  | comment
  /-- A processing instruction, with this target if one is given. -/
  | instruction (target : Option String)

mutual

/-- Expressions. -/
inductive Expr (v : Vocabulary) where
  | literal (text : String)
  | number (value : Float)
  | reference (name : v.references)
  | call (function : v.functions) (arguments : List (Expr v))
  | binary (op : BinaryOp) (left right : Expr v)
  | negate (operand : Expr v)
  | union (left right : Expr v)
  | filter (primary : Expr v) (predicates : List (Expr v))
  | path (start : Start v) (steps : List (Step v))

/-- Where a path starts. -/
inductive Start (v : Vocabulary) where
  | root
  | context
  | expr (e : Expr v)

/-- One step of a path. -/
inductive Step (v : Vocabulary) where
  | mk (axis : Axis) (test : NodeTest v) (predicates : List (Expr v))

end

namespace Step

variable {v : Vocabulary}

/-- The direction of a step. -/
def axis : Step v → Axis
  | .mk a _ _ => a

/-- What a step asks of the nodes along its axis. -/
def test : Step v → NodeTest v
  | .mk _ t _ => t

/-- The predicates of a step. -/
def predicates : Step v → List (Expr v)
  | .mk _ _ ps => ps

/-- The step `descendant-or-self::node()` that a double slash stands for. -/
def anywhere : Step v :=
  .mk .descendantOrSelf .node []

end Step

end XmlHarvest.Query
