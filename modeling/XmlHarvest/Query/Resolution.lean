import XmlHarvest.Query.Error
import XmlHarvest.Query.Function
import XmlHarvest.Query.Grammar
import XmlHarvest.Query.StaticContext

/-!
# Resolution of names

Compilation keeps the shape of an expression and replaces its names: function names by functions,
node names and wildcards by the namespaces that a static context gives them. There are no
variables, so the names of a resolved expression leave no room for one.

## Main definitions

* `Query.resolved`: the vocabulary of resolved names.
* `Query.Expr.resolve`: an expression with its names resolved.
* `Query.Compiled`, `Query.compile`: expressions compiled from their text.
-/

namespace XmlHarvest.Query

/-- Names that are resolved: no variables, functions, expanded names and namespaces. -/
abbrev resolved : Vocabulary where
  references := Empty
  functions := Function
  names := ExpandedName
  spaces := String

namespace StaticContext

/-- The namespace of a qualifier that must be bound. -/
def requireSpace (c : StaticContext) (qualifier : String) : Except Error String :=
  match c.space? qualifier with
  | some space => .ok space
  | none => .error (.unboundQualifier qualifier)

/-- The namespace of a name test. A name without a qualifier is in the default namespace, except on
the attribute axis. -/
def testSpace (c : StaticContext) (axis : Axis) (name : WrittenName) :
    Except Error (Option String) :=
  match name.qualifier with
  | some q => (c.requireSpace q).map some
  | none => .ok (if axis = .attribute then none else c.defaultSpace)

end StaticContext

/-- The function of a name that takes a number of arguments. -/
def findFunction (name : WrittenName) (arity : Nat) : Except Error Function :=
  match name.qualifier, Function.ofName? name.localPart with
  | none, some f => if f.accepts arity then .ok f else .error (.unknownFunction name arity)
  | _, _ => .error (.unknownFunction name arity)

/-- A node test with its names resolved. -/
def NodeTest.resolve (c : StaticContext) (axis : Axis) :
    NodeTest written → Except Error (NodeTest resolved)
  | .named name => do return .named ⟨← c.testSpace axis name, name.localPart⟩
  | .inSpace q => do return .inSpace (← c.requireSpace q)
  | .any => .ok .any
  | .node => .ok .node
  | .text => .ok .text
  | .comment => .ok .comment
  | .instruction target => .ok (.instruction target)

mutual

/-- An expression with its names resolved. The first fault counts, a function before its
arguments. -/
def Expr.resolve (c : StaticContext) : Expr written → Except Error (Expr resolved)
  | .literal text => .ok (.literal text)
  | .number value => .ok (.number value)
  | .reference name => .error (.undeclaredVariable name)
  | .call name arguments => do
    let f ← findFunction name arguments.length
    return .call f (← resolveAll c arguments)
  | .binary op left right => do return .binary op (← left.resolve c) (← right.resolve c)
  | .negate operand => do return .negate (← operand.resolve c)
  | .union left right => do return .union (← left.resolve c) (← right.resolve c)
  | .filter primary predicates => do
    return .filter (← primary.resolve c) (← resolveAll c predicates)
  | .path start steps => do return .path (← start.resolve c) (← resolveSteps c steps)

/-- Expressions with their names resolved, in order. -/
def resolveAll (c : StaticContext) : List (Expr written) → Except Error (List (Expr resolved))
  | [] => .ok []
  | e :: es => do return (← e.resolve c) :: (← resolveAll c es)

/-- The start of a path with its names resolved. -/
def Start.resolve (c : StaticContext) : Start written → Except Error (Start resolved)
  | .root => .ok .root
  | .context => .ok .context
  | .expr e => do return .expr (← e.resolve c)

/-- A step with its names resolved, those of the predicates before that of the test. -/
def Step.resolve (c : StaticContext) : Step written → Except Error (Step resolved)
  | .mk axis test predicates =>
    if axis = .namespaces then .error .namespaceAxis
    else do
      let predicates ← resolveAll c predicates
      return .mk axis (← test.resolve c axis) predicates

/-- Steps with their names resolved, in order. -/
def resolveSteps (c : StaticContext) : List (Step written) → Except Error (List (Step resolved))
  | [] => .ok []
  | s :: ss => do return (← s.resolve c) :: (← resolveSteps c ss)

end

/-! ## Compiled expressions -/

/-- An expression that was compiled, the context it was compiled in and its text. -/
structure Compiled where
  root : Expr resolved
  context : StaticContext
  source : String

/-- Whether a text is an expression that starts from the context node: its first character behind
any blanks is a dot. -/
def isRelative (source : String) : Bool :=
  (Text.trimStart source.toList).head? == some '.'

/-- Compile an expression. -/
def compile (c : StaticContext) (source : String) : Except Error Compiled :=
  match parse? source with
  | none => .error .malformed
  | some e => do return ⟨← e.resolve c, c, source⟩

end XmlHarvest.Query
