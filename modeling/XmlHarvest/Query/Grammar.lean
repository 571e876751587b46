import XmlHarvest.Number.Decimal
import XmlHarvest.Query.Token

/-!
# Grammar of expressions

The reading of tokens. Binary operators come in six tiers, from `or`, which binds most loosely, to
`*`, `div` and `mod`; unary minus, `|` and paths bind tighter still, and all binary operators
associate to the left. A name is an operator where an operator can stand and nowhere else, so
`or or or` compares two children named `or`.

## Main definitions

* `Query.Tier`: the tiers of binary operators.
* `Query.nodeType?`: the names that are node tests in front of a parenthesis.
* `Query.parse?`: the expression that a text spells.

## Implementation notes

Every function takes a bound on the depth of its recursion. Between two tokens that are consumed
the functions call each other less than `depthPerToken` times, so a bound proportional to the
number of tokens is never used up.
-/

namespace XmlHarvest.Query

/-- The tiers of binary operators, from the loosest on. -/
inductive Tier where
  | disjunction
  | conjunction
  | equality
  | relation
  | addition
  | multiplication
deriving DecidableEq, Repr

namespace Tier

/-- The tier of the operands of a tier; those of the last one are unary expressions. -/
def tighter? : Tier → Option Tier
  | disjunction => some conjunction
  | conjunction => some equality
  | equality => some relation
  | relation => some addition
  | addition => some multiplication
  | multiplication => none

/-- The operator of a tier that a token stands for. -/
def operator? : Tier → Token → Option BinaryOp
  | disjunction, .name ⟨none, "or"⟩ => some .or
  | conjunction, .name ⟨none, "and"⟩ => some .and
  | equality, .symbol .equal => some .eq
  | equality, .symbol .notEqual => some .ne
  | relation, .symbol .less => some .lt
  | relation, .symbol .lessEqual => some .le
  | relation, .symbol .greater => some .gt
  | relation, .symbol .greaterEqual => some .ge
  | addition, .symbol .plus => some .add
  | addition, .symbol .minus => some .sub
  | multiplication, .symbol .star => some .mul
  | multiplication, .name ⟨none, "div"⟩ => some .div
  | multiplication, .name ⟨none, "mod"⟩ => some .mod
  | _, _ => none

end Tier

/-- The node tests that are written like a function call. -/
inductive NodeType where
  | comment
  | text
  | instruction
  | node
deriving DecidableEq, Repr

/-- The node test that a name stands for in front of a parenthesis. -/
def nodeType? : WrittenName → Option NodeType
  | ⟨none, "comment"⟩ => some .comment
  | ⟨none, "text"⟩ => some .text
  | ⟨none, "processing-instruction"⟩ => some .instruction
  | ⟨none, "node"⟩ => some .node
  | _ => none

/-- The test for a node type; only an instruction makes use of the literal in its parentheses. -/
def NodeType.test (target : Option String) : NodeType → NodeTest written
  | .comment => .comment
  | .text => .text
  | .instruction => .instruction target
  | .node => .node

/-- Whether the tokens begin with a primary expression rather than with a path. -/
def startsPrimary : List Token → Bool
  | .symbol .openParen :: _ | .literal _ :: _ | .number _ :: _ | .reference _ :: _ => true
  | .name n :: .symbol .openParen :: _ => (nodeType? n).isNone
  | _ => false

/-- Whether the tokens begin with a step. -/
def startsStep : List Token → Bool
  | .symbol .dotDot :: _ | .symbol .dot :: _ | .symbol .at :: _ | .symbol .star :: _ => true
  | .name _ :: _ | .wildcard _ :: _ => true
  | _ => false

/-- The axis at the start of a step; without one it is the child axis. -/
def readAxis : List Token → Axis × List Token
  | .symbol .at :: ts => (.attribute, ts)
  | .name ⟨none, n⟩ :: .symbol .doubleColon :: ts =>
    match Axis.ofName? n with
    | some axis => (axis, ts)
    | none => (.child, .name ⟨none, n⟩ :: .symbol .doubleColon :: ts)
  | ts => (.child, ts)

/-- The node test at the start of the tokens. -/
def readTest? : List Token → Option (NodeTest written × List Token)
  | .name n :: .symbol .openParen :: ts =>
    match nodeType? n, ts with
    | some type, .literal target :: .symbol .closeParen :: ts => some (type.test (some target), ts)
    | some type, .symbol .closeParen :: ts => some (type.test none, ts)
    | _, _ => none
  | .name n :: ts => some (.named n, ts)
  | .wildcard q :: ts => some (.inSpace q, ts)
  | .symbol .star :: ts => some (.any, ts)
  | _ => none

/-- An expression with its predicates; without any it is the expression itself. -/
def filtered (primary : Expr written) : List (Expr written) → Expr written
  | [] => primary
  | predicates => .filter primary predicates

mutual

/-- A tier: an operand and the operators of the tier behind it. -/
def readTier (depth : Nat) (tier : Tier) (ts : List Token) : Option (Expr written × List Token) :=
  match depth with
  | 0 => none
  | depth + 1 => do
    let (left, ts) ← readOperand depth tier ts
    readMore depth tier left ts

/-- An operand of a tier. -/
def readOperand (depth : Nat) (tier : Tier) (ts : List Token) :
    Option (Expr written × List Token) :=
  match depth with
  | 0 => none
  | depth + 1 =>
    match tier.tighter? with
    | some tighter => readTier depth tighter ts
    | none => readUnary depth ts

/-- The operators of a tier, with their right operands, behind a left operand. -/
def readMore (depth : Nat) (tier : Tier) (left : Expr written) (ts : List Token) :
    Option (Expr written × List Token) :=
  match depth with
  | 0 => none
  | depth + 1 =>
    match ts with
    | [] => some (left, [])
    | t :: rest =>
      match tier.operator? t with
      | some op => do
        let (right, ts) ← readOperand depth tier rest
        readMore depth tier (.binary op left right) ts
      | none => some (left, ts)

/-- A union, with any number of minus signs in front of it. -/
def readUnary (depth : Nat) (ts : List Token) : Option (Expr written × List Token) :=
  match depth with
  | 0 => none
  | depth + 1 =>
    match ts with
    | .symbol .minus :: ts => do
      let (operand, ts) ← readUnary depth ts
      return (.negate operand, ts)
    | ts => do
      let (left, ts) ← readPath depth ts
      readUnion depth left ts

/-- The further members of a union behind the members before. -/
def readUnion (depth : Nat) (left : Expr written) (ts : List Token) :
    Option (Expr written × List Token) :=
  match depth with
  | 0 => none
  | depth + 1 =>
    match ts with
    | .symbol .bar :: ts => do
      let (right, ts) ← readPath depth ts
      readUnion depth (.union left right) ts
    | ts => some (left, ts)

/-- A path: a primary expression with its predicates and the steps behind it, or a location
path. -/
def readPath (depth : Nat) (ts : List Token) : Option (Expr written × List Token) :=
  match depth with
  | 0 => none
  | depth + 1 =>
    if startsPrimary ts then do
      let (primary, ts) ← readPrimary depth ts
      let (predicates, ts) ← readPredicates depth ts
      let start := filtered primary predicates
      match ts with
      | .symbol .slash :: ts =>
        let (steps, ts) ← readSteps depth ts
        return (.path (.expr start) steps, ts)
      | .symbol .doubleSlash :: ts =>
        let (steps, ts) ← readSteps depth ts
        return (.path (.expr start) (.anywhere :: steps), ts)
      | ts => return (start, ts)
    else
      match ts with
      | .symbol .slash :: ts =>
        if startsStep ts then do
          let (steps, ts) ← readSteps depth ts
          return (.path .root steps, ts)
        else some (.path .root [], ts)
      | .symbol .doubleSlash :: ts => do
        let (steps, ts) ← readSteps depth ts
        return (.path .root (.anywhere :: steps), ts)
      | ts => do
        let (steps, ts) ← readSteps depth ts
        return (.path .context steps, ts)

/-- One or more steps with slashes between them. -/
def readSteps (depth : Nat) (ts : List Token) : Option (List (Step written) × List Token) :=
  match depth with
  | 0 => none
  | depth + 1 => do
    let (step, ts) ← readStep depth ts
    match ts with
    | .symbol .slash :: ts =>
      let (steps, ts) ← readSteps depth ts
      return (step :: steps, ts)
    | .symbol .doubleSlash :: ts =>
      let (steps, ts) ← readSteps depth ts
      return (step :: .anywhere :: steps, ts)
    | ts => return ([step], ts)

/-- A step. The abbreviations for the node itself and its parent take no predicates. -/
def readStep (depth : Nat) (ts : List Token) : Option (Step written × List Token) :=
  match depth with
  | 0 => none
  | depth + 1 =>
    match ts with
    | .symbol .dotDot :: ts => some (.mk .parent .node [], ts)
    | .symbol .dot :: ts => some (.mk .itself .node [], ts)
    | ts => do
      let (axis, ts) := readAxis ts
      let (test, ts) ← readTest? ts
      let (predicates, ts) ← readPredicates depth ts
      return (.mk axis test predicates, ts)

/-- Any number of predicates, each in square brackets. -/
def readPredicates (depth : Nat) (ts : List Token) : Option (List (Expr written) × List Token) :=
  match depth with
  | 0 => none
  | depth + 1 =>
    match ts with
    | .symbol .openBracket :: ts => do
      let (predicate, ts) ← readTier depth .disjunction ts
      match ts with
      | .symbol .closeBracket :: ts =>
        let (predicates, ts) ← readPredicates depth ts
        return (predicate :: predicates, ts)
      | _ => none
    | ts => some ([], ts)

/-- A primary expression. -/
def readPrimary (depth : Nat) (ts : List Token) : Option (Expr written × List Token) :=
  match depth with
  | 0 => none
  | depth + 1 =>
    match ts with
    | .symbol .openParen :: ts => do
      let (e, ts) ← readTier depth .disjunction ts
      match ts with
      | .symbol .closeParen :: ts => return (e, ts)
      | _ => none
    | .literal text :: ts => some (.literal text, ts)
    | .number digits :: ts => do
      let d ← Number.readUnsigned? digits
      return (.number (Number.ofDecimal false d), ts)
    | .reference name :: ts => some (.reference name, ts)
    | .name f :: .symbol .openParen :: .symbol .closeParen :: ts => some (.call f [], ts)
    | .name f :: .symbol .openParen :: ts => do
      let (arguments, ts) ← readArguments depth ts
      return (.call f arguments, ts)
    | _ => none

/-- One or more arguments with commas between them and a parenthesis behind them. -/
def readArguments (depth : Nat) (ts : List Token) : Option (List (Expr written) × List Token) :=
  match depth with
  | 0 => none
  | depth + 1 => do
    let (argument, ts) ← readTier depth .disjunction ts
    match ts with
    | .symbol .comma :: ts =>
      let (arguments, ts) ← readArguments depth ts
      return (argument :: arguments, ts)
    | .symbol .closeParen :: ts => return ([argument], ts)
    | _ => none

end

/-- Without depth nothing is read. -/
theorem read_zero :
    (∀ tier ts, readTier 0 tier ts = none) ∧ (∀ tier ts, readOperand 0 tier ts = none) ∧
      (∀ tier left ts, readMore 0 tier left ts = none) ∧ (∀ ts, readUnary 0 ts = none) ∧
      (∀ left ts, readUnion 0 left ts = none) ∧ (∀ ts, readPath 0 ts = none) ∧
      (∀ ts, readSteps 0 ts = none) ∧ (∀ ts, readStep 0 ts = none) ∧
      (∀ ts, readPredicates 0 ts = none) ∧ (∀ ts, readPrimary 0 ts = none) ∧
      ∀ ts, readArguments 0 ts = none := by
  simp only [readTier, readOperand, readMore, readUnary, readUnion, readPath, readSteps, readStep,
    readPredicates, readPrimary, readArguments, implies_true, and_self]

/-- How many calls lie at most between two tokens that are consumed. -/
def depthPerToken : Nat := 20

/-- The expression that a text spells. -/
def parse? (source : String) : Option (Expr written) := do
  let ts ← tokens? source.toList
  match ← readTier (depthPerToken * (ts.length + 1)) .disjunction ts with
  | (e, []) => return e
  | _ => none

end XmlHarvest.Query
