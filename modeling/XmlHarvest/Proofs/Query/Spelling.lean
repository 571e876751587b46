import XmlHarvest.Proofs.Query.Kinds
import XmlHarvest.Proofs.Query.Words
import XmlHarvest.Query.Grammar

/-!
# Spelling expressions

Which trees expressions can be read into, and how such a tree is written. A tree is written with
the names of all axes and without abbreviations. Operands stand in parentheses where an operator
would otherwise take them apart; the expression below predicates, the one at the start of a path
and a lone slash stand in parentheses everywhere.

## Main definitions

* `Query.Expr.WellFormed`: the names, literals, numbers and lists of a tree are such as the grammar
  has them.
* `Query.Expr.rank`: how tightly the top of an expression binds.
* `Query.Expr.spellings`: the sequences of tokens that spell an expression.
* `Query.Expr.texts`: the texts that spell an expression.

## Main results

* `Query.Expr.induction`: what follows from the expressions inside an expression.
* `Query.Expr.expressible`: a well-formed expression has a spelling, and all its spellings consist
  of tokens of the grammar.
-/

namespace XmlHarvest.Query

/-! ## Induction on expressions -/

section Induction

variable {v : Vocabulary} {p : Expr v → Prop}

/-- A condition holds of the expressions directly inside an expression. -/
def Expr.Inside (p : Expr v → Prop) : Expr v → Prop
  | .literal _ | .number _ | .reference _ => True
  | .call _ arguments => ∀ e ∈ arguments, p e
  | .binary _ left right => p left ∧ p right
  | .negate operand => p operand
  | .union left right => p left ∧ p right
  | .filter primary predicates => p primary ∧ ∀ e ∈ predicates, p e
  | .path start steps => (∀ e, start = .expr e → p e) ∧ ∀ s ∈ steps, ∀ e ∈ s.predicates, p e

mutual

/-- **Induction on expressions**: what holds of an expression when it holds of the operands,
arguments, predicates and starts of paths inside it holds of every expression. -/
theorem Expr.induction (step : ∀ e : Expr v, e.Inside p → p e) : ∀ e, p e
  | .literal _ => step _ trivial
  | .number _ => step _ trivial
  | .reference _ => step _ trivial
  | .call _ arguments => step _ (induction_all step arguments)
  | .binary _ left right => step _ ⟨Expr.induction step left, Expr.induction step right⟩
  | .negate operand => step _ (Expr.induction step operand)
  | .union left right => step _ ⟨Expr.induction step left, Expr.induction step right⟩
  | .filter primary predicates =>
    step _ ⟨Expr.induction step primary, induction_all step predicates⟩
  | .path start steps => step _ ⟨induction_start step start, induction_steps step steps⟩

/-- Induction on the expressions in a list. -/
theorem induction_all (step : ∀ e : Expr v, e.Inside p → p e) :
    ∀ es : List (Expr v), ∀ e ∈ es, p e
  | [] => nofun
  | e :: es => List.forall_mem_cons.2 ⟨Expr.induction step e, induction_all step es⟩

/-- Induction on the expression at the start of a path. -/
theorem induction_start (step : ∀ e : Expr v, e.Inside p → p e) :
    ∀ start : Start v, ∀ e, start = .expr e → p e
  | .root => nofun
  | .context => nofun
  | .expr e => fun _ h => Start.expr.inj h ▸ Expr.induction step e

/-- Induction on the predicates of steps. -/
theorem induction_steps (step : ∀ e : Expr v, e.Inside p → p e) :
    ∀ ss : List (Step v), ∀ s ∈ ss, ∀ e ∈ s.predicates, p e
  | [] => nofun
  | .mk _ _ predicates :: ss =>
    List.forall_mem_cons.2 ⟨induction_all step predicates, induction_steps step ss⟩

end

/-- A condition holds everywhere in expressions if it holds everywhere in each. -/
lemma everywhereIn_iff {es : List (Expr v)} :
    EverywhereIn p es ↔ ∀ e ∈ es, e.Everywhere p := by
  induction es with
  | nil => simp [EverywhereIn]
  | cons e es ih => rw [EverywhereIn, ih, List.forall_mem_cons]

/-- A condition holds everywhere in steps if it holds everywhere in each predicate. -/
lemma everywhereAlong_iff {ss : List (Step v)} :
    EverywhereAlong p ss ↔ ∀ s ∈ ss, ∀ e ∈ s.predicates, e.Everywhere p := by
  induction ss with
  | nil => simp [EverywhereAlong]
  | cons s ss ih =>
    obtain ⟨axis, test, predicates⟩ := s
    rw [EverywhereAlong, ih, List.forall_mem_cons, Step.Everywhere, everywhereIn_iff,
      Step.predicates]

/-- A condition holds everywhere in an expression if it holds of the expression and everywhere in
those inside it. -/
lemma Expr.everywhere_iff {e : Expr v} : e.Everywhere p ↔ p e ∧ e.Inside (Expr.Everywhere p) := by
  cases e with
  | literal | number | reference => simp [Expr.Everywhere, Expr.Inside]
  | call | filter => rw [Expr.Everywhere, everywhereIn_iff, Expr.Inside]
  | binary | negate | union => rw [Expr.Everywhere, Expr.Inside]
  | path start steps =>
    rw [Expr.Everywhere, everywhereAlong_iff, Expr.Inside]
    cases start <;> simp [Start.Everywhere]

end Induction

/-! ## Well-formed trees -/

/-- A number that digits denote, as the grammar reads them. -/
def IsValueOf (x : Float) (digits : List Char) : Prop :=
  IsUnsigned digits ∧ ∃ d, Number.readUnsigned? digits = some d ∧ x = Number.ofDecimal false d

/-- The names and the target in a node test are those of the grammar. -/
def NodeTest.IsProper : NodeTest written → Prop
  | .named n => n.IsProper
  | .inSpace q => IsNCName q
  | .instruction (some target) => IsQuotable target
  | .any | .node | .text | .comment | .instruction none => True

/-- The condition on the top of an expression: names, literals and numbers are those of the
grammar, a function is not named like a node test, a filter has predicates, and a path has steps
unless it is the root. -/
def Expr.IsProper : Expr written → Prop
  | .literal text => IsQuotable text
  | .number x => ∃ digits, IsValueOf x digits
  | .reference n => n.IsProper
  | .call f _ => f.IsProper ∧ nodeType? f = none
  | .binary .. | .negate _ | .union .. => True
  | .filter _ predicates => predicates ≠ []
  | .path .root steps => ∀ s ∈ steps, s.test.IsProper
  | .path .context steps | .path (.expr _) steps => steps ≠ [] ∧ ∀ s ∈ steps, s.test.IsProper

/-- A tree that is proper everywhere. -/
def Expr.WellFormed (e : Expr written) : Prop :=
  e.Everywhere Expr.IsProper

/-! ## Ranks -/

/-- The place of a tier among all tiers. -/
def Tier.rank : Tier → Nat
  | .disjunction => 0
  | .conjunction => 1
  | .equality => 2
  | .relation => 3
  | .addition => 4
  | .multiplication => 5

/-- The tier of an operator. -/
def BinaryOp.tier : BinaryOp → Tier
  | .or => .disjunction
  | .and => .conjunction
  | .eq | .ne => .equality
  | .lt | .le | .gt | .ge => .relation
  | .add | .sub => .addition
  | .mul | .div | .mod => .multiplication

/-- The token of an operator. -/
def BinaryOp.token : BinaryOp → Token
  | .or => .name ⟨none, "or"⟩
  | .and => .name ⟨none, "and"⟩
  | .eq => .symbol .equal
  | .ne => .symbol .notEqual
  | .lt => .symbol .less
  | .le => .symbol .lessEqual
  | .gt => .symbol .greater
  | .ge => .symbol .greaterEqual
  | .add => .symbol .plus
  | .sub => .symbol .minus
  | .mul => .symbol .star
  | .div => .name ⟨none, "div"⟩
  | .mod => .name ⟨none, "mod"⟩

/-- How tightly the top of an expression binds: the tiers of binary operators come first, unary
minus and unions behind them, and what needs no parentheses anywhere comes last. -/
def Expr.rank : Expr written → Nat
  | .binary op _ _ => op.tier.rank
  | .negate _ => 6
  | .union _ _ => 7
  | .literal _ | .number _ | .reference _ | .call .. | .filter .. | .path .. => 8

/-! ## Spellings -/

/-- Tokens in parentheses. -/
def enclosed (l : Language Token) : Language Token :=
  {[.symbol .openParen]} * l * {[.symbol .closeParen]}

/-- Tokens in square brackets. -/
def bracketed (l : Language Token) : Language Token :=
  {[.symbol .openBracket]} * l * {[.symbol .closeBracket]}

/-- An operand of the given rank, in parentheses if something tighter is needed. -/
def operand (needed rank : Nat) (l : Language Token) : Language Token :=
  if needed ≤ rank then l else enclosed l

/-- How a node type is written. -/
def NodeType.token : NodeType → Token
  | .comment => .name ⟨none, "comment"⟩
  | .text => .name ⟨none, "text"⟩
  | .instruction => .name ⟨none, "processing-instruction"⟩
  | .node => .name ⟨none, "node"⟩

/-- How a node test is written. -/
def NodeTest.spelling : NodeTest written → List Token
  | .named n => [.name n]
  | .inSpace q => [.wildcard q]
  | .any => [.symbol .star]
  | .node => [NodeType.node.token, .symbol .openParen, .symbol .closeParen]
  | .text => [NodeType.text.token, .symbol .openParen, .symbol .closeParen]
  | .comment => [NodeType.comment.token, .symbol .openParen, .symbol .closeParen]
  | .instruction none => [NodeType.instruction.token, .symbol .openParen, .symbol .closeParen]
  | .instruction (some target) =>
    [NodeType.instruction.token, .symbol .openParen, .literal target, .symbol .closeParen]

/-- The path of the document's root, which is written as a lone slash. -/
def Expr.IsRoot : Expr written → Prop
  | .path .root [] => True
  | _ => False

/-- An expression in parentheses; those that a lone slash has everywhere are enough. -/
def grouped (e : Expr written) (l : Language Token) : Language Token :=
  {ts | ts ∈ enclosed l ∨ e.IsRoot ∧ ts ∈ l}

mutual

/-- The sequences of tokens that spell an expression, with parentheses around operands where
precedence or association to the left asks for them and nowhere else. They differ in the digits of
numbers only, and in the parentheses around a lone slash. -/
def Expr.spellings : Expr written → Language Token
  | .literal text => {[.literal text]}
  | .number x => {ts | ∃ digits, IsValueOf x digits ∧ ts = [.number digits]}
  | .reference n => {[.reference n]}
  | .call f arguments =>
    {[.name f]} * enclosed (separated {[.symbol .comma]} (allSpellings arguments))
  | .binary op left right =>
    operand op.tier.rank left.rank left.spellings * {[op.token]} *
      operand (op.tier.rank + 1) right.rank right.spellings
  | .negate e => {[.symbol .minus]} * operand 6 e.rank e.spellings
  | .union left right =>
    operand 7 left.rank left.spellings * {[.symbol .bar]} * operand 8 right.rank right.spellings
  | .filter primary predicates =>
    grouped primary primary.spellings * ((allSpellings predicates).map bracketed).prod
  | .path .root [] => enclosed {[.symbol .slash]}
  | .path .root (s :: ss) =>
    {[.symbol .slash]} * separated {[.symbol .slash]} (stepSpellings (s :: ss))
  | .path .context steps => separated {[.symbol .slash]} (stepSpellings steps)
  | .path (.expr e) steps =>
    grouped e e.spellings * {[.symbol .slash]} *
      separated {[.symbol .slash]} (stepSpellings steps)

/-- The spellings of each of the expressions. -/
def allSpellings : List (Expr written) → List (Language Token)
  | [] => []
  | e :: es => e.spellings :: allSpellings es

/-- The spellings of a step: axis, test and predicates. -/
def Step.spellings : Step written → Language Token
  | .mk axis test predicates =>
    {.name ⟨none, axis.name⟩ :: .symbol .doubleColon :: test.spelling} *
      ((allSpellings predicates).map bracketed).prod

/-- The spellings of each of the steps. -/
def stepSpellings : List (Step written) → List (Language Token)
  | [] => []
  | s :: ss => s.spellings :: stepSpellings ss

end

/-- The texts that spell an expression: its tokens with spacing between them. -/
def Expr.texts (e : Expr written) : Language Char :=
  {s | ∃ ts ∈ e.spellings, s ∈ spaced ts}

/-- The spellings of each of the expressions, as a map. -/
lemma allSpellings_eq_map (es : List (Expr written)) :
    allSpellings es = es.map Expr.spellings := by
  induction es with
  | nil => rfl
  | cons e es ih => rw [allSpellings, ih, List.map_cons]

/-- The spellings of each of the steps, as a map. -/
lemma stepSpellings_eq_map (ss : List (Step written)) :
    stepSpellings ss = ss.map Step.spellings := by
  induction ss with
  | nil => rfl
  | cons s ss ih => rw [stepSpellings, ih, List.map_cons]

/-! ## Taking spellings apart -/

section Membership

variable {l m : Language Token} {t u : Token} {ts : List Token}

/-- Two words, one behind the other. -/
lemma singleton_mul_singleton (a b : List Token) : ({a} * {b} : Language Token) = {a ++ b} :=
  Set.image2_singleton

/-- A token in front of a spelling. -/
lemma mem_cons_iff : ts ∈ {[t]} * l ↔ ∃ a ∈ l, ts = t :: a := by
  constructor
  · rintro ⟨_, rfl, a, ha, rfl⟩
    exact ⟨a, ha, rfl⟩
  · rintro ⟨a, ha, rfl⟩
    exact ⟨[t], rfl, a, ha, rfl⟩

/-- A token between two spellings. -/
lemma mem_between_iff : ts ∈ l * {[t]} * m ↔ ∃ a ∈ l, ∃ b ∈ m, ts = a ++ t :: b := by
  rw [mul_assoc]
  constructor
  · rintro ⟨a, ha, _, ⟨_, rfl, b, hb, rfl⟩, rfl⟩
    exact ⟨a, ha, b, hb, rfl⟩
  · rintro ⟨a, ha, b, hb, rfl⟩
    exact ⟨a, ha, t :: b, mem_cons_iff.2 ⟨b, hb, rfl⟩, rfl⟩

/-- Tokens around a spelling. -/
lemma mem_around_iff : ts ∈ {[t]} * l * {[u]} ↔ ∃ a ∈ l, ts = t :: (a ++ [u]) := by
  constructor
  · rintro ⟨_, ⟨_, rfl, a, ha, rfl⟩, _, rfl, rfl⟩
    exact ⟨a, ha, rfl⟩
  · rintro ⟨a, ha, rfl⟩
    exact ⟨t :: a, mem_cons_iff.2 ⟨a, ha, rfl⟩, [u], rfl, rfl⟩

/-- Parentheses around a spelling. -/
lemma mem_enclosed_iff :
    ts ∈ enclosed l ↔ ∃ a ∈ l, ts = .symbol .openParen :: (a ++ [.symbol .closeParen]) :=
  mem_around_iff

/-- Square brackets around a spelling. -/
lemma mem_bracketed_iff :
    ts ∈ bracketed l ↔ ∃ a ∈ l, ts = .symbol .openBracket :: (a ++ [.symbol .closeBracket]) :=
  mem_around_iff

/-- A predicate in brackets and further ones behind it. -/
lemma mem_predicates_cons_iff {p : Expr written} {ps : List (Expr written)} :
    ts ∈ ((allSpellings (p :: ps)).map bracketed).prod ↔
      ∃ a ∈ p.spellings, ∃ b ∈ ((allSpellings ps).map bracketed).prod,
        ts = .symbol .openBracket :: (a ++ .symbol .closeBracket :: b) := by
  rw [allSpellings, List.map_cons, List.prod_cons]
  constructor
  · rintro ⟨_, hp, b, hb, rfl⟩
    obtain ⟨a, ha, rfl⟩ := mem_bracketed_iff.1 hp
    exact ⟨a, ha, b, hb, by simp⟩
  · rintro ⟨a, ha, b, hb, rfl⟩
    exact ⟨_, mem_bracketed_iff.2 ⟨a, ha, rfl⟩, b, hb, by simp⟩

end Membership

/-! ## Every well-formed tree is spelled -/

/-- There are words, and all of them consist of tokens of the grammar. -/
def Expressible (l : Language Token) : Prop :=
  (∃ ts, ts ∈ l) ∧ ∀ ts ∈ l, ∀ t ∈ ts, t.IsProper

namespace Expressible

variable {l m : Language Token}

/-- A single word of tokens of the grammar. -/
lemma single {ts : List Token} (h : ∀ t ∈ ts, t.IsProper) : Expressible {ts} := by
  refine ⟨⟨ts, rfl⟩, ?_⟩
  rintro _ rfl
  exact h

/-- A single token of the grammar. -/
lemma token {t : Token} (h : t.IsProper) : Expressible {[t]} :=
  single (List.forall_mem_singleton.2 h)

/-- A symbol. -/
lemma symbol (s : Symbol) : Expressible {[.symbol s]} :=
  token trivial

/-- Two spellings, one behind the other. -/
lemma mul (hl : Expressible l) (hm : Expressible m) : Expressible (l * m) := by
  obtain ⟨⟨a, ha⟩, hl⟩ := hl
  obtain ⟨⟨b, hb⟩, hm⟩ := hm
  refine ⟨⟨a ++ b, Language.append_mem_mul ha hb⟩, fun ts hts => ?_⟩
  obtain ⟨a, ha, b, hb, rfl⟩ := Language.mem_mul.1 hts
  exact List.forall_mem_append.2 ⟨hl a ha, hm b hb⟩

/-- A spelling in parentheses. -/
lemma enclosed (hl : Expressible l) : Expressible (enclosed l) :=
  ((symbol _).mul hl).mul (symbol _)

/-- A spelling in square brackets. -/
lemma bracketed (hl : Expressible l) : Expressible (bracketed l) :=
  ((symbol _).mul hl).mul (symbol _)

/-- An operand, with or without parentheses. -/
lemma operand (hl : Expressible l) (needed rank : Nat) :
    Expressible (operand needed rank l) := by
  unfold Query.operand
  split
  · exact hl
  · exact hl.enclosed

/-- An expression in parentheses. -/
lemma grouped (hl : Expressible l) (e : Expr written) : Expressible (grouped e l) := by
  obtain ⟨⟨ts, hts⟩, hproper⟩ := hl.enclosed
  refine ⟨⟨ts, .inl hts⟩, fun ts hts => ?_⟩
  obtain hts | ⟨-, hts⟩ := hts
  · exact hproper ts hts
  · exact hl.2 ts hts

/-- Spellings with separators between them. -/
lemma separated {separator : Language Token} (hs : Expressible separator) :
    ∀ {ls : List (Language Token)}, (∀ l ∈ ls, Expressible l) → Expressible (separated separator ls)
  | [], _ => single nofun
  | [l], h => h l List.mem_cons_self
  | l :: _ :: _, h =>
    ((h l List.mem_cons_self).mul hs).mul
      (Expressible.separated hs fun l' h' => h l' (List.mem_cons_of_mem l h'))

/-- Spellings in a row. -/
lemma prod : ∀ {ls : List (Language Token)}, (∀ l ∈ ls, Expressible l) → Expressible ls.prod
  | [], _ => single nofun
  | l :: ls, h => by
    rw [List.prod_cons]
    exact (h l List.mem_cons_self).mul
      (Expressible.prod fun l' h' => h l' (List.mem_cons_of_mem l h'))

end Expressible

/-- Operators are tokens of the grammar. -/
lemma BinaryOp.isProper_token (op : BinaryOp) : op.token.IsProper := by
  cases op with
  | or | and | div | mod => exact ⟨nofun, by decide +kernel⟩
  | _ => trivial

/-- Node types are tokens of the grammar. -/
lemma NodeType.isProper_token (type : NodeType) : type.token.IsProper := by
  cases type <;> exact ⟨nofun, by decide +kernel⟩

/-- Axes are names of the grammar. -/
lemma isNCName_axis (axis : Axis) : IsNCName axis.name := by
  cases axis <;> decide +kernel

/-- Node tests are written with tokens of the grammar. -/
lemma isProper_of_mem_spelling {test : NodeTest written} (h : test.IsProper) :
    ∀ t ∈ test.spelling, t.IsProper := by
  have htype := NodeType.isProper_token
  cases test with
  | named | inSpace => exact List.forall_mem_singleton.2 h
  | any => exact List.forall_mem_singleton.2 trivial
  | node | text | comment => simp [NodeTest.spelling, htype]
  | instruction target =>
    cases target with
    | none => simp [NodeTest.spelling, htype]
    | some target =>
      have : Token.IsProper (.literal target) := h
      simp [NodeTest.spelling, htype, this]

/-- Predicates that are spelled are spelled in a row. -/
lemma predicates_expressible {ps : List (Expr written)}
    (h : ∀ p ∈ ps, Expressible p.spellings) :
    Expressible ((allSpellings ps).map bracketed).prod := by
  refine .prod fun l hl => ?_
  rw [allSpellings_eq_map, List.map_map] at hl
  obtain ⟨p, hp, rfl⟩ := List.mem_map.1 hl
  exact (h p hp).bracketed

/-- Steps whose predicates are spelled are spelled. -/
lemma steps_expressible {ss : List (Step written)} (htests : ∀ s ∈ ss, s.test.IsProper)
    (h : ∀ s ∈ ss, ∀ p ∈ s.predicates, Expressible p.spellings) :
    Expressible (separated {[.symbol .slash]} (stepSpellings ss)) := by
  refine .separated (.symbol _) fun l hl => ?_
  rw [stepSpellings_eq_map] at hl
  obtain ⟨⟨axis, test, ps⟩, hs, rfl⟩ := List.mem_map.1 hl
  rw [Step.spellings]
  refine .mul (.single ?_) (predicates_expressible (h _ hs))
  refine List.forall_mem_cons.2 ⟨⟨nofun, isNCName_axis axis⟩, ?_⟩
  exact List.forall_mem_cons.2 ⟨trivial, isProper_of_mem_spelling (htests _ hs)⟩

/-- **A well-formed expression has a spelling**, and all its spellings consist of tokens of the
grammar. -/
lemma Expr.expressible : ∀ e : Expr written, e.WellFormed → Expressible e.spellings := by
  refine Expr.induction fun e ih hwell => ?_
  obtain ⟨hproper, hinside⟩ := Expr.everywhere_iff.1 hwell
  cases e with
  | literal text =>
    rw [Expr.spellings]
    exact .token hproper
  | number x =>
    obtain ⟨digits, hdigits⟩ := hproper
    rw [Expr.spellings]
    refine ⟨⟨_, digits, hdigits, rfl⟩, ?_⟩
    rintro _ ⟨digits', hdigits', rfl⟩
    simpa [Token.IsProper] using hdigits'.1
  | reference n =>
    rw [Expr.spellings]
    exact .token hproper
  | call f arguments =>
    rw [Expr.spellings]
    refine .mul (.token hproper.1) (.enclosed (.separated (.symbol _) fun l hl => ?_))
    rw [allSpellings_eq_map] at hl
    obtain ⟨e, he, rfl⟩ := List.mem_map.1 hl
    exact ih e he (hinside e he)
  | binary op left right =>
    rw [Expr.spellings]
    exact (((ih.1 hinside.1).operand _ _).mul (.token op.isProper_token)).mul
      ((ih.2 hinside.2).operand _ _)
  | negate operand =>
    rw [Expr.spellings]
    exact (Expressible.symbol _).mul ((ih hinside).operand _ _)
  | union left right =>
    rw [Expr.spellings]
    exact (((ih.1 hinside.1).operand _ _).mul (.symbol _)).mul ((ih.2 hinside.2).operand _ _)
  | filter primary predicates =>
    rw [Expr.spellings]
    exact ((ih.1 hinside.1).grouped _).mul
      (predicates_expressible fun p hp => ih.2 p hp (hinside.2 p hp))
  | path start steps =>
    have hps : ∀ s ∈ steps, ∀ p ∈ s.predicates, Expressible p.spellings := fun s hs p hp =>
      ih.2 s hs p hp (hinside.2 s hs p hp)
    match start, steps with
    | .root, [] =>
      rw [Expr.spellings]
      exact .enclosed (.symbol _)
    | .root, s :: ss =>
      rw [Expr.spellings]
      exact (Expressible.symbol _).mul (steps_expressible hproper hps)
    | .context, steps =>
      rw [Expr.spellings]
      exact steps_expressible hproper.2 hps
    | .expr e, steps =>
      rw [Expr.spellings]
      exact (((ih.1 e rfl (hinside.1 e rfl)).grouped _).mul (.symbol _)).mul
        (steps_expressible hproper.2 hps)

end XmlHarvest.Query
