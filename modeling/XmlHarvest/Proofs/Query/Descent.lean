import XmlHarvest.Proofs.Query.Spelling

/-!
# Reading spellings

Reading descends from tiers to operands, unary expressions, unions, paths and steps, with a bound
on its depth. The rules below say what each reader finds when the readers it calls find what they
look for; they speak of every depth that is in proportion to the number of tokens, so that the bound
is settled once. An expression is read back at the rank of its top, in front of anything that does
not go on with it, and from there at every rank below.

## Main definitions

* `Query.ReadsTier` and its siblings: what a reader finds, with enough depth.
* `Query.Ends`: tokens that do not go on with an expression of a given rank.
* `Query.Gets`: what is read at a rank.
* `Query.Expr.ReadsBack`: an expression is read back from each of its spellings.

## Main results

* `Query.Gets.of_le`: what is read at a rank is read at the ranks below it.
* `Query.Expr.readsBack`: every well-formed expression is read back.

## Implementation notes

A tier is read operand by operand, and each operator takes everything read so far for its left
operand. A spelling is therefore not read as a whole but as the first operand of whatever follows:
`Gets` leaves the end of the tier open where operators or members of a union can follow.
-/

namespace XmlHarvest.Query

/-! ## Reading with enough depth -/

/-- A depth that is enough for so many tokens. -/
def needed (slack : Nat) (ts : List Token) : Nat :=
  depthPerToken * ts.length + slack

section Readers

variable (tier : Tier) (left : Expr written) (ts : List Token) (r : Expr written × List Token)

/-- With enough depth, `r` is read as a tier. -/
def ReadsTier : Prop :=
  ∀ depth, needed (17 - 2 * tier.rank) ts ≤ depth → readTier depth tier ts = some r

/-- With enough depth, `r` is read as an operand of a tier. -/
def ReadsOperand : Prop :=
  ∀ depth, needed (16 - 2 * tier.rank) ts ≤ depth → readOperand depth tier ts = some r

/-- With enough depth, `r` is read behind the first operand of a tier. -/
def ReadsMore : Prop :=
  ∀ depth, needed 1 ts ≤ depth → readMore depth tier left ts = some r

/-- With enough depth, `r` is read as a unary expression. -/
def ReadsUnary : Prop :=
  ∀ depth, needed 5 ts ≤ depth → readUnary depth ts = some r

/-- With enough depth, `r` is read behind the first member of a union. -/
def ReadsUnion : Prop :=
  ∀ depth, needed 1 ts ≤ depth → readUnion depth left ts = some r

/-- With enough depth, `r` is read as a path. -/
def ReadsPath : Prop :=
  ∀ depth, needed 4 ts ≤ depth → readPath depth ts = some r

/-- With enough depth, `r` is read as a primary expression. -/
def ReadsPrimary : Prop :=
  ∀ depth, needed 1 ts ≤ depth → readPrimary depth ts = some r

/-- With enough depth, steps are read. -/
def ReadsSteps (r : List (Step written) × List Token) : Prop :=
  ∀ depth, needed 3 ts ≤ depth → readSteps depth ts = some r

/-- With enough depth, a step is read. -/
def ReadsStep (r : Step written × List Token) : Prop :=
  ∀ depth, needed 2 ts ≤ depth → readStep depth ts = some r

/-- With enough depth, predicates are read. -/
def ReadsPredicates (r : List (Expr written) × List Token) : Prop :=
  ∀ depth, needed 1 ts ≤ depth → readPredicates depth ts = some r

/-- With enough depth, arguments are read. -/
def ReadsArguments (r : List (Expr written) × List Token) : Prop :=
  ∀ depth, needed 18 ts ≤ depth → readArguments depth ts = some r

end Readers

/-- Enough depth for one call leaves depth for the calls in it. -/
lemma exists_succ_of_needed {slack depth : Nat} {ts : List Token}
    (h : needed (slack + 1) ts ≤ depth) : ∃ n, depth = n + 1 ∧ needed slack ts ≤ n := by
  refine ⟨depth - 1, ?_, ?_⟩ <;> simp only [needed] at * <;> omega

/-- Fewer tokens need less depth, whatever is called. -/
lemma needed_le_of_cons {slack slack' depth : Nat} {t : Token} {ts rest : List Token}
    (h : needed slack (t :: ts) ≤ depth) (hl : rest.length ≤ ts.length)
    (hs : slack' ≤ slack + depthPerToken) : needed slack' rest ≤ depth := by
  simp only [needed, depthPerToken, List.length_cons] at *
  omega

/-- No more tokens need no more depth. -/
lemma needed_le {slack slack' depth : Nat} {ts rest : List Token}
    (h : needed slack ts ≤ depth) (hl : rest.length ≤ ts.length) (hs : slack' ≤ slack) :
    needed slack' rest ≤ depth := by
  simp only [needed, depthPerToken] at *
  omega

/-- Tokens whose first one is not the given symbol. -/
def Avoids (s : Symbol) (ts : List Token) : Prop :=
  ∀ rest, ts ≠ .symbol s :: rest

/-! ## Rules -/

section Rules

variable {tier : Tier} {e left right : Expr written} {ts more rest : List Token}
  {r : Expr written × List Token}

/-- A tier is an operand and what follows it. -/
lemma ReadsTier.of_operand (ho : ReadsOperand tier ts (e, rest)) (hm : ReadsMore tier e rest r)
    (hl : rest.length ≤ ts.length) : ReadsTier tier ts r := by
  have hrank : tier.rank ≤ 5 := by cases tier <;> decide
  intro depth hdepth
  rw [show 17 - 2 * tier.rank = (16 - 2 * tier.rank) + 1 by omega] at hdepth
  obtain ⟨depth, rfl, hd⟩ := exists_succ_of_needed hdepth
  rw [readTier, ho depth hd]
  exact hm depth (needed_le hd hl (by omega))

/-- The operands of a tier are of the tier behind it. -/
lemma ReadsOperand.of_tier {tighter : Tier} (h : tier.tighter? = some tighter)
    (ht : ReadsTier tighter ts r) : ReadsOperand tier ts r := by
  have hrank : 16 - 2 * tier.rank = (17 - 2 * tighter.rank) + 1 := by
    cases tier <;> cases h <;> decide
  intro depth hdepth
  rw [hrank] at hdepth
  obtain ⟨depth, rfl, hd⟩ := exists_succ_of_needed hdepth
  rw [readOperand, h]
  exact ht depth hd

/-- The operands of the last tier are unary expressions. -/
lemma ReadsOperand.of_unary (h : ReadsUnary ts r) : ReadsOperand .multiplication ts r := by
  intro depth hdepth
  obtain ⟨depth, rfl, hd⟩ := exists_succ_of_needed hdepth
  rw [readOperand, Tier.tighter?]
  exact h depth hd

/-- A tier ends where no operator of it stands. -/
lemma ReadsMore.stop (h : ∀ t ∈ rest.head?, tier.operator? t = none) :
    ReadsMore tier e rest (e, rest) := by
  intro depth hdepth
  obtain ⟨depth, rfl, hd⟩ := exists_succ_of_needed hdepth
  cases rest with
  | nil => rw [readMore]
  | cons t rest => simp only [readMore, h t rfl]

/-- An operator takes what was read before it for its left operand. -/
lemma ReadsMore.operator {t : Token} {op : BinaryOp} (h : tier.operator? t = some op)
    (ho : ReadsOperand tier ts (right, rest)) (hm : ReadsMore tier (.binary op left right) rest r)
    (hl : rest.length ≤ ts.length) : ReadsMore tier left (t :: ts) r := by
  intro depth hdepth
  obtain ⟨depth, rfl, hd⟩ := exists_succ_of_needed hdepth
  simp only [readMore, h]
  rw [ho depth (needed_le_of_cons hd le_rfl (by simp only [depthPerToken]; omega))]
  exact hm depth (needed_le_of_cons hd hl (by decide))

/-- A minus sign negates the unary expression behind it. -/
lemma ReadsUnary.minus (h : ReadsUnary ts (e, rest)) :
    ReadsUnary (.symbol .minus :: ts) (.negate e, rest) := by
  intro depth hdepth
  obtain ⟨depth, rfl, hd⟩ := exists_succ_of_needed hdepth
  rw [readUnary, h depth (needed_le_of_cons hd le_rfl (by decide))]
  rfl

/-- No path starts with a minus sign or a closing parenthesis. -/
lemma readPath_eq_none {s : Symbol} (h : s = .minus ∨ s = .closeParen) (depth : Nat)
    (ts : List Token) : readPath depth (.symbol s :: ts) = none := by
  obtain _ | _ | _ | depth := depth <;> obtain rfl | rfl := h <;>
    simp [readPath, startsPrimary, readSteps, readStep, readAxis, readTest?]

/-- A union is a path and the members behind it. -/
lemma ReadsUnary.of_path (hp : ReadsPath ts (e, rest)) (hu : ReadsUnion e rest r)
    (hl : rest.length ≤ ts.length) : ReadsUnary ts r := by
  intro depth hdepth
  obtain ⟨depth, rfl, hd⟩ := exists_succ_of_needed hdepth
  have hpath := hp depth hd
  rw [readUnary, hpath]
  · exact hu depth (needed_le hd hl (by decide))
  · rintro ts' rfl
    rw [readPath_eq_none (.inl rfl)] at hpath
    cases hpath

/-- A union ends where no bar stands. -/
lemma ReadsUnion.stop (h : rest.head? ≠ some (.symbol .bar)) : ReadsUnion e rest (e, rest) := by
  intro depth hdepth
  obtain ⟨depth, rfl, hd⟩ := exists_succ_of_needed hdepth
  rw [readUnion]
  rintro ts rfl
  exact h rfl

/-- A bar joins the path behind it to the members before it. -/
lemma ReadsUnion.bar (hp : ReadsPath ts (right, rest)) (hu : ReadsUnion (.union left right) rest r)
    (hl : rest.length ≤ ts.length) : ReadsUnion left (.symbol .bar :: ts) r := by
  intro depth hdepth
  obtain ⟨depth, rfl, hd⟩ := exists_succ_of_needed hdepth
  rw [readUnion, hp depth (needed_le_of_cons hd le_rfl (by decide))]
  exact hu depth (needed_le_of_cons hd hl (by decide))

/-- A primary expression with its predicates is a path if no slash follows. -/
lemma ReadsPath.of_primary {ps : List (Expr written)} (hstart : startsPrimary ts)
    (hp : ReadsPrimary ts (e, more)) (hps : ReadsPredicates more (ps, rest))
    (hl : more.length ≤ ts.length) (hslash : Avoids .slash rest)
    (hdouble : Avoids .doubleSlash rest) : ReadsPath ts (filtered e ps, rest) := by
  intro depth hdepth
  obtain ⟨depth, rfl, hd⟩ := exists_succ_of_needed hdepth
  simp only [readPath, hstart, if_true, Option.bind_eq_bind]
  rw [hp depth (needed_le hd le_rfl (by decide)), Option.bind_some,
    hps depth (needed_le hd hl (by decide)), Option.bind_some]
  split
  · rename_i heq
    exact absurd heq (hslash _)
  · rename_i heq
    exact absurd heq (hdouble _)
  · rfl

/-- A primary expression with its predicates starts a path if a slash follows. -/
lemma ReadsPath.of_expr {ps : List (Expr written)} {steps : List (Step written)}
    {behind : List Token} (hstart : startsPrimary ts) (hp : ReadsPrimary ts (e, more))
    (hps : ReadsPredicates more (ps, .symbol .slash :: behind))
    (hs : ReadsSteps behind (steps, rest)) (hl : more.length ≤ ts.length)
    (hl' : behind.length ≤ ts.length) :
    ReadsPath ts (.path (.expr (filtered e ps)) steps, rest) := by
  intro depth hdepth
  obtain ⟨depth, rfl, hd⟩ := exists_succ_of_needed hdepth
  simp only [readPath, hstart, if_true, Option.bind_eq_bind]
  rw [hp depth (needed_le hd le_rfl (by decide)), Option.bind_some,
    hps depth (needed_le hd hl (by decide)), Option.bind_some]
  simp only
  rw [hs depth (needed_le hd hl' (by decide))]
  rfl

/-- A slash in front of steps is the root. -/
lemma ReadsPath.of_root {steps : List (Step written)} (hstart : startsStep ts)
    (hs : ReadsSteps ts (steps, rest)) :
    ReadsPath (.symbol .slash :: ts) (.path .root steps, rest) := by
  intro depth hdepth
  obtain ⟨depth, rfl, hd⟩ := exists_succ_of_needed hdepth
  simp only [readPath, startsPrimary, hstart, if_true, Option.bind_eq_bind]
  rw [hs depth (needed_le_of_cons hd le_rfl (by decide))]
  rfl

/-- A slash in front of anything else is the root alone. -/
lemma ReadsPath.of_slash (hstart : startsStep ts = false) :
    ReadsPath (.symbol .slash :: ts) (.path .root [], ts) := by
  intro depth hdepth
  obtain ⟨depth, rfl, hd⟩ := exists_succ_of_needed hdepth
  simp [readPath, startsPrimary, hstart]

/-- Steps alone start at the context node. -/
lemma ReadsPath.of_context {n : WrittenName} {steps : List (Step written)}
    (hs : ReadsSteps (.name n :: .symbol .doubleColon :: ts) (steps, rest)) :
    ReadsPath (.name n :: .symbol .doubleColon :: ts) (.path .context steps, rest) := by
  intro depth hdepth
  obtain ⟨depth, rfl, hd⟩ := exists_succ_of_needed hdepth
  simp only [readPath, startsPrimary, Option.bind_eq_bind]
  rw [hs depth hd]
  rfl

/-- The last step is one that no slash follows. -/
lemma ReadsSteps.last {s : Step written} (hs : ReadsStep ts (s, rest))
    (hslash : Avoids .slash rest) (hdouble : Avoids .doubleSlash rest) :
    ReadsSteps ts ([s], rest) := by
  intro depth hdepth
  obtain ⟨depth, rfl, hd⟩ := exists_succ_of_needed hdepth
  simp only [readSteps, Option.bind_eq_bind]
  rw [hs depth hd, Option.bind_some]
  split
  · rename_i heq
    exact absurd heq (hslash _)
  · rename_i heq
    exact absurd heq (hdouble _)
  · rfl

/-- A slash stands between steps. -/
lemma ReadsSteps.slash {s : Step written} {ss : List (Step written)}
    (hs : ReadsStep ts (s, .symbol .slash :: more)) (hss : ReadsSteps more (ss, rest))
    (hl : more.length < ts.length) : ReadsSteps ts (s :: ss, rest) := by
  intro depth hdepth
  obtain ⟨depth, rfl, hd⟩ := exists_succ_of_needed hdepth
  have hd' : needed 3 more ≤ depth := by
    simp only [needed, depthPerToken] at *
    omega
  simp only [readSteps, Option.bind_eq_bind]
  rw [hs depth hd, Option.bind_some]
  simp only
  rw [hss depth hd']
  rfl

/-- A node test is read back from its spelling. -/
lemma readTest?_append (test : NodeTest written) (h : Avoids .openParen ts) :
    readTest? (test.spelling ++ ts) = some (test, ts) := by
  cases test with
  | named n =>
    simp only [NodeTest.spelling, List.cons_append, List.nil_append]
    rw [readTest?]
    exact h
  | inSpace | any | node | text | comment => rfl
  | instruction target => cases target <;> rfl

/-- An axis is found by its name. -/
lemma ofName?_name (axis : Axis) : Axis.ofName? axis.name = some axis := by
  cases axis <;> decide +kernel

/-- A step is an axis, a test and predicates. -/
lemma ReadsStep.of_predicates (axis : Axis) (test : NodeTest written) {ps : List (Expr written)}
    (h : Avoids .openParen ts) (hps : ReadsPredicates ts (ps, rest)) :
    ReadsStep (.name ⟨none, axis.name⟩ :: .symbol .doubleColon :: (test.spelling ++ ts))
      (.mk axis test ps, rest) := by
  intro depth hdepth
  obtain ⟨depth, rfl, hd⟩ := exists_succ_of_needed hdepth
  simp only [readStep, readAxis, ofName?_name, readTest?_append test h, Option.bind_eq_bind,
    Option.bind_some]
  rw [hps depth (needed_le_of_cons hd (by simp; omega) (by decide))]
  rfl

/-- Predicates end where no bracket opens. -/
lemma ReadsPredicates.stop (h : Avoids .openBracket rest) : ReadsPredicates rest ([], rest) := by
  intro depth hdepth
  obtain ⟨depth, rfl, hd⟩ := exists_succ_of_needed hdepth
  rw [readPredicates]
  exact h

/-- A predicate is an expression in brackets. -/
lemma ReadsPredicates.bracket {ps : List (Expr written)}
    (he : ReadsTier .disjunction ts (e, .symbol .closeBracket :: more))
    (hps : ReadsPredicates more (ps, rest)) (hl : more.length ≤ ts.length) :
    ReadsPredicates (.symbol .openBracket :: ts) (e :: ps, rest) := by
  intro depth hdepth
  obtain ⟨depth, rfl, hd⟩ := exists_succ_of_needed hdepth
  simp only [readPredicates, Option.bind_eq_bind]
  rw [he depth (needed_le_of_cons hd le_rfl (by decide)), Option.bind_some]
  simp only
  rw [hps depth (needed_le_of_cons hd hl (by decide))]
  rfl

/-- An expression in parentheses is a primary expression. -/
lemma ReadsPrimary.paren (h : ReadsTier .disjunction ts (e, .symbol .closeParen :: rest)) :
    ReadsPrimary (.symbol .openParen :: ts) (e, rest) := by
  intro depth hdepth
  obtain ⟨depth, rfl, hd⟩ := exists_succ_of_needed hdepth
  simp only [readPrimary, Option.bind_eq_bind]
  rw [h depth (needed_le_of_cons hd le_rfl (by decide))]
  rfl

/-- A literal is a primary expression. -/
lemma ReadsPrimary.literal (text : String) :
    ReadsPrimary (.literal text :: rest) (.literal text, rest) := by
  intro depth hdepth
  obtain ⟨depth, rfl, hd⟩ := exists_succ_of_needed hdepth
  rw [readPrimary]

/-- The digits of a number are a primary expression. -/
lemma ReadsPrimary.number {x : Float} {digits : List Char} (h : IsValueOf x digits) :
    ReadsPrimary (.number digits :: rest) (.number x, rest) := by
  obtain ⟨-, d, hd, rfl⟩ := h
  intro depth hdepth
  obtain ⟨depth, rfl, -⟩ := exists_succ_of_needed hdepth
  rw [readPrimary, hd]
  rfl

/-- A variable is a primary expression. -/
lemma ReadsPrimary.reference (n : WrittenName) :
    ReadsPrimary (.reference n :: rest) (.reference n, rest) := by
  intro depth hdepth
  obtain ⟨depth, rfl, hd⟩ := exists_succ_of_needed hdepth
  rw [readPrimary]

/-- A call without arguments is a primary expression. -/
lemma ReadsPrimary.call_nil (f : WrittenName) :
    ReadsPrimary (.name f :: .symbol .openParen :: .symbol .closeParen :: rest)
      (.call f [], rest) := by
  intro depth hdepth
  obtain ⟨depth, rfl, hd⟩ := exists_succ_of_needed hdepth
  rw [readPrimary]

/-- No expression starts with a closing parenthesis. -/
lemma readTier_eq_none : ∀ (depth : Nat) (tier : Tier) (ts : List Token),
    readTier depth tier (.symbol .closeParen :: ts) = none
  | 0, _, _ => by rw [readTier]
  | 1, _, _ => by
    rw [readTier, readOperand]
    rfl
  | depth + 2, tier, ts => by
    have hunary : readUnary depth (.symbol .closeParen :: ts) = none := by
      cases depth with
      | zero => rw [readUnary]
      | succ depth =>
        rw [readUnary, readPath_eq_none (.inr rfl)]
        · rfl
        · simp
    rw [readTier, readOperand]
    cases tier.tighter? with
    | some tighter =>
      simp only
      rw [readTier_eq_none depth tighter ts]
      rfl
    | none =>
      simp only
      rw [hunary]
      rfl

/-- A call with arguments is a primary expression. -/
lemma ReadsPrimary.call {f : WrittenName} {arguments : List (Expr written)}
    (h : ReadsArguments ts (arguments, rest)) :
    ReadsPrimary (.name f :: .symbol .openParen :: ts) (.call f arguments, rest) := by
  intro depth hdepth
  obtain ⟨depth, rfl, hd⟩ := exists_succ_of_needed hdepth
  have harguments := h depth (needed_le_of_cons hd (by simp) (by decide))
  rw [readPrimary]
  · rw [harguments]
    rfl
  · rintro ts' rfl
    cases depth with
    | zero =>
      rw [readArguments] at harguments
      cases harguments
    | succ depth =>
      rw [readArguments, readTier_eq_none] at harguments
      cases harguments

/-- A parenthesis closes behind the last argument. -/
lemma ReadsArguments.last (h : ReadsTier .disjunction ts (e, .symbol .closeParen :: rest)) :
    ReadsArguments ts ([e], rest) := by
  intro depth hdepth
  obtain ⟨depth, rfl, hd⟩ := exists_succ_of_needed hdepth
  simp only [readArguments, Option.bind_eq_bind]
  rw [h depth hd]
  rfl

/-- A comma stands between arguments. -/
lemma ReadsArguments.comma {arguments : List (Expr written)}
    (h : ReadsTier .disjunction ts (e, .symbol .comma :: more))
    (hmore : ReadsArguments more (arguments, rest)) (hl : more.length < ts.length) :
    ReadsArguments ts (e :: arguments, rest) := by
  intro depth hdepth
  obtain ⟨depth, rfl, hd⟩ := exists_succ_of_needed hdepth
  have hd' : needed 18 more ≤ depth := by
    simp only [needed, depthPerToken] at *
    omega
  simp only [readArguments, Option.bind_eq_bind]
  rw [h depth hd, Option.bind_some]
  simp only
  rw [hmore depth hd']
  rfl

end Rules

/-! ## What follows an expression -/

/-- Tokens that do not go on with an expression of the given rank: an operator that follows binds
less tightly, and neither steps nor predicates nor arguments follow. -/
structure Ends (rank : Nat) (ts : List Token) : Prop where
  operator : ∀ tier : Tier, rank ≤ tier.rank → ∀ t ∈ ts.head?, tier.operator? t = none
  bar : rank ≤ 7 → ts.head? ≠ some (.symbol .bar)
  slash : Avoids .slash ts
  doubleSlash : Avoids .doubleSlash ts
  bracket : Avoids .openBracket ts
  paren : Avoids .openParen ts

/-- What ends an expression ends those that bind tighter. -/
lemma Ends.mono {rank rank' : Nat} {ts : List Token} (h : Ends rank ts) (hle : rank ≤ rank') :
    Ends rank' ts where
  operator tier htier := h.operator tier (hle.trans htier)
  bar hbar := h.bar (hle.trans hbar)
  slash := h.slash
  doubleSlash := h.doubleSlash
  bracket := h.bracket
  paren := h.paren

/-- The end of the tokens ends every expression. -/
lemma ends_nil (rank : Nat) : Ends rank [] := by
  constructor <;> simp [Avoids]

/-- A closing parenthesis or bracket or a comma ends every expression. -/
lemma ends_closing {s : Symbol} (h : s = .closeParen ∨ s = .closeBracket ∨ s = .comma) (rank : Nat)
    (ts : List Token) : Ends rank (.symbol s :: ts) := by
  obtain rfl | rfl | rfl := h <;> constructor <;> simp [Avoids, Tier.operator?]

/-- The operator of a token is found in its own tier alone. -/
lemma operator?_token (tier : Tier) (op : BinaryOp) :
    tier.operator? op.token = if tier = op.tier then some op else none := by
  cases tier <;> cases op <;> rfl

/-- An operator ends the expressions that bind tighter. -/
lemma ends_operator {op : BinaryOp} {rank : Nat} (h : op.tier.rank < rank) (ts : List Token) :
    Ends rank (op.token :: ts) where
  operator tier htier t ht := by
    obtain rfl : op.token = t := by simpa using ht
    rw [operator?_token, if_neg]
    rintro rfl
    omega
  bar := by cases op <;> simp [BinaryOp.token]
  slash := by cases op <;> simp [Avoids, BinaryOp.token]
  doubleSlash := by cases op <;> simp [Avoids, BinaryOp.token]
  bracket := by cases op <;> simp [Avoids, BinaryOp.token]
  paren := by cases op <;> simp [Avoids, BinaryOp.token]

/-- A bar ends the expressions that bind tighter than a union. -/
lemma ends_bar (ts : List Token) : Ends 8 (.symbol .bar :: ts) := by
  constructor <;> simp [Avoids, Tier.operator?]

/-! ## Reading an operand -/

/-- What is read at a rank, in front of tokens that are left. Where operators or members of a union
can follow, the expression is their first operand. -/
def Gets (e : Expr written) (ts rest : List Token) : Nat → Prop
  | 0 => ∀ r, ReadsMore .disjunction e rest r → ReadsTier .disjunction (ts ++ rest) r
  | 1 => ∀ r, ReadsMore .conjunction e rest r → ReadsTier .conjunction (ts ++ rest) r
  | 2 => ∀ r, ReadsMore .equality e rest r → ReadsTier .equality (ts ++ rest) r
  | 3 => ∀ r, ReadsMore .relation e rest r → ReadsTier .relation (ts ++ rest) r
  | 4 => ∀ r, ReadsMore .addition e rest r → ReadsTier .addition (ts ++ rest) r
  | 5 => ∀ r, ReadsMore .multiplication e rest r → ReadsTier .multiplication (ts ++ rest) r
  | 6 => ReadsUnary (ts ++ rest) (e, rest)
  | 7 => ∀ r, ReadsUnion e rest r → ReadsUnary (ts ++ rest) r
  | _ => ReadsPath (ts ++ rest) (e, rest)

namespace Gets

variable {e : Expr written} {ts rest : List Token}

/-- What is read at the rank of a tier. -/
lemma tier_iff {tier : Tier} : Gets e ts rest tier.rank ↔
    ∀ r, ReadsMore tier e rest r → ReadsTier tier (ts ++ rest) r := by
  cases tier <;> rfl

/-- What is read as an operand of a tier is read one rank above it. -/
lemma readsOperand {tier : Tier} (h : Gets e ts rest (tier.rank + 1))
    (hrest : Ends (tier.rank + 1) rest) : ReadsOperand tier (ts ++ rest) (e, rest) := by
  cases htier : tier.tighter? with
  | some tighter =>
    obtain hrank : tier.rank + 1 = tighter.rank := by cases tier <;> cases htier <;> rfl
    rw [hrank] at h hrest
    exact .of_tier htier (tier_iff.1 h _ (.stop (hrest.operator tighter le_rfl)))
  | none =>
    obtain rfl : tier = .multiplication := by cases tier <;> first | rfl | cases htier
    exact .of_unary h

/-- What is read as an operand of a tier is the first operand of the tier. -/
lemma of_operand (tier : Tier) (h : Gets e ts rest (tier.rank + 1))
    (hrest : Ends (tier.rank + 1) rest) : Gets e ts rest tier.rank :=
  tier_iff.2 fun _ hmore => .of_operand (h.readsOperand hrest) hmore (by simp)

/-- What is read at a rank is read one rank below it, if nothing follows that goes on with it. -/
lemma looser : ∀ {rank : Nat}, Gets e ts rest (rank + 1) → Ends (rank + 1) rest →
    Gets e ts rest rank
  | 0, h, hrest => of_operand .disjunction h hrest
  | 1, h, hrest => of_operand .conjunction h hrest
  | 2, h, hrest => of_operand .equality h hrest
  | 3, h, hrest => of_operand .relation h hrest
  | 4, h, hrest => of_operand .addition h hrest
  | 5, h, hrest => of_operand .multiplication h hrest
  | 6, h, hrest => h _ (.stop (hrest.bar le_rfl))
  | 7, h, _ => fun _ hunion => .of_path h hunion (by simp)
  | _ + 8, h, _ => h

/-- What is read at a rank is read at every rank below it, if nothing follows that goes on with
it. -/
lemma of_le {rank rank' : Nat} (hle : rank ≤ rank') (h : Gets e ts rest rank')
    (hrest : Ends (rank + 1) rest) : Gets e ts rest rank := by
  induction hle with
  | refl => exact h
  | step hle ih => exact ih (h.looser (hrest.mono (Nat.succ_le_succ hle)))

end Gets

/-- The tokens spell an expression that is read back from them, whatever follows them that does not
go on with it. -/
def Expr.ReadsBack (e : Expr written) : Prop :=
  ∀ ts ∈ e.spellings, ∀ rest, Ends (e.rank + 1) rest → Gets e ts rest e.rank

section ReadsBack

variable {e : Expr written} {ts rest : List Token}

/-- An expression is read back at every rank that it reaches. -/
lemma Expr.ReadsBack.gets (h : e.ReadsBack) (hts : ts ∈ e.spellings) {rank : Nat}
    (hle : rank ≤ e.rank) (hrest : Ends (rank + 1) rest) : Gets e ts rest rank :=
  Gets.of_le hle (h ts hts rest (hrest.mono (by omega))) hrest

/-- An expression is read back as a whole. -/
lemma Expr.ReadsBack.readsTier (h : e.ReadsBack) (hts : ts ∈ e.spellings) (hrest : Ends 0 rest) :
    ReadsTier .disjunction (ts ++ rest) (e, rest) :=
  h.gets hts (Nat.zero_le _) (hrest.mono (Nat.zero_le _)) _
    (.stop (hrest.operator .disjunction le_rfl))

/-- The tokens are read as a primary expression, in front of tokens that are left. -/
def GetsPrimary (e : Expr written) (ts rest : List Token) : Prop :=
  startsPrimary (ts ++ rest) ∧ ReadsPrimary (ts ++ rest) (e, rest)

/-- A primary expression is a path of its own if nothing follows that goes on with it. -/
lemma GetsPrimary.readsPath (h : GetsPrimary e ts rest) {rank : Nat} (hrest : Ends rank rest) :
    ReadsPath (ts ++ rest) (e, rest) :=
  .of_primary h.1 h.2 (.stop hrest.bracket) (by simp) hrest.slash hrest.doubleSlash

/-- What is read in front of a closing parenthesis is a primary expression with both
parentheses. -/
lemma Gets.enclosed (h : Gets e ts (.symbol .closeParen :: rest) 0) :
    GetsPrimary e (.symbol .openParen :: (ts ++ [.symbol .closeParen])) rest := by
  have hend := (ends_closing (.inl rfl) 0 rest).operator .disjunction le_rfl
  refine ⟨rfl, ?_⟩
  rw [List.cons_append, List.append_assoc]
  exact .paren (h _ (.stop hend))

/-- An expression in parentheses is read back as a primary expression. -/
lemma Expr.ReadsBack.enclosed (h : e.ReadsBack) (hts : ts ∈ enclosed e.spellings) :
    GetsPrimary e ts rest := by
  obtain ⟨inner, hinner, rfl⟩ := mem_enclosed_iff.1 hts
  exact (h.gets hinner (Nat.zero_le _) (ends_closing (.inl rfl) 1 rest)).enclosed

/-- An operand is read back at the rank that it is needed at. -/
lemma Expr.ReadsBack.operand (h : e.ReadsBack) {rank : Nat} (hrank : rank ≤ 8)
    (hts : ts ∈ operand rank e.rank e.spellings) (hrest : Ends (rank + 1) rest) :
    Gets e ts rest rank := by
  unfold Query.operand at hts
  split at hts
  · exact h.gets hts ‹_› hrest
  · have hpath : Gets e ts rest 8 := (h.enclosed hts).readsPath hrest
    exact hpath.of_le hrank hrest

/-- A lone slash in parentheses is read back as the root. -/
lemma getsPrimary_root (hts : ts ∈ enclosed {[.symbol .slash]}) :
    GetsPrimary (.path .root []) ts rest := by
  obtain ⟨_, rfl, rfl⟩ := mem_enclosed_iff.1 hts
  have hpath : Gets (.path .root []) [.symbol .slash] (.symbol .closeParen :: rest) 8 :=
    ReadsPath.of_slash rfl
  exact (hpath.of_le (Nat.zero_le _) (ends_closing (.inl rfl) 1 rest)).enclosed

/-- The expression below predicates and the one at the start of a path are read back as primary
expressions. -/
lemma Expr.ReadsBack.grouped (h : e.ReadsBack) (hts : ts ∈ grouped e e.spellings) :
    GetsPrimary e ts rest := by
  obtain hts | ⟨hroot, hts⟩ := hts
  · exact h.enclosed hts
  · match e, hroot with
    | .path .root [], _ =>
      rw [Expr.spellings] at hts
      exact getsPrimary_root hts

end ReadsBack

/-! ## Lists of expressions -/

/-- Predicates are read back one by one. -/
lemma readsPredicates_of_mem {ps : List (Expr written)} (h : ∀ p ∈ ps, p.ReadsBack)
    {ts rest : List Token} (hts : ts ∈ ((allSpellings ps).map bracketed).prod)
    (hrest : Avoids .openBracket rest) : ReadsPredicates (ts ++ rest) (ps, rest) := by
  induction ps generalizing ts with
  | nil =>
    obtain rfl : ts = [] := hts
    exact .stop hrest
  | cons p ps ih =>
    obtain ⟨a, ha, b, hb, rfl⟩ := mem_predicates_cons_iff.1 hts
    have hfirst := (h p List.mem_cons_self).readsTier ha
      (ends_closing (.inr (.inl rfl)) 0 (b ++ rest))
    have hmore := ih (fun q hq => h q (List.mem_cons_of_mem p hq)) hb
    have hread := ReadsPredicates.bracket hfirst hmore (by simp; omega)
    simpa using hread

/-- Arguments are read back up to the closing parenthesis. -/
lemma readsArguments_of_mem {es : List (Expr written)} (h : ∀ e ∈ es, e.ReadsBack) (hne : es ≠ [])
    {ts rest : List Token} (hts : ts ∈ separated {[.symbol .comma]} (allSpellings es)) :
    ReadsArguments (ts ++ .symbol .closeParen :: rest) (es, rest) := by
  induction es generalizing ts with
  | nil => exact absurd rfl hne
  | cons e es ih =>
    cases es with
    | nil =>
      exact .last ((h e List.mem_cons_self).readsTier hts (ends_closing (.inl rfl) 0 rest))
    | cons f es =>
      obtain ⟨a, ha, b, hb, rfl⟩ := mem_between_iff.1 hts
      have hfirst := (h e List.mem_cons_self).readsTier ha
        (ends_closing (.inr (.inr rfl)) 0 (b ++ .symbol .closeParen :: rest))
      have hmore := ih (fun g hg => h g (List.mem_cons_of_mem e hg)) (by simp) hb
      have hread := ReadsArguments.comma hfirst hmore (by simp; omega)
      simpa using hread

/-- Predicates start with a bracket. -/
lemma avoids_paren_of_mem {ps : List (Expr written)} {ts rest : List Token}
    (hts : ts ∈ ((allSpellings ps).map bracketed).prod) (hrest : Avoids .openParen rest) :
    Avoids .openParen (ts ++ rest) := by
  cases ps with
  | nil =>
    obtain rfl : ts = [] := hts
    exact hrest
  | cons p ps =>
    obtain ⟨a, -, b, -, rfl⟩ := mem_predicates_cons_iff.1 hts
    simp [Avoids]

/-- A step is read back if nothing follows that goes on with it. -/
lemma readsStep_of_mem {s : Step written} (h : ∀ p ∈ s.predicates, p.ReadsBack)
    {ts rest : List Token} (hts : ts ∈ s.spellings) (hbracket : Avoids .openBracket rest)
    (hparen : Avoids .openParen rest) : ReadsStep (ts ++ rest) (s, rest) := by
  obtain ⟨axis, test, ps⟩ := s
  rw [Step.spellings] at hts
  obtain ⟨_, rfl, qs, hqs, rfl⟩ := Language.mem_mul.1 hts
  have hpredicates : ReadsPredicates (qs ++ rest) (ps, rest) :=
    readsPredicates_of_mem h hqs hbracket
  rw [List.append_assoc]
  exact .of_predicates axis test (avoids_paren_of_mem hqs hparen) hpredicates

/-- Steps start with the name of an axis. -/
lemma exists_cons_of_mem_steps {ss : List (Step written)} (hne : ss ≠ []) {ts : List Token}
    (hts : ts ∈ separated {[.symbol .slash]} (stepSpellings ss)) :
    ∃ n ts', ts = .name n :: .symbol .doubleColon :: ts' := by
  have hstep : ∀ (s : Step written) (a : List Token), a ∈ s.spellings →
      ∃ n ts', a = .name n :: .symbol .doubleColon :: ts' := by
    rintro ⟨axis, test, ps⟩ a ha
    rw [Step.spellings] at ha
    obtain ⟨_, rfl, qs, -, rfl⟩ := Language.mem_mul.1 ha
    exact ⟨_, _, rfl⟩
  obtain ⟨s, ss, rfl⟩ := List.exists_cons_of_ne_nil hne
  cases ss with
  | nil => exact hstep s ts hts
  | cons s' ss =>
    obtain ⟨a, ha, more, -, rfl⟩ := mem_between_iff.1 hts
    obtain ⟨n, ts', rfl⟩ := hstep s a ha
    exact ⟨n, _, rfl⟩

/-- Steps are read back if nothing follows that goes on with them. -/
lemma readsSteps_of_mem {ss : List (Step written)}
    (h : ∀ s ∈ ss, ∀ p ∈ s.predicates, p.ReadsBack) (hne : ss ≠ []) {ts rest : List Token}
    (hts : ts ∈ separated {[.symbol .slash]} (stepSpellings ss)) {rank : Nat}
    (hrest : Ends rank rest) : ReadsSteps (ts ++ rest) (ss, rest) := by
  induction ss generalizing ts with
  | nil => exact absurd rfl hne
  | cons s ss ih =>
    cases ss with
    | nil =>
      exact .last (readsStep_of_mem (h s List.mem_cons_self) hts hrest.bracket hrest.paren)
        hrest.slash hrest.doubleSlash
    | cons s' ss =>
      obtain ⟨a, ha, more, hmore, rfl⟩ := mem_between_iff.1 hts
      have hstep : ReadsStep (a ++ .symbol .slash :: (more ++ rest))
          (s, .symbol .slash :: (more ++ rest)) :=
        readsStep_of_mem (h s List.mem_cons_self) ha (by simp [Avoids]) (by simp [Avoids])
      have hsteps := ih (fun t ht => h t (List.mem_cons_of_mem s ht)) (by simp) hmore
      have hread := ReadsSteps.slash hstep hsteps (by simp; omega)
      simpa using hread

/-! ## Reading back -/

/-- A binary operation is read back: its left operand at the rank of the operator, so that it may
end in the same tier, and its right one a rank above it. -/
lemma readsBack_binary {op : BinaryOp} {left right : Expr written} (hleft : left.ReadsBack)
    (hright : right.ReadsBack) : (Expr.binary op left right).ReadsBack := by
  intro ts hts rest hrest
  rw [Expr.spellings] at hts
  obtain ⟨a, ha, b, hb, rfl⟩ := mem_between_iff.1 hts
  have hrank : op.tier.rank ≤ 5 := by cases op <;> decide
  have hoperator : op.tier.operator? op.token = some op := by rw [operator?_token, if_pos rfl]
  have hend : Ends (op.tier.rank + 1) (op.token :: (b ++ rest)) :=
    ends_operator (Nat.lt_succ_self _) _
  have hfirst := Gets.tier_iff.1 (hleft.operand (by omega) ha hend)
  have hsecond := (hright.operand (by omega) hb (hrest.mono (Nat.le_succ _))).readsOperand hrest
  refine Gets.tier_iff.2 fun r hmore => ?_
  have hread := hfirst r (.operator hoperator hsecond hmore (by simp))
  simpa using hread

/-- A negation is read back. -/
lemma readsBack_negate {e : Expr written} (he : e.ReadsBack) : (Expr.negate e).ReadsBack := by
  intro ts hts rest hrest
  rw [Expr.spellings] at hts
  obtain ⟨a, ha, rfl⟩ := mem_cons_iff.1 hts
  have hoperand : Gets e a rest 6 := he.operand (by decide) ha hrest
  exact ReadsUnary.minus hoperand

/-- A union is read back: its left member as the beginning of a union, its right one as a path. -/
lemma readsBack_union {left right : Expr written} (hleft : left.ReadsBack)
    (hright : right.ReadsBack) : (Expr.union left right).ReadsBack := by
  intro ts hts rest hrest
  rw [Expr.spellings] at hts
  obtain ⟨a, ha, b, hb, rfl⟩ := mem_between_iff.1 hts
  have hfirst : Gets left a (.symbol .bar :: (b ++ rest)) 7 :=
    hleft.operand (by decide) ha (ends_bar _)
  have hsecond : ReadsPath (b ++ rest) (right, rest) :=
    hright.operand le_rfl hb (hrest.mono (Nat.le_succ _))
  intro r hunion
  have hread := hfirst r (.bar hsecond hunion (by simp))
  simpa using hread

/-- A call is read back. -/
lemma readsBack_call {f : WrittenName} (hf : nodeType? f = none) {arguments : List (Expr written)}
    (h : ∀ e ∈ arguments, e.ReadsBack) : (Expr.call f arguments : Expr written).ReadsBack := by
  intro ts hts rest hrest
  rw [Expr.spellings] at hts
  obtain ⟨_, henclosed, rfl⟩ := mem_cons_iff.1 hts
  obtain ⟨inner, hinner, rfl⟩ := mem_enclosed_iff.1 henclosed
  have hread : ReadsPrimary (.name f :: .symbol .openParen ::
      (inner ++ .symbol .closeParen :: rest)) (.call f arguments, rest) := by
    cases arguments with
    | nil =>
      obtain rfl : inner = [] := hinner
      exact .call_nil f
    | cons a as => exact .call (readsArguments_of_mem h (by simp) hinner)
  exact GetsPrimary.readsPath ⟨by simp [startsPrimary, hf], by simpa using hread⟩ hrest

/-- A filter is read back. -/
lemma readsBack_filter {primary : Expr written} {predicates : List (Expr written)}
    (hprimary : primary.ReadsBack) (h : ∀ p ∈ predicates, p.ReadsBack) (hne : predicates ≠ []) :
    (Expr.filter primary predicates).ReadsBack := by
  intro ts hts rest hrest
  rw [Expr.spellings] at hts
  obtain ⟨a, ha, b, hb, rfl⟩ := Language.mem_mul.1 hts
  have hfirst : GetsPrimary primary a (b ++ rest) := hprimary.grouped ha
  have hmore := readsPredicates_of_mem h hb hrest.bracket
  have hpath :=
    ReadsPath.of_primary hfirst.1 hfirst.2 hmore (by simp) hrest.slash hrest.doubleSlash
  obtain ⟨p, ps, rfl⟩ := List.exists_cons_of_ne_nil hne
  rw [← List.append_assoc] at hpath
  exact hpath

/-- A path is read back. -/
lemma readsBack_path {start : Start written} {steps : List (Step written)}
    (hstart : ∀ e, start = .expr e → e.ReadsBack)
    (hne : start ≠ .root → steps ≠ [])
    (h : ∀ s ∈ steps, ∀ p ∈ s.predicates, p.ReadsBack) : (Expr.path start steps).ReadsBack := by
  intro ts hts rest hrest
  cases start with
  | root =>
    cases steps with
    | nil =>
      rw [Expr.spellings] at hts
      exact (getsPrimary_root hts).readsPath hrest
    | cons s ss =>
      rw [Expr.spellings] at hts
      obtain ⟨a, ha, rfl⟩ := mem_cons_iff.1 hts
      obtain ⟨n, ts', rfl⟩ := exists_cons_of_mem_steps (by simp) ha
      exact ReadsPath.of_root rfl (readsSteps_of_mem h (by simp) ha hrest)
  | context =>
    have hne := hne (by simp)
    rw [Expr.spellings] at hts
    obtain ⟨n, ts', rfl⟩ := exists_cons_of_mem_steps hne hts
    exact ReadsPath.of_context (readsSteps_of_mem h hne hts hrest)
  | expr e =>
    rw [Expr.spellings] at hts
    obtain ⟨a, ha, b, hb, rfl⟩ := mem_between_iff.1 hts
    have hfirst : GetsPrimary e a (.symbol .slash :: (b ++ rest)) := (hstart e rfl).grouped ha
    have hsteps := readsSteps_of_mem h (hne (by simp)) hb hrest
    have hpath := ReadsPath.of_expr hfirst.1 hfirst.2 (.stop (by simp [Avoids])) hsteps (by simp)
      (by simp; omega)
    rw [← List.cons_append, ← List.append_assoc] at hpath
    exact hpath

/-- **Every well-formed expression is read back from its spellings.**

**Proof sketch.** Induction on the expression. What has no operands is read as a path and thereby at
all ranks (`Gets.of_le`); operators take the expressions on both sides of them at the ranks at which
they are spelled (`Expr.ReadsBack.operand`). -/
lemma Expr.readsBack : ∀ e : Expr written, e.WellFormed → e.ReadsBack := by
  refine Expr.induction fun e ih hwell => ?_
  obtain ⟨hproper, hinside⟩ := Expr.everywhere_iff.1 hwell
  cases e with
  | literal text =>
    intro ts hts rest hrest
    rw [Expr.spellings] at hts
    obtain rfl := hts
    have hread : GetsPrimary _ [.literal text] rest := ⟨rfl, .literal text⟩
    exact hread.readsPath hrest
  | number x =>
    intro ts hts rest hrest
    rw [Expr.spellings] at hts
    obtain ⟨digits, hdigits, rfl⟩ := hts
    have hread : GetsPrimary _ [.number digits] rest := ⟨rfl, .number hdigits⟩
    exact hread.readsPath hrest
  | reference n =>
    intro ts hts rest hrest
    rw [Expr.spellings] at hts
    obtain rfl := hts
    have hread : GetsPrimary _ [.reference n] rest := ⟨rfl, .reference n⟩
    exact hread.readsPath hrest
  | call f arguments => exact readsBack_call hproper.2 fun e he => ih e he (hinside e he)
  | binary op left right => exact readsBack_binary (ih.1 hinside.1) (ih.2 hinside.2)
  | negate operand => exact readsBack_negate (ih hinside)
  | union left right => exact readsBack_union (ih.1 hinside.1) (ih.2 hinside.2)
  | filter primary predicates =>
    exact readsBack_filter (ih.1 hinside.1) (fun p hp => ih.2 p hp (hinside.2 p hp)) hproper
  | path start steps =>
    refine readsBack_path (fun e he => ih.1 e he (hinside.1 e he)) ?_
      fun s hs p hp => ih.2 s hs p hp (hinside.2 s hs p hp)
    cases start with
    | root => exact fun h => absurd rfl h
    | context => exact fun _ => hproper.1
    | expr e => exact fun _ => hproper.1

end XmlHarvest.Query
