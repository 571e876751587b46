import XmlHarvest.Proofs.Query.Continuation
import XmlHarvest.Proofs.Query.Distribution
import XmlHarvest.Proofs.Query.Seam

/-!
# Paths that are joined as texts

The text of a path, a slash and the text of a relative path are together the text of a path with the
steps of both. It selects what the second path selects from each of the nodes that the first one
selects. A path that stands in parentheses is joined as well: it becomes the start of the steps
behind it.

## Main definitions

* `Query.IsPath`, `Query.IsRelativePath`: the texts that are joined.
* `Query.PathForm`: the forms that a path can have.
* `Query.IsJoin`: a path and further steps as one path.

## Main results

* `Query.readPath_eq_path_iff`: what is read as a path has one of its forms.
* `Query.PathForm.join`: further steps behind a path.
* `Query.parse?_eq_path_iff`: the texts of paths.
* `Query.compile_join`: the nodes that a joined path selects.
-/

namespace XmlHarvest.Query

variable {depth : Nat} {ts rest : List Token} {start : Start written} {steps : List (Step written)}

/-! ## The forms of steps -/

/-- The tokens behind a first step, up to the rest, are further steps or none. -/
inductive StepsForm (depth : Nat) (s : Step written) :
    List Token → List (Step written) → List Token → Prop
  /-- The step is the last one. -/
  | last {rest : List Token} (hslash : Avoids .slash rest) (hdouble : Avoids .doubleSlash rest) :
    StepsForm depth s rest [s] rest
  /-- Steps behind a slash. -/
  | slash {ts rest : List Token} {steps : List (Step written)}
    (hsteps : readSteps depth ts = some (steps, rest)) :
    StepsForm depth s (.symbol .slash :: ts) (s :: steps) rest
  /-- Steps behind a double slash. -/
  | doubleSlash {ts rest : List Token} {steps : List (Step written)}
    (hsteps : readSteps depth ts = some (steps, rest)) :
    StepsForm depth s (.symbol .doubleSlash :: ts) (s :: .anywhere :: steps) rest

/-- What is read as steps is a step and the steps behind it. -/
lemma readSteps_eq_iff : readSteps (depth + 1) ts = some (steps, rest) ↔
    ∃ s more, readStep depth ts = some (s, more) ∧ StepsForm depth s more steps rest := by
  rw [readSteps, Option.bind_eq_bind, Option.bind_eq_some_iff, Prod.exists]
  refine exists_congr fun s => exists_congr fun more => and_congr_right fun _ => ?_
  constructor
  · intro h
    simp only at h
    split at h
    · obtain ⟨⟨ss, more⟩, hsteps, h⟩ := Option.bind_eq_some_iff.1 h
      cases h
      exact .slash hsteps
    · obtain ⟨⟨ss, more⟩, hsteps, h⟩ := Option.bind_eq_some_iff.1 h
      cases h
      exact .doubleSlash hsteps
    · rename_i hslash hdouble
      cases h
      exact .last hslash hdouble
  · intro h
    cases h with
    | slash hsteps =>
      simp only [hsteps]
      rfl
    | doubleSlash hsteps =>
      simp only [hsteps]
      rfl
    | last hslash hdouble =>
      simp only
      split
      · exact absurd rfl (hslash _)
      · exact absurd rfl (hdouble _)
      · rfl

/-! ## The forms of a path -/

/-- The tokens, up to the rest, are a path with the given start and steps in one of its forms. -/
inductive PathForm (depth : Nat) :
    List Token → Start written → List (Step written) → List Token → Prop
  /-- The root alone. -/
  | bare {ts : List Token} (hstep : startsStep ts = false) :
    PathForm depth (.symbol .slash :: ts) .root [] ts
  /-- Steps from the root. -/
  | slash {ts rest : List Token} {steps : List (Step written)} (hstep : startsStep ts = true)
    (hsteps : readSteps depth ts = some (steps, rest)) :
    PathForm depth (.symbol .slash :: ts) .root steps rest
  /-- Steps from everywhere. -/
  | doubleSlash {ts rest : List Token} {steps : List (Step written)}
    (hsteps : readSteps depth ts = some (steps, rest)) :
    PathForm depth (.symbol .doubleSlash :: ts) .root (.anywhere :: steps) rest
  /-- Steps from the context node. -/
  | relative {ts rest : List Token} {steps : List (Step written)}
    (hstart : startsPrimary ts = false) (hslash : Avoids .slash ts)
    (hdouble : Avoids .doubleSlash ts) (hsteps : readSteps depth ts = some (steps, rest)) :
    PathForm depth ts .context steps rest
  /-- Steps from the nodes of an expression. -/
  | behind {ts between more rest : List Token} {e : Expr written} {ps : List (Expr written)}
    {steps : List (Step written)} (hstart : startsPrimary ts = true)
    (hprimary : readPrimary depth ts = some (e, between))
    (hpredicates : readPredicates depth between = some (ps, .symbol .slash :: more))
    (hsteps : readSteps depth more = some (steps, rest)) :
    PathForm depth ts (.expr (filtered e ps)) steps rest
  /-- Steps from everywhere inside the nodes of an expression. -/
  | behindDouble {ts between more rest : List Token} {e : Expr written} {ps : List (Expr written)}
    {steps : List (Step written)} (hstart : startsPrimary ts = true)
    (hprimary : readPrimary depth ts = some (e, between))
    (hpredicates : readPredicates depth between = some (ps, .symbol .doubleSlash :: more))
    (hsteps : readSteps depth more = some (steps, rest)) :
    PathForm depth ts (.expr (filtered e ps)) (.anywhere :: steps) rest
  /-- A path in parentheses, with nothing behind them that goes on with it. -/
  | enclosed {ts between rest : List Token} {start : Start written} {steps : List (Step written)}
    (hstart : startsPrimary ts = true)
    (hprimary : readPrimary depth ts = some (.path start steps, between))
    (hpredicates : readPredicates depth between = some ([], rest)) (hslash : Avoids .slash rest)
    (hdouble : Avoids .doubleSlash rest) : PathForm depth ts start steps rest

/-- With predicates an expression is no path. -/
lemma filtered_eq_path_iff {e : Expr written} {ps : List (Expr written)} :
    filtered e ps = .path start steps ↔ e = .path start steps ∧ ps = [] := by
  cases ps <;> simp [filtered]

/-- Where a primary expression starts, what is read depends on what follows its predicates. -/
lemma readPath_eq_readBehind {e : Expr written} {ps : List (Expr written)}
    {between more : List Token} (hstart : startsPrimary ts = true)
    (hprimary : readPrimary depth ts = some (e, between))
    (hpredicates : readPredicates depth between = some (ps, more)) :
    readPath (depth + 1) ts = readBehind depth (filtered e ps) more := by
  rw [readPath_of_startsPrimary hstart, hprimary]
  show (readPredicates depth between >>= _) = _
  rw [hpredicates]
  rfl

/-- **What is read as a path has one of its forms.** -/
lemma readPath_eq_path_iff : readPath (depth + 1) ts = some (.path start steps, rest) ↔
    PathForm depth ts start steps rest := by
  constructor
  · intro h
    cases hstart : startsPrimary ts with
    | true =>
      rw [readPath_of_startsPrimary hstart] at h
      obtain ⟨⟨e, between⟩, hprimary, h⟩ := Option.bind_eq_some_iff.1 h
      obtain ⟨⟨ps, more⟩, hpredicates, h⟩ := Option.bind_eq_some_iff.1 h
      obtain hslash | ⟨more, rfl⟩ := avoids_or_cons .slash more
      · obtain hdouble | ⟨more, rfl⟩ := avoids_or_cons .doubleSlash more
        · simp only [readBehind_of_avoids hslash hdouble, Option.some.injEq, Prod.mk.injEq,
            filtered_eq_path_iff] at h
          obtain ⟨⟨rfl, rfl⟩, rfl⟩ := h
          exact .enclosed hstart hprimary hpredicates hslash hdouble
        · obtain ⟨⟨ss, more⟩, hsteps, h⟩ := Option.bind_eq_some_iff.1 h
          cases h
          exact .behindDouble hstart hprimary hpredicates hsteps
      · obtain ⟨⟨ss, more⟩, hsteps, h⟩ := Option.bind_eq_some_iff.1 h
        cases h
        exact .behind hstart hprimary hpredicates hsteps
    | false =>
      obtain hslash | ⟨ts, rfl⟩ := avoids_or_cons .slash ts
      · obtain hdouble | ⟨ts, rfl⟩ := avoids_or_cons .doubleSlash ts
        · rw [readPath_of_avoids hstart hslash hdouble] at h
          obtain ⟨⟨ss, more⟩, hsteps, h⟩ := Option.bind_eq_some_iff.1 h
          cases h
          exact .relative hstart hslash hdouble hsteps
        · rw [readPath_doubleSlash] at h
          obtain ⟨⟨ss, more⟩, hsteps, h⟩ := Option.bind_eq_some_iff.1 h
          cases h
          exact .doubleSlash hsteps
      · rw [readPath_slash] at h
        split at h
        · rename_i hstep
          obtain ⟨⟨ss, more⟩, hsteps, h⟩ := Option.bind_eq_some_iff.1 h
          cases h
          exact .slash hstep hsteps
        · rename_i hstep
          cases h
          exact .bare (by simpa using hstep)
  · intro h
    cases h with
    | bare hstep => rw [readPath_slash, if_neg (by simp [hstep])]
    | slash hstep hsteps =>
      rw [readPath_slash, if_pos hstep, hsteps]
      rfl
    | doubleSlash hsteps =>
      rw [readPath_doubleSlash, hsteps]
      rfl
    | relative hstart hslash hdouble hsteps =>
      rw [readPath_of_avoids hstart hslash hdouble, hsteps]
      rfl
    | behind hstart hprimary hpredicates hsteps =>
      rw [readPath_eq_readBehind hstart hprimary hpredicates, readBehind, hsteps]
      rfl
    | behindDouble hstart hprimary hpredicates hsteps =>
      rw [readPath_eq_readBehind hstart hprimary hpredicates, readBehind, hsteps]
      rfl
    | enclosed hstart hprimary hpredicates hslash hdouble =>
      rw [readPath_eq_readBehind hstart hprimary hpredicates, readBehind_of_avoids hslash hdouble,
        filtered]

/-- A primary expression that is a path stands in parentheses. -/
lemma exists_paren_of_readPrimary (h : readPrimary depth ts = some (.path start steps, rest)) :
    ∃ inner, ts = .symbol .openParen :: inner ∧ .symbol .closeParen :: rest <:+ inner := by
  cases depth with
  | zero => simp [read_zero] at h
  | succ depth =>
    unfold readPrimary at h
    split at h
    · rename_i inner
      obtain ⟨⟨e, more⟩, hinner, h⟩ := Option.bind_eq_some_iff.1 h
      have hsuffix := suffix_of_readTier hinner
      simp only at h
      split at h
      · cases h
        exact ⟨inner, rfl, hsuffix⟩
      · cases h
    · cases h
    · rename_i digits more
      obtain ⟨d, -, h⟩ := Option.bind_eq_some_iff.1 h
      cases h
    · cases h
    · cases h
    · obtain ⟨⟨es, more⟩, -, h⟩ := Option.bind_eq_some_iff.1 h
      cases h
    · cases h

/-! ## The last token of a path -/

/-- The tokens up to the rest end with one that is no slash. -/
def EndsOffSlash (ts rest : List Token) : Prop :=
  ∃ used t, ts = used ++ t :: rest ∧ t ≠ .symbol .slash

namespace EndsOffSlash

/-- One token that is no slash. -/
lemma of_ne {t : Token} (h : t ≠ .symbol .slash) : EndsOffSlash (t :: rest) rest :=
  ⟨[], t, rfl, h⟩

/-- Further tokens in front do not matter. -/
lemma behind {ts' : List Token} (h : EndsOffSlash ts' rest) (hts : ts' <:+ ts) :
    EndsOffSlash ts rest := by
  obtain ⟨used, t, rfl, ht⟩ := h
  obtain ⟨front, rfl⟩ := hts
  exact ⟨front ++ used, t, by simp, ht⟩

/-- The rest is a part of the tokens. -/
lemma suffix (h : EndsOffSlash ts rest) : rest <:+ ts := by
  obtain ⟨used, t, rfl, -⟩ := h
  exact ⟨used ++ [t], by simp⟩

/-- Without a rest it is the last token that is no slash. -/
lemma getLast?_ne (h : EndsOffSlash ts []) : ts.getLast? ≠ some (.symbol .slash) := by
  obtain ⟨used, t, rfl, ht⟩ := h
  simpa using ht

end EndsOffSlash

/-- There are no predicates, or they end with a bracket. -/
lemma endsOffSlash_of_readPredicates {ps : List (Expr written)}
    (h : readPredicates depth ts = some (ps, rest)) : rest = ts ∨ EndsOffSlash ts rest := by
  induction depth generalizing ts ps with
  | zero => simp [read_zero] at h
  | succ depth ih =>
    obtain hbracket | ⟨ts, rfl⟩ := avoids_or_cons .openBracket ts
    · rw [readPredicates_of_avoids hbracket] at h
      cases h
      exact .inl rfl
    · rw [readPredicates] at h
      obtain ⟨⟨p, more⟩, hp, h⟩ := Option.bind_eq_some_iff.1 h
      have hsuffix := suffix_of_readTier hp
      simp only at h
      split at h
      · rename_i more
        obtain ⟨⟨ps', rest'⟩, hps, h⟩ := Option.bind_eq_some_iff.1 h
        cases h
        right
        have hbehind := hsuffix.trans (List.suffix_cons (.symbol .openBracket) ts)
        have hclose : Token.symbol .closeBracket ≠ .symbol .slash := by simp
        obtain rfl | hends := ih hps
        · exact (EndsOffSlash.of_ne hclose).behind hbehind
        · exact hends.behind ((List.suffix_cons _ _).trans hbehind)
      · cases h

/-- A node test ends with a name, a star or a parenthesis. -/
lemma endsOffSlash_of_readTest? {test : NodeTest written} (h : readTest? ts = some (test, rest)) :
    EndsOffSlash ts rest := by
  unfold readTest? at h
  split at h
  · split at h
    · cases h
      exact ⟨[_, _, _], _, rfl, by simp⟩
    · cases h
      exact ⟨[_, _], _, rfl, by simp⟩
    · cases h
  · cases h
    exact .of_ne (by simp)
  · cases h
    exact .of_ne (by simp)
  · cases h
    exact .of_ne (by simp)
  · cases h

/-- A step ends with a token that is no slash. -/
lemma endsOffSlash_of_readStep {s : Step written} (h : readStep depth ts = some (s, rest)) :
    EndsOffSlash ts rest := by
  cases depth with
  | zero => simp [read_zero] at h
  | succ depth =>
    obtain hdots | ⟨ts, rfl⟩ := avoids_or_cons .dotDot ts
    · obtain hdot | ⟨ts, rfl⟩ := avoids_or_cons .dot ts
      · rw [readStep_of_avoids hdots hdot] at h
        obtain ⟨⟨test, more⟩, htest, h⟩ := Option.bind_eq_some_iff.1 h
        obtain ⟨⟨ps, more'⟩, hps, h⟩ := Option.bind_eq_some_iff.1 h
        cases h
        have htest' := (endsOffSlash_of_readTest? htest).behind (readAxis_suffix ts)
        obtain rfl | hends := endsOffSlash_of_readPredicates hps
        · exact htest'
        · exact hends.behind htest'.suffix
      · rw [readStep] at h
        cases h
        exact .of_ne (by simp)
    · rw [readStep] at h
      cases h
      exact .of_ne (by simp)

/-- Steps end with a token that is no slash. -/
lemma endsOffSlash_of_readSteps (h : readSteps depth ts = some (steps, rest)) :
    EndsOffSlash ts rest := by
  induction depth generalizing ts steps with
  | zero => simp [read_zero] at h
  | succ depth ih =>
    obtain ⟨s, more, hs, hform⟩ := readSteps_eq_iff.1 h
    have hends := endsOffSlash_of_readStep hs
    cases hform with
    | last => exact hends
    | slash hsteps => exact (ih hsteps).behind ((List.suffix_cons _ _).trans hends.suffix)
    | doubleSlash hsteps => exact (ih hsteps).behind ((List.suffix_cons _ _).trans hends.suffix)

/-- A path with a step ends with a token that is no slash. -/
lemma PathForm.endsOffSlash (h : PathForm depth ts start steps []) (hne : steps ≠ []) :
    EndsOffSlash ts [] := by
  cases h with
  | bare => exact absurd rfl hne
  | slash _ hsteps => exact (endsOffSlash_of_readSteps hsteps).behind (List.suffix_cons _ _)
  | doubleSlash hsteps => exact (endsOffSlash_of_readSteps hsteps).behind (List.suffix_cons _ _)
  | relative _ _ _ hsteps => exact endsOffSlash_of_readSteps hsteps
  | behind _ hprimary hpredicates hsteps | behindDouble _ hprimary hpredicates hsteps =>
    have hsuffix := (suffix_of_readPredicates hpredicates).trans (suffix_of_readPrimary hprimary)
    exact (endsOffSlash_of_readSteps hsteps).behind ((List.suffix_cons _ _).trans hsuffix)
  | enclosed _ hprimary hpredicates =>
    obtain ⟨inner, rfl, hclose⟩ := exists_paren_of_readPrimary hprimary
    have hbehind := hclose.trans (List.suffix_cons (.symbol .openParen) inner)
    have hparen : Token.symbol .closeParen ≠ .symbol .slash := by simp
    obtain rfl | hends := endsOffSlash_of_readPredicates hpredicates
    · exact (EndsOffSlash.of_ne hparen).behind hbehind
    · exact hends.behind ((List.suffix_cons _ _).trans hbehind)

/-! ## Further steps -/

section Join

variable {depth' : Nat} {more : List Token} {further : List (Step written)}

/-- A path and further steps are one path. A path in parentheses is its start. -/
inductive IsJoin (start : Start written) (steps further : List (Step written)) :
    Start written → List (Step written) → Prop
  | append : IsJoin start steps further start (steps ++ further)
  | behind : IsJoin start steps further (.expr (.path start steps)) further

/-- Steps go on behind a slash. -/
lemma readSteps_join (h : readSteps depth ts = some (steps, []))
    (hfurther : readSteps depth' more = some (further, [])) :
    readSteps (depth + depth') (ts ++ .symbol .slash :: more) = some (steps ++ further, []) := by
  induction depth generalizing ts steps with
  | zero => simp [read_zero] at h
  | succ depth ih =>
    obtain ⟨s, rest, hs, hform⟩ := readSteps_eq_iff.1 h
    have hstep := (readStep_carries (startsSlashed_cons more) depth' depth ts).eq_append hs
    rw [Nat.add_right_comm]
    refine readSteps_eq_iff.2 ⟨s, _, hstep, ?_⟩
    cases hform with
    | last => exact .slash (readSteps_of_le hfurther (Nat.le_add_left _ _))
    | slash hsteps => exact .slash (ih hsteps)
    | doubleSlash hsteps => exact .doubleSlash (ih hsteps)

/-- **A path goes on behind a slash**, whatever its form, if it has a step. -/
lemma PathForm.join (h : PathForm depth ts start steps []) (hne : steps ≠ [])
    (hfurther : readSteps depth' more = some (further, [])) :
    ∃ start' steps', PathForm (depth + depth') (ts ++ .symbol .slash :: more) start' steps' [] ∧
      IsJoin start steps further start' steps' := by
  have hmore := startsSlashed_cons more
  cases h with
  | bare => exact absurd rfl hne
  | slash hstep hsteps =>
    exact ⟨_, _, .slash ((startsStep_append hmore _).trans hstep) (readSteps_join hsteps hfurther),
      .append⟩
  | doubleSlash hsteps =>
    exact ⟨_, _, .doubleSlash (readSteps_join hsteps hfurther), .append⟩
  | relative hstart hslash hdouble hsteps =>
    have hts : ts ≠ [] := by
      rintro rfl
      rw [readSteps_nil] at hsteps
      cases hsteps
    have hnil : ts = [] → Token.symbol .slash :: more = [] := fun h => absurd h hts
    exact ⟨_, _, .relative ((startsPrimary_append hmore _).trans hstart)
      (hslash.append_of_nil hnil) (hdouble.append_of_nil hnil) (readSteps_join hsteps hfurther),
      .append⟩
  | behind hstart hprimary hpredicates hsteps =>
    have hprimary' := (readPrimary_carries hmore depth' depth ts).eq_append hprimary
    have hpredicates' := (readPredicates_carries hmore depth' depth _).eq_append hpredicates
    exact ⟨_, _, .behind ((startsPrimary_append hmore _).trans hstart) hprimary' hpredicates'
      (readSteps_join hsteps hfurther), .append⟩
  | behindDouble hstart hprimary hpredicates hsteps =>
    have hprimary' := (readPrimary_carries hmore depth' depth ts).eq_append hprimary
    have hpredicates' := (readPredicates_carries hmore depth' depth _).eq_append hpredicates
    exact ⟨_, _, .behindDouble ((startsPrimary_append hmore _).trans hstart) hprimary' hpredicates'
      (readSteps_join hsteps hfurther), .append⟩
  | enclosed hstart hprimary hpredicates =>
    have hprimary' := (readPrimary_carries hmore depth' depth ts).eq_append hprimary
    have hpredicates' := (readPredicates_carries hmore depth' depth _).eq_append hpredicates
    exact ⟨_, _, .behind ((startsPrimary_append hmore _).trans hstart) hprimary' hpredicates'
      (readSteps_of_le hfurther (Nat.le_add_left _ _)), .behind⟩

end Join

/-! ## From texts to paths -/

section Tiers

variable {e : Expr written} {tier : Tier}

/-- The operators of a tier make no path. -/
lemma eq_of_readMore (h : readMore depth tier e ts = some (.path start steps, rest)) :
    e = .path start steps ∧ ts = rest := by
  induction depth generalizing e ts with
  | zero => simp [read_zero] at h
  | succ depth ih =>
    cases ts with
    | nil =>
      rw [readMore] at h
      cases h
      exact ⟨rfl, rfl⟩
    | cons t ts =>
      rw [readMore] at h
      split at h
      · obtain ⟨⟨right, more⟩, -, h⟩ := Option.bind_eq_some_iff.1 h
        cases (ih h).1
      · cases h
        exact ⟨rfl, rfl⟩

/-- The members of a union make no path. -/
lemma eq_of_readUnion (h : readUnion depth e ts = some (.path start steps, rest)) :
    e = .path start steps ∧ ts = rest := by
  induction depth generalizing e ts with
  | zero => simp [read_zero] at h
  | succ depth ih =>
    obtain hbar | ⟨ts, rfl⟩ := avoids_or_cons .bar ts
    · rw [readUnion_of_avoids hbar] at h
      cases h
      exact ⟨rfl, rfl⟩
    · rw [readUnion] at h
      obtain ⟨⟨right, more⟩, -, h⟩ := Option.bind_eq_some_iff.1 h
      cases (ih h).1

/-- A path alone is read by a tier as its operand. -/
lemma readTier_eq_path_iff : readTier (depth + 2) tier ts = some (.path start steps, []) ↔
    readOperand (depth + 1) tier ts = some (.path start steps, []) := by
  rw [readTier, Option.bind_eq_bind, Option.bind_eq_some_iff, Prod.exists]
  constructor
  · rintro ⟨left, more, hleft, h⟩
    obtain ⟨rfl, rfl⟩ := eq_of_readMore h
    exact hleft
  · intro h
    exact ⟨_, [], h, by simp only [readMore]⟩

/-- A path alone is read as a unary expression. -/
lemma readUnary_eq_path_iff : readUnary (depth + 2) ts = some (.path start steps, []) ↔
    readPath (depth + 1) ts = some (.path start steps, []) := by
  obtain hminus | ⟨ts, rfl⟩ := avoids_or_cons .minus ts
  · rw [readUnary_of_avoids hminus, Option.bind_eq_bind, Option.bind_eq_some_iff, Prod.exists]
    constructor
    · rintro ⟨left, more, hleft, h⟩
      obtain ⟨rfl, rfl⟩ := eq_of_readUnion h
      exact hleft
    · intro h
      have hbar : Avoids .bar [] := nofun
      exact ⟨_, [], h, readUnion_of_avoids hbar⟩
  · rw [readPath_eq_none (.inl rfl), readUnary]
    simp [Option.bind_eq_some_iff]

/-- A path alone is read as an expression. -/
lemma readTier_eq_pathForm_iff : readTier (depth + 14) .disjunction ts =
    some (.path start steps, []) ↔ PathForm depth ts start steps [] := by
  -- two calls for each of the six tiers, and two for the unary expression
  iterate 5
    rw [readTier_eq_path_iff, readOperand, Tier.tighter?]
    simp only
  rw [readTier_eq_path_iff, readOperand, Tier.tighter?]
  simp only
  rw [readUnary_eq_path_iff, readPath_eq_path_iff]

/-- **The texts of paths** are those whose tokens are a path. -/
lemma parse?_eq_path_iff {source : String} : parse? source = some (.path start steps) ↔
    ∃ ts, tokens? source.toList = some ts ∧
      PathForm (depthPerToken * ts.length + 6) ts start steps [] := by
  unfold parse?
  rw [Option.bind_eq_bind, Option.bind_eq_some_iff]
  refine exists_congr fun ts => and_congr_right fun _ => ?_
  rw [← readTier_eq_pathForm_iff, Option.bind_eq_bind, Option.bind_eq_some_iff]
  have hdepth : depthPerToken * (ts.length + 1) = depthPerToken * ts.length + 6 + 14 := rfl
  rw [hdepth]
  constructor
  · rintro ⟨⟨e, rest⟩, hread, h⟩
    split at h
    · rename_i heq
      cases heq
      cases h
      exact hread
    · cases h
  · intro h
    exact ⟨_, h, rfl⟩

end Tiers

/-! ## Joined texts -/

/-- The text is a path with a step at least. -/
def IsPath (source : String) : Prop :=
  ∃ start steps, parse? source = some (.path start steps) ∧ steps ≠ []

/-- The text is a relative location path: steps from the context node, not in parentheses. -/
def IsRelativePath (source : String) : Prop :=
  (∃ steps, parse? source = some (.path .context steps)) ∧
    (source.toList.dropWhile Text.isSpacing).head? ≠ some '('

instance (source : String) : Decidable (IsPath source) :=
  decidable_of_iff
    ((match parse? source with | some (.path _ (_ :: _)) => true | _ => false) = true) <| by
    unfold IsPath
    split
    · rename_i start s ss h
      simp [h]
    · rename_i h
      simp only [Bool.false_eq_true, false_iff]
      rintro ⟨start, steps, hparse, hne⟩
      obtain ⟨s, ss, rfl⟩ := List.exists_cons_of_ne_nil hne
      exact h start s ss hparse

instance (source : String) : Decidable (IsRelativePath source) :=
  have : Decidable (∃ steps, parse? source = some (.path .context steps)) :=
    decidable_of_iff
      ((match parse? source with | some (.path .context _) => true | _ => false) = true) <| by
      split
      · rename_i steps h
        simp [h]
      · rename_i h
        simp only [Bool.false_eq_true, false_iff]
        exact fun ⟨steps, hparse⟩ => h steps hparse
  inferInstanceAs (Decidable (_ ∧ _))

/-- The first token of a text, behind spacing. -/
lemma first?_of_tokens? {s : List Char} {t : Token} (h : tokens? s = some (t :: ts)) :
    ∃ more, Token.first? (s.dropWhile Text.isSpacing) = some (t, more) := by
  induction s using tokens?.induct with
  | case1 s hs =>
    rw [tokens?_of_nil hs] at h
    cases h
  | case2 s c r hs hfirst =>
    rw [tokens?_of_none hs hfirst] at h
    cases h
  | case3 s c r hs u more hfirst =>
    rw [← hs] at hfirst
    rw [tokens?_of_first? hfirst] at h
    obtain ⟨us, -, heq⟩ := Option.map_eq_some_iff.1 h
    cases heq
    exact ⟨more, hfirst⟩

/-- A symbol is the beginning of the text. -/
lemma eq_append_of_first? {s more : List Char} {x : Symbol}
    (h : Token.first? s = some (.symbol x, more)) : s = x.spell ++ more := by
  unfold Token.first? at h
  split at h
  · cases h
  · split at h
    · cases h
    · cases h
    · split at h
      · obtain ⟨_, -, heq⟩ := Option.map_eq_some_iff.1 h
        cases heq
      · obtain ⟨_, -, heq⟩ := Option.map_eq_some_iff.1 h
        cases heq
      · obtain ⟨_, -, heq⟩ := Option.map_eq_some_iff.1 h
        cases heq
      · obtain ⟨⟨y, r⟩, hy, heq⟩ := Option.map_eq_some_iff.1 h
        cases heq
        obtain ⟨z, -, hz⟩ := List.exists_of_findSome?_eq_some hy
        obtain ⟨r', hr, heq⟩ := Option.map_eq_some_iff.1 hz
        cases heq
        exact Text.eq_append_of_stripStart hr

/-- A relative location path is read as steps, and no slash stands before them. -/
lemma IsRelativePath.exists_steps {source : String} (h : IsRelativePath source) :
    ∃ ts steps, parse? source = some (.path .context steps) ∧
      tokens? source.toList = some ts ∧ source.toList.head? ≠ some '/' ∧
      readSteps (depthPerToken * ts.length + 6) ts = some (steps, []) := by
  obtain ⟨⟨steps, hparse⟩, hparen⟩ := h
  obtain ⟨ts, htokens, hform⟩ := parse?_eq_path_iff.1 hparse
  refine ⟨ts, steps, hparse, htokens, ?_⟩
  cases hform with
  | relative hstart hslash hdouble hsteps =>
    refine ⟨fun hhead => ?_, hsteps⟩
    obtain ⟨s, hs⟩ := List.head?_eq_some_iff.1 hhead
    rw [hs] at htokens
    obtain ⟨more, rfl | rfl⟩ := exists_slash_of_tokens? htokens
    · exact hslash _ rfl
    · exact hdouble _ rfl
  | enclosed hstart hprimary =>
    obtain ⟨inner, rfl, -⟩ := exists_paren_of_readPrimary hprimary
    obtain ⟨more, hfirst⟩ := first?_of_tokens? htokens
    rw [eq_append_of_first? hfirst] at hparen
    exact absurd rfl hparen

/-- **The joined text is read as the joined path.** -/
lemma parse?_join {source further : String} {steps' : List (Step written)}
    (h : parse? source = some (.path start steps)) (hne : steps ≠ [])
    (hfurther : IsRelativePath further)
    (hparse : parse? further = some (.path .context steps')) :
    ∃ start' all, parse? (source ++ ("/" ++ further)) = some (.path start' all) ∧
      IsJoin start steps steps' start' all := by
  obtain ⟨ts, htokens, hform⟩ := parse?_eq_path_iff.1 h
  obtain ⟨us, _, hparse', htokens', hhead, hsteps⟩ := hfurther.exists_steps
  cases hparse.symm.trans hparse'
  have hdepth : depthPerToken * ts.length + 6 + (depthPerToken * us.length + 20) =
      depthPerToken * (ts ++ .symbol .slash :: us).length + 6 := by
    simp only [depthPerToken, List.length_append, List.length_cons]
    omega
  have hsteps' : readSteps (depthPerToken * us.length + 20) us = some (steps', []) :=
    readSteps_of_le hsteps (by omega)
  obtain ⟨start', all, hjoin, hall⟩ := hform.join hne hsteps'
  rw [hdepth] at hjoin
  have htext : (source ++ ("/" ++ further)).toList = source.toList ++ '/' :: further.toList := by
    simp
  refine ⟨start', all, parse?_eq_path_iff.2 ⟨_, ?_, hjoin⟩, hall⟩
  rw [htext, tokens?_slash _ htokens (hform.endsOffSlash hne).getLast?_ne hhead, htokens']
  rfl

/-! ## The nodes of a joined path -/

/-- Steps are resolved in two parts. -/
lemma resolveSteps_append {c : StaticContext} {ss tt : List (Step written)}
    {ss' tt' : List (Step resolved)} (hss : resolveSteps c ss = .ok ss')
    (htt : resolveSteps c tt = .ok tt') : resolveSteps c (ss ++ tt) = .ok (ss' ++ tt') := by
  induction ss generalizing ss' with
  | nil =>
    rw [resolveSteps] at hss
    cases hss
    exact htt
  | cons s ss ih =>
    rw [resolveSteps] at hss
    obtain ⟨s', hs, hss⟩ := bind_eq_ok_iff.1 hss
    obtain ⟨rest, hrest, hss⟩ := bind_eq_ok_iff.1 hss
    cases hss
    rw [List.cons_append, resolveSteps, hs, ih hrest]
    rfl

/-- A path is resolved with its start and its steps. -/
lemma resolve_path_eq_ok_iff {c : StaticContext} {e : Expr resolved} :
    (Expr.path start steps).resolve c = .ok e ↔ ∃ start' steps', start.resolve c = .ok start' ∧
      resolveSteps c steps = .ok steps' ∧ e = .path start' steps' := by
  rw [Expr.resolve, bind_eq_ok_iff]
  refine exists_congr fun start' => ?_
  constructor
  · rintro ⟨hstart, h⟩
    obtain ⟨steps', hsteps, h⟩ := bind_eq_ok_iff.1 h
    exact ⟨steps', hstart, hsteps, (pure_eq_ok_iff.1 h).symm⟩
  · rintro ⟨steps', hstart, hsteps, rfl⟩
    exact ⟨hstart, bind_eq_ok_iff.2 ⟨steps', hsteps, rfl⟩⟩

/-- **A joined path** is compiled with its parts. It selects what the second part selects from each
of the nodes that the first part selects, united. -/
theorem compile_join {c : StaticContext} {source further : String} {p q : Compiled}
    (hsource : IsPath source) (hfurther : IsRelativePath further)
    (hp : compile c source = .ok p) (hq : compile c further = .ok q) :
    ∃ joined, compile c (source ++ ("/" ++ further)) = .ok joined ∧
      ∀ (d : Document) (i : NodeId) (js : List NodeId), joined.evaluateNodes d i = .ok js ↔
        ∃ is, p.evaluateNodes d i = .ok is ∧ IsUnionOf js is fun k => q.evaluateNodes d k := by
  obtain ⟨start, steps, hparse, hne⟩ := hsource
  obtain ⟨⟨steps', hparse'⟩, -⟩ := id hfurther
  obtain ⟨e, e', he, hresolve, rfl⟩ := compile_eq_ok_iff.1 hp
  cases hparse.symm.trans he
  obtain ⟨f, f', hf, hresolve', rfl⟩ := compile_eq_ok_iff.1 hq
  cases hparse'.symm.trans hf
  obtain ⟨first, ss, hstart, hss, rfl⟩ := resolve_path_eq_ok_iff.1 hresolve
  obtain ⟨second, tt, hcontext, htt, rfl⟩ := resolve_path_eq_ok_iff.1 hresolve'
  cases hcontext
  obtain ⟨start', all, hjoin, hall⟩ := parse?_join hparse hne hfurther hparse'
  cases hall with
  | append =>
    have hresolved : (Expr.path start (steps ++ steps')).resolve c = .ok (.path first (ss ++ tt)) :=
      resolve_path_eq_ok_iff.2 ⟨_, _, hstart, resolveSteps_append hss htt, rfl⟩
    refine ⟨_, compile_eq_ok_iff.2 ⟨_, _, hjoin, hresolved, rfl⟩, fun d i js => ?_⟩
    exact evaluateNodes_append_iff
  | behind =>
    have hresolved : (Expr.path (.expr (.path start steps)) steps').resolve c =
        .ok (.path (.expr (.path first ss)) tt) := by
      refine resolve_path_eq_ok_iff.2 ⟨_, _, ?_, htt, rfl⟩
      rw [Start.resolve, hresolve]
      rfl
    refine ⟨_, compile_eq_ok_iff.2 ⟨_, _, hjoin, hresolved, rfl⟩, fun d i js => ?_⟩
    exact evaluateNodes_expr_iff

end XmlHarvest.Query
