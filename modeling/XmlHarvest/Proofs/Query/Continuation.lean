import XmlHarvest.Proofs.Query.Descent

/-!
# Tokens behind what is read

What is read at the start of some tokens is read there as well if a slash and further tokens stand
behind them, and with a greater depth too. A reader looks one token ahead, and of the tokens behind
an expression only a slash and what follows it can go on with a path. So a reader that is done
before the tokens end does not notice what stands behind them, and neither does one that ends with
a step, whose next token is a slash in any case.

## Main definitions

* `Query.StartsSlashed`: tokens that stand behind others, with a slash in front or none at all.
* `Query.Carries`: what is read is read as well with tokens behind it.

## Main results

* `Query.Carries.bind`, `Query.Carries.bind_token`: readers one after the other.
* `Query.readTier_carries` and its siblings: every reader carries over.
-/

namespace XmlHarvest.Query

/-! ## Tokens with others behind them -/

/-- There are no tokens, or a slash is the first one. -/
def StartsSlashed (more : List Token) : Prop :=
  ∀ t ∈ more.head?, t = .symbol .slash

/-- A slash in front of tokens. -/
lemma startsSlashed_cons (ts : List Token) : StartsSlashed (.symbol .slash :: ts) := by
  rintro _ ⟨⟩
  rfl

/-- Tokens in front of a slash still do not start with another symbol. -/
lemma Avoids.append {s : Symbol} {ts more : List Token} (h : Avoids s ts)
    (hmore : StartsSlashed more) (hs : s ≠ .slash) : Avoids s (ts ++ more) := by
  intro rest heq
  cases ts with
  | nil =>
    rw [List.nil_append] at heq
    subst heq
    cases hmore _ rfl
    exact hs rfl
  | cons t ts =>
    cases heq
    exact h ts rfl

/-- Tokens with nothing behind them, or of which some are there, do not start with a symbol that
they did not start with before. -/
lemma Avoids.append_of_nil {s : Symbol} {ts more : List Token} (h : Avoids s ts)
    (hnil : ts = [] → more = []) : Avoids s (ts ++ more) := by
  intro rest heq
  cases ts with
  | nil =>
    rw [hnil rfl] at heq
    cases heq
  | cons t ts =>
    cases heq
    exact h ts rfl

/-- A symbol is the first token or it is not. -/
lemma avoids_or_cons (s : Symbol) (ts : List Token) :
    Avoids s ts ∨ ∃ rest, ts = .symbol s :: rest := by
  by_cases h : ∃ rest, ts = .symbol s :: rest
  · exact .inr h
  · exact .inl fun rest hrest => h ⟨rest, hrest⟩

/-- What is read from tokens by `x` is read by `y` with `more` behind them, and the rest is a part
of the tokens. A greedy reader, which could go on with a slash, must have stopped before the end
unless there is nothing more. -/
def Carries {α : Type} (greedy : Prop) (more ts : List Token) (x y : Option (α × List Token)) :
    Prop :=
  ∀ a rest, x = some (a, rest) →
    rest <:+ ts ∧ ((greedy → rest = [] → more = []) → y = some (a, rest ++ more))

namespace Carries

variable {α β : Type} {greedy greedy' : Prop} {more ts ts' rest : List Token}
  {x y : Option (α × List Token)}

/-- Nothing is read. -/
lemma none : Carries greedy more ts none y :=
  nofun

/-- Something is read, and the rest is left with what stands behind it. -/
lemma some {a : α} (h : rest <:+ ts) :
    Carries greedy more ts (some (a, rest)) (some (a, rest ++ more)) := by
  rintro _ _ ⟨⟩
  exact ⟨h, fun _ => rfl⟩

/-- A greedy reader stops where it is, as far as this is not the end of all tokens but for those
behind. -/
lemma stop {a : α} (h : (rest = [] → more = []) → y = .some (a, rest ++ more)) :
    Carries True more rest (.some (a, rest)) y := by
  rintro _ _ ⟨⟩
  exact ⟨List.suffix_rfl, fun hnil => h (hnil trivial)⟩

/-- The rest is a part of the tokens. -/
lemma suffix {a : α} (h : Carries greedy more ts x y) (hx : x = .some (a, rest)) : rest <:+ ts :=
  (h a rest hx).1

/-- What a reader that is not greedy reads is read in front of anything. -/
lemma eq_append {a : α} (h : Carries False more ts x y) (hx : x = .some (a, rest)) :
    y = .some (a, rest ++ more) :=
  (h a rest hx).2 False.elim

/-- Tokens may have been read before. -/
lemma behind (h : Carries greedy more ts' x y) (hts : ts' <:+ ts) : Carries greedy more ts x y :=
  fun a rest ha => ⟨(h a rest ha).1.trans hts, (h a rest ha).2⟩

/-- What is read in two parts, one behind the other. -/
lemma bind {f g : α × List Token → Option (β × List Token)} (hx : Carries greedy more ts x y)
    (hgreedy : greedy → greedy')
    (hf : ∀ a rest, Carries greedy' more rest (f (a, rest)) (g (a, rest ++ more))) :
    Carries greedy' more ts (x >>= f) (y >>= g) := by
  intro b rest h
  obtain ⟨⟨a, between⟩, ha, hb⟩ := Option.bind_eq_some_iff.1 h
  obtain ⟨hbetween, hy⟩ := hx a between ha
  obtain ⟨hrest, hg⟩ := hf a between b rest hb
  refine ⟨hrest.trans hbetween, fun hnil => ?_⟩
  rw [hy fun hgr h => hnil (hgreedy hgr) (List.eq_nil_of_suffix_nil (h ▸ hrest))]
  exact hg hnil

/-- The result of a reader is changed. -/
lemma map (h : α → β) (hx : Carries greedy more ts x y) :
    Carries greedy more ts (x >>= fun (a, rest) => .some (h a, rest))
      (y >>= fun (a, rest) => .some (h a, rest)) :=
  hx.bind id fun _ _ => some List.suffix_rfl

/-- What is read in two parts, where the second one begins with a certain token: then the first one
is never done at the end. -/
lemma bind_token {f g : α × List Token → Option (β × List Token)} (hx : Carries greedy more ts x y)
    (hnil : ∀ a, f (a, []) = .none)
    (hf : ∀ a rest, Carries greedy' more rest (f (a, rest)) (g (a, rest ++ more))) :
    Carries greedy' more ts (x >>= f) (y >>= g) := by
  intro b rest h
  obtain ⟨⟨a, between⟩, ha, hb⟩ := Option.bind_eq_some_iff.1 h
  obtain ⟨hbetween, hy⟩ := hx a between ha
  obtain ⟨hrest, hg⟩ := hf a between b rest hb
  refine ⟨hrest.trans hbetween, fun hmore => ?_⟩
  have hne : between ≠ [] := by
    rintro rfl
    rw [hnil a] at hb
    cases hb
  rw [hy fun _ h => absurd h hne]
  exact hg hmore

end Carries

/-! ## Reading ahead -/

section Ahead

variable {more : List Token} (hmore : StartsSlashed more)

include hmore in
/-- Nothing or a slash. -/
lemma StartsSlashed.cases : more = [] ∨ ∃ ts, more = .symbol .slash :: ts := by
  cases more with
  | nil => exact .inl rfl
  | cons t ts =>
    cases hmore t rfl
    exact .inr ⟨ts, rfl⟩

include hmore in
/-- Whether a primary expression starts is decided before the tokens behind. -/
lemma startsPrimary_append (ts : List Token) : startsPrimary (ts ++ more) = startsPrimary ts := by
  match ts with
  | [] => obtain rfl | ⟨us, rfl⟩ := hmore.cases <;> rfl
  | [t] =>
    obtain rfl | ⟨us, rfl⟩ := hmore.cases
    · rfl
    · rcases t with _ | _ | _ | _ | _ | s <;> first | rfl | cases s <;> rfl
  | t :: u :: ts =>
    rcases t with _ | _ | _ | _ | _ | s
    case name => rcases u with _ | _ | _ | _ | _ | s <;> first | rfl | cases s <;> rfl
    all_goals first | rfl | cases s <;> rfl

include hmore in
/-- Whether a step starts is decided before the tokens behind. -/
lemma startsStep_append (ts : List Token) : startsStep (ts ++ more) = startsStep ts := by
  match ts with
  | [] => obtain rfl | ⟨us, rfl⟩ := hmore.cases <;> rfl
  | t :: ts => rcases t with _ | _ | _ | _ | _ | s <;> first | rfl | cases s <;> rfl

include hmore in
/-- An axis is read before the tokens behind. -/
lemma readAxis_append (ts : List Token) :
    readAxis (ts ++ more) = ((readAxis ts).1, (readAxis ts).2 ++ more) := by
  match ts with
  | [] => obtain rfl | ⟨us, rfl⟩ := hmore.cases <;> rfl
  | [t] =>
    obtain rfl | ⟨us, rfl⟩ := hmore.cases
    · simp
    · rcases t with _ | _ | _ | ⟨_ | _, _⟩ | _ | s <;> first | rfl | cases s <;> rfl
  | t :: u :: ts =>
    rcases t with _ | _ | _ | ⟨_ | _, n⟩ | _ | s
    case name.none =>
      rcases u with _ | _ | _ | _ | _ | s
      case symbol =>
        cases s
        case doubleColon =>
          simp only [List.cons_append, readAxis]
          cases Axis.ofName? n <;> rfl
        all_goals rfl
      all_goals rfl
    case symbol => cases s <;> rfl
    all_goals rfl

/-- An axis takes tokens off the front. -/
lemma readAxis_suffix (ts : List Token) : (readAxis ts).2 <:+ ts := by
  unfold readAxis
  split
  · exact List.suffix_cons _ _
  · split
    · exact (List.suffix_cons _ _).trans (List.suffix_cons _ _)
    · exact List.suffix_rfl
  · exact List.suffix_rfl

include hmore in
/-- A node test is read before the tokens behind. -/
lemma readTest?_carries (ts : List Token) :
    Carries False more ts (readTest? ts) (readTest? (ts ++ more)) := by
  unfold readTest?
  split
  · rename_i n ts
    simp only [List.cons_append]
    split
    · rename_i type target ts htype
      simp only [htype, List.cons_append]
      exact .some ⟨[_, _, _, _], rfl⟩
    · rename_i type ts htype
      simp only [htype, List.cons_append]
      exact .some ⟨[_, _, _], rfl⟩
    · exact .none
  · rename_i n ts hparen
    have hname : readTest? (.name n :: (ts ++ more)) = some (.named n, ts ++ more) := by
      rw [readTest?]
      exact Avoids.append hparen hmore (by decide)
    show Carries False more _ _ (readTest? (.name n :: (ts ++ more)))
    rw [hname]
    exact .some (List.suffix_cons _ _)
  · exact .some (List.suffix_cons _ _)
  · exact .some (List.suffix_cons _ _)
  · exact .none

end Ahead

/-! ## Readers -/

section Equations

variable {depth : Nat} {ts : List Token}

/-- Without a minus sign a unary expression is a union. -/
lemma readUnary_of_avoids (h : Avoids .minus ts) : readUnary (depth + 1) ts =
    readPath depth ts >>= fun (left, ts) => readUnion depth left ts := by
  rw [readUnary]
  exact h

/-- Without a bar a union ends. -/
lemma readUnion_of_avoids {left : Expr written} (h : Avoids .bar ts) :
    readUnion (depth + 1) left ts = some (left, ts) := by
  rw [readUnion]
  exact h

/-- What is read behind a primary expression with its predicates: the steps, if a slash follows. -/
def readBehind (depth : Nat) (e : Expr written) :
    List Token → Option (Expr written × List Token)
  | .symbol .slash :: ts =>
    readSteps depth ts >>= fun (steps, rest) => some (.path (.expr e) steps, rest)
  | .symbol .doubleSlash :: ts =>
    readSteps depth ts >>= fun (steps, rest) => some (.path (.expr e) (.anywhere :: steps), rest)
  | ts => some (e, ts)

/-- Without a slash nothing is read behind an expression. -/
lemma readBehind_of_avoids {e : Expr written} (hslash : Avoids .slash ts)
    (hdouble : Avoids .doubleSlash ts) : readBehind depth e ts = some (e, ts) := by
  rw [readBehind]
  · exact hslash
  · exact hdouble

/-- A primary expression is read with its predicates and the steps behind it. -/
lemma readPath_of_startsPrimary (hstart : startsPrimary ts = true) : readPath (depth + 1) ts =
    readPrimary depth ts >>= fun (e, rest) => readPredicates depth rest >>= fun (ps, rest) =>
      readBehind depth (filtered e ps) rest := by
  unfold readPath
  rw [if_pos hstart]
  refine bind_congr fun _ => bind_congr fun more => ?_
  obtain ⟨ps, rest⟩ := more
  obtain hslash | ⟨ts, rfl⟩ := avoids_or_cons .slash rest
  · obtain hdouble | ⟨ts, rfl⟩ := avoids_or_cons .doubleSlash rest
    · simp only
      rw [readBehind_of_avoids hslash hdouble]
      split
      · exact absurd rfl (hslash _)
      · exact absurd rfl (hdouble _)
      · rfl
    · rfl
  · rfl

/-- A slash is the root, with the steps behind it if there are any. -/
lemma readPath_slash : readPath (depth + 1) (.symbol .slash :: ts) =
    if startsStep ts then readSteps depth ts >>= fun (steps, rest) =>
      some (.path .root steps, rest)
    else some (.path .root [], ts) := by
  rw [readPath, if_neg (by simp [startsPrimary])]
  rfl

/-- A double slash is the root, and a step to all nodes inside it. -/
lemma readPath_doubleSlash : readPath (depth + 1) (.symbol .doubleSlash :: ts) =
    readSteps depth ts >>= fun (steps, rest) => some (.path .root (.anywhere :: steps), rest) := by
  rw [readPath, if_neg (by simp [startsPrimary])]
  rfl

/-- Without a primary expression and without a slash a path starts with a step. -/
lemma readPath_of_avoids (hstart : startsPrimary ts = false) (hslash : Avoids .slash ts)
    (hdouble : Avoids .doubleSlash ts) : readPath (depth + 1) ts =
      readSteps depth ts >>= fun (steps, rest) => some (.path .context steps, rest) := by
  rw [readPath, if_neg (by simp [hstart])]
  · rfl
  · exact hslash
  · exact hdouble

/-- Steps are read from tokens only. -/
lemma readSteps_nil : readSteps depth [] = none := by
  cases depth with
  | zero => rw [readSteps]
  | succ depth =>
    cases depth with
    | zero => rfl
    | succ depth => rfl

/-- A step that is not abbreviated has an axis, a test and predicates. -/
lemma readStep_of_avoids (hdots : Avoids .dotDot ts) (hdot : Avoids .dot ts) :
    readStep (depth + 1) ts = readTest? (readAxis ts).2 >>= fun (test, rest) =>
      readPredicates depth rest >>= fun (ps, rest) => some (.mk (readAxis ts).1 test ps, rest) := by
  rw [readStep]
  · rfl
  · exact hdots
  · exact hdot

/-- Without a bracket there are no predicates. -/
lemma readPredicates_of_avoids (h : Avoids .openBracket ts) :
    readPredicates (depth + 1) ts = some ([], ts) := by
  rw [readPredicates]
  exact h

end Equations

section Readers

variable {more : List Token}

/-- The steps behind an expression carry over if steps do. -/
lemma readBehind_carries {depth depth' : Nat} (hsteps : ∀ ts,
      Carries True more ts (readSteps depth ts) (readSteps depth' (ts ++ more)))
    (e : Expr written) (ts : List Token) :
    Carries True more ts (readBehind depth e ts) (readBehind depth' e (ts ++ more)) := by
  obtain hslash | ⟨ts, rfl⟩ := avoids_or_cons .slash ts
  · obtain hdouble | ⟨ts, rfl⟩ := avoids_or_cons .doubleSlash ts
    · rw [readBehind_of_avoids hslash hdouble]
      exact .stop fun hnil => readBehind_of_avoids (hslash.append_of_nil hnil)
        (hdouble.append_of_nil hnil)
    · exact ((hsteps ts).map fun steps => Expr.path (.expr e) (.anywhere :: steps)).behind
        (List.suffix_cons _ _)
  · exact ((hsteps ts).map (Expr.path (.expr e))).behind (List.suffix_cons _ _)

mutual

/-- **Every reader carries over** to more tokens behind a slash and to a greater depth.

**Proof sketch.** Induction on the depth, for all readers together. -/
theorem readTier_carries (hmore : StartsSlashed more) (k : Nat) :
    ∀ (depth : Nat) (tier : Tier) (ts : List Token),
      Carries True more ts (readTier depth tier ts) (readTier (depth + k) tier (ts ++ more))
  | 0, _, _ => by
    simp only [read_zero]
    exact .none
  | depth + 1, tier, ts => by
    rw [Nat.add_right_comm depth 1 k, readTier, readTier]
    exact (readOperand_carries hmore k depth tier ts).bind id fun left rest =>
      readMore_carries hmore k depth tier left rest

/-- Operands carry over. -/
theorem readOperand_carries (hmore : StartsSlashed more) (k : Nat) :
    ∀ (depth : Nat) (tier : Tier) (ts : List Token),
      Carries True more ts (readOperand depth tier ts) (readOperand (depth + k) tier (ts ++ more))
  | 0, _, _ => by
    simp only [read_zero]
    exact .none
  | depth + 1, tier, ts => by
    rw [Nat.add_right_comm depth 1 k, readOperand, readOperand]
    cases tier.tighter? with
    | some tighter => exact readTier_carries hmore k depth tighter ts
    | none => exact readUnary_carries hmore k depth ts

/-- The operators of a tier carry over. -/
theorem readMore_carries (hmore : StartsSlashed more) (k : Nat) :
    ∀ (depth : Nat) (tier : Tier) (left : Expr written) (ts : List Token),
      Carries True more ts (readMore depth tier left ts)
        (readMore (depth + k) tier left (ts ++ more))
  | 0, _, _, _ => by
    simp only [read_zero]
    exact .none
  | depth + 1, tier, left, [] => by
    rw [readMore]
    refine .stop fun hnil => ?_
    rw [hnil rfl, Nat.add_right_comm depth 1 k, List.append_nil, readMore]
  | depth + 1, tier, left, t :: ts => by
    rw [Nat.add_right_comm depth 1 k, List.cons_append, readMore, readMore]
    cases tier.operator? t with
    | some op =>
      refine ((readOperand_carries hmore k depth tier ts).bind id fun right rest => ?_).behind
        (List.suffix_cons t ts)
      exact readMore_carries hmore k depth tier (.binary op left right) rest
    | none => exact .some List.suffix_rfl

/-- Unary expressions carry over. -/
theorem readUnary_carries (hmore : StartsSlashed more) (k : Nat) :
    ∀ (depth : Nat) (ts : List Token),
      Carries True more ts (readUnary depth ts) (readUnary (depth + k) (ts ++ more))
  | 0, _ => by
    simp only [read_zero]
    exact .none
  | depth + 1, ts => by
    rw [Nat.add_right_comm depth 1 k]
    obtain hminus | ⟨ts, rfl⟩ := avoids_or_cons .minus ts
    · rw [readUnary_of_avoids hminus, readUnary_of_avoids (hminus.append hmore (by decide))]
      exact (readPath_carries hmore k depth ts).bind id fun left rest =>
        readUnion_carries hmore k depth left rest
    · rw [List.cons_append, readUnary, readUnary]
      exact ((readUnary_carries hmore k depth ts).map Expr.negate).behind (List.suffix_cons _ ts)

/-- The members of a union carry over. -/
theorem readUnion_carries (hmore : StartsSlashed more) (k : Nat) :
    ∀ (depth : Nat) (left : Expr written) (ts : List Token),
      Carries True more ts (readUnion depth left ts) (readUnion (depth + k) left (ts ++ more))
  | 0, _, _ => by
    simp only [read_zero]
    exact .none
  | depth + 1, left, ts => by
    rw [Nat.add_right_comm depth 1 k]
    obtain hbar | ⟨ts, rfl⟩ := avoids_or_cons .bar ts
    · rw [readUnion_of_avoids hbar, readUnion_of_avoids (hbar.append hmore (by decide))]
      exact .some List.suffix_rfl
    · rw [List.cons_append, readUnion, readUnion]
      refine ((readPath_carries hmore k depth ts).bind id fun right rest => ?_).behind
        (List.suffix_cons _ ts)
      exact readUnion_carries hmore k depth (.union left right) rest

/-- Paths carry over. -/
theorem readPath_carries (hmore : StartsSlashed more) (k : Nat) :
    ∀ (depth : Nat) (ts : List Token),
      Carries True more ts (readPath depth ts) (readPath (depth + k) (ts ++ more))
  | 0, _ => by
    simp only [read_zero]
    exact .none
  | depth + 1, ts => by
    rw [Nat.add_right_comm depth 1 k]
    cases hstart : startsPrimary ts with
    | true =>
      rw [readPath_of_startsPrimary hstart,
        readPath_of_startsPrimary (by rw [startsPrimary_append hmore, hstart])]
      refine (readPrimary_carries hmore k depth ts).bind False.elim fun primary rest => ?_
      refine (readPredicates_carries hmore k depth rest).bind False.elim fun ps rest => ?_
      exact readBehind_carries (readSteps_carries hmore k depth) (filtered primary ps) rest
    | false =>
      obtain hslash | ⟨ts, rfl⟩ := avoids_or_cons .slash ts
      · obtain hdouble | ⟨ts, rfl⟩ := avoids_or_cons .doubleSlash ts
        · rw [readPath_of_avoids hstart hslash hdouble]
          cases ts with
          | nil =>
            rw [readSteps_nil]
            exact .none
          | cons t ts =>
            rw [readPath_of_avoids (by rw [startsPrimary_append hmore, hstart])
              (hslash.append_of_nil nofun) (hdouble.append_of_nil nofun)]
            exact (readSteps_carries hmore k depth _).map (Expr.path .context)
        · rw [List.cons_append, readPath_doubleSlash, readPath_doubleSlash]
          exact ((readSteps_carries hmore k depth ts).map
            fun steps => Expr.path .root (.anywhere :: steps)).behind (List.suffix_cons _ _)
      · rw [List.cons_append, readPath_slash, readPath_slash, startsStep_append hmore]
        split
        · exact ((readSteps_carries hmore k depth ts).map (Expr.path .root)).behind
            (List.suffix_cons _ _)
        · exact .some (List.suffix_cons _ _)

/-- Steps carry over. -/
theorem readSteps_carries (hmore : StartsSlashed more) (k : Nat) :
    ∀ (depth : Nat) (ts : List Token),
      Carries True more ts (readSteps depth ts) (readSteps (depth + k) (ts ++ more))
  | 0, _ => by
    simp only [read_zero]
    exact .none
  | depth + 1, ts => by
    rw [Nat.add_right_comm depth 1 k, readSteps, readSteps]
    refine (readStep_carries hmore k depth ts).bind False.elim fun s rest => ?_
    simp only
    split
    · exact ((readSteps_carries hmore k depth _).map (s :: ·)).behind (List.suffix_cons _ _)
    · exact ((readSteps_carries hmore k depth _).map (s :: .anywhere :: ·)).behind
        (List.suffix_cons _ _)
    · rename_i hslash hdouble
      refine .stop fun hnil => ?_
      have hslash := Avoids.append_of_nil hslash hnil
      have hdouble := Avoids.append_of_nil hdouble hnil
      split
      · rename_i heq
        exact absurd heq (hslash _)
      · rename_i heq
        exact absurd heq (hdouble _)
      · rfl

/-- A step carries over, also up to the end. -/
theorem readStep_carries (hmore : StartsSlashed more) (k : Nat) :
    ∀ (depth : Nat) (ts : List Token),
      Carries False more ts (readStep depth ts) (readStep (depth + k) (ts ++ more))
  | 0, _ => by
    simp only [read_zero]
    exact .none
  | depth + 1, ts => by
    rw [Nat.add_right_comm depth 1 k]
    obtain hdots | ⟨ts, rfl⟩ := avoids_or_cons .dotDot ts
    · obtain hdot | ⟨ts, rfl⟩ := avoids_or_cons .dot ts
      · rw [readStep_of_avoids hdots hdot, readStep_of_avoids (hdots.append hmore (by decide))
          (hdot.append hmore (by decide)), readAxis_append hmore]
        refine ((readTest?_carries hmore _).bind id fun test rest => ?_).behind (readAxis_suffix ts)
        exact (readPredicates_carries hmore k depth rest).map (Step.mk (readAxis ts).1 test)
      · rw [List.cons_append, readStep, readStep]
        exact .some (List.suffix_cons _ _)
    · rw [List.cons_append, readStep, readStep]
      exact .some (List.suffix_cons _ _)

/-- Predicates carry over, also up to the end. -/
theorem readPredicates_carries (hmore : StartsSlashed more) (k : Nat) :
    ∀ (depth : Nat) (ts : List Token),
      Carries False more ts (readPredicates depth ts) (readPredicates (depth + k) (ts ++ more))
  | 0, _ => by
    simp only [read_zero]
    exact .none
  | depth + 1, ts => by
    rw [Nat.add_right_comm depth 1 k]
    obtain hbracket | ⟨ts, rfl⟩ := avoids_or_cons .openBracket ts
    · rw [readPredicates_of_avoids hbracket,
        readPredicates_of_avoids (hbracket.append hmore (by decide))]
      exact .some List.suffix_rfl
    · rw [List.cons_append, readPredicates, readPredicates]
      refine ((readTier_carries hmore k depth .disjunction ts).bind_token (fun _ => rfl)
        fun p rest => ?_).behind (List.suffix_cons _ ts)
      simp only
      split
      · exact ((readPredicates_carries hmore k depth _).map (p :: ·)).behind (List.suffix_cons _ _)
      · exact .none

/-- Primary expressions carry over, also up to the end. -/
theorem readPrimary_carries (hmore : StartsSlashed more) (k : Nat) :
    ∀ (depth : Nat) (ts : List Token),
      Carries False more ts (readPrimary depth ts) (readPrimary (depth + k) (ts ++ more))
  | 0, _ => by
    simp only [read_zero]
    exact .none
  | depth + 1, ts => by
    rw [Nat.add_right_comm depth 1 k]
    unfold readPrimary
    split
    · refine ((readTier_carries hmore k depth .disjunction _).bind_token (fun _ => rfl)
        fun e rest => ?_).behind (List.suffix_cons _ _)
      simp only
      split
      · exact .some (List.suffix_cons _ _)
      · exact .none
    · exact .some (List.suffix_cons _ _)
    · rename_i digits ts
      simp only [List.cons_append]
      cases Number.readUnsigned? digits with
      | none => exact .none
      | some d => exact .some (List.suffix_cons _ _)
    · exact .some (List.suffix_cons _ _)
    · exact .some ⟨[_, _, _], rfl⟩
    · rename_i f ts hclose
      have hcall : readPrimary (depth + k + 1) (.name f :: .symbol .openParen :: (ts ++ more)) =
          readArguments (depth + k) (ts ++ more) >>= fun (es, rest) => some (.call f es, rest) := by
        rw [readPrimary]
        · rfl
        · exact Avoids.append hclose hmore (by decide)
      show Carries False more _ _
        (readPrimary (depth + k + 1) (.name f :: .symbol .openParen :: (ts ++ more)))
      rw [hcall]
      exact ((readArguments_carries hmore k depth ts).map (Expr.call f)).behind ⟨[_, _], rfl⟩
    · exact .none

/-- Arguments carry over, also up to the end. -/
theorem readArguments_carries (hmore : StartsSlashed more) (k : Nat) :
    ∀ (depth : Nat) (ts : List Token),
      Carries False more ts (readArguments depth ts) (readArguments (depth + k) (ts ++ more))
  | 0, _ => by
    simp only [read_zero]
    exact .none
  | depth + 1, ts => by
    rw [Nat.add_right_comm depth 1 k, readArguments, readArguments]
    refine (readTier_carries hmore k depth .disjunction ts).bind_token (fun _ => rfl)
      fun e rest => ?_
    simp only
    split
    · exact ((readArguments_carries hmore k depth _).map (e :: ·)).behind (List.suffix_cons _ _)
    · exact .some (List.suffix_cons _ _)
    · exact .none

end

end Readers

/-! ## What is left, and more depth -/

section Consequences

variable {depth : Nat} {ts rest : List Token}

/-- No tokens behind. -/
lemma startsSlashed_nil : StartsSlashed [] :=
  nofun

/-- An expression is read off the front. -/
lemma suffix_of_readTier {tier : Tier} {e : Expr written}
    (h : readTier depth tier ts = some (e, rest)) : rest <:+ ts :=
  (readTier_carries startsSlashed_nil 0 depth tier ts).suffix h

/-- A primary expression is read off the front. -/
lemma suffix_of_readPrimary {e : Expr written} (h : readPrimary depth ts = some (e, rest)) :
    rest <:+ ts :=
  (readPrimary_carries startsSlashed_nil 0 depth ts).suffix h

/-- Predicates are read off the front. -/
lemma suffix_of_readPredicates {ps : List (Expr written)}
    (h : readPredicates depth ts = some (ps, rest)) : rest <:+ ts :=
  (readPredicates_carries startsSlashed_nil 0 depth ts).suffix h

/-- Steps are read with a greater depth, too. -/
lemma readSteps_of_le {steps : List (Step written)} {depth' : Nat}
    (h : readSteps depth ts = some (steps, rest)) (hle : depth ≤ depth') :
    readSteps depth' ts = some (steps, rest) := by
  obtain ⟨k, rfl⟩ := Nat.exists_eq_add_of_le hle
  have hmore := (readSteps_carries startsSlashed_nil k depth ts steps rest h).2 fun _ _ => rfl
  rwa [List.append_nil, List.append_nil] at hmore

end Consequences

end XmlHarvest.Query
