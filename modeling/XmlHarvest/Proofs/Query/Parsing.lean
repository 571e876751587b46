import XmlHarvest.Proofs.Query.Descent

/-!
# Parsing

Parsing inverts spelling: a well-formed tree is found from each text that spells it, and nothing but
well-formed trees is found in any text, abbreviated or not.

## Main definitions

* `Query.Yields`: a condition on what is read and on the tokens that are left.

## Main results

* `Query.readTier_yields`: what is read from tokens of the grammar is well-formed.
* `Query.parse?_spellings`: parsing finds the trees that texts spell, and well-formed ones only.
-/

namespace XmlHarvest.Query

/-! ## What is read is well-formed -/

/-- All tokens are tokens of the grammar. -/
def AllProper (ts : List Token) : Prop :=
  ∀ t ∈ ts, t.IsProper

/-- What is read satisfies a condition, and the tokens that are left are tokens of the grammar. -/
def Yields {α : Type} (p : α → Prop) (x : Option (α × List Token)) : Prop :=
  ∀ a rest, x = some (a, rest) → p a ∧ AllProper rest

namespace Yields

variable {α β : Type} {p : α → Prop} {q : β → Prop}

/-- Nothing is read. -/
lemma none : Yields p none :=
  nofun

/-- Something is read, and the rest is left. -/
lemma some {a : α} {rest : List Token} (ha : p a) (hrest : AllProper rest) :
    Yields p (some (a, rest)) := by
  rintro _ _ ⟨⟩
  exact ⟨ha, hrest⟩

/-- What is read in two parts, one behind the other. -/
lemma bind {x : Option (α × List Token)} {f : α × List Token → Option (β × List Token)}
    (hx : Yields p x) (hf : ∀ a rest, p a → AllProper rest → Yields q (f (a, rest))) :
    Yields q (x >>= f) := by
  intro b rest h
  obtain ⟨⟨a, more⟩, ha, h⟩ := Option.bind_eq_some_iff.1 h
  obtain ⟨hp, hmore⟩ := hx a more ha
  exact hf a more hp hmore b rest h

end Yields

lemma AllProper.tail {t : Token} {ts : List Token} (h : AllProper (t :: ts)) : AllProper ts :=
  fun u hu => h u (List.mem_cons_of_mem t hu)

lemma AllProper.head {t : Token} {ts : List Token} (h : AllProper (t :: ts)) : t.IsProper :=
  h t List.mem_cons_self

/-- A tree is well-formed if its top is proper and the trees inside it are well-formed. -/
lemma Expr.wellFormed_iff {e : Expr written} :
    e.WellFormed ↔ e.IsProper ∧ e.Inside Expr.WellFormed :=
  Expr.everywhere_iff

/-- A step with a test of the grammar and well-formed predicates. -/
def Step.WellFormed (s : Step written) : Prop :=
  s.test.IsProper ∧ ∀ p ∈ s.predicates, p.WellFormed

/-- At least one step, and well-formed ones. -/
def StepsWellFormed (ss : List (Step written)) : Prop :=
  ss ≠ [] ∧ ∀ s ∈ ss, s.WellFormed

/-- A well-formed step in front of well-formed steps. -/
lemma StepsWellFormed.cons {s : Step written} {ss : List (Step written)} (hs : s.WellFormed)
    (hss : ∀ t ∈ ss, t.WellFormed) : StepsWellFormed (s :: ss) :=
  ⟨List.cons_ne_nil s ss, List.forall_mem_cons.2 ⟨hs, hss⟩⟩

/-- The step of a double slash is well-formed. -/
lemma wellFormed_anywhere : Step.WellFormed (.anywhere) :=
  ⟨trivial, nofun⟩

/-- A path of well-formed steps is well-formed if its start is. -/
lemma wellFormed_path {start : Start written} {steps : List (Step written)}
    (hstart : ∀ e, start = .expr e → e.WellFormed) (hsteps : StepsWellFormed steps) :
    (Expr.path start steps).WellFormed := by
  have htests : ∀ s ∈ steps, s.test.IsProper := fun s hs => (hsteps.2 s hs).1
  refine Expr.wellFormed_iff.2 ⟨?_, hstart, fun s hs => (hsteps.2 s hs).2⟩
  cases start with
  | root => exact htests
  | context => exact ⟨hsteps.1, htests⟩
  | expr e => exact ⟨hsteps.1, htests⟩

/-- Predicates make a filter, and without any the expression stays as it is. -/
lemma wellFormed_filtered {e : Expr written} {ps : List (Expr written)} (he : e.WellFormed)
    (hps : ∀ p ∈ ps, p.WellFormed) : (filtered e ps).WellFormed := by
  cases ps with
  | nil => exact he
  | cons p ps => exact Expr.wellFormed_iff.2 ⟨List.cons_ne_nil p ps, he, hps⟩

/-- Node tests that are read are those of the grammar. -/
lemma readTest?_yields {ts : List Token} (hts : AllProper ts) :
    Yields NodeTest.IsProper (readTest? ts) := by
  unfold readTest?
  split
  · split
    · rename_i type target rest _
      refine .some ?_ hts.tail.tail.tail.tail
      cases type with
      | instruction => exact hts.tail.tail.head
      | comment | text | node => trivial
    · rename_i type rest _
      refine .some ?_ hts.tail.tail.tail
      cases type <;> trivial
    · exact .none
  · exact .some hts.head hts.tail
  · exact .some hts.head hts.tail
  · exact .some trivial hts.tail
  · exact .none

/-- The axis takes tokens off the front. -/
lemma readAxis_allProper {ts : List Token} (hts : AllProper ts) : AllProper (readAxis ts).2 := by
  unfold readAxis
  split
  · exact hts.tail
  · split
    · exact hts.tail.tail
    · exact hts
  · exact hts

mutual

/-- **What is read from tokens of the grammar is well-formed.**

**Proof sketch.** Induction on the depth, for all readers together. The names, literals and digits
in a tree are those of tokens; a filter is built only where there are predicates, one step at least
is read, and a call is read only where no node type stands (`startsPrimary`). -/
theorem readTier_yields : ∀ (depth : Nat) (tier : Tier) {ts : List Token}, AllProper ts →
    Yields Expr.WellFormed (readTier depth tier ts)
  | 0, _, _, _ => by
    rw [readTier]
    exact .none
  | depth + 1, tier, ts, hts => by
    rw [readTier]
    exact (readOperand_yields depth tier hts).bind fun _ _ he hrest =>
      readMore_yields depth tier he hrest

/-- Operands that are read are well-formed. -/
theorem readOperand_yields : ∀ (depth : Nat) (tier : Tier) {ts : List Token}, AllProper ts →
    Yields Expr.WellFormed (readOperand depth tier ts)
  | 0, _, _, _ => by
    rw [readOperand]
    exact .none
  | depth + 1, tier, ts, hts => by
    rw [readOperand]
    split
    · exact readTier_yields depth _ hts
    · exact readUnary_yields depth hts

/-- What is read behind a well-formed operand is well-formed together with it. -/
theorem readMore_yields : ∀ (depth : Nat) (tier : Tier) {left : Expr written} {ts : List Token},
    left.WellFormed → AllProper ts → Yields Expr.WellFormed (readMore depth tier left ts)
  | 0, _, _, _, _, _ => by
    rw [readMore]
    exact .none
  | depth + 1, tier, left, [], hleft, hts => by
    rw [readMore]
    exact .some hleft hts
  | depth + 1, tier, left, t :: ts, hleft, hts => by
    rw [readMore]
    split
    · refine (readOperand_yields depth tier hts.tail).bind fun right rest hright hrest => ?_
      refine readMore_yields depth tier ?_ hrest
      exact Expr.wellFormed_iff.2 ⟨trivial, hleft, hright⟩
    · exact .some hleft hts

/-- Unary expressions that are read are well-formed. -/
theorem readUnary_yields : ∀ (depth : Nat) {ts : List Token}, AllProper ts →
    Yields Expr.WellFormed (readUnary depth ts)
  | 0, _, _ => by
    rw [readUnary]
    exact .none
  | depth + 1, ts, hts => by
    unfold readUnary
    split
    · refine (readUnary_yields depth hts.tail).bind fun e rest he hrest => ?_
      exact .some (Expr.wellFormed_iff.2 ⟨trivial, he⟩) hrest
    · exact (readPath_yields depth hts).bind fun _ _ he hrest => readUnion_yields depth he hrest

/-- What is read behind a well-formed member of a union is well-formed together with it. -/
theorem readUnion_yields : ∀ (depth : Nat) {left : Expr written} {ts : List Token},
    left.WellFormed → AllProper ts → Yields Expr.WellFormed (readUnion depth left ts)
  | 0, _, _, _, _ => by
    rw [readUnion]
    exact .none
  | depth + 1, left, ts, hleft, hts => by
    unfold readUnion
    split
    · refine (readPath_yields depth hts.tail).bind fun right rest hright hrest => ?_
      exact readUnion_yields depth (Expr.wellFormed_iff.2 ⟨trivial, hleft, hright⟩) hrest
    · exact .some hleft hts

/-- Paths that are read are well-formed. -/
theorem readPath_yields : ∀ (depth : Nat) {ts : List Token}, AllProper ts →
    Yields Expr.WellFormed (readPath depth ts)
  | 0, _, _ => by
    rw [readPath]
    exact .none
  | depth + 1, ts, hts => by
    unfold readPath
    split
    · rename_i hstart
      refine (readPrimary_yields depth hts hstart).bind fun primary rest hprimary hrest => ?_
      refine (readPredicates_yields depth hrest).bind fun ps rest hps hrest => ?_
      have hfiltered := wellFormed_filtered hprimary hps
      have hexpr : ∀ e, Start.expr (filtered primary ps) = .expr e → e.WellFormed := by
        rintro _ ⟨⟩
        exact hfiltered
      simp only
      split
      · refine (readSteps_yields depth hrest.tail).bind fun steps rest hsteps hrest => ?_
        exact .some (wellFormed_path hexpr hsteps) hrest
      · refine (readSteps_yields depth hrest.tail).bind fun steps rest hsteps hrest => ?_
        exact .some (wellFormed_path hexpr (.cons wellFormed_anywhere hsteps.2)) hrest
      · exact .some hfiltered hrest
    · split
      · split
        · refine (readSteps_yields depth hts.tail).bind fun steps rest hsteps hrest => ?_
          exact .some (wellFormed_path nofun hsteps) hrest
        · exact .some (Expr.wellFormed_iff.2 ⟨nofun, nofun, nofun⟩) hts.tail
      · refine (readSteps_yields depth hts.tail).bind fun steps rest hsteps hrest => ?_
        exact .some (wellFormed_path nofun (.cons wellFormed_anywhere hsteps.2)) hrest
      · refine (readSteps_yields depth hts).bind fun steps rest hsteps hrest => ?_
        exact .some (wellFormed_path nofun hsteps) hrest

/-- Steps that are read are well-formed, and there is one at least. -/
theorem readSteps_yields : ∀ (depth : Nat) {ts : List Token}, AllProper ts →
    Yields StepsWellFormed (readSteps depth ts)
  | 0, _, _ => by
    rw [readSteps]
    exact .none
  | depth + 1, ts, hts => by
    rw [readSteps]
    refine (readStep_yields depth hts).bind fun s rest hs hrest => ?_
    simp only
    split
    · refine (readSteps_yields depth hrest.tail).bind fun steps rest hsteps hrest => ?_
      exact .some (.cons hs hsteps.2) hrest
    · refine (readSteps_yields depth hrest.tail).bind fun steps rest hsteps hrest => ?_
      exact .some (.cons hs (StepsWellFormed.cons wellFormed_anywhere hsteps.2).2) hrest
    · exact .some (.cons hs nofun) hrest

/-- A step that is read is well-formed. -/
theorem readStep_yields : ∀ (depth : Nat) {ts : List Token}, AllProper ts →
    Yields Step.WellFormed (readStep depth ts)
  | 0, _, _ => by
    rw [readStep]
    exact .none
  | depth + 1, ts, hts => by
    unfold readStep
    split
    · exact .some ⟨trivial, nofun⟩ hts.tail
    · exact .some ⟨trivial, nofun⟩ hts.tail
    · refine (readTest?_yields (readAxis_allProper hts)).bind fun test rest htest hrest => ?_
      refine (readPredicates_yields depth hrest).bind fun ps rest hps hrest => ?_
      exact .some ⟨htest, hps⟩ hrest

/-- Predicates that are read are well-formed. -/
theorem readPredicates_yields : ∀ (depth : Nat) {ts : List Token}, AllProper ts →
    Yields (fun ps => ∀ p ∈ ps, p.WellFormed) (readPredicates depth ts)
  | 0, _, _ => by
    rw [readPredicates]
    exact .none
  | depth + 1, ts, hts => by
    unfold readPredicates
    split
    · refine (readTier_yields depth .disjunction hts.tail).bind fun p rest hp hrest => ?_
      simp only
      split
      · refine (readPredicates_yields depth hrest.tail).bind fun ps rest hps hrest => ?_
        exact .some (List.forall_mem_cons.2 ⟨hp, hps⟩) hrest
      · exact .none
    · exact .some nofun hts

/-- Primary expressions that are read where one starts are well-formed. -/
theorem readPrimary_yields : ∀ (depth : Nat) {ts : List Token}, AllProper ts → startsPrimary ts →
    Yields Expr.WellFormed (readPrimary depth ts)
  | 0, _, _, _ => by
    rw [readPrimary]
    exact .none
  | depth + 1, ts, hts, hstart => by
    unfold readPrimary
    split
    · refine (readTier_yields depth .disjunction hts.tail).bind fun e rest he hrest => ?_
      simp only
      split
      · exact .some he hrest.tail
      · exact .none
    · exact .some (Expr.wellFormed_iff.2 ⟨hts.head, trivial⟩) hts.tail
    · rename_i digits ts
      cases hd : Number.readUnsigned? digits with
      | none => exact .none
      | some d =>
        refine .some (Expr.wellFormed_iff.2 ⟨?_, trivial⟩) hts.tail
        exact ⟨digits, hts.head, d, hd, rfl⟩
    · exact .some (Expr.wellFormed_iff.2 ⟨hts.head, trivial⟩) hts.tail
    · refine .some (Expr.wellFormed_iff.2 ⟨⟨hts.head, ?_⟩, nofun⟩) hts.tail.tail.tail
      simpa [startsPrimary] using hstart
    · refine (readArguments_yields depth hts.tail.tail).bind fun es rest hes hrest => ?_
      refine .some (Expr.wellFormed_iff.2 ⟨⟨hts.head, ?_⟩, hes⟩) hrest
      simpa [startsPrimary] using hstart
    · exact .none

/-- Arguments that are read are well-formed. -/
theorem readArguments_yields : ∀ (depth : Nat) {ts : List Token}, AllProper ts →
    Yields (fun es => ∀ e ∈ es, e.WellFormed) (readArguments depth ts)
  | 0, _, _ => by
    rw [readArguments]
    exact .none
  | depth + 1, ts, hts => by
    rw [readArguments]
    refine (readTier_yields depth .disjunction hts).bind fun e rest he hrest => ?_
    simp only
    split
    · refine (readArguments_yields depth hrest.tail).bind fun es rest hes hrest => ?_
      exact .some (List.forall_mem_cons.2 ⟨he, hes⟩) hrest
    · exact .some (List.forall_mem_singleton.2 he) hrest.tail
    · exact .none

end

/-! ## Parsing -/

/-- **Parsing finds exactly the tree that was spelled, and well-formed trees only.** A well-formed
tree has spellings, and each of them, with any spacing between its tokens, is read as that tree;
whatever text is read, the tree is well-formed.

**Proof sketch.** A well-formed tree has spellings, and they consist of tokens of the grammar
(`Expr.expressible`). Written with any spacing, these tokens are what the text is cut into
(`tokens?_of_mem_spaced`), and the tree is read back from them (`Expr.readsBack`) with a depth in
proportion to their number, which the bound of `parse?` allows. Conversely a text is cut into tokens
of the grammar, and what is read from these is well-formed by induction on the depth
(`readTier_yields`). -/
theorem parse?_spellings :
    (∀ e : Expr written, e.WellFormed → (∃ source : String, source.toList ∈ e.texts) ∧
        ∀ source : String, source.toList ∈ e.texts → parse? source = some e) ∧
      ∀ (source : String) (e : Expr written), parse? source = some e → e.WellFormed := by
  refine ⟨fun e he => ?_, fun source e h => ?_⟩
  · obtain ⟨⟨ts, hts⟩, hproper⟩ := e.expressible he
    refine ⟨?_, ?_⟩
    · obtain ⟨s, hs⟩ := exists_mem_spaced (hproper ts hts)
      exact ⟨String.ofList s, ts, hts, by simpa using hs⟩
    · rintro source ⟨ts, hts, hsource⟩
      have htokens := @tokens?_of_mem_spaced ts (hproper ts hts) [] source.toList nofun hsource
      have hread := (e.readsBack he).readsTier hts (ends_nil 0)
      rw [List.append_nil] at hread
      rw [List.nil_append] at htokens
      have hdepth :
          needed (17 - 2 * Tier.disjunction.rank) ts ≤ depthPerToken * (ts.length + 1) := by
        simp only [needed, depthPerToken]
        omega
      simp only [parse?, htokens, Option.bind_eq_bind, Option.bind_some]
      rw [hread _ hdepth]
      rfl
  · unfold parse? at h
    obtain ⟨ts, htokens, h⟩ := Option.bind_eq_some_iff.1 h
    obtain ⟨⟨e', rest⟩, hread, h⟩ := Option.bind_eq_some_iff.1 h
    obtain ⟨he, -⟩ := readTier_yields _ _ (isProper_of_tokens? htokens) e' rest hread
    split at h
    · rename_i heq
      cases heq
      cases h
      exact he
    · cases h

/-- `or` is read as a name and as an operator, each where it stands, and an abbreviated path is
read as a well-formed tree. -/
theorem parse?_spellings_or :
    parse? "child :: or\tor  \"'\"" = some (.binary .or
      (.path .context [.mk .child (.named ⟨none, "or"⟩) []]) (.literal "'")) ∧
    ∃ e, parse? "//@*" = some e ∧ e.WellFormed := by
  obtain ⟨hforward, hback⟩ := parse?_spellings
  refine ⟨(hforward _ ?_).2 _ ⟨[.name ⟨none, "child"⟩, .symbol .doubleColon, .name ⟨none, "or"⟩,
      .name ⟨none, "or"⟩, .literal "'"], ?_, ?_⟩, ?_⟩
  · have hor : IsNCName "or" := by decide +kernel
    have hquote : IsQuotable "'" := .inl (by decide +kernel)
    simp [Expr.WellFormed, Expr.Everywhere, Start.Everywhere, EverywhereAlong, Step.Everywhere,
      EverywhereIn, Expr.IsProper, NodeTest.IsProper, WrittenName.IsProper, Step.test, hor, hquote]
  · simp [Expr.spellings, operand, Expr.rank, BinaryOp.tier, Tier.rank, BinaryOp.token,
      stepSpellings, separated, Step.spellings, allSpellings, Axis.name, NodeTest.spelling,
      singleton_mul_singleton]
    rfl
  · have htext : "child :: or\tor  \"'\"".toList = "child".toList ++ [' '] ++
        ([':', ':'] ++ [' '] ++ ("or".toList ++ ['\t'] ++
          ("or".toList ++ [' ', ' '] ++ ['"', '\'', '"']))) := by
      decide +kernel
    have hgap : ∀ g ∈ [[' '], ['\t'], [' ', ' ']], g ∈ gaps := by
      intro g hg
      simp only [List.mem_cons, List.not_mem_nil, or_false] at hg
      obtain rfl | rfl | rfl := hg <;> exact ⟨by simp, by simp [Text.isSpacing]⟩
    rw [htext]
    exact mem_spaced_cons rfl (hgap _ (by simp)) <| mem_spaced_cons rfl (hgap _ (by simp)) <|
      mem_spaced_cons rfl (hgap _ (by simp)) <| mem_spaced_cons rfl (hgap _ (by simp))
        ⟨'"', .inl rfl, by decide +kernel, by decide +kernel⟩
  · have htokens : tokens? "//@*".toList =
        some [.symbol .doubleSlash, .symbol .at, .symbol .star] := by
      decide +kernel
    have hparse : parse? "//@*" = some (.path .root [.anywhere, .mk .attribute .any []]) := by
      rw [parse?, htokens]
      rfl
    exact ⟨_, hparse, hback _ _ hparse⟩

end XmlHarvest.Query
