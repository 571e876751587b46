import XmlHarvest.Proofs.Query.Condition
import XmlHarvest.Proofs.Query.Distribution

/-!
# The abbreviation `//`

Between two steps, `//` stands for a step to a node and everything inside it, and the step behind it
goes on from each of these nodes. A step to the children of all these nodes finds the descendants,
but it counts the children of every node anew. Conditions do not count, and with them the two steps
are one.

## Main definitions

* `Query.IsCandidate`: the nodes that a step asks its predicates about.

## Main results

* `Document.mem_descendant_iff_child`: the descendants are the children of a node and of its
  descendants.
* `Query.isUnionOf_conditions_iff`: a step with conditions asks one question of each node it leads
  to.
* `Query.doubleSlash_collapses`: `//` and a child step are one descendant step.
-/

namespace XmlHarvest

/-- The descendants of a node are its children and the children of its descendants: the last link
from the node to a descendant leads to a child. -/
lemma Document.mem_descendant_iff_child {d : Document} {i j : Nat} :
    j ∈ d.axis .descendant i ↔ ∃ k ∈ d.axis .descendantOrSelf i, j ∈ d.axis .child k := by
  simp only [axis, List.exists_mem_cons_iff, mem_descendants_iff, mem_children_iff]
  constructor
  · rintro ⟨hij, hj⟩
    obtain ⟨p, hip, hp⟩ := Relation.TransGen.tail'_iff.1 hij
    rcases Relation.reflTransGen_iff_eq_or_transGen.1 hip with rfl | hip
    · exact .inl ⟨hp, hj⟩
    · exact .inr ⟨p, ⟨hip, (encloses_of_parent hp).kind_ne_attribute⟩, hp, hj⟩
  · rintro (⟨hi, hj⟩ | ⟨p, ⟨hip, -⟩, hp, hj⟩)
    · exact ⟨encloses_of_parent hi, hj⟩
    · exact ⟨hip.tail hp, hj⟩

namespace Query

variable {d : Document}

/-! ## Steps with conditions -/

/-- An axis leads to the node from one of the nodes `is`, and it passes the test. -/
def IsCandidate (d : Document) (axis : Axis) (test : NodeTest resolved) (is : List NodeId)
    (j : NodeId) : Prop :=
  (∃ i ∈ is, j ∈ d.axis axis i) ∧ passes d axis j test = true

/-- A node test asks for an element on all axes but the attribute axis. -/
lemma passes_congr {a b : Axis} (ha : a ≠ .attribute) (hb : b ≠ .attribute) (i : NodeId)
    (test : NodeTest resolved) : passes d a i test = passes d b i test := by
  cases test <;> simp only [passes, passes.isPrincipal, if_neg ha, if_neg hb]

variable {axis : Axis} {test : NodeTest resolved} {ps : List (Expr resolved)}

/-- A step with conditions selects the candidates that meet them. -/
lemma select_eq_ok_iff (hps : ∀ p ∈ ps, p.IsCondition d) {i : NodeId} {part : List NodeId} :
    (Step.mk axis test ps).select d i = .ok part ↔
      (∀ j, IsCandidate d axis test [i] j → ∃ b, meets d j ps = .ok b) ∧
        part = ((d.axis axis i).filter fun j => passes d axis j test).filter
          fun j => isYes (meets d j ps) := by
  rw [Step.select, keepAll_eq_ok_iff hps]
  simp only [List.mem_filter, IsCandidate, List.mem_singleton, exists_eq_left]

/-- A step with conditions fails from none of the nodes if the conditions fail at no candidate. -/
lemma exists_select_iff (hps : ∀ p ∈ ps, p.IsCondition d) {is : List NodeId} :
    (∀ i ∈ is, ∃ part, (Step.mk axis test ps).select d i = .ok part) ↔
      ∀ j, IsCandidate d axis test is j → ∃ b, meets d j ps = .ok b := by
  simp only [select_eq_ok_iff hps, exists_and_left, exists_eq, and_true]
  constructor
  · rintro h j ⟨⟨i, hi, hj⟩, hpass⟩
    exact h i hi j ⟨⟨i, List.mem_singleton_self i, hj⟩, hpass⟩
  · rintro h i hi j ⟨⟨_, hmem, hj⟩, hpass⟩
    obtain rfl := List.mem_singleton.1 hmem
    exact h j ⟨⟨_, hi, hj⟩, hpass⟩

/-- What a step with conditions finds, where it does not fail. -/
lemma finds_select_iff (hps : ∀ p ∈ ps, p.IsCondition d) {is : List NodeId}
    (hselect : ∀ i ∈ is, ∃ part, (Step.mk axis test ps).select d i = .ok part) (j : NodeId) :
    (∃ i ∈ is, Finds (fun i => (Step.mk axis test ps).select d i) i j) ↔
      IsCandidate d axis test is j ∧ isYes (meets d j ps) = true := by
  constructor
  · rintro ⟨i, hi, part, hpart, hj⟩
    obtain ⟨-, rfl⟩ := (select_eq_ok_iff hps).1 hpart
    obtain ⟨hj, hyes⟩ := List.mem_filter.1 hj
    obtain ⟨hj, hpass⟩ := List.mem_filter.1 hj
    exact ⟨⟨⟨i, hi, hj⟩, hpass⟩, hyes⟩
  · rintro ⟨⟨⟨i, hi, hj⟩, hpass⟩, hyes⟩
    obtain ⟨part, hpart⟩ := hselect i hi
    obtain ⟨-, rfl⟩ := (select_eq_ok_iff hps).1 hpart
    exact ⟨i, hi, _, hpart, List.mem_filter.2 ⟨List.mem_filter.2 ⟨hj, hpass⟩, hyes⟩⟩

/-- **A step with conditions** from many nodes asks one question of each candidate, from wherever
the axis leads there. -/
lemma isUnionOf_conditions_iff (hps : ∀ p ∈ ps, p.IsCondition d) {is js : List NodeId} :
    (IsUnionOf js is fun i => (Step.mk axis test ps).select d i) ↔
      (∀ j, IsCandidate d axis test is j → ∃ b, meets d j ps = .ok b) ∧ js.Pairwise (· < ·) ∧
        ∀ j, j ∈ js ↔ IsCandidate d axis test is j ∧ isYes (meets d j ps) = true := by
  constructor
  · intro h
    exact ⟨(exists_select_iff hps).1 h.succeed, h.sorted,
      fun j => (h.mem_iff j).trans (finds_select_iff hps h.succeed j)⟩
  · rintro ⟨hmeets, hsorted, hmem⟩
    have hselect := (exists_select_iff hps).2 hmeets
    exact ⟨hselect, hsorted, fun j => (hmem j).trans (finds_select_iff hps hselect j).symm⟩

/-- Steps with the same conditions do the same where they have the same candidates. -/
lemma isUnionOf_conditions_congr (hps : ∀ p ∈ ps, p.IsCondition d) {axis' : Axis}
    {test' : NodeTest resolved} {is is' js : List NodeId}
    (h : ∀ j, IsCandidate d axis test is j ↔ IsCandidate d axis' test' is' j) :
    (IsUnionOf js is fun i => (Step.mk axis test ps).select d i) ↔
      IsUnionOf js is' fun i => (Step.mk axis' test' ps).select d i := by
  simp only [isUnionOf_conditions_iff hps, h]

/-! ## Two steps and one -/

/-- The candidates of a child step behind `//` are those of a descendant step. -/
lemma isCandidate_child_iff {i j : NodeId} :
    IsCandidate d .child test (d.axis .descendantOrSelf i) j ↔
      IsCandidate d .descendant test [i] j := by
  have hpass : passes d .child j test = passes d .descendant j test :=
    passes_congr (by decide) (by decide) j test
  simp only [IsCandidate, hpass, List.mem_singleton, exists_eq_left,
    Document.mem_descendant_iff_child]

/-- `//` from a node leads to the node and its descendants. -/
lemma follow_anywhere_eq_ok_iff {ss : List (Step resolved)} {i : NodeId} {js : List NodeId} :
    follow d (.anywhere :: ss) [i] = .ok js ↔
      follow d ss (d.axis .descendantOrSelf i) = .ok js := by
  have hselect : Step.select d i .anywhere = .ok (d.axis .descendantOrSelf i) := by
    rw [Step.anywhere, Step.select, keepAll]
    exact congrArg _ (List.filter_eq_self.2 fun _ _ => rfl)
  have hsorted : (d.axis .descendantOrSelf i).Pairwise (· < ·) := Document.axis_sorted rfl i
  simp only [follow_cons_singleton_eq_ok_iff, hselect, Except.ok.injEq, exists_eq_left',
    inOrder_eq_self hsorted]

/-- **`//` and a child step are one descendant step** if the predicates are conditions: from every
node of every document both select the same nodes in the same order, or both fail. They select the
descendants that pass the test and meet the conditions, and fail if the conditions fail at one that
passes.

**Proof sketch.** A step with conditions asks one question of each of its candidates
(`isUnionOf_conditions_iff`), so two steps with the same conditions and candidates do the same. The
candidates of a child step behind `//` are those of the descendant step (`isCandidate_child_iff`),
since the last link from a node to a descendant leads to a child. -/
theorem doubleSlash_collapses (d : Document) (focus : Focus) (test : NodeTest resolved)
    {ps : List (Expr resolved)} (hps : ∀ p ∈ ps, p.IsCondition d) :
    ((Expr.path .context [.anywhere, .mk .child test ps]).evaluate d focus).toOption =
      ((Expr.path .context [.mk .descendant test ps]).evaluate d focus).toOption ∧
      ∀ js, (Expr.path .context [.mk .descendant test ps]).evaluate d focus = .ok (.nodes js) ↔
        (∀ j, IsCandidate d .descendant test [focus.node] j → ∃ b, meets d j ps = .ok b) ∧
          js.Pairwise (· < ·) ∧ ∀ j, j ∈ js ↔
            IsCandidate d .descendant test [focus.node] j ∧ isYes (meets d j ps) = true := by
  have hsorted : (d.axis .descendantOrSelf focus.node).Pairwise (· < ·) :=
    Document.axis_sorted rfl _
  have hone : ∀ js, follow d [.mk .descendant test ps] [focus.node] = .ok js ↔
      IsUnionOf js [focus.node] fun i => (Step.mk .descendant test ps).select d i := fun js => by
    rw [follow_eq_ok_iff (List.pairwise_singleton _ _), isUnionOf_step_iff]
  constructor
  · refine toOption_eq_of_ok_iff fun v => ?_
    rw [evaluate_path_eq_ok_iff, evaluate_path_eq_ok_iff]
    refine exists_congr fun js => and_congr_right fun _ => ?_
    rw [evaluateNodes_context, evaluateNodes_context, follow_anywhere_eq_ok_iff,
      follow_eq_ok_iff hsorted, isUnionOf_step_iff, hone]
    exact isUnionOf_conditions_congr hps fun j => isCandidate_child_iff
  · intro js
    rw [← evaluateNodes_eq_ok_iff, evaluateNodes_context, hone, isUnionOf_conditions_iff hps]

/-- The elements with a sibling behind them. The child step finds the `b` inside the `a` after the
`d` behind it, since it goes on from their parents. -/
theorem doubleSlash_collapses_siblings : ∃ (d : Document) (p : Expr resolved),
    Document.parse "<r><a><b/><c/></a><d/><e/></r>" = .ok d ∧
      p = .path .context [.mk .followingSibling .any [.call Function.last []]] ∧ p.IsCondition d ∧
      (Expr.path .context [.anywhere, .mk .child .any [p]]).evaluate d ⟨0, 1, 1⟩ =
        .ok (.nodes [2, 3, 5]) ∧
      (Expr.path .context [.mk .descendant .any [p]]).evaluate d ⟨0, 1, 1⟩ =
        .ok (.nodes [2, 3, 5]) := by
  let p : Expr resolved := .path .context [.mk .followingSibling .any [.call Function.last []]]
  have h : ((Document.parse "<r><a><b/><c/></a><d/><e/></r>").toOption.bind fun d =>
      ((Expr.path .context [.mk .descendant .any [p]]).evaluateNodes d ⟨0, 1, 1⟩).toOption) =
        some [2, 3, 5] := by decide +kernel
  obtain ⟨d, hd, h⟩ := Option.bind_eq_some_iff.1 h
  have hone := evaluateNodes_eq_ok_iff.1 (toOption_eq_some_iff.1 h)
  have hp : p.IsCondition d := .of_kind (by simp [p, Expr.kind])
    (Expr.forall_shares_iff.2 ⟨not_false, by simp [p, Expr.ownParts, Start.parts]⟩)
  have hps : ∀ e ∈ [p], e.IsCondition d := by simpa using hp
  obtain ⟨hcollapse, -⟩ := doubleSlash_collapses d ⟨0, 1, 1⟩ .any hps
  rw [hone] at hcollapse
  exact ⟨d, p, toOption_eq_some_iff.1 hd, rfl, hp, toOption_eq_some_iff.1 hcollapse, hone⟩

end Query

end XmlHarvest
