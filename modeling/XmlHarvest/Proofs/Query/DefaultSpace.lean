import XmlHarvest.Proofs.Query.Resolution
import XmlHarvest.Query.Evaluation

/-!
# The default namespace

A default namespace saves writing a qualifier. If a qualifier is bound to it and put in front of
every name that has none, but not on the attribute axis, resolution gives the same expression
without the default as it gave with it, or reports the same fault.

## Main definitions

* `Query.NodeTest.qualify`, `Query.Expr.qualify`: a qualifier in front of the names that have none.

## Main results

* `Query.Expr.resolve_qualified`: resolution of qualified names.
* `Query.resolve_qualify`: a qualifier for the default namespace does what the default does.
-/

namespace XmlHarvest.Query

/-! ## Qualified names -/

/-- A test along an axis with a qualifier in front of the name, if the name has none and the axis is
not that of attributes. -/
def NodeTest.qualify (p : String) (axis : Axis) : NodeTest written → NodeTest written
  | .named ⟨none, name⟩ =>
    if axis = .attribute then .named ⟨none, name⟩ else .named ⟨some p, name⟩
  | test => test

mutual

/-- An expression with a qualifier in front of the names in all its tests that have none, but not on
the attribute axis. -/
def Expr.qualify (p : String) : Expr written → Expr written
  | .literal text => .literal text
  | .number value => .number value
  | .reference name => .reference name
  | .call f arguments => .call f (qualifyAll p arguments)
  | .binary op left right => .binary op (left.qualify p) (right.qualify p)
  | .negate operand => .negate (operand.qualify p)
  | .union left right => .union (left.qualify p) (right.qualify p)
  | .filter primary predicates => .filter (primary.qualify p) (qualifyAll p predicates)
  | .path start steps => .path (start.qualify p) (qualifySteps p steps)

/-- Expressions with a qualifier in front of their names. -/
def qualifyAll (p : String) : List (Expr written) → List (Expr written)
  | [] => []
  | e :: es => e.qualify p :: qualifyAll p es

/-- The start of a path with a qualifier in front of its names. -/
def Start.qualify (p : String) : Start written → Start written
  | .root => .root
  | .context => .context
  | .expr e => .expr (e.qualify p)

/-- A step with a qualifier in front of the name in its test and of those in its predicates. -/
def Step.qualify (p : String) : Step written → Step written
  | .mk axis test predicates => .mk axis (test.qualify p axis) (qualifyAll p predicates)

/-- Steps with a qualifier in front of their names. -/
def qualifySteps (p : String) : List (Step written) → List (Step written)
  | [] => []
  | s :: ss => s.qualify p :: qualifySteps p ss

end

lemma length_qualifyAll (p : String) (es : List (Expr written)) :
    (qualifyAll p es).length = es.length := by
  induction es with
  | nil => rfl
  | cons e es ih => rw [qualifyAll, List.length_cons, List.length_cons, ih]

/-! ## Resolution of qualified names -/

section Resolution

variable {c c' : StaticContext} {p d : String}

/-- Contexts that agree on a qualifier give it the same namespace. -/
lemma requireSpace_congr {q : String} (h : c'.space? q = c.space? q) :
    c'.requireSpace q = c.requireSpace q := by
  rw [StaticContext.requireSpace, StaticContext.requireSpace, h]

/-- A qualifier that is bound last has the namespace it was given; the others keep theirs. -/
@[simp] lemma StaticContext.space?_withSpace (hp : p ≠ "xml") (q : String) :
    (c.withSpace p d).space? q = if q = p then some d else c.space? q := by
  rw [StaticContext.withSpace, if_neg hp, StaticContext.space?, OrderedMap.insert,
    OrderedMap.get?_alter]
  rfl

/-- On the attribute axis neither the qualifier nor the default matters to a name that has none. -/
lemma NodeTest.resolve_attribute (test : NodeTest written)
    (hagree : ∀ q, test.qualifier? = some q → c'.space? q = c.space? q) :
    test.resolve c' .attribute = test.resolve c .attribute := by
  cases test with
  | named name =>
    obtain ⟨_ | q, name⟩ := name
    · rfl
    · rw [NodeTest.resolve, NodeTest.resolve, StaticContext.testSpace, StaticContext.testSpace]
      simp only [requireSpace_congr (hagree q rfl)]
  | inSpace q => rw [NodeTest.resolve, NodeTest.resolve, requireSpace_congr (hagree q rfl)]
  | any | node | text | comment | instruction => rfl

/-- **A qualified test** is resolved to what the test is resolved to by default. -/
lemma NodeTest.resolve_qualified (hd : c.defaultSpace = some d) (hp : c'.space? p = some d)
    (test : NodeTest written) (axis : Axis)
    (hagree : ∀ q, test.qualifier? = some q → c'.space? q = c.space? q) :
    (test.qualify p axis).resolve c' axis = test.resolve c axis := by
  cases test with
  | named name =>
    obtain ⟨_ | q, name⟩ := name
    · rw [NodeTest.qualify]
      split
      · rename_i haxis
        rw [haxis]
        exact NodeTest.resolve_attribute _ hagree
      · rename_i haxis
        rw [NodeTest.resolve_of_standsFor (.qualified name hp),
          NodeTest.resolve_of_standsFor (.byDefault name haxis), hd]
    · rw [NodeTest.qualify, NodeTest.resolve, NodeTest.resolve, StaticContext.testSpace,
        StaticContext.testSpace]
      · simp only [requireSpace_congr (hagree q rfl)]
      · simp
  | inSpace q =>
    rw [NodeTest.qualify, NodeTest.resolve, NodeTest.resolve, requireSpace_congr (hagree q rfl)]
    simp
  | any | node | text | comment | instruction => rfl

/-- Expressions that are resolved like their qualified forms, in a row. -/
lemma resolveAll_qualifyAll {es : List (Expr written)}
    (h : ∀ e ∈ es, (e.qualify p).resolve c' = e.resolve c) :
    resolveAll c' (qualifyAll p es) = resolveAll c es := by
  induction es with
  | nil => rw [qualifyAll, resolveAll, resolveAll]
  | cons e es ih =>
    obtain ⟨he, hes⟩ := List.forall_mem_cons.1 h
    rw [qualifyAll, resolveAll, resolveAll, he, ih hes]

/-- Steps that are resolved like their qualified forms, in a row. -/
lemma resolveSteps_qualifySteps {ss : List (Step written)}
    (h : ∀ s ∈ ss, (s.qualify p).resolve c' = s.resolve c) :
    resolveSteps c' (qualifySteps p ss) = resolveSteps c ss := by
  induction ss with
  | nil => rw [qualifySteps, resolveSteps, resolveSteps]
  | cons s ss ih =>
    obtain ⟨hs, hss⟩ := List.forall_mem_cons.1 h
    rw [qualifySteps, resolveSteps, resolveSteps, hs, ih hss]

/-- A step is resolved like its qualified form if its predicates are. -/
lemma Step.resolve_qualified (hd : c.defaultSpace = some d) (hp : c'.space? p = some d)
    (s : Step written) (hagree : ∀ q, s.test.qualifier? = some q → c'.space? q = c.space? q)
    (hpredicates : ∀ e ∈ s.predicates, (e.qualify p).resolve c' = e.resolve c) :
    (s.qualify p).resolve c' = s.resolve c := by
  obtain ⟨axis, test, predicates⟩ := s
  have hall : resolveAll c' (qualifyAll p predicates) = resolveAll c predicates :=
    resolveAll_qualifyAll hpredicates
  rw [Step.qualify, Step.resolve, Step.resolve, hall, test.resolve_qualified hd hp axis hagree]

/-- **Resolution of qualified names.** The context in which the names are qualified gives the
qualifier the default namespace of the other one, and agrees with it on the qualifiers that the
expression mentions. Its own default does not matter, since no name is left that would need one.

**Proof sketch.** Induction on the expression; what its parts mention it mentions itself. -/
lemma Expr.resolve_qualified (hd : c.defaultSpace = some d) (hp : c'.space? p = some d) :
    ∀ e : Expr written, (∀ q, e.Mentions q → c'.space? q = c.space? q) →
      (e.qualify p).resolve c' = e.resolve c := by
  refine Expr.induction fun e ih hagree => ?_
  have hparts : ∀ part ∈ e.parts, (part.qualify p).resolve c' = part.resolve c :=
    fun part hpart => Expr.inside_iff.1 ih part hpart fun q hq =>
      hagree q (Expr.Mentions.of_part hpart hq)
  cases e with
  | literal | number | reference => rw [Expr.qualify, Expr.resolve, Expr.resolve]
  | call f arguments =>
    have harguments : resolveAll c' (qualifyAll p arguments) = resolveAll c arguments :=
      resolveAll_qualifyAll hparts
    rw [Expr.qualify, Expr.resolve, Expr.resolve, length_qualifyAll, harguments]
  | binary op left right =>
    rw [Expr.qualify, Expr.resolve, Expr.resolve, hparts left (by simp [Expr.parts]),
      hparts right (by simp [Expr.parts])]
  | negate operand =>
    rw [Expr.qualify, Expr.resolve, Expr.resolve, hparts operand (by simp [Expr.parts])]
  | union left right =>
    rw [Expr.qualify, Expr.resolve, Expr.resolve, hparts left (by simp [Expr.parts]),
      hparts right (by simp [Expr.parts])]
  | filter primary predicates =>
    obtain ⟨hprimary, hpredicates⟩ := List.forall_mem_cons.1 hparts
    rw [Expr.qualify, Expr.resolve, Expr.resolve, hprimary, resolveAll_qualifyAll hpredicates]
  | path start steps =>
    obtain ⟨hstarts, hpredicates⟩ := List.forall_mem_append.1 hparts
    have hstart : (start.qualify p).resolve c' = start.resolve c := by
      cases start with
      | root | context => rw [Start.qualify, Start.resolve, Start.resolve]
      | expr e =>
        rw [Start.qualify, Start.resolve, Start.resolve, hstarts e (by simp [Start.parts])]
    have hsteps : ∀ s ∈ steps, (s.qualify p).resolve c' = s.resolve c := fun s hs =>
      s.resolve_qualified hd hp (fun q hq => hagree q ⟨start, steps, .refl, s, hs, hq⟩)
        fun e he => hpredicates e (List.mem_flatMap.2 ⟨s, hs, he⟩)
    rw [Expr.qualify, Expr.resolve, Expr.resolve, hstart, resolveSteps_qualifySteps hsteps]

end Resolution

/-- **A qualifier for the default namespace does what the default does.** Let `d` be the default
namespace of a context, and let a qualifier that an expression does not mention be bound to `d`, in
that context or in addition. Without the default, the expression with the qualifier in front of its
names is resolved to what the expression is resolved to with the default, or the same fault is
reported; so both have the same value in every document and every focus. Tests of attributes stay as
they are, and the default does not matter to them.

**Proof sketch.** By induction on the expression, the qualified one is resolved to the same
(`Expr.resolve_qualified`). A name that has got the qualifier is resolved to the namespace of the
qualifier, which is the default that the name had before; the other qualifiers in the expression are
bound as before, since the new one is none of them. The values agree because they are those of the
resolved expression. -/
theorem resolve_qualify {c c' : StaticContext} {p d : String} {e : Expr written}
    (hd : c.defaultSpace = some d) (hp : c'.space? p = some d)
    (hother : ∀ q, q ≠ p → c'.space? q = c.space? q) (hfresh : ¬e.Mentions p) :
    (e.qualify p).resolve (c'.withDefault none) = e.resolve c ∧
      (∀ (doc : Document) (focus : Focus),
        ((e.qualify p).resolve (c'.withDefault none) >>= fun q => q.evaluate doc focus) =
          e.resolve c >>= fun q => q.evaluate doc focus) ∧
      ∀ test : NodeTest written, test.qualify p .attribute = test ∧ ∀ space : Option String,
        test.resolve (c.withDefault space) .attribute = test.resolve c .attribute := by
  have hresolve : (e.qualify p).resolve (c'.withDefault none) = e.resolve c := by
    refine Expr.resolve_qualified hd (show (c'.withDefault none).space? p = some d from hp) e
      fun q hq => hother q ?_
    rintro rfl
    exact hfresh hq
  refine ⟨hresolve, fun doc focus => by rw [hresolve], fun test => ⟨?_, fun space => ?_⟩⟩
  · cases test with
    | named name =>
      obtain ⟨_ | q, name⟩ := name
      · rw [NodeTest.qualify, if_pos rfl]
      · rfl
    | inSpace | any | node | text | comment | instruction => rfl
  · exact test.resolve_attribute fun _ _ => rfl

/-- A name in a path, one in the predicate of its step and an attribute behind that. -/
theorem resolve_qualify_predicate :
    ∃ e e' : Expr written,
      e = .path .root [.mk .child (.named (WrittenName.mk none "a"))
        [.path .context [.mk .child (.named (WrittenName.mk none "b")) [],
          .mk .attribute (.named (WrittenName.mk none "c")) []]]] ∧
      e' = .path .root [.mk .child (.named (WrittenName.mk (some "p") "a"))
        [.path .context [.mk .child (.named (WrittenName.mk (some "p") "b")) [],
          .mk .attribute (.named (WrittenName.mk none "c")) []]]] ∧
      ∃ result, e.resolve (StaticContext.initial.withDefault (some "urn:x")) = .ok result ∧
        e'.resolve (StaticContext.initial.withSpace "p" "urn:x") = .ok result := by
  let c := StaticContext.initial.withDefault (some "urn:x")
  let e : Expr written := .path .root [.mk .child (.named (WrittenName.mk none "a"))
    [.path .context [.mk .child (.named (WrittenName.mk none "b")) [],
      .mk .attribute (.named (WrittenName.mk none "c")) []]]]
  refine ⟨e, e.qualify "p", rfl, rfl, _, rfl, ?_⟩
  have hsound : e.resolve c = .ok _ := rfl
  -- A qualifier that is not bound would be a fault if it were mentioned.
  have hfresh : ¬e.Mentions "p" := fun h =>
    ((e.resolve_ensures c).1 _ hsound).not_hasFault (.unboundQualifier "p") ⟨h, rfl⟩
  have hspace : (c.withSpace "p" "urn:x").space? "p" = some "urn:x" := by simp
  have hother : ∀ q, q ≠ "p" → (c.withSpace "p" "urn:x").space? q = c.space? q := by
    intro q hq
    simp [hq]
  exact (resolve_qualify rfl hspace hother hfresh).1

end XmlHarvest.Query
