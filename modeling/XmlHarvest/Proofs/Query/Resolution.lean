import Mathlib.Data.List.Forall2
import Mathlib.Logic.Relation
import XmlHarvest.Proofs.Except
import XmlHarvest.Proofs.Query.Spelling
import XmlHarvest.Query.Resolution

/-!
# What is resolved and what is refused

Resolution refuses an expression if something in it, however deep, has no meaning: a variable, a
call that no function answers, a step along the namespace axis, or a qualifier that is not bound.
The fault that is reported is one of those that are there. Everything else is resolved, and the
result is the same expression with each name replaced by what it stands for.

## Main definitions

* `Query.Expr.parts`, `Query.Expr.Contains`: the expressions inside an expression.
* `Query.Expr.HasFault`: the faults of an expression.
* `Query.Expr.StandsFor`: an expression over written names stands for one over resolved names.

## Main results

* `Query.Expr.resolve_ensures`: what resolution gives, and what it reports.
* `Query.Expr.resolve_of_standsFor`: an expression that stands for something is resolved.
* `Query.Expr.StandsFor.not_hasFault`: an expression that stands for something has no fault.
* `Query.resolve_outcome`: resolution refuses the expressions with faults and no others.
-/

namespace XmlHarvest.Query

/-! ## The parts of an expression -/

section Parts

variable {v : Vocabulary}

/-- The expression that a path starts from, if there is one. -/
def Start.parts : Start v → List (Expr v)
  | .root | .context => []
  | .expr e => [e]

/-- The expressions directly inside an expression: operands, arguments, predicates and the start of
a path. -/
def Expr.parts : Expr v → List (Expr v)
  | .literal _ | .number _ | .reference _ => []
  | .call _ arguments => arguments
  | .binary _ left right | .union left right => [left, right]
  | .negate operand => [operand]
  | .filter primary predicates => primary :: predicates
  | .path start steps => start.parts ++ steps.flatMap Step.predicates

/-- An expression contains itself and whatever its parts contain. -/
def Expr.Contains : Expr v → Expr v → Prop :=
  Relation.ReflTransGen fun e part => part ∈ e.parts

/-- A condition holds of the expressions directly inside an expression if it holds of its parts. -/
lemma Expr.inside_iff {p : Expr v → Prop} {e : Expr v} :
    e.Inside p ↔ ∀ part ∈ e.parts, p part := by
  cases e with
  | literal | number | reference => simp [Expr.Inside, Expr.parts]
  | call => rfl
  | binary | negate | union | filter => simp [Expr.Inside, Expr.parts]
  | path start steps =>
    rw [Expr.Inside, Expr.parts, List.forall_mem_append, List.forall_mem_flatMap]
    refine and_congr_left fun _ => ?_
    cases start <;> simp [Start.parts]

end Parts

/-! ## Faults -/

/-- The qualifier in a node test. -/
def NodeTest.qualifier? : NodeTest written → Option String
  | .named name => name.qualifier
  | .inSpace q => some q
  | .any | .node | .text | .comment | .instruction _ => none

/-- Some step in an expression, however deep, has a test with the qualifier. -/
def Expr.Mentions (e : Expr written) (q : String) : Prop :=
  ∃ start steps, e.Contains (.path start steps) ∧ ∃ s ∈ steps, s.test.qualifier? = some q

/-- A function of that name takes that many arguments. Names of functions have no qualifier. -/
def IsCallable (name : WrittenName) (arity : Nat) : Prop :=
  ∃ f : Function, name = ⟨none, f.spell⟩ ∧ f.accepts arity

/-- **The faults of an expression.** Somewhere in it there is a variable, a call that no function
answers, a step along the namespace axis, or a test with a qualifier that is not bound. Each of
these is a fault of its own, and nothing else is one. -/
def Expr.HasFault (c : StaticContext) (e : Expr written) : Error → Prop
  | .undeclaredVariable name => e.Contains (.reference name)
  | .unknownFunction name arity =>
    ∃ arguments, e.Contains (.call name arguments) ∧ arguments.length = arity ∧
      ¬IsCallable name arity
  | .namespaceAxis =>
    ∃ start steps, e.Contains (.path start steps) ∧ ∃ s ∈ steps, s.axis = .namespaces
  | .unboundQualifier q => e.Mentions q ∧ c.space? q = none
  | .malformed | .missingArgument | .notNodes _ => False

/-! ## What names stand for -/

/-- A test over written names stands for one over resolved names: a qualifier stands for the
namespace that is bound to it, and a name without one is in the default namespace, but on the
attribute axis in none. -/
inductive NodeTest.StandsFor (c : StaticContext) (axis : Axis) :
    NodeTest written → NodeTest resolved → Prop
  | qualified {q space : String} (name : String) (h : c.space? q = some space) :
    StandsFor c axis (.named ⟨some q, name⟩) (.named ⟨some space, name⟩)
  | ofAttribute (name : String) (h : axis = .attribute) :
    StandsFor c axis (.named ⟨none, name⟩) (.named ⟨none, name⟩)
  | byDefault (name : String) (h : axis ≠ .attribute) :
    StandsFor c axis (.named ⟨none, name⟩) (.named ⟨c.defaultSpace, name⟩)
  | inSpace {q space : String} (h : c.space? q = some space) :
    StandsFor c axis (.inSpace q) (.inSpace space)
  | any : StandsFor c axis .any .any
  | node : StandsFor c axis .node .node
  | text : StandsFor c axis .text .text
  | comment : StandsFor c axis .comment .comment
  | instruction (target : Option String) :
    StandsFor c axis (.instruction target) (.instruction target)

mutual

/-- An expression over written names stands for one over resolved names of the same shape, with the
same literals, numbers and operators. -/
inductive Expr.StandsFor (c : StaticContext) : Expr written → Expr resolved → Prop
  | literal (text : String) : Expr.StandsFor c (.literal text) (.literal text)
  | number (value : Float) : Expr.StandsFor c (.number value) (.number value)
  | call {f : Function} {es : List (Expr written)} {es' : List (Expr resolved)}
      (hfits : f.accepts es.length) (hes : List.Forall₂ (Expr.StandsFor c) es es') :
    Expr.StandsFor c (.call ⟨none, f.spell⟩ es) (.call f es')
  | binary (op : BinaryOp) {l r : Expr written} {l' r' : Expr resolved}
      (hl : Expr.StandsFor c l l') (hr : Expr.StandsFor c r r') :
    Expr.StandsFor c (.binary op l r) (.binary op l' r')
  | negate {e : Expr written} {e' : Expr resolved} (he : Expr.StandsFor c e e') :
    Expr.StandsFor c (.negate e) (.negate e')
  | union {l r : Expr written} {l' r' : Expr resolved}
      (hl : Expr.StandsFor c l l') (hr : Expr.StandsFor c r r') :
    Expr.StandsFor c (.union l r) (.union l' r')
  | filter {e : Expr written} {e' : Expr resolved} {ps : List (Expr written)}
      {ps' : List (Expr resolved)} (he : Expr.StandsFor c e e')
      (hps : List.Forall₂ (Expr.StandsFor c) ps ps') :
    Expr.StandsFor c (.filter e ps) (.filter e' ps')
  | path {start : Start written} {start' : Start resolved} {ss : List (Step written)}
      {ss' : List (Step resolved)} (hstart : Start.StandsFor c start start')
      (hss : List.Forall₂ (Step.StandsFor c) ss ss') :
    Expr.StandsFor c (.path start ss) (.path start' ss')

/-- The start of a path stands for one of the same kind. -/
inductive Start.StandsFor (c : StaticContext) : Start written → Start resolved → Prop
  | root : Start.StandsFor c .root .root
  | context : Start.StandsFor c .context .context
  | expr {e : Expr written} {e' : Expr resolved} (he : Expr.StandsFor c e e') :
    Start.StandsFor c (.expr e) (.expr e')

/-- A step stands for one along the same axis, which is not that of namespaces. -/
inductive Step.StandsFor (c : StaticContext) : Step written → Step resolved → Prop
  | mk {axis : Axis} {test : NodeTest written} {test' : NodeTest resolved}
      {ps : List (Expr written)} {ps' : List (Expr resolved)} (haxis : axis ≠ .namespaces)
      (htest : test.StandsFor c axis test') (hps : List.Forall₂ (Expr.StandsFor c) ps ps') :
    Step.StandsFor c (.mk axis test ps) (.mk axis test' ps')

end

section Outcome

variable {c : StaticContext}

/-! ## Names -/

/-- A function is found by its own name. -/
lemma ofName?_eq_some_iff {name : String} {f : Function} :
    Function.ofName? name = some f ↔ name = f.spell := by
  constructor
  · intro h
    have hspell := List.find?_some h
    exact (of_decide_eq_true hspell).symm
  · rintro rfl
    cases f <;> decide

/-- A function is found if it is the one that is called and takes the arguments. -/
lemma findFunction_eq_ok_iff {name : WrittenName} {arity : Nat} {f : Function} :
    findFunction name arity = .ok f ↔ name = ⟨none, f.spell⟩ ∧ f.accepts arity := by
  constructor
  · intro h
    unfold findFunction at h
    split at h
    · rename_i g hqualifier hg
      split at h
      · rename_i hfits
        cases h
        refine ⟨?_, hfits⟩
        rw [← ofName?_eq_some_iff.1 hg, ← hqualifier]
      · cases h
    · cases h
  · rintro ⟨rfl, hfits⟩
    simp only [findFunction, ofName?_eq_some_iff.2 rfl, if_pos hfits]

/-- A call is answered by a function, or it is a fault. -/
lemma findFunction_ensures (name : WrittenName) (arity : Nat) :
    Ensures (findFunction name arity) (fun f => name = ⟨none, f.spell⟩ ∧ f.accepts arity)
      fun err => err = .unknownFunction name arity ∧ ¬IsCallable name arity := by
  refine ⟨fun f => findFunction_eq_ok_iff.1, fun err h => ⟨?_, ?_⟩⟩
  · unfold findFunction at h
    split at h
    · split at h
      · cases h
      · cases h
        rfl
    · cases h
      rfl
  · rintro ⟨f, hf⟩
    rw [findFunction_eq_ok_iff.2 hf] at h
    cases h

lemma requireSpace_of_some {q space : String} (h : c.space? q = some space) :
    c.requireSpace q = .ok space := by
  rw [StaticContext.requireSpace, h]

/-- A qualifier has the namespace that is bound to it, or it is a fault. -/
lemma requireSpace_ensures (c : StaticContext) (q : String) :
    Ensures (c.requireSpace q) (fun space => c.space? q = some space)
      fun err => err = .unboundQualifier q ∧ c.space? q = none := by
  cases h : c.space? q with
  | some space =>
    rw [requireSpace_of_some h]
    exact .ok rfl
  | none =>
    rw [StaticContext.requireSpace, h]
    exact .error ⟨rfl, rfl⟩

/-! ## Node tests -/

/-- A node test that stands for another one is resolved to it. -/
lemma NodeTest.resolve_of_standsFor {axis : Axis} {test : NodeTest written}
    {test' : NodeTest resolved} (h : test.StandsFor c axis test') :
    test.resolve c axis = .ok test' := by
  cases h with
  | qualified name h =>
    rw [NodeTest.resolve, StaticContext.testSpace]
    simp only [requireSpace_of_some h]
    rfl
  | ofAttribute name h | byDefault name h =>
    rw [NodeTest.resolve, StaticContext.testSpace]
    simp only [h, if_true, if_false]
    rfl
  | inSpace h =>
    rw [NodeTest.resolve, requireSpace_of_some h]
    rfl
  | any | node | text | comment | instruction => rfl

/-- A node test is resolved to what it stands for, or its qualifier is not bound. -/
lemma NodeTest.resolve_ensures (c : StaticContext) (axis : Axis) (test : NodeTest written) :
    Ensures (test.resolve c axis) (test.StandsFor c axis) fun err =>
      ∃ q, err = .unboundQualifier q ∧ test.qualifier? = some q ∧ c.space? q = none := by
  cases test with
  | named name =>
    obtain ⟨_ | q, name⟩ := name
    · by_cases haxis : axis = .attribute
      · exact .ok (by rw [if_pos haxis]; exact .ofAttribute name haxis)
      · exact .ok (by rw [if_neg haxis]; exact .byDefault name haxis)
    · have hresolve : NodeTest.resolve c axis (.named ⟨some q, name⟩) =
          c.requireSpace q >>= fun space => .ok (.named ⟨some space, name⟩) := by
        show (c.requireSpace q).map some >>= _ = _
        cases c.requireSpace q <;> rfl
      rw [hresolve]
      exact ((requireSpace_ensures c q).mono fun err h => ⟨q, h.1, rfl, h.2⟩).bind
        fun space h => .ok (.qualified name h)
  | inSpace q =>
    exact ((requireSpace_ensures c q).mono fun err h => ⟨q, h.1, rfl, h.2⟩).bind_pure
      fun space h => .inSpace h
  | any => exact .ok .any
  | node => exact .ok .node
  | text => exact .ok .text
  | comment => exact .ok .comment
  | instruction target => exact .ok (.instruction target)

/-- The qualifier in a test that stands for another one is bound. -/
lemma NodeTest.StandsFor.space?_ne {axis : Axis} {test : NodeTest written}
    {test' : NodeTest resolved} (h : test.StandsFor c axis test') {q : String}
    (hq : test.qualifier? = some q) : c.space? q ≠ none := by
  cases h with
  | qualified _ h | inSpace h =>
    cases hq
    simp [h]
  | ofAttribute | byDefault | any | node | text | comment | instruction => cases hq

/-! ## Lists and steps -/

/-- Expressions are resolved one by one. -/
lemma resolveAll_eq_mapM (es : List (Expr written)) :
    resolveAll c es = es.mapM (Expr.resolve c) := by
  induction es with
  | nil =>
    rw [resolveAll]
    rfl
  | cons e es ih => rw [resolveAll, List.mapM_cons, ih]

/-- Steps are resolved one by one. -/
lemma resolveSteps_eq_mapM (ss : List (Step written)) :
    resolveSteps c ss = ss.mapM (Step.resolve c) := by
  induction ss with
  | nil =>
    rw [resolveSteps]
    rfl
  | cons s ss ih => rw [resolveSteps, List.mapM_cons, ih]

/-- What a part mentions the expression mentions. -/
lemma Expr.Mentions.of_part {e part : Expr written} (hpart : part ∈ e.parts) {q : String}
    (h : part.Mentions q) : e.Mentions q := by
  obtain ⟨start, steps, hpath, hmem⟩ := h
  exact ⟨start, steps, .head hpart hpath, hmem⟩

/-- A fault of a part is a fault of the expression. -/
lemma Expr.HasFault.of_part {e part : Expr written} (hpart : part ∈ e.parts) {err : Error}
    (h : part.HasFault c err) : e.HasFault c err := by
  cases err with
  | undeclaredVariable name => exact .head hpart h
  | unknownFunction name arity =>
    obtain ⟨arguments, hcall, hfault⟩ := h
    exact ⟨arguments, .head hpart hcall, hfault⟩
  | namespaceAxis =>
    obtain ⟨start, steps, hpath, hfault⟩ := h
    exact ⟨start, steps, .head hpart hpath, hfault⟩
  | unboundQualifier q => exact ⟨h.1.of_part hpart, h.2⟩
  | malformed | missingArgument | notNodes => exact h

/-- A step is resolved to what it stands for, or there is a fault in its path. -/
lemma Step.resolve_ensures {start : Start written} {steps : List (Step written)}
    {s : Step written} (hs : s ∈ steps)
    (hpredicates : ∀ e ∈ s.predicates, Ensures (e.resolve c) (e.StandsFor c)
      ((Expr.path start steps).HasFault c)) :
    Ensures (s.resolve c) (s.StandsFor c) ((Expr.path start steps).HasFault c) := by
  obtain ⟨axis, test, predicates⟩ := s
  rw [Step.resolve]
  split
  · rename_i haxis
    exact .error ⟨start, steps, .refl, _, hs, haxis⟩
  · rename_i haxis
    rw [resolveAll_eq_mapM]
    refine (Ensures.mapM hpredicates).bind fun predicates' hpredicates' => ?_
    refine ((test.resolve_ensures c axis).mono ?_).bind_pure fun test' htest =>
      .mk haxis htest hpredicates'
    rintro _ ⟨q, rfl, hq, hnone⟩
    exact ⟨⟨start, steps, .refl, _, hs, hq⟩, hnone⟩

/-- A step that stands for another one is resolved to it if that is so of its predicates. -/
lemma Step.resolve_of_standsFor {s : Step written} {s' : Step resolved}
    (hpredicates : ∀ e ∈ s.predicates, ∀ e', e.StandsFor c e' → e.resolve c = .ok e')
    (h : s.StandsFor c s') : s.resolve c = .ok s' := by
  cases h with
  | mk haxis htest hps =>
    rw [Step.resolve, if_neg haxis, resolveAll_eq_mapM, NodeTest.resolve_of_standsFor htest,
      mapM_eq_ok_of_forall₂ hps hpredicates]
    rfl

/-! ## Expressions -/

/-- **An expression is resolved** to what it stands for, or the fault that is reported is one of its
faults.

**Proof sketch.** Induction on the expression. The faults of its parts are faults of its own
(`Expr.HasFault.of_part`), and computations one after the other keep to what is known of each of
them. -/
lemma Expr.resolve_ensures (c : StaticContext) : ∀ e : Expr written,
    Ensures (e.resolve c) (e.StandsFor c) (e.HasFault c) := by
  refine Expr.induction fun e ih => ?_
  have hparts : ∀ part ∈ e.parts, Ensures (part.resolve c) (part.StandsFor c) (e.HasFault c) :=
    fun part hpart => (Expr.inside_iff.1 ih part hpart).mono fun _ h => h.of_part hpart
  cases e with
  | literal text =>
    rw [Expr.resolve]
    exact .ok (.literal text)
  | number value =>
    rw [Expr.resolve]
    exact .ok (.number value)
  | reference name =>
    rw [Expr.resolve]
    exact .error Relation.ReflTransGen.refl
  | call name arguments =>
    rw [Expr.resolve, resolveAll_eq_mapM]
    refine ((findFunction_ensures name arguments.length).mono ?_).bind ?_
    · rintro _ ⟨rfl, hfault⟩
      exact ⟨arguments, .refl, rfl, hfault⟩
    · rintro f ⟨rfl, hfits⟩
      exact (Ensures.mapM hparts).bind_pure fun _ hes => .call hfits hes
  | binary op left right =>
    rw [Expr.resolve]
    refine (hparts left (by simp [Expr.parts])).bind fun _ hl => ?_
    exact (hparts right (by simp [Expr.parts])).bind_pure fun _ hr => .binary op hl hr
  | negate operand =>
    rw [Expr.resolve]
    exact (hparts operand (by simp [Expr.parts])).bind_pure fun _ h => .negate h
  | union left right =>
    rw [Expr.resolve]
    refine (hparts left (by simp [Expr.parts])).bind fun _ hl => ?_
    exact (hparts right (by simp [Expr.parts])).bind_pure fun _ hr => .union hl hr
  | filter primary predicates =>
    obtain ⟨hprimary, hpredicates⟩ := List.forall_mem_cons.1 hparts
    rw [Expr.resolve, resolveAll_eq_mapM]
    refine hprimary.bind fun _ h => ?_
    exact (Ensures.mapM hpredicates).bind_pure fun _ hps => .filter h hps
  | path start steps =>
    obtain ⟨hstarts, hpredicates⟩ := List.forall_mem_append.1 hparts
    have hstart : Ensures (start.resolve c) (start.StandsFor c)
        ((Expr.path start steps).HasFault c) := by
      cases start with
      | root =>
        rw [Start.resolve]
        exact .ok .root
      | context =>
        rw [Start.resolve]
        exact .ok .context
      | expr e =>
        rw [Start.resolve]
        exact (hstarts e (by simp [Start.parts])).bind_pure fun _ h => .expr h
    rw [Expr.resolve, resolveSteps_eq_mapM]
    refine hstart.bind fun _ hstart => ?_
    refine (Ensures.mapM fun s hs => Step.resolve_ensures hs fun e he => ?_).bind_pure
      fun _ hsteps => .path hstart hsteps
    exact hpredicates e (List.mem_flatMap.2 ⟨s, hs, he⟩)

/-- **An expression that stands for something is resolved** to it. -/
lemma Expr.resolve_of_standsFor : ∀ (e : Expr written) (e' : Expr resolved),
    e.StandsFor c e' → e.resolve c = .ok e' := by
  refine Expr.induction fun e ih => ?_
  have hparts := Expr.inside_iff.1 ih
  intro e' h
  cases h with
  | literal | number => rw [Expr.resolve]
  | call hfits hes =>
    rw [Expr.resolve, findFunction_eq_ok_iff.2 ⟨rfl, hfits⟩, resolveAll_eq_mapM,
      mapM_eq_ok_of_forall₂ hes hparts]
    rfl
  | binary op hl hr =>
    rw [Expr.resolve, hparts _ (by simp [Expr.parts]) _ hl, hparts _ (by simp [Expr.parts]) _ hr]
    rfl
  | negate he =>
    rw [Expr.resolve, hparts _ (by simp [Expr.parts]) _ he]
    rfl
  | union hl hr =>
    rw [Expr.resolve, hparts _ (by simp [Expr.parts]) _ hl, hparts _ (by simp [Expr.parts]) _ hr]
    rfl
  | filter he hps =>
    obtain ⟨hprimary, hpredicates⟩ := List.forall_mem_cons.1 hparts
    rw [Expr.resolve, hprimary _ he, resolveAll_eq_mapM, mapM_eq_ok_of_forall₂ hps hpredicates]
    rfl
  | @path start _ steps _ hstart hss =>
    obtain ⟨hstarts, hpredicates⟩ := List.forall_mem_append.1 hparts
    have hsteps : ∀ s ∈ steps, ∀ s', s.StandsFor c s' → s.resolve c = .ok s' := fun s hs s' h =>
      Step.resolve_of_standsFor (fun e he => hpredicates e (List.mem_flatMap.2 ⟨s, hs, he⟩)) h
    rw [Expr.resolve, resolveSteps_eq_mapM, mapM_eq_ok_of_forall₂ hss hsteps]
    cases hstart with
    | root | context =>
      rw [Start.resolve]
      rfl
    | expr he =>
      rw [Start.resolve, hstarts _ (by simp [Start.parts]) _ he]
      rfl

/-! ## Expressions without faults -/

/-- Each member of a list is related to something. -/
lemma exists_of_forall₂ {α β : Type} {r : α → β → Prop} {as : List α} {bs : List β}
    (h : List.Forall₂ r as bs) : ∀ a ∈ as, ∃ b, r a b := by
  induction h with
  | nil => exact fun a ha => absurd ha (by simp)
  | cons hb _ ih => exact List.forall_mem_cons.2 ⟨⟨_, hb⟩, ih⟩

/-- The parts of an expression that stands for something do so as well. -/
lemma Expr.StandsFor.parts {e : Expr written} {e' : Expr resolved} (h : e.StandsFor c e') :
    ∀ part ∈ e.parts, ∃ part', part.StandsFor c part' := by
  cases h with
  | literal | number => simp [Expr.parts]
  | call _ hes => exact exists_of_forall₂ hes
  | binary _ hl hr | union hl hr => simpa [Expr.parts] using ⟨⟨_, hl⟩, _, hr⟩
  | negate he => simpa [Expr.parts] using ⟨_, he⟩
  | filter he hps => exact List.forall_mem_cons.2 ⟨⟨_, he⟩, exists_of_forall₂ hps⟩
  | path hstart hss =>
    refine List.forall_mem_append.2 ⟨?_, fun e he => ?_⟩
    · cases hstart with
      | root | context => simp [Start.parts]
      | expr he => simpa [Start.parts] using ⟨_, he⟩
    · obtain ⟨s, hs, he⟩ := List.mem_flatMap.1 he
      obtain ⟨_, hs'⟩ := exists_of_forall₂ hss s hs
      cases hs' with
      | mk _ _ hps => exact exists_of_forall₂ hps e he

/-- Whatever an expression contains that stands for something does so as well. -/
lemma Expr.StandsFor.of_contains {e part : Expr written} (hpart : e.Contains part) :
    ∀ {e' : Expr resolved}, e.StandsFor c e' → ∃ part', part.StandsFor c part' := by
  induction hpart using Relation.ReflTransGen.head_induction_on with
  | refl => exact fun h => ⟨_, h⟩
  | head hmem _ ih =>
    intro e' h
    obtain ⟨_, h'⟩ := h.parts _ hmem
    exact ih h'

/-- The steps in an expression that stands for something do so as well. -/
lemma Expr.StandsFor.of_mem_steps {e : Expr written} {e' : Expr resolved} (h : e.StandsFor c e')
    {start : Start written} {steps : List (Step written)} (hpath : e.Contains (.path start steps))
    {s : Step written} (hs : s ∈ steps) : ∃ s', s.StandsFor c s' := by
  obtain ⟨_, hpart⟩ := h.of_contains hpath
  cases hpart with
  | path _ hss => exact exists_of_forall₂ hss s hs

/-- **An expression that stands for something has no fault.** -/
lemma Expr.StandsFor.not_hasFault {e : Expr written} {e' : Expr resolved} (h : e.StandsFor c e')
    (err : Error) : ¬e.HasFault c err := by
  intro hfault
  cases err with
  | undeclaredVariable name =>
    obtain ⟨_, hpart⟩ := h.of_contains hfault
    cases hpart
  | unknownFunction name arity =>
    obtain ⟨arguments, hcall, rfl, hnot⟩ := hfault
    obtain ⟨_, hpart⟩ := h.of_contains hcall
    cases hpart with
    | call hfits _ => exact hnot ⟨_, rfl, hfits⟩
  | namespaceAxis =>
    obtain ⟨start, steps, hpath, s, hs, haxis⟩ := hfault
    obtain ⟨_, hs'⟩ := h.of_mem_steps hpath hs
    cases hs' with
    | mk hne _ _ => exact hne haxis
  | unboundQualifier q =>
    obtain ⟨⟨start, steps, hpath, s, hs, hq⟩, hnone⟩ := hfault
    obtain ⟨_, hs'⟩ := h.of_mem_steps hpath hs
    cases hs' with
    | mk _ htest _ => exact htest.space?_ne hq hnone
  | malformed | missingArgument | notNodes => exact hfault

/-- A fault of an expression is static and reported under one of four codes. -/
lemma Expr.HasFault.isStatic {e : Expr written} {err : Error} (h : e.HasFault c err) :
    err.isStatic = true ∧
      err.code ∈ ["err:XPST0008", "err:XPST0017", "err:XPST0003", "err:XPST0081"] := by
  cases err with
  | undeclaredVariable | unknownFunction | namespaceAxis | unboundQualifier =>
    exact ⟨rfl, by simp [Error.code]⟩
  | malformed | missingArgument | notNodes => exact h.elim

end Outcome

/-- **Resolution refuses the expressions with faults and no others.** It fails exactly if there is a
fault somewhere in the expression, and what it reports is one of these faults, as a static one under
its code. Otherwise the result is what the expression stands for: the same expression with each name
replaced by what the static context says.

**Proof sketch.** By induction on the expression, resolution gives something that the expression
stands for or reports one of its faults (`Expr.resolve_ensures`), and it gives whatever the
expression stands for (`Expr.resolve_of_standsFor`). If an expression stands for something, so does
all that it contains, and therefore it has no fault (`Expr.StandsFor.not_hasFault`): where there is
a fault, resolution fails. -/
theorem resolve_outcome (c : StaticContext) (e : Expr written) :
    ((∃ err, e.resolve c = .error err) ↔ ∃ err, e.HasFault c err) ∧
      (∀ err, e.resolve c = .error err → e.HasFault c err ∧ err.isStatic = true ∧
        err.code ∈ ["err:XPST0008", "err:XPST0017", "err:XPST0003", "err:XPST0081"]) ∧
      ∀ e', e.resolve c = .ok e' ↔ e.StandsFor c e' := by
  obtain ⟨hok, herror⟩ := e.resolve_ensures c
  refine ⟨⟨?_, ?_⟩, fun err h => ⟨herror err h, (herror err h).isStatic⟩, fun e' =>
    ⟨hok e', Expr.resolve_of_standsFor e e'⟩⟩
  · rintro ⟨err, h⟩
    exact ⟨err, herror err h⟩
  · rintro ⟨err, hfault⟩
    cases h : e.resolve c with
    | error err' => exact ⟨err', rfl⟩
    | ok e' => exact absurd hfault ((hok e' h).not_hasFault err)

/-- Two faults in a step and its predicate, of which the deeper one is reported, and an expression
of the same shape without them. -/
theorem resolve_outcome_predicate :
    ∃ faulty sound : Expr written, ∃ result : Expr resolved,
      faulty = .path .context [.mk .child (.named (WrittenName.mk (some "p") "a"))
        [.call (WrittenName.mk none "count") [.reference (WrittenName.mk none "x")]]] ∧
      faulty.resolve .initial = .error (.undeclaredVariable ⟨none, "x"⟩) ∧
      faulty.HasFault .initial (.undeclaredVariable ⟨none, "x"⟩) ∧
      sound = .path .context [.mk .child (.named (WrittenName.mk (some "xml") "a"))
        [.call (WrittenName.mk none "count")
          [.path .context [.mk .attribute (.named (WrittenName.mk none "b")) []]]]] ∧
      result = .path .context [.mk .child (.named (ExpandedName.mk (some xmlSpace) "a"))
        [.call Function.count
          [.path .context [.mk .attribute (.named (ExpandedName.mk none "b")) []]]]] ∧
      sound.StandsFor .initial result := by
  refine ⟨_, _, _, rfl, ?_, ?_, rfl, rfl, ?_⟩
  · rfl
  · exact ((resolve_outcome .initial _).2.1 _ rfl).1
  · exact ((resolve_outcome .initial _).2.2 _).1 rfl

end XmlHarvest.Query
