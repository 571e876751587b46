import Mathlib.Data.String.Basic
import Mathlib.Tactic.FinCases
import XmlHarvest.Binding.Basic
import XmlHarvest.Proofs.Except
import XmlHarvest.Proofs.Extraction.Faults
import XmlHarvest.Proofs.Template.Balance
import XmlHarvest.Proofs.Template.Names
import XmlHarvest.Proofs.Text.Parts

/-!
# Declarations that are accepted

A declaration is built into a binding exactly if it is valid, and what validity asks for is said
here without the order in which it is checked. Names that a template uses and no variable has are
reported all together when they are the only fault.

A binding that has been built finds the right operation for its shape. Whatever the document and its
queries do, the value that comes out has that shape, and what may go wrong is a fault of a query,
never one of the declaration.

## Main definitions

* `Binding.Declaration.IsNamed`: the field has a name.
* `Binding.Declaration.GivesExpressions`, `Binding.Declaration.GivesTemplate`: the two ways in which
  a declaration may say where its value comes from.
* `Binding.Declaration.Declares`: the variables cover the placeholders of a template.
* `Binding.Declaration.IsValid`: what a declaration must be like.
* `Extraction.Error.IsDeclared`: faults of declarations and templates.
* `Extraction.Yields`: a computation that returns values with a property and fails with no such
  fault.

## Main results

* `Binding.variableFault?_eq_none_iff`: which lists of variables have no fault.
* `Binding.mem_undeclared_iff`, `Binding.undeclared_sorted`: the names that are reported.
* `Binding.Declaration.build_of_givesExpressions`, `Binding.Declaration.build_of_givesTemplate`:
  what comes of a declaration that says where its value comes from.
* `Binding.resolve_yields`: the values of a binding.
* `Binding.build_iff_isValid`: which declarations are accepted, and what becomes of them.
-/

namespace XmlHarvest

open Extraction (Reader Variable Cache)

namespace Binding

/-! ## Variables -/

/-- A list of variables has no fault if each has expressions and no name occurs twice.

**Proof sketch.** Induction on the list for all names before it, which are not to occur in it. -/
lemma variableFault?_eq_none_iff {field : String} {declared : List String} {vs : List Variable} :
    variableFault? field declared vs = none ↔
      (∀ v ∈ vs, v.expressions ≠ []) ∧ (vs.map Variable.name).Nodup ∧
        ∀ v ∈ vs, v.name ∉ declared := by
  induction vs generalizing declared with
  | nil => simp [variableFault?]
  | cons v vs ih =>
    rw [variableFault?]
    by_cases hexpressions : v.expressions = []
    · simp [hexpressions]
    · by_cases hname : v.name ∈ declared
      · simp [hexpressions, hname]
      · rw [if_neg (by simpa using hexpressions), if_neg hname, ih, List.map_cons, List.nodup_cons,
          List.forall_mem_cons, List.forall_mem_cons]
        constructor
        · rintro ⟨hall, hnodup, hnew⟩
          simp only [List.mem_cons, not_or] at hnew
          refine ⟨⟨hexpressions, hall⟩, ⟨fun hmem => ?_, hnodup⟩, hname, fun w hw => (hnew w hw).2⟩
          obtain ⟨w, hw, heq⟩ := List.mem_map.1 hmem
          exact (hnew w hw).1 heq
        · rintro ⟨⟨-, hall⟩, ⟨hfirst, hnodup⟩, -, hnew⟩
          refine ⟨hall, hnodup, fun w hw hmem => ?_⟩
          rcases List.mem_cons.1 hmem with heq | hmem
          · exact hfirst (heq ▸ List.mem_map_of_mem hw)
          · exact hnew w hw hmem

/-- The names that are reported are those of placeholders that no variable has. -/
lemma mem_undeclared_iff {t : Template} {vs : List Variable} {name : String} :
    name ∈ undeclared t vs ↔ name ∈ t.phrase.names ∧ name ∉ vs.map Variable.name := by
  rw [undeclared, List.mem_mergeSort, List.mem_filter, Template.mem_names_iff, decide_eq_true_iff]

/-- Each name is reported once, in order of code points. -/
lemma undeclared_sorted (t : Template) (vs : List Variable) :
    (undeclared t vs).Pairwise (· < ·) := by
  have hsorted : (undeclared t vs).Pairwise fun a b => decide (a ≤ b) = true :=
    List.pairwise_mergeSort (by simpa using fun a b c => le_trans) (by simpa using le_total) _
  have hnodup : (undeclared t vs).Nodup := by
    rw [undeclared, (List.mergeSort_perm _ _).nodup_iff]
    exact t.nodup_names.filter _
  refine (hsorted.and hnodup).imp fun {a b} h => ?_
  exact lt_of_le_of_ne (of_decide_eq_true h.1) h.2

/-! ## Declarations -/

namespace Declaration

variable {d : Declaration} {source : String}

/-- The name of the field has a character that is not blank. -/
def IsNamed (d : Declaration) : Prop :=
  ∃ c ∈ d.field.toList, Text.isBlank c = false

/-- Expressions stand alone, and there are some. -/
def GivesExpressions (d : Declaration) (list : List String) : Prop :=
  d.expressions = some list ∧ list ≠ [] ∧ d.template = none ∧ d.vars = []

/-- A template stands without expressions beside it, and there is nothing wrong with it, with the
shape of its values or with its variables, taken by themselves. -/
structure GivesTemplate (d : Declaration) (source : String) : Prop where
  alone : d.expressions = none
  given : d.template = some source
  shape : d.cardinality = .single ∨ d.cardinality = .localeMap
  balanced : Template.IsBalanced source.toList
  located : ∀ v ∈ d.vars, v.expressions ≠ []
  distinct : (d.vars.map Variable.name).Nodup

/-- Every placeholder of the template has a variable. -/
def Declares (d : Declaration) (source : String) : Prop :=
  ∀ t, Template.parse source = .ok t → ∀ name ∈ t.phrase.names, name ∈ d.vars.map Variable.name

/-- The field has a name, and its values come from expressions alone or from a template whose
placeholders all have variables. -/
def IsValid (d : Declaration) : Prop :=
  d.IsNamed ∧
    ((∃ list, d.GivesExpressions list) ∨ ∃ source, d.GivesTemplate source ∧ d.Declares source)

/-- A template gives values of two of the four shapes. -/
lemma exists_textShape?_iff {c : Cardinality} :
    (∃ shape, c.textShape? = some shape) ↔ c = .single ∨ c = .localeMap := by
  cases c <;> simp [Cardinality.textShape?]

/-- A shape that a template can give is still the same shape. -/
lemma cardinality_of_textShape? {c : Cardinality} {shape : TextShape}
    (h : c.textShape? = some shape) : shape.cardinality = c := by
  cases c <;> cases h <;> rfl

/-- The field of a binding has a name. -/
lemma isNamed_of_build {b : Binding} (h : d.build = .ok b) : d.IsNamed := by
  by_contra hblank
  simp only [IsNamed, not_exists, not_and, Bool.not_eq_false] at hblank
  rw [build, Text.trimChars_eq_nil_iff.2 hblank] at h
  cases h

/-- The check of the name is passed by fields that have one. -/
lemma trim_field_ne_nil (h : d.IsNamed) : ¬(Text.trimChars d.field.toList).isEmpty = true := by
  obtain ⟨c, hc, hblank⟩ := h
  rw [List.isEmpty_iff, Text.trimChars_eq_nil_iff]
  intro hall
  rw [hall c hc] at hblank
  cases hblank

/-- Expressions that stand alone are taken as they are. -/
lemma build_of_givesExpressions {list : List String} (hnamed : d.IsNamed)
    (h : d.GivesExpressions list) : d.build = .ok ⟨d.field, .expressions list d.cardinality⟩ := by
  obtain ⟨hexpressions, hnonempty, htemplate, hvars⟩ := h
  rw [build, if_neg (trim_field_ne_nil hnamed), hexpressions, htemplate, hvars]
  simp [hnonempty]

/-- With a template that has nothing else wrong with it, only its undeclared names matter. -/
lemma build_of_givesTemplate (hnamed : d.IsNamed) (h : d.GivesTemplate source) :
    ∃ t shape, Template.parse source = .ok t ∧ shape.cardinality = d.cardinality ∧
      d.build = if undeclared t d.vars = [] then .ok ⟨d.field, .template t d.vars shape⟩
        else .error (.binding (.missingVariable d.field (undeclared t d.vars))) := by
  obtain ⟨t, ht⟩ := Template.exists_parse_iff_isBalanced.2 h.balanced
  obtain ⟨shape, hshape⟩ := exists_textShape?_iff.2 h.shape
  have hvars : variableFault? d.field [] d.vars = none :=
    variableFault?_eq_none_iff.2 ⟨h.located, h.distinct, by simp⟩
  refine ⟨t, shape, ht, cardinality_of_textShape? hshape, ?_⟩
  rw [build, if_neg (trim_field_ne_nil hnamed), h.alone, h.given]
  simp only [buildTemplate, hshape, ht, hvars]
  cases undeclared t d.vars <;> rfl

/-- A template that is accepted has nothing wrong with it. -/
lemma of_buildTemplate_eq_ok {s : Strategy} (halone : d.expressions = none)
    (hgiven : d.template = some source)
    (h : buildTemplate d.field source d.vars d.cardinality = .ok s) :
    d.GivesTemplate source ∧ d.Declares source := by
  rw [buildTemplate] at h
  cases hshape : d.cardinality.textShape? with
  | none => simp [hshape] at h
  | some shape =>
    cases ht : Template.parse source with
    | error mismatch => simp [hshape, ht] at h
    | ok t =>
      cases hvars : variableFault? d.field [] d.vars with
      | some fault => simp [hshape, ht, hvars] at h
      | none =>
        cases hnames : undeclared t d.vars with
        | cons name names => simp [hshape, ht, hvars, hnames] at h
        | nil =>
          obtain ⟨hlocated, hdistinct, -⟩ := variableFault?_eq_none_iff.1 hvars
          refine ⟨⟨halone, hgiven, exists_textShape?_iff.1 ⟨shape, hshape⟩,
            Template.exists_parse_iff_isBalanced.1 ⟨t, ht⟩, hlocated, hdistinct⟩, ?_⟩
          intro t' ht' name hname
          obtain rfl : t = t' := Except.ok.inj (ht.symm.trans ht')
          by_contra hnot
          exact List.not_mem_nil (hnames ▸ mem_undeclared_iff.2 ⟨hname, hnot⟩)

/-- A declaration that is accepted is valid. -/
lemma isValid_of_build {b : Binding} (h : d.build = .ok b) : d.IsValid := by
  have hnamed : d.IsNamed := isNamed_of_build h
  refine ⟨hnamed, ?_⟩
  rw [build, if_neg (trim_field_ne_nil hnamed)] at h
  cases hexpressions : d.expressions with
  | none =>
    cases htemplate : d.template with
    | none => simp [hexpressions, htemplate] at h
    | some source =>
      simp only [hexpressions, htemplate] at h
      obtain ⟨s, hs, -⟩ := bind_eq_ok_iff.1 h
      exact .inr ⟨source, of_buildTemplate_eq_ok hexpressions htemplate hs⟩
  | some list =>
    cases htemplate : d.template with
    | some source => simp [hexpressions, htemplate] at h
    | none =>
      by_cases hvars : d.vars = []
      · by_cases hlist : list = []
        · simp [hexpressions, htemplate, hvars, hlist] at h
        · exact .inl ⟨list, hexpressions, hlist, htemplate, hvars⟩
      · simp [hexpressions, htemplate, hvars] at h

/-- What is declared makes a binding of the declared field and shape. -/
lemma build_of_isValid (h : d.IsValid) :
    ∃ b, d.build = .ok b ∧ b.field = d.field ∧ b.cardinality = d.cardinality := by
  obtain ⟨hnamed, ⟨list, hlist⟩ | ⟨source, hsource, hdeclares⟩⟩ := h
  · exact ⟨_, build_of_givesExpressions hnamed hlist, rfl, rfl⟩
  · obtain ⟨t, shape, ht, hshape, hbuild⟩ := build_of_givesTemplate hnamed hsource
    have hnone : undeclared t d.vars = [] := by
      refine List.eq_nil_iff_forall_not_mem.2 fun name hname => ?_
      obtain ⟨hmem, hnot⟩ := mem_undeclared_iff.1 hname
      exact hnot (hdeclares t ht name hmem)
    rw [if_pos hnone] at hbuild
    exact ⟨_, hbuild, rfl, hshape⟩

end Declaration

/-! ## What becomes of declarations -/

/-- **Which declarations are accepted, and what becomes of them.** A declaration is built exactly if
it is valid. If names that are not declared are all that is wrong with it, they are reported, each
once and in order. A binding that is built keeps the field and the shape, takes values of that shape
from every document, and fails with no fault of a declaration or of a template.

**Proof sketch.** Validity is what the checks ask for, in whatever order they are made; the last
check finds the names. Values have the shape of the binding (`resolve_yields`), which is the
declared one. -/
theorem build_iff_isValid (d : Declaration) :
    ((∃ b, d.build = .ok b) ↔ d.IsValid) ∧
      (∀ source t, d.IsNamed → d.GivesTemplate source → ¬d.Declares source →
        Template.parse source = .ok t →
          ∃ names, d.build = .error (.binding (.missingVariable d.field names)) ∧
            names.Pairwise (· < ·) ∧
            ∀ name, name ∈ names ↔
              name ∈ t.phrase.names ∧ name ∉ d.vars.map Variable.name) ∧
      ∀ b, d.build = .ok b → b.field = d.field ∧ b.cardinality = d.cardinality ∧
        ∀ (r : Reader) (c : Cache),
          (∀ v, (b.resolve r).outcome c = .ok v → v.cardinality = d.cardinality) ∧
          ∀ e, (b.resolve r).outcome c = .error e → ¬e.IsDeclared := by
  refine ⟨⟨fun ⟨b, hb⟩ => Declaration.isValid_of_build hb, fun h => ?_⟩, ?_, ?_⟩
  · obtain ⟨b, hb, -⟩ := Declaration.build_of_isValid h
    exact ⟨b, hb⟩
  · intro source t hnamed hgives hdeclares ht
    obtain ⟨t', shape, ht', -, hbuild⟩ := Declaration.build_of_givesTemplate hnamed hgives
    obtain rfl : t = t' := Except.ok.inj (ht.symm.trans ht')
    have hsome : undeclared t d.vars ≠ [] := by
      intro hnone
      refine hdeclares fun t' ht' name hname => ?_
      obtain rfl : t = t' := Except.ok.inj (ht.symm.trans ht')
      by_contra hnot
      exact List.not_mem_nil (hnone ▸ mem_undeclared_iff.2 ⟨hname, hnot⟩)
    rw [if_neg hsome] at hbuild
    exact ⟨_, hbuild, undeclared_sorted t d.vars, fun name => mem_undeclared_iff⟩
  · intro b hb
    obtain ⟨b', hb', hfield, hshape⟩ :=
      Declaration.build_of_isValid (Declaration.isValid_of_build hb)
    obtain rfl : b = b' := Except.ok.inj (hb.symm.trans hb')
    refine ⟨hfield, hshape, fun r c =>
      ⟨fun v hv => ?_, fun e he => (b.resolve_yields r).of_error he⟩⟩
    exact ((b.resolve_yields r).of_ok hv).trans hshape

/-- A template that uses three names, one of them twice. -/
def headingTemplate : String :=
  "\x7bzeta\x7d \x7balpha\x7d<, \x7bmid\x7d> \x7balpha\x7d"

/-- A heading in each locale, with some of the variables that its template needs. -/
def heading (vs : List Variable) : Declaration :=
  ⟨"heading", none, some headingTemplate, vs, .localeMap⟩

/-- The variables of a heading. -/
def headingVariables : List Variable :=
  [⟨"zeta", ["/z"]⟩, ⟨"mid", ["/m"]⟩, ⟨"alpha", ["/a", "/b"]⟩]

/-- The names of a heading that are not declared are reported, and with variables for them it is
accepted. -/
theorem build_heading :
    (∃ names, (heading [⟨"mid", ["/m"]⟩]).build =
        .error (.binding (.missingVariable "heading" names)) ∧
      names.Pairwise (· < ·) ∧ ∀ name, name ∈ names ↔
        name ∈ ["zeta", "alpha", "mid", "alpha"] ∧ name ∉ ["mid"]) ∧
    ∃ b, (heading headingVariables).build = .ok b ∧ b.field = "heading" ∧
      b.cardinality = .localeMap := by
  have hparse : (Template.parse headingTemplate).toOption.map (fun t => t.phrase.names) =
      some ["zeta", "alpha", "mid", "alpha"] := by
    decide +kernel
  obtain ⟨t, ht, hnames⟩ := Option.map_eq_some_iff.1 hparse
  have ht := toOption_eq_some_iff.1 ht
  have hbalanced := Template.exists_parse_iff_isBalanced.1 ⟨t, ht⟩
  have hnamed : ∀ vs, (heading vs).IsNamed := fun vs => ⟨'h', by simp [heading], by decide⟩
  constructor
  · have hgives : (heading [⟨"mid", ["/m"]⟩]).GivesTemplate headingTemplate :=
      ⟨rfl, rfl, .inr rfl, hbalanced, by simp [heading], by simp [heading]⟩
    rw [← hnames]
    refine (build_iff_isValid _).2.1 _ t (hnamed _) hgives (fun hdeclares => ?_) ht
    have hzeta := hdeclares t ht "zeta" (by simp [hnames])
    simp [heading] at hzeta
  · have hgives : (heading headingVariables).GivesTemplate headingTemplate :=
      ⟨rfl, rfl, .inr rfl, hbalanced, by simp [heading, headingVariables],
        by simp [heading, headingVariables]⟩
    have hdeclares : (heading headingVariables).Declares headingTemplate := by
      intro t' ht' name hname
      obtain rfl : t = t' := Except.ok.inj (ht.symm.trans ht')
      rw [hnames] at hname
      fin_cases hname <;> simp [heading, headingVariables]
    obtain ⟨b, hb⟩ := (build_iff_isValid _).1.2 ⟨hnamed _, .inr ⟨_, hgives, hdeclares⟩⟩
    obtain ⟨hfield, hshape, -⟩ := (build_iff_isValid _).2.2 b hb
    exact ⟨b, hb, hfield, hshape⟩

end Binding

end XmlHarvest
