import XmlHarvest.Proofs.OrderedMap
import XmlHarvest.Proofs.Template.Names

/-!
# Rendering for all locales

A variable that has a value in some locale has one in all of them, since another locale stands in
for one without values. So whether a template renders does not depend on the locale: it depends on
the variables that are named outside of all contexts, and contexts make no difference. A template
renders for all locales that its variables have an entry in, or for none.

## Main definitions

* `Template.IsValueless`: a variable without a value in any locale.
* `Template.Phrase.required`: the names of the placeholders outside of all contexts.
* `Template.IsMissing`: a variable that must have a value has none.

## Main results

* `Template.lookup_eq_none_iff`: a variable has values in all locales or in none.
* `Template.Phrase.render_eq_none_iff`: what keeps a phrase from rendering.
* `Template.renderLocale_eq_none_iff`: what keeps a template from rendering in a locale.
* `Template.entries_render_of_missing`, `Template.entries_render_of_not_missing`: all locales or
  none.
-/

namespace XmlHarvest.Template

/-! ## Values in all locales -/

/-- The variable has no value in any locale: it is not there, or all its lists of values are
empty. -/
def IsValueless (vs : Variables) (name : String) : Prop :=
  ∀ found, vs.get? name = some found → ∀ values ∈ found.values, values = []

/-- **A variable has values in all locales or in none.** -/
lemma lookup_eq_none_iff {vs : Variables} {locale : Locale} {name : String} :
    lookup vs locale name = none ↔ IsValueless vs name := by
  constructor
  · intro h found hfound values hvalues
    by_contra hne
    -- If the locale itself has no values, the first locale that has any stands in for it.
    obtain ⟨other, hother⟩ : ∃ other, found.values.find? (fun values => !values.isEmpty) =
        some other := Option.isSome_iff_exists.1 (by simpa using ⟨values, hvalues, hne⟩)
    obtain ⟨chosen, hchosen⟩ : ∃ chosen, ((found.get? locale).filter fun values =>
        !values.isEmpty).or (found.values.find? fun values => !values.isEmpty) = some chosen := by
      rw [hother]
      cases (found.get? locale).filter fun values => !values.isEmpty with
      | none => exact ⟨other, rfl⟩
      | some own => exact ⟨own, rfl⟩
    have hchosen_ne : chosen.isEmpty = false := by
      rcases Option.or_eq_some_iff.1 hchosen with h | ⟨-, h⟩
      · simpa using (Option.filter_eq_some_iff.1 h).2
      · simpa using List.find?_some h
    rw [lookup, hfound, Option.bind_eq_bind, Option.bind_some, hchosen, Option.bind_eq_bind,
      Option.bind_some, List.head?_eq_none_iff] at h
    rw [h] at hchosen_ne
    cases hchosen_ne
  · intro h
    by_contra hne
    obtain ⟨v, hv⟩ := Option.ne_none_iff_exists'.1 hne
    obtain ⟨found, hfound, hv⟩ := Option.bind_eq_some_iff.1 hv
    obtain ⟨values, hvalues, hv⟩ := Option.bind_eq_some_iff.1 hv
    have hmem : values ∈ found.values := by
      rcases Option.or_eq_some_iff.1 hvalues with hvalues | ⟨-, hvalues⟩
      · exact OrderedMap.mem_values_iff.2 ⟨_, Option.eq_some_of_filter_eq_some hvalues⟩
      · exact List.mem_of_find?_eq_some hvalues
    rw [h found hfound values hmem] at hv
    cases hv

/-! ## Required values -/

namespace Phrase

/-- The names of the placeholders outside of all contexts, from left to right and as often as they
occur. -/
def required : Phrase → List String
  | .nil => []
  | .text _ rest => rest.required
  | .placeholder name rest => String.ofList name :: rest.required
  | .context _ rest => rest.required

/-- Names outside of contexts are names of placeholders. -/
lemma required_sublist_names (p : Phrase) : p.required.Sublist p.names := by
  induction p with
  | nil => exact .slnil
  | text chars rest ih => exact ih
  | placeholder name rest ih => exact ih.cons_cons _
  | context inner rest _ ih => exact ih.trans (List.sublist_append_right _ _)

/-- **What keeps a phrase from rendering** is a placeholder outside of all contexts without a value;
contexts render in any case. -/
lemma render_eq_none_iff {value? : String → Option String} {p : Phrase} :
    p.render value? = none ↔ ∃ name ∈ p.required, value? name = none := by
  induction p with
  | nil => simp [render, required]
  | text chars rest ih => rw [render, Option.map_eq_none_iff, ih, required]
  | placeholder name rest ih =>
    rw [render, required]
    cases hvalue : value? (String.ofList name) with
    | none => simp [hvalue]
    | some v => simp [hvalue, ih]
  | context inner rest _ ih => rw [render, Option.map_eq_none_iff, ih, required]

end Phrase

/-- A variable that the template names outside of all contexts has no value. -/
def IsMissing (t : Template) (vs : Variables) : Prop :=
  ∃ name ∈ t.phrase.required, IsValueless vs name

section Rendering

variable {t : Template} {vs : Variables}

/-- **What keeps a template from rendering** is the same in every locale. -/
lemma renderLocale_eq_none_iff {locale : Locale} :
    t.renderLocale vs locale = none ↔ t.IsMissing vs := by
  rw [renderLocale, Phrase.render_eq_none_iff]
  simp only [lookup_eq_none_iff, IsMissing]

/-! ## The locales -/

/-- A template is constant if its phrase has no placeholders. -/
lemma isConstant_iff : t.isConstant = true ↔ t.phrase.names = [] := by
  rw [isConstant, List.isEmpty_iff, List.eq_nil_iff_forall_not_mem,
    List.eq_nil_iff_forall_not_mem]
  simp only [mem_names_iff]

/-- A template with placeholders is rendered for the locales of its variables. -/
lemma locales_of_names (h : t.phrase.names ≠ []) : t.locales vs =
    ((t.phrase.names.eraseDups.filterMap vs.get?).flatMap OrderedMap.keys).eraseDups := by
  rw [locales, if_neg (mt isConstant_iff.1 h), names, placeholderNames_source]

/-- A template without placeholders is rendered for the root. -/
lemma locales_of_constant (h : t.phrase.names = []) : t.locales vs = [.root] := by
  rw [locales, if_pos (isConstant_iff.2 h)]

/-- There is nothing to render for if none of the variables has an entry. -/
lemma locales_eq_nil_iff (h : t.phrase.names ≠ []) : t.locales vs = [] ↔
    ∀ name ∈ t.phrase.names, ∀ found, vs.get? name = some found → found.keys = [] := by
  rw [locales_of_names h, List.eq_nil_iff_forall_not_mem]
  simp only [List.mem_eraseDups, ← List.eq_nil_iff_forall_not_mem, List.flatMap_eq_nil_iff,
    List.mem_filterMap, forall_exists_index, and_imp]
  exact forall_comm.trans (forall_congr' fun name => ⟨fun h' hname found => h' found hname,
    fun h' found hname => h' hname found⟩)

/-- No locale is rendered for twice. -/
lemma nodup_locales (t : Template) (vs : Variables) : (t.locales vs).Nodup := by
  rw [locales]
  split
  · exact List.nodup_singleton _
  · exact nodup_eraseDups _

/-! ## All locales or none -/

/-- The entries of a rendered template, locale by locale. -/
lemma entries_render : (t.render vs).entries = (t.locales vs).filterMap fun locale =>
    (t.renderLocale vs locale).map fun text => (locale, text) := by
  refine OrderedMap.entries_ofList ?_
  rw [List.map_filterMap]
  refine (nodup_locales t vs).filterMap ?_
  intro locale locale' key h h'
  simp only [Option.mem_def, Option.map_map, Option.map_eq_some_iff, Function.comp_apply] at h h'
  obtain ⟨_, -, rfl⟩ := h
  obtain ⟨_, -, rfl⟩ := h'
  rfl

/-- If a value is missing, nothing is rendered. -/
lemma entries_render_of_missing (h : t.IsMissing vs) : (t.render vs).entries = [] := by
  rw [entries_render, List.filterMap_eq_nil_iff]
  intro locale _
  rw [renderLocale_eq_none_iff.2 h]
  rfl

/-- If no value is missing, there is a text for each locale. -/
lemma entries_render_of_not_missing (h : ¬t.IsMissing vs) :
    (t.render vs).entries.map (fun e => (e.1, some e.2)) =
      (t.locales vs).map fun locale => (locale, t.renderLocale vs locale) := by
  rw [entries_render, List.map_filterMap, ← List.filterMap_eq_map]
  refine List.filterMap_congr fun locale _ => ?_
  obtain ⟨text, htext⟩ := Option.ne_none_iff_exists'.1 (mt renderLocale_eq_none_iff.1 h)
  rw [Function.comp_apply, htext]
  rfl

/-- Nothing is rendered if a value is missing, or if there is nothing to render for. -/
lemma entries_render_eq_nil_iff :
    (t.render vs).entries = [] ↔ t.IsMissing vs ∨ t.locales vs = [] := by
  by_cases h : t.IsMissing vs
  · exact iff_of_true (entries_render_of_missing h) (.inl h)
  · rw [or_iff_right h, ← List.map_eq_nil_iff (f := fun e => (e.1, some e.2)),
      entries_render_of_not_missing h, List.map_eq_nil_iff]

/-- A template without placeholders has one text, for the root. -/
lemma entries_render_of_constant (h : t.phrase.names = []) :
    ∃ text, t.renderLocale vs .root = some text ∧ (t.render vs).entries = [(.root, text)] := by
  have hnot : ¬t.IsMissing vs := by
    rintro ⟨name, hname, -⟩
    have hmem := t.phrase.required_sublist_names.subset hname
    rw [h] at hmem
    cases hmem
  have hrender : t.renderLocale vs .root ≠ none := mt renderLocale_eq_none_iff.1 hnot
  obtain ⟨text, htext⟩ := Option.ne_none_iff_exists'.1 hrender
  refine ⟨text, htext, ?_⟩
  rw [entries_render, locales_of_constant h, List.filterMap_cons, htext]
  rfl

end Rendering

end XmlHarvest.Template
