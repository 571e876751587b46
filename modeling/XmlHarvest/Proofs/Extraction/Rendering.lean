import XmlHarvest.Proofs.Extraction.FirstMatch
import XmlHarvest.Proofs.Template.Locales

/-!
# Rendering from a document

A reader gives each variable of a template the values of the first alternative that selects a node,
so a variable has a value in some locale exactly if one of its alternatives selects a node. With the
law that a template renders for all its locales or for none, this says when nothing is rendered from
a document.

## Main definitions

* `Extraction.namedVariable?`: the variable of a name.
* `Extraction.Reader.Matches`: the variable of a name selects a node.

## Main results

* `Extraction.Reader.get?_eq_of_variableValues`: the values that a reader gives a variable.
* `Extraction.Reader.isValueless_iff`: which variables have no value.
* `Extraction.Reader.rendered_all_or_nothing`: all locales or none, from a document.
-/

namespace XmlHarvest.Extraction

open Template

variable {α : Type}

/-! ## Variables by name -/

/-- The variable of a name. If several have the same name, the last one counts. -/
def namedVariable? (vs : List Variable) (name : String) : Option Variable :=
  vs.reverse.find? fun v => v.name = name

namespace Reader

/-- The variable of a name is there, and one of its alternatives selects a node. -/
def Matches (r : Reader) (c : Cache) (vs : List Variable) (name : String) : Prop :=
  ∃ v, namedVariable? vs name = some v ∧ ∃ e ∈ v.expressions, r.selects c e = true

variable {r : Reader} {c : Cache} {vs : List Variable} {values : Variables} {name : String}

/-! ## The values of one variable -/

/-- A computation that makes evaluations returns what they give, if it returns anything. -/
lemma Makes.eq_of_outcome {es : List Evaluation} {x : Run α} {a b : α} (h : r.Makes c es x a)
    (houtcome : x.outcome c = .ok b) : b = a := by
  rw [h.here.1] at houtcome
  cases hfault : es.findSome? (r.fault? c) with
  | none =>
    rw [hfault] at houtcome
    exact (Except.ok.inj houtcome).symm
  | some fault =>
    rw [hfault] at houtcome
    cases houtcome

/-- There are hits if one of the alternatives selects a node. -/
lemma matchHits_eq_nil_iff {keyPath : Option String} {es : List String} :
    r.matchHits c keyPath es = [] ↔ ∀ e ∈ es, r.selects c e = false := by
  rw [matchHits]
  cases h : es.find? (r.selects c) with
  | none => simpa using h
  | some e =>
    obtain hselects : r.selects c e = true := List.find?_some h
    have hempty : ((r.expand [e]).flatMap (r.hitsOf c keyPath)).isEmpty = _ := isEmpty_hits_eq e
    rw [hselects] at hempty
    refine iff_of_false (fun hnil => ?_) fun hall => ?_
    · rw [show (r.expand [e]).flatMap (r.hitsOf c keyPath) = [] from hnil] at hempty
      cases hempty
    · rw [hall e (List.mem_of_find?_eq_some h)] at hselects
      cases hselects

/-- Values come from hits. -/
lemma values_byLocale_eq_nil_iff {hits : List Hit} : (r.byLocale hits).values = [] ↔ hits = [] := by
  rw [byLocale, OrderedMap.values_group_eq_nil_iff, List.map_eq_nil_iff]

/-- The values of a list are those of the first alternative that selects a node. -/
lemma makes_localized (es : List String) : r.Makes c (r.evaluationsUpToMatch c none es)
    (r.localized es) (r.byLocale (r.matchHits c none es)) :=
  (makes_firstMatch es (by rintro _ ⟨⟩)).bind_pure r.byLocale

/-! ## The values of all variables -/

/-- The values of the variables are found one after the other. -/
lemma makes_variableValues (vs : List Variable) :
    r.Makes c (vs.flatMap fun v => r.evaluationsUpToMatch c none v.expressions)
      (r.variableValues vs) (.ofList (vs.map fun v =>
        (v.name, r.byLocale (r.matchHits c none v.expressions)))) := by
  have hentry : ∀ v : Variable, r.Makes c (r.evaluationsUpToMatch c none v.expressions)
      (r.localized v.expressions >>= fun found => pure (v.name, found))
      (v.name, r.byLocale (r.matchHits c none v.expressions)) :=
    fun v => (makes_localized v.expressions).bind_pure fun found => (v.name, found)
  rw [variableValues]
  exact (Makes.mapM hentry vs).bind_pure OrderedMap.ofList

/-- **The values that a reader gives a variable** are those of the variable of that name, by
locale. -/
lemma get?_eq_of_variableValues (h : (r.variableValues vs).outcome c = .ok values) (name : String) :
    values.get? name = (namedVariable? vs name).map fun v =>
      r.byLocale (r.matchHits c none v.expressions) := by
  rw [(makes_variableValues vs).eq_of_outcome h, OrderedMap.get?_ofList, ← List.map_reverse,
    OrderedMap.lookup_map, namedVariable?]

/-- What a variable has under its name comes from hits, and there are hits if it matches. -/
lemma hits_of_get? (h : (r.variableValues vs).outcome c = .ok values) {found : ResolvedVariable}
    (hfound : values.get? name = some found) :
    ∃ hits, found = r.byLocale hits ∧ (hits = [] ↔ ¬r.Matches c vs name) := by
  rw [get?_eq_of_variableValues h, Option.map_eq_some_iff] at hfound
  obtain ⟨v, hv, rfl⟩ := hfound
  refine ⟨_, rfl, ?_⟩
  rw [matchHits_eq_nil_iff, Matches]
  simp [hv]

/-- A variable that is not there does not match. -/
lemma not_matches_of_get?_eq_none (h : (r.variableValues vs).outcome c = .ok values)
    (hnone : values.get? name = none) : ¬r.Matches c vs name := by
  rw [get?_eq_of_variableValues h, Option.map_eq_none_iff] at hnone
  rintro ⟨v, hv, -⟩
  rw [hnone] at hv
  cases hv

/-- **The variables without a value** are those that match no node. -/
lemma isValueless_iff (h : (r.variableValues vs).outcome c = .ok values) :
    IsValueless values name ↔ ¬r.Matches c vs name := by
  cases hget : values.get? name with
  | none =>
    refine iff_of_true (fun found hfound => ?_) (not_matches_of_get?_eq_none h hget)
    rw [hget] at hfound
    cases hfound
  | some found =>
    obtain ⟨hits, rfl, hhits⟩ := hits_of_get? h hget
    rw [← hhits, ← values_byLocale_eq_nil_iff (r := r)]
    constructor
    · intro hempty
      rw [List.eq_nil_iff_forall_not_mem]
      intro vs hvs
      exact OrderedMap.ne_nil_of_mem_values_group hvs (hempty _ hget vs hvs)
    · intro hnil found hfound vs hvs
      rw [hget] at hfound
      cases hfound
      rw [hnil] at hvs
      cases hvs

/-- The variables that have an entry in no locale are those that match no node. -/
lemma keys_eq_nil_iff (h : (r.variableValues vs).outcome c = .ok values) :
    (∀ found, values.get? name = some found → found.keys = []) ↔ ¬r.Matches c vs name := by
  cases hget : values.get? name with
  | none =>
    refine iff_of_true (fun found hfound => ?_) (not_matches_of_get?_eq_none h hget)
    cases hfound
  | some found =>
    obtain ⟨hits, rfl, hhits⟩ := hits_of_get? h hget
    rw [← hhits, ← values_byLocale_eq_nil_iff (r := r), ← OrderedMap.keys_eq_nil_iff]
    exact ⟨fun hall => hall _ rfl, fun hnil found hfound => Option.some.inj hfound ▸ hnil⟩

/-! ## Rendering -/

/-- A template is rendered from what its variables are found to be. -/
lemma outcome_rendered (t : Template) :
    (r.rendered t vs).outcome c = ((r.variableValues vs).outcome c).map t.render :=
  outcome_map (r.variableValues vs) t.render c

/-- **All locales or none.** Whether a template renders for a locale does not depend on the locale:
it does unless a placeholder outside of all contexts names a variable without a value. In that case
nothing is rendered at all. Otherwise there is one text for each locale in which a variable has an
entry, in order of first appearance, and for a template without placeholders one for the root; these
are the texts that the template renders as in each of them. From a document, a template with
placeholders renders as nothing exactly if a variable named outside of all contexts matches no node,
or if none of its variables matches one.

**Proof sketch.** A variable has values in all locales or in none (`lookup_eq_none_iff`), and only
placeholders outside of all contexts can keep a phrase from rendering; so nothing depends on the
locale (`renderLocale_eq_none_iff`), and the entries are found locale by locale (`entries_render`).
From a document, a variable gets the values of its first alternative that selects a node
(`get?_eq_of_variableValues`). It has no value, and no locale either, exactly if it matches no node
(`isValueless_iff`, `keys_eq_nil_iff`). -/
theorem rendered_all_or_nothing (t : Template) :
    (∀ vs : Variables,
      (∀ locale, t.renderLocale vs locale = none ↔
        ∃ name ∈ t.phrase.required, IsValueless vs name) ∧
      ((∃ name ∈ t.phrase.required, IsValueless vs name) → (t.render vs).entries = []) ∧
      ((¬∃ name ∈ t.phrase.required, IsValueless vs name) →
        (t.render vs).entries.map (fun e => (e.1, some e.2)) =
          (t.locales vs).map fun locale => (locale, t.renderLocale vs locale)) ∧
      (t.phrase.names ≠ [] → t.locales vs =
        ((t.phrase.names.eraseDups.filterMap vs.get?).flatMap OrderedMap.keys).eraseDups) ∧
      (t.phrase.names = [] → ∃ text, t.renderLocale vs .root = some text ∧
        (t.render vs).entries = [(.root, text)])) ∧
    ∀ (r : Reader) (c : Cache) (vs : List Variable),
      (r.rendered t vs).outcome c = ((r.variableValues vs).outcome c).map t.render ∧
      ∀ values, (r.variableValues vs).outcome c = .ok values → t.phrase.names ≠ [] →
        ((t.render values).entries = [] ↔
          (∃ name ∈ t.phrase.required, ¬r.Matches c vs name) ∨
            ∀ name ∈ t.phrase.names, ¬r.Matches c vs name) := by
  refine ⟨fun vs => ⟨fun locale => renderLocale_eq_none_iff, entries_render_of_missing,
    entries_render_of_not_missing, locales_of_names, entries_render_of_constant⟩,
    fun r c vs => ⟨outcome_rendered t, fun values hvalues hnames => ?_⟩⟩
  rw [entries_render_eq_nil_iff, locales_eq_nil_iff hnames, IsMissing]
  simp only [isValueless_iff hvalues, keys_eq_nil_iff hvalues]

/-- Of two variables one matches a node. A template that needs the other one renders as nothing, and
one that can leave it out renders. -/
theorem rendered_all_or_nothing_context : ∃ (d : Document) (needs leaves : Template),
    Document.parse "<r><b xml:lang=\"de\">x</b></r>" = .ok d ∧
      needs.source = "\x7ba\x7d<\x7bb\x7d>" ∧ leaves.source = "\x7bb\x7d<\x7ba\x7d>" ∧
      let r : Reader := ⟨⟨0, d⟩, [], false⟩
      let vs : List Variable := [⟨"b", ["/r/c", "//b"]⟩, ⟨"a", ["/r/a"]⟩]
      ∃ values, (r.variableValues vs).outcome (Cache.new .initial) = .ok values ∧
        (needs.render values).entries = [] ∧ (leaves.render values).entries ≠ [] := by
  have h : ((Document.parse "<r><b xml:lang=\"de\">x</b></r>").toOption.map fun d =>
      let r : Reader := ⟨⟨0, d⟩, [], false⟩
      let c := Cache.new .initial
      let vs : List Variable := [⟨"b", ["/r/c", "//b"]⟩, ⟨"a", ["/r/a"]⟩]
      (((vs.flatMap fun v => r.evaluationsUpToMatch c none v.expressions).findSome?
        (r.fault? c)).isNone, r.selects c "//b", r.selects c "/r/a")) =
      some (true, true, false) := by cbv
  obtain ⟨d, hd, h⟩ := Option.map_eq_some_iff.1 h
  simp only [Prod.mk.injEq, Option.isNone_iff_eq_none] at h
  obtain ⟨hfault, hb, ha⟩ := h
  refine ⟨d, ⟨_, .placeholder ['a'] (.context (.placeholder ['b'] .nil) .nil), by rfl⟩,
    ⟨_, .placeholder ['b'] (.context (.placeholder ['a'] .nil) .nil), by rfl⟩,
    toOption_eq_some_iff.1 hd, rfl, rfl, ?_⟩
  intro r vs
  have hvalues : (r.variableValues vs).outcome (Cache.new .initial) = _ :=
    (makes_variableValues vs).here.1
  rw [hfault] at hvalues
  have hmatches : r.Matches (Cache.new .initial) vs "b" :=
    ⟨⟨"b", ["/r/c", "//b"]⟩, rfl, "//b", by simp, hb⟩
  have hnot : ¬r.Matches (Cache.new .initial) vs "a" := by
    rintro ⟨v, hv, e, he, hselects⟩
    obtain rfl : ⟨"a", ["/r/a"]⟩ = v := Option.some.inj hv
    obtain rfl := List.mem_singleton.1 he
    rw [ha] at hselects
    cases hselects
  refine ⟨_, hvalues, ?_, fun hnil => ?_⟩
  · obtain ⟨-, hreader⟩ := rendered_all_or_nothing _
    refine ((hreader r _ vs).2 _ hvalues (by decide)).2 (.inl ⟨"a", by decide, hnot⟩)
  · obtain ⟨-, hreader⟩ := rendered_all_or_nothing _
    rcases ((hreader r _ vs).2 _ hvalues (by decide)).1 hnil with ⟨name, hname, hnone⟩ | hnone
    · obtain rfl : name = "b" := by simpa [Phrase.required] using hname
      exact hnone hmatches
    · exact hnone "b" (by decide) hmatches

end Reader

end XmlHarvest.Extraction
