import Mathlib.Data.List.Basic
import XmlHarvest.Binding.Basic
import XmlHarvest.Proofs.Extraction.Rendering
import XmlHarvest.Proofs.Locale

/-!
# The values of fields

The value of a field is made of the first matches of its lists of expressions, or of the texts that
its template renders from them. So its locales are those of nodes, or the root, and all of these
come from tags. Since locales that come from tags differ in their texts, a value is written under
names that differ.

## Main definitions

* `Binding.evaluations`, `Binding.found`: the evaluations that a value takes, and what they give.
* `FieldValue.locales`: the locales of a value.

## Main results

* `Binding.makes_resolve`: the value of a field.
* `Binding.isCanonical_of_mem_locales`: the locales of the value of a field come from tags.
* `Locale.ofTag_canonical`: reading and writing locales.
-/

namespace XmlHarvest

open Extraction (Cache Evaluation Reader Run Variable)

/-! ## What a value is made of -/

namespace Binding

/-- The evaluations that the value of a field takes. -/
def evaluations (b : Binding) (r : Reader) (c : Cache) : List Evaluation :=
  match b.strategy with
  | .expressions list _ => r.evaluationsUpToMatch c none list
  | .template _ vs _ => vs.flatMap fun v => r.evaluationsUpToMatch c none v.expressions

/-- The values of the variables of a template by locale, if no evaluation fails. -/
def foundVariables (vs : List Variable) (r : Reader) (c : Cache) : Variables :=
  .ofList (vs.map fun v => (v.name, r.byLocale (r.matchHits c none v.expressions)))

/-- The value of a field, if no evaluation fails. -/
def found (b : Binding) (r : Reader) (c : Cache) : FieldValue :=
  match b.strategy with
  | .expressions list shape =>
    let groups := r.byLocale (r.matchHits c none list)
    match shape with
    | .single => .single groups.values.flatten.head?
    | .list => .list groups.values.flatten
    | .localeMap => .localeMap (groups.filterMap List.head?)
    | .localeMapList => .localeMapList groups
  | .template t vs shape =>
    let texts := t.render (foundVariables vs r c)
    match shape with
    | .single => .single texts.values.head?
    | .localeMap => .localeMap texts

/-- **The value of a field** is made of the evaluations of its expressions, or of the variables of
its template. -/
lemma makes_resolve (b : Binding) (r : Reader) (c : Cache) :
    r.Makes c (b.evaluations r c) (b.resolve r) (b.found r c) := by
  obtain ⟨field, strategy⟩ := b
  cases strategy with
  | expressions list shape =>
    have hgroups : r.Makes c _ (r.localized list) _ := Reader.makes_localized list
    cases shape with
    | single =>
      exact (hgroups.bind_pure fun m => m.values.flatten.head?).bind_pure FieldValue.single
    | list => exact (hgroups.bind_pure fun m => m.values.flatten).bind_pure FieldValue.list
    | localeMap =>
      exact (hgroups.bind_pure fun m => m.filterMap List.head?).bind_pure FieldValue.localeMap
    | localeMapList => exact hgroups.bind_pure FieldValue.localeMapList
  | template t vs shape =>
    have htexts : r.Makes c _ (r.rendered t vs) _ :=
      (Reader.makes_variableValues vs).bind_pure t.render
    cases shape with
    | single => exact (htexts.bind_pure fun m => m.values.head?).bind_pure FieldValue.single
    | localeMap => exact htexts.bind_pure FieldValue.localeMap

end Binding

/-! ## The locales of values -/

/-- The locales that a value has entries for. -/
def FieldValue.locales : FieldValue → List Locale
  | .single _ | .list _ => []
  | .localeMap values => values.keys
  | .localeMapList values => values.keys

/-- No locale has two entries. -/
lemma FieldValue.nodup_locales (v : FieldValue) : v.locales.Nodup := by
  cases v with
  | single value => exact List.nodup_nil
  | list values => exact List.nodup_nil
  | localeMap values => exact values.nodup
  | localeMapList values => exact values.nodup

/-- The locales of nodes come from tags. -/
lemma Extraction.Reader.isCanonical_of_mem_byLocale {r : Reader} {hits : List Extraction.Hit}
    {l : Locale} (h : l ∈ (r.byLocale hits).keys) : l.IsCanonical := by
  rw [byLocale, OrderedMap.keys_group, List.mem_eraseDups, List.map_map] at h
  obtain ⟨hit, -, rfl⟩ := List.mem_map.1 h
  exact Locale.isCanonical_ofTag? _

/-- The locales that a template renders for come from tags if those of its variables do. -/
lemma Template.isCanonical_of_mem_render {t : Template} {vs : Variables}
    (hvs : ∀ name found, vs.get? name = some found → ∀ l ∈ found.keys, l.IsCanonical) {l : Locale}
    (h : l ∈ (t.render vs).keys) : l.IsCanonical := by
  have hl : l ∈ t.locales vs := by
    rw [OrderedMap.keys, entries_render] at h
    obtain ⟨⟨_, text⟩, hentry, rfl⟩ := List.mem_map.1 h
    obtain ⟨l, hl, hentry⟩ := List.mem_filterMap.1 hentry
    obtain ⟨text, -, heq⟩ := Option.map_eq_some_iff.1 hentry
    cases heq
    exact hl
  rw [locales] at hl
  split at hl
  · obtain rfl := List.mem_singleton.1 hl
    exact trivial
  · rw [List.mem_eraseDups, List.mem_flatMap] at hl
    obtain ⟨found, hfound, hl⟩ := hl
    obtain ⟨name, -, hfound⟩ := List.mem_filterMap.1 hfound
    exact hvs name found hfound l hl

/-- **The locales of the value of a field** come from tags. -/
lemma Binding.isCanonical_of_mem_locales {b : Binding} {r : Reader} {c : Cache} {l : Locale}
    (h : l ∈ (b.found r c).locales) : l.IsCanonical := by
  obtain ⟨field, strategy⟩ := b
  cases strategy with
  | expressions list shape =>
    cases shape with
    | single => cases h
    | list => cases h
    | localeMap =>
      exact Reader.isCanonical_of_mem_byLocale ((OrderedMap.keys_filterMap_sublist _ _).subset h)
    | localeMapList => exact Reader.isCanonical_of_mem_byLocale h
  | template t vs shape =>
    cases shape with
    | single => cases h
    | localeMap =>
      refine Template.isCanonical_of_mem_render (fun name found hfound l hl => ?_) h
      rw [foundVariables, OrderedMap.get?_ofList, ← List.map_reverse, OrderedMap.lookup_map,
        Option.map_eq_some_iff] at hfound
      obtain ⟨v, -, rfl⟩ := hfound
      exact Reader.isCanonical_of_mem_byLocale hl

/-- A value with locales is written under their texts. -/
lemma FieldValue.toJson_eq_object {v : FieldValue}
    (h : v.cardinality = .localeMap ∨ v.cardinality = .localeMapList) :
    ∃ members, v.toJson = Json.object members ∧
      members.map Prod.fst = v.locales.map Locale.toText := by
  cases v with
  | single value => simp [cardinality] at h
  | list values => simp [cardinality] at h
  | localeMap values => exact ⟨_, rfl, by simp [locales, OrderedMap.keys]⟩
  | localeMapList values => exact ⟨_, rfl, by simp [locales, OrderedMap.keys]⟩

/-! ## Reading and writing locales -/

namespace Locale

/-- **The tag of a locale is its own.** A locale that comes from a tag is read again from the tag
that it is written as, so two locales that come from tags are the same if they are written as the
same tag. A script is there only with a language. Neither the cases of letters nor the choice of the
separators count in a tag, nor do blanks around it. Therefore locales that come from tags are
written as different tags, if none of them is repeated; and all locales of the value of a field come
from tags, so that no two of the names in its text are the same.

**Proof sketch.** What is read from a tag is canonical (`isCanonical_ofTag`), and a canonical locale
is read again from what it is written as (`ofTag_toText`), so canonical locales with the same tag
are the same (`nodup_map_toText`). Reading asks of the characters of a tag nothing in which two
alike ones differ (`ofTag_congr`), and takes off the blanks around it (`ofTag_around`). The value of
a field is made of matches, and all its locales come from tags
(`Binding.isCanonical_of_mem_locales`). -/
theorem ofTag_canonical :
    (∀ tag, ofTag (ofTag tag).toText = ofTag tag) ∧
    (∀ tag tag', (ofTag tag).toText = (ofTag tag').toText ↔ ofTag tag = ofTag tag') ∧
    (∀ l : Locale, l.script?.isSome → l.language?.isSome) ∧
    (∀ tag tag', List.Forall₂ Alike tag.toList tag'.toList → ofTag tag = ofTag tag') ∧
    (∀ tag before behind : String, (∀ c ∈ before.toList, Text.isBlank c = true) →
      (∀ c ∈ behind.toList, Text.isBlank c = true) →
      ofTag (before ++ tag ++ behind) = ofTag tag) ∧
    (∀ ls : List Locale, (∀ l ∈ ls, ∃ tag, ofTag tag = l) → ls.Nodup → (ls.map toText).Nodup) ∧
    ∀ (b : Binding) (r : Reader) (c : Cache) (v : FieldValue), (b.resolve r).outcome c = .ok v →
      (∀ l ∈ v.locales, ∃ tag, ofTag tag = l) ∧
      (v.cardinality = .localeMap ∨ v.cardinality = .localeMapList →
        ∃ members, v.toJson = Json.object members ∧
          members.map Prod.fst = v.locales.map toText ∧ (members.map Prod.fst).Nodup) := by
  have hcanonical : ∀ tag, (ofTag tag).IsCanonical := isCanonical_ofTag
  refine ⟨fun tag => ofTag_toText (hcanonical tag), fun tag tag' => ?_, fun l h => ?_,
    fun _ _ => ofTag_congr, fun tag _ _ => ofTag_around tag, fun ls h hls => ?_,
    fun b r c v h => ?_⟩
  · exact ⟨(hcanonical tag).eq_of_toText_eq (hcanonical tag'), congrArg toText⟩
  · cases l with
    | root => exact h
    | tagged language script => rfl
  · exact nodup_map_toText (fun l hl => isCanonical_iff.2 (h l hl)) hls
  · obtain rfl : v = b.found r c := (b.makes_resolve r c).eq_of_outcome h
    have hlocales : ∀ l ∈ (b.found r c).locales, l.IsCanonical :=
      fun l hl => Binding.isCanonical_of_mem_locales hl
    refine ⟨fun l hl => isCanonical_iff.1 (hlocales l hl), fun hshape => ?_⟩
    obtain ⟨members, hjson, hnames⟩ := FieldValue.toJson_eq_object hshape
    refine ⟨members, hjson, hnames, ?_⟩
    rw [hnames]
    exact nodup_map_toText hlocales (FieldValue.nodup_locales _)

/-- Of three nodes two have tags that stand for the same locale, and the value is written under two
names. -/
theorem ofTag_canonical_two_locales : ∃ (d : Document) (v : FieldValue),
    Document.parse "<r><b xml:lang=\"sr_latn\">x</b><b xml:lang=\" SR-Latn-RS\">y</b><b>z</b></r>" =
      .ok d ∧
    ((⟨"title", .expressions ["//b"] .localeMap⟩ : Binding).resolve ⟨⟨0, d⟩, [], false⟩).outcome
      (.new .initial) = .ok v ∧
    v.locales = [ofTag "sr-Latn", ofTag ""] ∧ (v.locales.map toText).Nodup ∧
    ofTag " SR-Latn-RS " = ofTag "sr_latN-rs" := by
  have h : ((Document.parse
      "<r><b xml:lang=\"sr_latn\">x</b><b xml:lang=\" SR-Latn-RS\">y</b><b>z</b></r>").toOption.map
        fun d =>
      let b : Binding := ⟨"title", .expressions ["//b"] .localeMap⟩
      let r : Reader := ⟨⟨0, d⟩, [], false⟩
      let c := Cache.new .initial
      (((b.evaluations r c).findSome? (r.fault? c)).isNone, (b.found r c).locales)) =
      some (true, [ofTag "sr-Latn", ofTag ""]) := by cbv
  obtain ⟨d, hd, h⟩ := Option.map_eq_some_iff.1 h
  simp only [Prod.mk.injEq, Option.isNone_iff_eq_none] at h
  obtain ⟨hfault, hlocales⟩ := h
  have hvalue := ((⟨"title", .expressions ["//b"] .localeMap⟩ : Binding).makes_resolve
    ⟨⟨0, d⟩, [], false⟩ (.new .initial)).here.1
  rw [hfault] at hvalue
  obtain ⟨-, -, -, halike, haround, hnodup, hfield⟩ := ofTag_canonical
  refine ⟨d, _, toOption_eq_some_iff.1 hd, hvalue, hlocales, ?_, ?_⟩
  · exact hnodup _ (hfield _ _ _ _ hvalue).1 (FieldValue.nodup_locales _)
  · have hblank : ∀ c ∈ " ".toList, Text.isBlank c = true := List.forall_mem_singleton.2 rfl
    exact (haround "SR-Latn-RS" " " " " hblank hblank).trans (halike _ _ (by decide +kernel))

end Locale

end XmlHarvest
