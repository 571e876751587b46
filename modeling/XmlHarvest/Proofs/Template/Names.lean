import Mathlib.Data.List.Dedup
import XmlHarvest.Proofs.Except
import XmlHarvest.Proofs.OrderedMap
import XmlHarvest.Proofs.Template.Spelling

/-!
# Names of placeholders

The names that a template reports are found in its text, without regard to contexts and to
backslashes. They are the names of the placeholders that its phrase has, contexts included, from
left to right. So they are exactly the names that matter when the template is rendered: a variable
of another name never does, and the value of each of these shows in some rendering.

## Main definitions

* `Template.Phrase.names`: the names of the placeholders of a phrase.
* `Template.Phrase.filled`: the text of a phrase all of whose placeholders have a value.

## Main results

* `Template.Phrase.placeholderNames_spell_append`: the names in the text of a phrase.
* `Template.Phrase.render_congr`: values under other names do not matter.
* `Template.Phrase.length_filled_lt`: a longer value makes a longer text.
* `Template.parse_names_exact`: the names of a template.
-/

namespace XmlHarvest.Template

/-! ## Names in a text -/

/-- A character that begins no placeholder adds no name. -/
lemma placeholderNames_cons {c : Char} {s : List Char} (h : c = '\x7b' → placeholder? s = none) :
    placeholderNames (c :: s) = placeholderNames s := by
  rw [placeholderNames, ite_eq_right_iff.2 h]

/-- Text without opening braces adds no name. -/
lemma placeholderNames_append {s : List Char} (h : '\x7b' ∉ s) (t : List Char) :
    placeholderNames (s ++ t) = placeholderNames t := by
  induction s with
  | nil => rfl
  | cons c s ih =>
    obtain ⟨hc, hs⟩ := not_or.1 (mt List.mem_cons.2 h)
    rw [List.cons_append, placeholderNames_cons fun hc' => absurd hc'.symm hc, ih hs]

/-- A placeholder adds its name. -/
lemma placeholderNames_placeholder {name : List Char} (hname : IsName name) (s : List Char) :
    placeholderNames ('\x7b' :: (name ++ '}' :: s)) =
      String.ofList name :: placeholderNames s := by
  have hbrace : '\x7b' ∉ name ++ ['}'] := by
    intro h
    rcases List.mem_append.1 h with h | h
    · exact absurd (hname.2 _ h) (by decide)
    · simp at h
  have hbehind := placeholderNames_append hbrace s
  rw [List.append_assoc, List.singleton_append] at hbehind
  rw [placeholderNames, if_pos rfl, placeholder?_eq_some_iff.2 ⟨rfl, hname⟩]
  exact congrArg _ hbehind

/-- Text that does not go on with a placeholder: neither a character of a name nor a closing brace
stands at its start. -/
def CutsName (s : List Char) : Prop :=
  ∀ c ∈ s.head?, isPlaceholderChar c = false ∧ c ≠ '}'

/-- A name with its closing brace at the start of escaped text stands there without the escapes, and
does not reach into what follows. -/
lemma exists_append_of_escape {s : List Char} (hs : CutsName s) {w t : List Char}
    (hw : ∀ c ∈ w, isPlaceholderChar c = true ∨ c = '}') :
    ∀ {chars : List Char}, escape chars ++ s = w ++ t → ∃ rest, chars = w ++ rest := by
  induction w with
  | nil => exact fun {chars} _ => ⟨chars, rfl⟩
  | cons a w ih =>
    have ha := hw a List.mem_cons_self
    intro chars h
    cases chars with
    | nil =>
      obtain rfl : s = a :: (w ++ t) := h
      obtain ⟨hname, hbrace⟩ := hs a rfl
      simp [hname, hbrace] at ha
    | cons c chars =>
      rw [escape_cons, Mark.spell] at h
      split at h
      · obtain ⟨rfl, -⟩ := List.cons.inj h
        exact absurd ha (by decide)
      · simp only [List.cons_append, List.cons.injEq] at h
        obtain ⟨rfl, h⟩ := h
        obtain ⟨rest, rfl⟩ := ih (fun d hd => hw d (List.mem_cons_of_mem c hd)) h
        exact ⟨rest, rfl⟩

/-- An escaped text without placeholders adds no name. -/
lemma placeholderNames_escape {chars s : List Char} (hs : CutsName s)
    (h : ¬HasPlaceholder chars) : placeholderNames (escape chars ++ s) = placeholderNames s := by
  induction chars with
  | nil => rfl
  | cons c chars ih =>
    have hrest : ¬HasPlaceholder chars := by
      rintro ⟨before, name, behind, rfl, hname⟩
      exact h ⟨c :: before, name, behind, rfl, hname⟩
    rw [escape_cons, List.append_assoc, Mark.spell]
    split
    · rename_i hc
      have hbrace : c ≠ '\x7b' := by
        rintro rfl
        cases hc
      rw [List.cons_append, List.singleton_append, placeholderNames_cons (by simp),
        placeholderNames_cons fun hc' => absurd hc' hbrace, ih hrest]
    · rw [List.singleton_append, placeholderNames_cons ?_, ih hrest]
      rintro rfl
      by_contra hsome
      obtain ⟨⟨name, behind⟩, hp⟩ := Option.ne_none_iff_exists'.1 hsome
      obtain ⟨heq, hname⟩ := placeholder?_eq_some_iff.1 hp
      have hw : ∀ d ∈ name ++ ['}'], isPlaceholderChar d = true ∨ d = '}' := by
        intro d hd
        rcases List.mem_append.1 hd with hd | hd
        · exact .inl (hname.2 d hd)
        · exact .inr (List.mem_singleton.1 hd)
      obtain ⟨rest, rfl⟩ := exists_append_of_escape (t := behind) hs hw (by simpa using heq)
      exact h ⟨[], name, rest, by simp, hname⟩

namespace Phrase

/-! ## Names in a phrase -/

/-- The names of the placeholders of a phrase, those in contexts included, from left to right and as
often as they occur. -/
def names : Phrase → List String
  | .nil => []
  | .text _ rest => rest.names
  | .placeholder name rest => String.ofList name :: rest.names
  | .context inner rest => inner.names ++ rest.names

/-- Behind a text stands something that does not go on with a placeholder. -/
lemma cutsName_spell {p : Phrase} (hp : ¬p.IsText) {s : List Char} (hs : CutsName s) :
    CutsName (p.spell ++ s) := by
  cases p with
  | nil => exact hs
  | text => exact absurd trivial hp
  | placeholder | context =>
    rintro _ ⟨⟩
    decide

/-- **The names in the text of a tidy phrase** are those of its placeholders, in front of text that
does not go on with a placeholder. -/
lemma placeholderNames_spell_append : ∀ {p : Phrase}, p.IsTidy → ∀ {s : List Char}, CutsName s →
    placeholderNames (p.spell ++ s) = p.names ++ placeholderNames s
  | .nil, _, _, _ => rfl
  | .text chars rest, ⟨_, hchars, hrest, htidy⟩, s, hs => by
    rw [spell, List.append_assoc, placeholderNames_escape (cutsName_spell hrest hs) hchars,
      placeholderNames_spell_append htidy hs, names]
  | .placeholder name rest, ⟨hname, htidy⟩, s, hs => by
    rw [spell, List.cons_append, List.append_assoc, List.cons_append,
      placeholderNames_placeholder hname, placeholderNames_spell_append htidy hs, names,
      List.cons_append]
  | .context inner rest, ⟨hinner, htidy⟩, s, hs => by
    have hclosing : CutsName ('>' :: (rest.spell ++ s)) := by
      rintro _ ⟨⟩
      decide
    rw [spell, List.cons_append, List.append_assoc, List.cons_append,
      placeholderNames_cons (by simp), placeholderNames_spell_append hinner hclosing,
      placeholderNames_cons (by simp), placeholderNames_spell_append htidy hs, names,
      List.append_assoc]

/-! ## Which values matter -/

section Rendering

variable {value? value?' : String → Option String}

/-- Values under other names do not matter to a context. -/
lemma renderContext_congr {p : Phrase} (h : ∀ name ∈ p.names, value? name = value?' name) :
    p.renderContext value? = p.renderContext value?' := by
  induction p with
  | nil => rfl
  | text chars rest ih => rw [renderContext, renderContext, ih h]
  | placeholder name rest ih =>
    obtain ⟨hname, hrest⟩ := List.forall_mem_cons.1 h
    rw [renderContext, renderContext, ih hrest, hname]
  | context inner rest ihi ihr =>
    obtain ⟨hinner, hrest⟩ := List.forall_mem_append.1 h
    rw [renderContext, renderContext, ihi hinner, ihr hrest]

/-- **Values under other names do not matter.** -/
lemma render_congr {p : Phrase} (h : ∀ name ∈ p.names, value? name = value?' name) :
    p.render value? = p.render value?' := by
  induction p with
  | nil => rfl
  | text chars rest ih => rw [render, render, ih h]
  | placeholder name rest ih =>
    obtain ⟨hname, hrest⟩ := List.forall_mem_cons.1 h
    rw [render, render, ih hrest, hname]
  | context inner rest _ ihr =>
    obtain ⟨hinner, hrest⟩ := List.forall_mem_append.1 h
    rw [render, render, renderContext_congr hinner, ihr hrest]

end Rendering

/-- The text of a phrase all of whose placeholders have a value. -/
def filled (value : String → String) : Phrase → String
  | .nil => ""
  | .text chars rest => String.ofList chars ++ rest.filled value
  | .placeholder name rest => value (String.ofList name) ++ rest.filled value
  | .context inner rest => inner.filled value ++ rest.filled value

section Filled

variable {value value' : String → String}

/-- A context is kept if its placeholders have values that are not empty. -/
lemma renderContext_eq_filled {value? : String → Option String} {p : Phrase}
    (h : ∀ name ∈ p.names, value? name = some (value name) ∧ value name ≠ "") :
    p.renderContext value? = some (p.filled value) := by
  induction p with
  | nil => rfl
  | text chars rest ih =>
    rw [renderContext, ih h]
    rfl
  | placeholder name rest ih =>
    obtain ⟨⟨hname, hne⟩, hrest⟩ := List.forall_mem_cons.1 h
    rw [renderContext, ih hrest, hname, Option.filter_some, if_pos (by simpa using hne)]
    rfl
  | context inner rest ihi ihr =>
    obtain ⟨hinner, hrest⟩ := List.forall_mem_append.1 h
    rw [renderContext, ihi hinner, ihr hrest]
    rfl

/-- A phrase renders with all its contexts if its placeholders have values that are not empty. -/
lemma render_eq_filled {value? : String → Option String} {p : Phrase}
    (h : ∀ name ∈ p.names, value? name = some (value name) ∧ value name ≠ "") :
    p.render value? = some (p.filled value) := by
  induction p with
  | nil => rfl
  | text chars rest ih =>
    rw [render, ih h]
    rfl
  | placeholder name rest ih =>
    obtain ⟨⟨hname, hne⟩, hrest⟩ := List.forall_mem_cons.1 h
    rw [render, ih hrest, hname]
    rfl
  | context inner rest _ ihr =>
    obtain ⟨hinner, hrest⟩ := List.forall_mem_append.1 h
    rw [render, renderContext_eq_filled hinner, ihr hrest]
    rfl

/-- Longer values make no shorter text. -/
lemma length_filled_le (h : ∀ name, (value name).length ≤ (value' name).length) (p : Phrase) :
    (p.filled value).length ≤ (p.filled value').length := by
  induction p with
  | nil => exact le_rfl
  | text chars rest ih =>
    simp only [filled, String.length_append]
    omega
  | placeholder name rest ih =>
    have := h (String.ofList name)
    simp only [filled, String.length_append]
    omega
  | context inner rest ihi ihr =>
    simp only [filled, String.length_append]
    omega

/-- **A longer value makes a longer text**, if its name is the name of a placeholder. -/
lemma length_filled_lt (h : ∀ name, (value name).length ≤ (value' name).length) {name : String}
    (hlt : (value name).length < (value' name).length) {p : Phrase} (hmem : name ∈ p.names) :
    (p.filled value).length < (p.filled value').length := by
  induction p with
  | nil => cases hmem
  | text chars rest ih =>
    have := ih hmem
    simp only [filled, String.length_append]
    omega
  | placeholder other rest ih =>
    have hother := h (String.ofList other)
    have hrest := length_filled_le h rest
    simp only [filled, String.length_append]
    rcases List.mem_cons.1 hmem with rfl | hmem
    · omega
    · have := ih hmem
      omega
  | context inner rest ihi ihr =>
    have hinner := length_filled_le h inner
    have hrest := length_filled_le h rest
    simp only [filled, String.length_append]
    rcases List.mem_append.1 hmem with hmem | hmem
    · have := ihi hmem
      omega
    · have := ihr hmem
      omega

end Filled

end Phrase

/-! ## Variables -/

/-- A key is found in a list of entries, one for each of some keys, if it is one of them. -/
lemma lookup_map_pair {κ ν : Type} [DecidableEq κ] (f : κ → ν) (k : κ) (ks : List κ) :
    (ks.map fun a => (a, f a)).lookup k = if k ∈ ks then some (f k) else none := by
  induction ks with
  | nil => rfl
  | cons a ks ih =>
    rw [List.map_cons, List.lookup_cons]
    by_cases h : k = a
    · simp [h]
    · rw [beq_false_of_ne h]
      simp only [ih, List.mem_cons, h, false_or]

/-- Variables with one value each, in one locale. -/
def singleValues (locale : Locale) (value : String → String) (names : List String) : Variables :=
  ⟨names.dedup.map fun name => (name, ⟨[(locale, [value name])], by simp⟩), by
    simpa [Function.comp_def] using List.nodup_dedup names⟩

section SingleValues

variable (locale : Locale) (value : String → String) (names : List String)

/-- The variable of a name. -/
lemma get?_singleValues (name : String) : (singleValues locale value names).get? name =
    if name ∈ names then some ⟨[(locale, [value name])], by simp⟩ else none := by
  rw [OrderedMap.get?, singleValues, lookup_map_pair]
  simp only [List.mem_dedup]

/-- The value of a name in the locale. -/
lemma lookup_singleValues {name : String} (h : name ∈ names) :
    lookup (singleValues locale value names) locale name = some (value name) := by
  rw [lookup, get?_singleValues, if_pos h]
  simp [OrderedMap.get?, Option.filter_some]

end SingleValues

/-! ## The names of a template -/

/-- The text of a template is the one that it was read from. -/
lemma source_eq_of_parse {source : String} {t : Template} (h : parse source = .ok t) :
    t.source = source := by
  unfold parse at h
  split at h
  · cases h
    rfl
  · cases h

/-- The names in the text of a template are those of its phrase. -/
lemma placeholderNames_source (t : Template) :
    placeholderNames t.source.toList = t.phrase.names := by
  obtain ⟨hcanonical, hspell⟩ := Phrase.parse_eq_ok_iff_spell.1 t.phrase_eq
  have hnames := Phrase.placeholderNames_spell_append hcanonical.tidy (s := []) nofun
  rw [List.append_nil, hspell] at hnames
  exact hnames.trans (List.append_nil _)

/-- The names of a template are the names of its placeholders. -/
lemma mem_names_iff (t : Template) {name : String} : name ∈ t.names ↔ name ∈ t.phrase.names := by
  rw [Template.names, placeholderNames_source, List.mem_eraseDups]

/-- The names of a template are listed once. -/
lemma nodup_names (t : Template) : t.names.Nodup :=
  nodup_eraseDups _

/-- Variables under other names do not show when a template is rendered. -/
lemma render_congr_of_names {t : Template} {vs vs' : Variables}
    (h : ∀ name ∈ t.names, vs.get? name = vs'.get? name) :
    (∀ locale, t.renderLocale vs locale = t.renderLocale vs' locale) ∧
      t.render vs = t.render vs' := by
  have hlocale : ∀ locale, t.renderLocale vs locale = t.renderLocale vs' locale := by
    intro locale
    refine Phrase.render_congr fun name hname => ?_
    rw [lookup, lookup, h name (t.mem_names_iff.2 hname)]
  have hlocales : t.locales vs = t.locales vs' := by
    rw [Template.locales, Template.locales, List.filterMap_congr h]
  refine ⟨hlocale, ?_⟩
  rw [render, render, hlocales, funext hlocale]

/-- The variable of each name shows when a template is rendered: with a longer value it makes a
longer text. -/
lemma exists_renderLocale_ne {t : Template} {name : String} (h : name ∈ t.names)
    (locale : Locale) : ∃ vs vs' : Variables, (∀ other ≠ name, vs.get? other = vs'.get? other) ∧
      t.renderLocale vs locale ≠ t.renderLocale vs' locale := by
  let value (_ : String) : String := "x"
  let value' (other : String) : String := if other = name then "xx" else "x"
  have hlonger : "x".length < "xx".length := by decide
  have hle : ∀ other, (value other).length ≤ (value' other).length := by
    intro other
    by_cases hother : other = name
    · simpa [value, value', hother] using hlonger.le
    · simp [value, value', hother]
  have hlt : (value name).length < (value' name).length := by simpa [value, value'] using hlonger
  have hrender : ∀ value : String → String, (∀ other, value other ≠ "") →
      t.renderLocale (singleValues locale value t.names) locale = some (t.phrase.filled value) :=
    fun value hne => Phrase.render_eq_filled fun other hother =>
      ⟨lookup_singleValues locale value t.names (t.mem_names_iff.2 hother), hne other⟩
  refine ⟨singleValues locale value t.names, singleValues locale value' t.names, ?_, ?_⟩
  · intro other hother
    simp only [get?_singleValues, value, value', if_neg hother]
  · have hlength := Phrase.length_filled_lt hle hlt (t.mem_names_iff.1 h)
    rw [hrender value (by simp [value]), hrender value' fun other => ?_]
    · intro heq
      rw [Option.some.inj heq] at hlength
      exact lt_irrefl _ hlength
    · by_cases hother : other = name <;> simp [value', hother]

/-- **The names of a template are those of its placeholders.** For every text that is read as a
template, the names found in the text are the names of the placeholders in its phrase, one by one
and from left to right; the names of the template are these in order of first appearance, the
template is constant if there are none, and the names of the text are the same. Rendering depends on
the variables of these names only, and on the variable of each of them.

**Proof sketch.** The texts of a canonical phrase hold no placeholder and begin none that what
stands behind them would complete, so the names in what the phrase is written as are those of its
placeholders (`Phrase.placeholderNames_spell_append`), and the text of a template is what its phrase
is written as. Rendering asks for values under these names only (`Phrase.render_congr`). If all of
them have values, one more character in one of the values makes a longer text
(`Phrase.length_filled_lt`). -/
theorem parse_names_exact {source : String} {t : Template} (h : parse source = .ok t) :
    placeholderNames source.toList = t.phrase.names ∧
      t.names = t.phrase.names.eraseDups ∧
      (t.isConstant = true ↔ t.phrase.names = []) ∧
      (∀ name, name ∈ variableNames source ↔ name ∈ t.names) ∧
      (∀ vs vs' : Variables, (∀ name ∈ t.names, vs.get? name = vs'.get? name) →
        (∀ locale, t.renderLocale vs locale = t.renderLocale vs' locale) ∧
          t.render vs = t.render vs') ∧
      ∀ name ∈ t.names, ∀ locale, ∃ vs vs' : Variables,
        (∀ other ≠ name, vs.get? other = vs'.get? other) ∧
          t.renderLocale vs locale ≠ t.renderLocale vs' locale := by
  obtain rfl := source_eq_of_parse h
  have hnames : t.names = t.phrase.names.eraseDups := by
    rw [Template.names, placeholderNames_source]
  refine ⟨t.placeholderNames_source, hnames, ?_, fun name => ?_, fun _ _ => render_congr_of_names,
    fun _ => exists_renderLocale_ne⟩
  · rw [isConstant, hnames, List.isEmpty_iff]
    cases t.phrase.names <;> simp [List.eraseDups_cons]
  · rw [variableNames, List.mem_mergeSort, Template.names]

/-- Braces that begin no placeholder, a backslash in front of one that does, and a name that is also
found in a context. -/
theorem parse_names_exact_broken_braces : ∃ t : Template,
    parse "\x7ba\x7bb\x7d\\\x7bc\x7d<\x7bb\x7d\x7bd\\<\x7d>\x7b\x7d" = .ok t ∧
      t.phrase.names = ["b", "c", "b"] ∧ t.names = ["b", "c"] ∧ t.isConstant = false ∧
      "c" ∈ variableNames "\x7ba\x7bb\x7d\\\x7bc\x7d<\x7bb\x7d\x7bd\\<\x7d>\x7b\x7d" ∧
      t.render (singleValues .root id ["a", "b", "c"]) =
        t.render (singleValues .root id ["b", "c", "d"]) ∧
      ∃ vs vs' : Variables, (∀ other ≠ "c", vs.get? other = vs'.get? other) ∧
        t.renderLocale vs .root ≠ t.renderLocale vs' .root := by
  have hparse : (parse "\x7ba\x7bb\x7d\\\x7bc\x7d<\x7bb\x7d\x7bd\\<\x7d>\x7b\x7d").toOption.map
      (fun t => t.phrase.names) = some ["b", "c", "b"] := by
    decide +kernel
  obtain ⟨t, ht, hphrase⟩ := Option.map_eq_some_iff.1 hparse
  have ht := toOption_eq_some_iff.1 ht
  obtain ⟨-, hnames, hconstant, hsame, hrender, hshows⟩ := parse_names_exact ht
  have hnames : t.names = ["b", "c"] := by
    rw [hnames, hphrase]
    decide
  refine ⟨t, ht, hphrase, hnames, ?_, ?_, (hrender _ _ fun name hname => ?_).2, ?_⟩
  · rw [hphrase] at hconstant
    simpa using hconstant
  · rw [hsame, hnames]
    decide
  · rw [hnames] at hname
    have hother : name ≠ "a" ∧ name ≠ "d" := by
      rcases List.mem_pair.1 hname with rfl | rfl <;> decide
    simp [get?_singleValues, hother.1, hother.2]
  · exact hshows "c" (by rw [hnames]; decide) .root

end XmlHarvest.Template
