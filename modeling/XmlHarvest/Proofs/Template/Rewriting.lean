import Mathlib.Data.List.Basic
import XmlHarvest.Proofs.Except
import XmlHarvest.Proofs.OrderedMap
import XmlHarvest.Proofs.Template.Extraction

/-!
# Rendering by rewriting

A template can be rendered without taking it apart. The context that closes first is replaced by its
inner text with the placeholders filled in, or by nothing if one of them has no value or an empty
one, until no context is left; then the remaining placeholders are filled in and the angle brackets
lose their backslashes. This is what rendering the phrase of the template gives, provided that
neither the values nor the texts hold characters that would be taken for delimiters or braces once
they are put in.

## Main definitions

* `Template.fill?`: a text with its placeholders replaced by their values.
* `Template.collapse`: what a context is replaced by.
* `Template.unescape`: a text without the backslashes of its angle brackets.
* `Template.BracesNamed`: every brace of a text belongs to a placeholder.

## Main results

* `Template.fill?_spell`: filling in the text of a phrase without contexts renders it.
* `Template.collapse_spell`: what a context is replaced by is its rendering.
* `Template.Phrase.render_settleAll`: rendering the contexts first changes nothing.
* `Template.replaceContexts_eq_render`: rewriting renders.
-/

namespace XmlHarvest.Template

/-! ## Filling in values -/

lemma length_lt_of_placeholder? {c : Char} {s name rest : List Char}
    (h : (if c = '\x7b' then placeholder? s else none) = some (name, rest)) :
    rest.length < s.length := by
  split at h
  · obtain ⟨rfl, -⟩ := placeholder?_eq_some_iff.1 h
    simp only [List.length_append, List.length_cons]
    omega
  · cases h

/-- A text with its placeholders replaced by their values; `none` if one of them has none. -/
def fill? (value? : String → Option String) : List Char → Option (List Char)
  | [] => some []
  | c :: r =>
    match _h : if c = '\x7b' then placeholder? r else none with
    | some (name, rest) => do
      let value ← value? (String.ofList name)
      let filled ← fill? value? rest
      return value.toList ++ filled
    | none => (fill? value? r).map (c :: ·)
termination_by s => s.length
decreasing_by
  · have := length_lt_of_placeholder? _h
    simp only [List.length_cons]
    omega
  · simp

/-- The values of variables, empty ones left out. -/
def nonempty (value? : String → Option String) (name : String) : Option String :=
  (value? name).filter fun v => v ≠ ""

/-- What a context is replaced by: its inner text with the placeholders filled in, or nothing if one
of them has no value or an empty one. -/
def collapse (value? : String → Option String) (inner : List Char) : List Char :=
  (fill? (nonempty value?) inner).getD []

/-- A text without the backslashes of its angle brackets. -/
def unescape : List Char → List Char
  | [] => []
  | [c] => [c]
  | c :: d :: r =>
    if c = '\\' && isDelimiter d then d :: unescape r else c :: unescape (d :: r)

/-- Every brace of a text belongs to a placeholder: without its placeholders it has none. -/
def BracesNamed (s : List Char) : Prop :=
  ∀ rest, fill? (fun _ => some "") s = some rest → '\x7b' ∉ rest ∧ '}' ∉ rest

/-- A character that means itself wherever it stands in a template. -/
def IsOrdinary (c : Char) : Prop :=
  c ≠ '<' ∧ c ≠ '>' ∧ c ≠ '\x7b' ∧ c ≠ '}' ∧ c ≠ '\\'

section Filling

variable {value? : String → Option String}

/-- A character that begins no placeholder is kept. -/
lemma fill?_cons {c : Char} {s : List Char} (h : c = '\x7b' → placeholder? s = none) :
    fill? value? (c :: s) = (fill? value? s).map (c :: ·) := by
  rw [fill?]
  split
  · rename_i hsome
    rw [ite_eq_right_iff.2 h] at hsome
    cases hsome
  · rfl

/-- A placeholder is replaced by its value. -/
lemma fill?_placeholder {name : List Char} (hname : IsName name) (s : List Char) :
    fill? value? ('\x7b' :: (name ++ '}' :: s)) =
      (value? (String.ofList name)).bind fun v => (fill? value? s).map (v.toList ++ ·) := by
  have hsome : (if '\x7b' = '\x7b' then placeholder? (name ++ '}' :: s) else none) =
      some (name, s) := by
    rw [if_pos rfl, placeholder?_eq_some_iff.2 ⟨rfl, hname⟩]
  rw [fill?]
  split
  · rename_i hfound
    rw [hsome] at hfound
    cases hfound
    cases value? (String.ofList name) with
    | none => rfl
    | some v => cases fill? value? s <;> rfl
  · rename_i hnone
    rw [hsome] at hnone
    cases hnone

/-- Text in which no placeholder begins is kept. -/
lemma fill?_append {s : List Char} (h : '\x7b' ∉ s) (t : List Char) :
    fill? value? (s ++ t) = (fill? value? t).map (s ++ ·) := by
  induction s with
  | nil => simp
  | cons c s ih =>
    rw [List.cons_append, fill?_cons fun hc => absurd hc fun hc => h (by simp [hc]),
      ih fun hs => h (List.mem_cons_of_mem c hs), Option.map_map]
    rfl

end Filling

/-- Escaping adds backslashes only. -/
lemma mem_escape {c : Char} {s : List Char} (h : c ∈ escape s) : c = '\\' ∨ c ∈ s := by
  obtain ⟨d, hd, hc⟩ := List.mem_flatMap.1 h
  rw [Mark.spell] at hc
  split at hc
  · rcases List.mem_cons.1 hc with rfl | hc
    · exact .inl rfl
    · exact .inr (List.mem_singleton.1 hc ▸ hd)
  · exact .inr (List.mem_singleton.1 hc ▸ hd)

lemma mem_escape_of_mem {c : Char} {s : List Char} (h : c ∈ s) : c ∈ escape s := by
  refine List.mem_flatMap.2 ⟨c, h, ?_⟩
  rw [Mark.spell]
  split <;> simp

/-- **Taking the backslashes off again** gives the text that was escaped. -/
lemma unescape_escape (s : List Char) : unescape (escape s) = s := by
  -- a character in front of escaped text escapes nothing in it
  have hcons : ∀ c t, unescape (c :: escape t) = c :: unescape (escape t) := by
    intro c t
    cases t with
    | nil => rfl
    | cons d t =>
      rw [escape_cons, Mark.spell]
      cases hd : isDelimiter d with
      | true =>
        have : isDelimiter '\\' = false := by decide
        simp [unescape, this]
      | false => simp [unescape, hd]
  induction s with
  | nil => rfl
  | cons c s ih =>
    rw [escape_cons, Mark.spell]
    cases hc : isDelimiter c with
    | true => simp [unescape, hc, ih]
    | false =>
      rw [if_neg (by simp), List.singleton_append, hcons, ih]

namespace Phrase

/-! ## Plain phrases -/

/-- No text of a phrase has a brace, and all names are names. -/
def IsPlain : Phrase → Prop
  | .nil => True
  | .text chars rest => ('\x7b' ∉ chars ∧ '}' ∉ chars) ∧ rest.IsPlain
  | .placeholder name rest => IsName name ∧ rest.IsPlain
  | .context inner rest => inner.IsPlain ∧ rest.IsPlain

/-- The phrases inside the contexts of a plain phrase are plain. -/
lemma IsPlain.of_mem_contexts {p q : Phrase} (h : p.IsPlain) (hq : q ∈ p.contexts) : q.IsPlain := by
  induction p with
  | nil => cases hq
  | text chars rest ih | placeholder name rest ih => exact ih h.2 hq
  | context inner rest ihi ihr =>
    rcases List.mem_append.1 hq with hq | hq
    · exact ihi h.1 hq
    · rcases List.mem_cons.1 hq with rfl | hq
      · exact h.1
      · exact ihr h.2 hq

/-- Text without braces in the place of a context keeps a phrase plain. -/
lemma IsPlain.settle {f : Phrase → List Char}
    (hf : ∀ q : Phrase, q.IsPlain → q.contexts = [] → '\x7b' ∉ f q ∧ '}' ∉ f q) {p : Phrase}
    (h : p.IsPlain) : (p.settle f).IsPlain := by
  induction p with
  | nil => exact h
  | text chars rest ih | placeholder name rest ih => exact ⟨h.1, ih h.2⟩
  | context inner rest ihi _ =>
    rw [Phrase.settle]
    split
    · rename_i hflat
      exact ⟨hf inner h.1 (List.isEmpty_iff.1 hflat), h.2⟩
    · exact ⟨ihi h.1, h.2⟩

/-! ## Rendering phrases without contexts -/

section Rendering

variable {value? : String → Option String}

/-- A phrase without contexts is rendered in a context like outside of it, but empty values count as
missing. -/
lemma renderContext_of_flat {p : Phrase} (h : p.contexts = []) :
    p.renderContext value? = p.render (nonempty value?) := by
  induction p with
  | nil => rfl
  | text chars rest ih => rw [renderContext, render, ih h]
  | placeholder name rest ih =>
    rw [renderContext, render, ih h]
    rfl
  | context inner rest => simp [contexts] at h

/-- **Filling in the text of a phrase without contexts renders it**, with its angle brackets
escaped. -/
lemma fill?_spell (hvalues : ∀ name v, value? name = some v → ∀ c ∈ v.toList, isDelimiter c = false)
    {p : Phrase} (hplain : p.IsPlain) (hflat : p.contexts = []) :
    fill? value? (p.marks.flatMap Mark.spell) =
      (p.render value?).map fun text => escape text.toList := by
  induction p with
  | nil => rw [marks, List.flatMap_nil, fill?]; rfl
  | text chars rest ih =>
    have hbrace : '\x7b' ∉ escape chars := fun h =>
      (mem_escape h).elim (absurd · (by decide)) hplain.1.1
    rw [marks, List.flatMap_append, flatMap_spell_map_char, fill?_append hbrace, ih hplain.2 hflat,
      render, Option.map_map, Option.map_map]
    congr 1
    funext text
    simp
  | placeholder name rest ih =>
    have hspell : (placeholder name rest).marks.flatMap Mark.spell =
        '\x7b' :: (name ++ '}' :: rest.marks.flatMap Mark.spell) := by
      rw [marks, List.flatMap_cons, List.flatMap_append, List.flatMap_cons, flatMap_spell_map_char,
        escape_name hplain.1]
      rfl
    rw [hspell, fill?_placeholder hplain.1, ih hplain.2 hflat, render]
    cases hv : value? (String.ofList name) with
    | none => rfl
    | some v =>
      rw [Option.bind_some, Option.map_map, Option.map_map]
      congr 1
      funext text
      simp [escape_eq_self (hvalues _ v hv)]
  | context inner rest => simp [contexts] at hflat

/-- Rendering a plain phrase without contexts brings in no braces but those of values. -/
lemma not_mem_of_render {c : Char} (hc : c = '\x7b' ∨ c = '}')
    (hvalues : ∀ name v, value? name = some v → c ∉ v.toList) {p : Phrase} (hplain : p.IsPlain)
    (hflat : p.contexts = []) {text : String} (h : p.render value? = some text) :
    c ∉ text.toList := by
  induction p generalizing text with
  | nil =>
    cases h
    simp
  | text chars rest ih =>
    obtain ⟨text, htext, rfl⟩ := Option.map_eq_some_iff.1 h
    have hchars : c ∉ chars := by
      rcases hc with rfl | rfl
      · exact hplain.1.1
      · exact hplain.1.2
    simpa [hchars] using ih hplain.2 hflat htext
  | placeholder name rest ih =>
    rw [render] at h
    split at h
    · rename_i v hv
      obtain ⟨text, htext, rfl⟩ := Option.map_eq_some_iff.1 h
      simpa [hvalues _ v hv] using ih hplain.2 hflat htext
    · cases h
  | context inner rest => simp [contexts] at hflat

/-- If no value is empty, a phrase without contexts is rendered as nothing only if it is written as
nothing. -/
lemma marks_eq_nil_of_render (hvalues : ∀ name, value? name ≠ some "") {p : Phrase}
    (hflat : p.contexts = []) (h : p.render value? = some "") : p.marks = [] := by
  induction p with
  | nil => rfl
  | text chars rest ih =>
    obtain ⟨text, htext, hempty⟩ := Option.map_eq_some_iff.1 h
    obtain ⟨hchars, rfl⟩ : chars = [] ∧ text = "" := by simpa using hempty
    rw [marks, hchars, ih hflat htext]
    rfl
  | placeholder name rest ih =>
    rw [render] at h
    split at h
    · rename_i v hv
      obtain ⟨text, -, hempty⟩ := Option.map_eq_some_iff.1 h
      obtain ⟨rfl, -⟩ : v = "" ∧ text = "" := by simpa using hempty
      exact absurd hv (hvalues _)
    · cases h
  | context inner rest => simp [contexts] at hflat

/-- If no value is empty or has a backslash, a phrase without contexts is rendered with a backslash
at the end only if its marks end in one. -/
lemma getLast?_marks_of_render (hvalues : ∀ name, value? name ≠ some "")
    (hbackslash : ∀ name v, value? name = some v → '\\' ∉ v.toList) {p : Phrase}
    (hflat : p.contexts = []) {text : String} (h : p.render value? = some text)
    (hlast : text.toList.getLast? = some '\\') : p.marks.getLast? = some (.char '\\') := by
  induction p generalizing text with
  | nil =>
    cases h
    simp at hlast
  | text chars rest ih =>
    obtain ⟨text, htext, rfl⟩ := Option.map_eq_some_iff.1 h
    rw [String.toList_append, String.toList_ofList, List.getLast?_append] at hlast
    rw [marks, List.getLast?_append]
    by_cases hempty : text = ""
    · subst hempty
      have hchars : chars.getLast? = some '\\' := by simpa using hlast
      rw [marks_eq_nil_of_render (p := rest) hvalues hflat htext, List.getLast?_map, hchars]
      rfl
    · have hne : text.toList ≠ [] := by simpa using hempty
      rw [List.getLast?_eq_some_getLast hne, Option.some_or,
        ← List.getLast?_eq_some_getLast hne] at hlast
      rw [ih hflat htext hlast]
      rfl
  | placeholder name rest ih =>
    rw [render] at h
    split at h
    · rename_i v hv
      obtain ⟨text, htext, rfl⟩ := Option.map_eq_some_iff.1 h
      rw [String.toList_append, List.getLast?_append] at hlast
      cases htail : text.toList.getLast? with
      | none =>
        rw [htail, Option.none_or] at hlast
        exact absurd (List.mem_of_getLast? hlast) (hbackslash _ v hv)
      | some c =>
        rw [htail, Option.some_or, ← htail] at hlast
        have hmarks := ih hflat htext hlast
        rw [marks, List.getLast?_cons, List.getLast?_append, List.getLast?_cons, hmarks]
        rfl
    · cases h
  | context inner rest => simp [contexts] at hflat

end Rendering

/-! ## Rendering the contexts first -/

/-- What a context is rendered as. -/
def settled (value? : String → Option String) (inner : Phrase) : List Char :=
  ((inner.renderContext value?).getD "").toList

/-- **Putting the renderings of contexts in their place changes no rendering**, from the inside
out. -/
lemma render_settleAll (value? : String → Option String) (p : Phrase) :
    (p.settleAll (settled value?)).render value? = p.render value? ∧
      (p.settleAll (settled value?)).renderContext value? = p.renderContext value? := by
  induction p with
  | nil => exact ⟨rfl, rfl⟩
  | text chars rest ih =>
    simp only [settleAll, render, renderContext, ih.1, ih.2, and_self]
  | placeholder name rest ih =>
    simp only [settleAll, render, renderContext, ih.1, ih.2, and_self]
  | context inner rest ihi ihr =>
    simp only [settleAll, render, renderContext, ihr.1, ihr.2, settled, ihi.2, String.ofList_toList,
      and_self]

/-! ## Braces of a text -/

/-- No placeholder begins with text that begins none by itself, in front of anything that does not
go on like one. -/
lemma placeholder?_escape {chars behind : List Char} (hchars : placeholder? chars = none)
    (hbehind : ∀ c ∈ behind.head?, isPlaceholderChar c = false ∧ c ≠ '}') :
    placeholder? (escape chars ++ behind) = none := by
  -- whatever name stands there stands in the text
  have hname : ∀ {chars name rest : List Char}, (∀ c ∈ name, isPlaceholderChar c = true) →
      escape chars ++ behind = name ++ '}' :: rest → ∃ rest', chars = name ++ '}' :: rest' := by
    intro chars
    induction chars with
    | nil =>
      intro name rest hname heq
      rw [escape_nil, List.nil_append] at heq
      cases name with
      | nil => exact absurd rfl (hbehind '}' (by rw [heq]; rfl)).2
      | cons c name =>
        have := (hbehind c (by rw [heq]; rfl)).1
        rw [hname c List.mem_cons_self] at this
        cases this
    | cons d chars ih =>
      intro name rest hname heq
      rw [escape_cons, Mark.spell] at heq
      split at heq
      · cases name with
        | nil => cases heq
        | cons c name =>
          simp only [List.cons_append, List.cons.injEq] at heq
          exact absurd (hname c List.mem_cons_self) (by rw [← heq.1]; decide)
      · cases name with
        | nil =>
          cases heq
          exact ⟨chars, rfl⟩
        | cons c name =>
          simp only [List.cons_append, List.cons.injEq] at heq
          obtain ⟨rfl, heq⟩ := heq
          obtain ⟨rest', rfl⟩ := ih (fun c hc => hname c (List.mem_cons_of_mem _ hc)) heq
          exact ⟨rest', rfl⟩
  cases hfound : placeholder? (escape chars ++ behind) with
  | none => rfl
  | some found =>
    obtain ⟨name, rest⟩ := found
    obtain ⟨heq, hvalid⟩ := placeholder?_eq_some_iff.1 hfound
    obtain ⟨rest', rfl⟩ := hname hvalid.2 heq
    rw [placeholder?_eq_some_iff.2 ⟨rfl, hvalid⟩] at hchars
    cases hchars

/-- Text that holds no placeholder is kept when it is filled in, in front of anything that does not
go on like one. -/
lemma fill?_escape {value? : String → Option String} {chars : List Char}
    (hchars : ¬HasPlaceholder chars) {behind : List Char}
    (hbehind : ∀ c ∈ behind.head?, isPlaceholderChar c = false ∧ c ≠ '}') :
    fill? value? (escape chars ++ behind) = (fill? value? behind).map (escape chars ++ ·) := by
  induction chars with
  | nil => simp
  | cons c chars ih =>
    have hrest : ¬HasPlaceholder chars := by
      rintro ⟨before, name, rest, rfl, hname⟩
      exact hchars ⟨c :: before, name, rest, rfl, hname⟩
    rw [escape_cons, Mark.spell]
    split
    · rename_i hc
      rw [List.cons_append, List.singleton_append, List.cons_append,
        fill?_cons fun h => absurd h (by decide), List.cons_append,
        fill?_cons fun h => absurd hc (by rw [h]; decide), ih hrest, Option.map_map, Option.map_map]
      rfl
    · rw [List.singleton_append, List.cons_append, fill?_cons, ih hrest, Option.map_map]
      · rfl
      · rintro rfl
        exact placeholder?_escape (not_hasPlaceholder_iff.1 hchars [] chars rfl) hbehind

/-- The braces of a tidy phrase are those of its placeholders if no brace is left in what it is
written as when its placeholders are taken out, in front of the end of a context or of nothing. -/
lemma exists_fill?_eq : ∀ {p : Phrase}, p.IsTidy → ∃ erased : List Char,
    (∀ {behind : List Char}, (∀ c ∈ behind.head?, c = '>') →
      fill? (fun _ => some "") (p.spell ++ behind) =
        (fill? (fun _ => some "") behind).map (erased ++ ·)) ∧
      ('\x7b' ∉ erased → '}' ∉ erased → p.IsPlain)
  | .nil, _ => ⟨[], fun _ => by simp [spell], fun _ _ => trivial⟩
  | .text chars rest, ⟨_, hchars, hrest, htidy⟩ => by
    obtain ⟨erased, hfill, hplain⟩ := exists_fill?_eq htidy
    refine ⟨escape chars ++ erased, fun {behind} hbehind => ?_, fun hopen hclose => ?_⟩
    · rw [spell, List.append_assoc, fill?_escape hchars, hfill hbehind, Option.map_map]
      · simp only [Function.comp_def, List.append_assoc]
      · intro c hc
        cases rest with
        | text => exact absurd trivial hrest
        | nil =>
          obtain rfl := hbehind c hc
          decide
        | placeholder | context =>
          cases hc
          decide
    · refine ⟨⟨fun h => hopen ?_, fun h => hclose ?_⟩,
        hplain (fun h => hopen ?_) fun h => hclose ?_⟩
      · exact List.mem_append_left _ (mem_escape_of_mem h)
      · exact List.mem_append_left _ (mem_escape_of_mem h)
      · exact List.mem_append_right _ h
      · exact List.mem_append_right _ h
  | .placeholder name rest, ⟨hname, htidy⟩ => by
    obtain ⟨erased, hfill, hplain⟩ := exists_fill?_eq htidy
    refine ⟨erased, fun {behind} hbehind => ?_, fun hopen hclose => ⟨hname, hplain hopen hclose⟩⟩
    rw [spell, List.cons_append, List.append_assoc, List.cons_append, fill?_placeholder hname,
      hfill hbehind, Option.bind_some, Option.map_map]
    rfl
  | .context inner rest, ⟨hinner, hrest⟩ => by
    obtain ⟨erased, hfill, hplain⟩ := exists_fill?_eq hinner
    obtain ⟨erased', hfill', hplain'⟩ := exists_fill?_eq hrest
    refine ⟨'<' :: (erased ++ '>' :: erased'), fun {behind} hbehind => ?_, fun hopen hclose => ?_⟩
    · rw [spell, List.cons_append, List.append_assoc, List.cons_append,
        fill?_cons fun h => absurd h (by decide), hfill fun c hc => by cases hc; rfl,
        fill?_cons fun h => absurd h (by decide), hfill' hbehind, Option.map_map, Option.map_map,
        Option.map_map]
      simp only [Function.comp_def, List.append_assoc, List.cons_append]
    · simp only [List.mem_cons, List.mem_append, not_or] at hopen hclose
      exact ⟨hplain hopen.2.1 hclose.2.1, hplain' hopen.2.2.2 hclose.2.2.2⟩

/-- A tidy phrase is plain if every brace of what it is written as belongs to a placeholder. -/
lemma IsTidy.isPlain {p : Phrase} (h : p.IsTidy) (hbraces : BracesNamed p.spell) : p.IsPlain := by
  obtain ⟨erased, hfill, hplain⟩ := exists_fill?_eq h
  have hspell := @hfill [] fun c hc => by cases hc
  rw [List.append_nil, fill?, Option.map_some, List.append_nil] at hspell
  obtain ⟨hopen, hclose⟩ := hbraces erased hspell
  exact hplain hopen hclose

end Phrase

/-! ## Rewriting -/

/-- What a context is replaced by is its rendering, with its angle brackets escaped. -/
lemma collapse_spell {value? : String → Option String}
    (hvalues : ∀ name v, value? name = some v → ∀ c ∈ v.toList, IsOrdinary c) {inner : Phrase}
    (hplain : inner.IsPlain) (hflat : inner.contexts = []) :
    collapse value? (inner.marks.flatMap Mark.spell) = escape (inner.settled value?) := by
  have hnonempty : ∀ name v, nonempty value? name = some v →
      ∀ c ∈ v.toList, isDelimiter c = false := by
    intro name v hv c hc
    have := hvalues name v (Option.eq_some_of_filter_eq_some hv) c hc
    simp [isDelimiter, this.1, this.2.1]
  rw [collapse, Phrase.fill?_spell hnonempty hplain hflat, Phrase.settled,
    Phrase.renderContext_of_flat hflat]
  cases inner.render (nonempty value?) <;> rfl

/-- A value that is looked up is one of those of its variable. -/
lemma mem_of_lookup {vs : Variables} {locale : Locale} {name v : String}
    (h : lookup vs locale name = some v) :
    ∃ found ∈ vs.values, ∃ values ∈ found.values, v ∈ values := by
  obtain ⟨found, hfound, h⟩ := Option.bind_eq_some_iff.1 h
  obtain ⟨values, hvalues, h⟩ := Option.bind_eq_some_iff.1 h
  refine ⟨found, OrderedMap.mem_values_iff.2 ⟨_, hfound⟩, values, ?_, List.mem_of_head? h⟩
  rcases Option.or_eq_some_iff.1 hvalues with hvalues | ⟨-, hvalues⟩
  · exact OrderedMap.mem_values_iff.2 ⟨_, Option.eq_some_of_filter_eq_some hvalues⟩
  · exact List.mem_of_find?_eq_some hvalues

/-- What a context is rendered as has no braces and does not end in a backslash, unless the context
does. -/
lemma settled_fits {value? : String → Option String}
    (hvalues : ∀ name v, value? name = some v → ∀ c ∈ v.toList, IsOrdinary c) {inner : Phrase}
    (hplain : inner.IsPlain) (hflat : inner.contexts = []) :
    ('\x7b' ∉ inner.settled value? ∧ '}' ∉ inner.settled value?) ∧
      (inner.marks.getLast? ≠ some (.char '\\') →
        (inner.settled value?).getLast? ≠ some '\\') := by
  have hordinary : ∀ name v, nonempty value? name = some v → ∀ c ∈ v.toList, IsOrdinary c :=
    fun name v hv => hvalues name v (Option.eq_some_of_filter_eq_some hv)
  have hnonempty : ∀ name, nonempty value? name ≠ some "" := by
    intro name h
    simp [nonempty, Option.filter_eq_some_iff] at h
  rw [Phrase.settled, Phrase.renderContext_of_flat hflat]
  cases hrender : inner.render (nonempty value?) with
  | none => simp
  | some text =>
    refine ⟨⟨?_, ?_⟩, fun hmarks hlast => hmarks ?_⟩
    · exact Phrase.not_mem_of_render (.inl rfl)
        (fun name v hv hc => (hordinary name v hv _ hc).2.2.1 rfl) hplain hflat hrender
    · exact Phrase.not_mem_of_render (.inr rfl)
        (fun name v hv hc => (hordinary name v hv _ hc).2.2.2.1 rfl) hplain hflat hrender
    · exact Phrase.getLast?_marks_of_render hnonempty
        (fun name v hv hc => (hordinary name v hv _ hc).2.2.2.2 rfl) hflat hrender hlast

/-- **Rewriting a template from the innermost context that closes first on renders it.** For a
template in which every brace belongs to a placeholder, and values without delimiters, braces and
backslashes, contexts can be replaced until none is left, and filling in and unescaping the text
that remains gives what the template renders as, in every locale.

**Proof sketch.** The phrase is plain, since no brace of its text is left over (`IsTidy.isPlain`). A
round finds the context that closes first, and what it puts there does the same to the phrase
(`replaceUpTo_eq_settleAll`): the rendering of the context with its angle brackets escaped
(`collapse_spell`), which brings in no brace and no backslash at its end (`settled_fits`). In the
end the phrase has renderings in the places of all its contexts, which changes none of its own
renderings (`Phrase.render_settleAll`), and filling in a phrase without contexts renders it
(`Phrase.fill?_spell`). -/
theorem replaceContexts_eq_render {source : String} {t : Template} (ht : parse source = .ok t)
    (hbraces : BracesNamed source.toList) (vs : Variables)
    (hvalues : ∀ found ∈ vs.values, ∀ values ∈ found.values, ∀ v ∈ values, ∀ c ∈ v.toList,
      IsOrdinary c) (locale : Locale) :
    ∃ found left,
      replaceContexts (fun c => collapse (lookup vs locale) c.inner) source.toList =
          .ok (found, left) ∧
        extractContext left = .ok none ∧
        (fill? (lookup vs locale) left).map (fun text => String.ofList (unescape text)) =
          t.renderLocale vs locale := by
  obtain ⟨⟨htidy, hdelimited⟩, hspell⟩ :=
    Phrase.parse_eq_ok_iff_spell.1 (exists_parse_iff.1 ⟨t, ht, rfl⟩)
  have hchain := (Phrase.isChain_marks_iff htidy).2 hdelimited
  have hplain := htidy.isPlain (hspell ▸ hbraces)
  have hordinary : ∀ name v, lookup vs locale name = some v → ∀ c ∈ v.toList, IsOrdinary c := by
    intro name v hv
    obtain ⟨found, hfound, values, hmem, hv⟩ := mem_of_lookup hv
    exact hvalues found hfound values hmem v hv
  rw [← hspell, ← Phrase.flatMap_spell_marks htidy]
  obtain ⟨hplain', hchain', found, -, hrun⟩ :=
    replaceUpTo_eq_settleAll (fun c => collapse (lookup vs locale) c.inner)
      (Phrase.settled (lookup vs locale)) Phrase.IsPlain (fun {p inner _ _} hp hc hfirst => by
        have hinner := hp.of_mem_contexts (List.mem_of_head? hfirst.head?_contexts)
        refine ⟨hp.settle fun q hq hflat => (settled_fits hordinary hq hflat).1, ?_, ?_⟩
        · exact (settled_fits hordinary hinner hfirst.flat).2 (hfirst.getLast?_inner hc)
        · exact collapse_spell hordinary hinner hfirst.flat)
      ((t.phrase.marks.flatMap Mark.spell).length + 1) hplain hchain
      ((length_contexts_le t.phrase).trans (Nat.le_succ _))
  have hflat := Phrase.contexts_settleAll (Phrase.settled (lookup vs locale)) t.phrase
  refine ⟨found, _, hrun, extractContext_flat hflat hchain', ?_⟩
  have hdelimiters : ∀ name v, lookup vs locale name = some v →
      ∀ c ∈ v.toList, isDelimiter c = false := by
    intro name v hv c hc
    have := hordinary name v hv c hc
    simp [isDelimiter, this.1, this.2.1]
  rw [Phrase.fill?_spell hdelimiters hplain' hflat, Option.map_map,
    (Phrase.render_settleAll (lookup vs locale) t.phrase).1]
  simp [Function.comp_def, unescape_escape, renderLocale]

/-- A context that collapses inside of one that does not, since its variable has no value. -/
theorem replaceContexts_eq_render_nested : ∃ (vs : Variables) (t : Template) (found : List Context)
    (left : List Char),
    lookup vs .root "a" = some "A" ∧ lookup vs .root "b" = some "B" ∧ lookup vs .root "c" = none ∧
      parse "\x7ba\x7d<: \x7bb\x7d\\<< [\x7bc\x7d]>>" = .ok t ∧
      replaceContexts (fun c => collapse (lookup vs .root) c.inner)
        "\x7ba\x7d<: \x7bb\x7d\\<< [\x7bc\x7d]>>".toList = .ok (found, left) ∧
      extractContext left = .ok none ∧
      (fill? (lookup vs .root) left).map (fun text => String.ofList (unescape text)) =
        t.renderLocale vs .root ∧
      t.renderLocale vs .root = some "A: B<" := by
  have hparse : (parse "\x7ba\x7d<: \x7bb\x7d\\<< [\x7bc\x7d]>>").toOption.map
      (fun t => t.renderLocale ⟨[("a", ⟨[(.root, ["A"])], by simp⟩),
        ("b", ⟨[(.root, ["B"])], by simp⟩)], by simp⟩ .root) = some (some "A: B<") := by
    decide +kernel
  obtain ⟨t, ht, hrender⟩ := Option.map_eq_some_iff.1 hparse
  have hbraces : BracesNamed "\x7ba\x7d<: \x7bb\x7d\\<< [\x7bc\x7d]>>".toList := by
    intro rest hrest
    have herased : fill? (fun _ => some "") "\x7ba\x7d<: \x7bb\x7d\\<< [\x7bc\x7d]>>".toList =
        some "<: \\<< []>>".toList := by
      decide +kernel
    rw [herased] at hrest
    cases hrest
    decide
  have ht := toOption_eq_some_iff.1 ht
  obtain ⟨found, left, hrun, hnone, hfill⟩ := replaceContexts_eq_render ht hbraces
    ⟨[("a", ⟨[(.root, ["A"])], by simp⟩), ("b", ⟨[(.root, ["B"])], by simp⟩)], by simp⟩
    (by simp [OrderedMap.values, IsOrdinary]) .root
  exact ⟨_, t, found, left, by decide, by decide, by decide, ht, hrun, hnone, hfill, hrender⟩

end XmlHarvest.Template
