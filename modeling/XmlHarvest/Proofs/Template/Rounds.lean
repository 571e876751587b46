import Mathlib.Data.List.Basic
import XmlHarvest.Proofs.Except
import XmlHarvest.Proofs.Template.Extraction

/-!
# Contexts replaced round by round

Contexts are found in a text by a search that keeps a stack of open delimiters, and templates are
read by taking marks apart from the right. Both report the same delimiter of a text that is not
balanced: the first closing one without a partner, or else the first opening one. In a balanced text
a round of the search finds a context without others inside it, and putting an ordinary text in its
place leaves a balanced text with one context less. So the rounds visit the contexts of the phrase
from the inside out and from left to right, and end when none is left.

## Main definitions

* `Template.Phrase.Partial.fault?`: the delimiter that a search reports behind open delimiters.
* `Template.IsUnbracketed`: a text without delimiters.
* `Template.Context.StandsIn`: a context stands at its place in a text.
* `Template.Rounds`: contexts that are replaced one after the other.

## Main results

* `Template.extractContext_eq_error_iff`: the search fails if reading fails, at the same delimiter.
* `Template.standsIn_of_extractContext`: what the search finds in a text.
* `Template.Phrase.rounds_visits`: the rounds from a balanced text.
* `Template.replaceContexts_visits`: the search and the rounds together.
-/

namespace XmlHarvest.Template

open Text

/-! ## The first mismatch -/

/-- The delimiter that a search reports which goes over marks with delimiters open in front of them,
the innermost first, given what the marks amount to. A closing delimiter without a partner comes
first; then the outermost one in front of the marks that stays open, and then the first one among
them. -/
def Phrase.Partial.fault? (openings : List Nat) (p : Phrase.Partial) : Option Nat :=
  ((p.behind.drop openings.length).head?.map Prod.fst).or
    ((openings.drop p.behind.length).getLast?.or p.unclosed)

/-- **The search fails** at the delimiter that is left over of the marks.

**Proof sketch.** Induction on the marks for all stacks of open delimiters. The search goes from
left to right and the marks are taken apart from the right, and one mark changes both sides
alike. -/
lemma firstClosed_eq_error_iff {position : Nat} {openings : List Nat} {found : Option (Nat × Nat)}
    {ms : List (Nat × Mark)} : firstClosed openings found ms = .error ⟨position⟩ ↔
      (Phrase.Partial.ofMarks ms).fault? openings = some position := by
  induction ms generalizing openings found with
  | nil =>
    rw [firstClosed, Phrase.Partial.ofMarks, Phrase.Partial.fault?]
    cases h : openings.getLast? <;> simp [h]
  | cons a ms ih =>
    obtain ⟨place, a⟩ := a
    rw [Phrase.Partial.ofMarks]
    cases a with
    | char c =>
      rw [firstClosed, ih]
      rfl
    | opening =>
      rw [firstClosed, ih, Phrase.Partial.prepend, Phrase.Partial.fault?, Phrase.Partial.fault?]
      cases hbehind : (Phrase.Partial.ofMarks ms).behind with
      | nil =>
        -- The delimiter stays open; it is reported if none stays open in front of it.
        cases h : openings.getLast? <;> simp [List.getLast?_cons, h]
      | cons b behind => simp
    | closing =>
      cases openings with
      | nil => simp [firstClosed, Phrase.Partial.prepend, Phrase.Partial.fault?]
      | cons start openings =>
        rw [firstClosed, ih, Phrase.Partial.prepend, Phrase.Partial.fault?, Phrase.Partial.fault?]
        simp

/-- Reading fails at the delimiter that is left over of the marks. -/
lemma Phrase.ofMarks_eq_error_iff {position : Nat} {ms : List (Nat × Mark)} :
    Phrase.ofMarks ms = .error ⟨position⟩ ↔
      (Phrase.Partial.ofMarks ms).fault? [] = some position := by
  rw [Phrase.ofMarks, Phrase.Partial.fault?]
  cases hbehind : (Phrase.Partial.ofMarks ms).behind with
  | cons b behind => simp
  | nil => cases hunclosed : (Phrase.Partial.ofMarks ms).unclosed <;> simp

/-- **The search fails if reading fails**, and both report the same delimiter. -/
lemma extractContext_eq_error_iff {m : Mismatch} {s : List Char} :
    extractContext s = .error m ↔ Phrase.parse s = .error m := by
  obtain ⟨position⟩ := m
  have hsearch : firstClosed [] none (marks 0 s) = .error ⟨position⟩ ↔
      (Phrase.Partial.ofMarks (marks 0 s)).fault? [] = some position := firstClosed_eq_error_iff
  rw [Phrase.parse, Phrase.ofMarks_eq_error_iff, ← hsearch, extractContext]
  cases firstClosed [] none (marks 0 s) with
  | error e =>
    show Except.error e = Except.error _ ↔ _
    rw [Except.error.injEq, Except.error.injEq]
  | ok found =>
    refine iff_of_false (fun h => ?_) fun h => ?_
    · cases found <;> cases h
    · cases h

/-- Reading a template fails if reading its phrase fails. -/
lemma parse_eq_error_iff {source : String} {m : Mismatch} :
    parse source = .error m ↔ Phrase.parse source.toList = .error m := by
  unfold parse
  split
  · rename_i h
    simp [h]
  · rename_i h
    simp [h]

/-! ## Where a context stands -/

/-- The text has no delimiter but those with a backslash. -/
def IsUnbracketed (s : List Char) : Prop :=
  ∀ m ∈ marks 0 s, ∃ c, m.2 = .char c

/-- **A context stands at its place in a text.** Its place begins at an opening delimiter and ends
just behind a closing one, and there is none between these two, so they are partners. -/
structure Context.StandsIn (c : Context) (s : List Char) : Prop where
  text : ∃ before behind, s = before ++ '<' :: (c.inner ++ '>' :: behind) ∧
    utf8Length before = c.start ∧ c.start + utf8Length c.inner + 2 = c.stop
  marks : ∃ before inside behind, marks 0 s =
    before ++ (c.start, .opening) :: (inside ++ (c.stop - 1, .closing) :: behind) ∧
      ∀ m ∈ inside, ∃ ch, m.2 = .char ch
  inner : IsUnbracketed c.inner

/-- A phrase without contexts is ordinary text. -/
lemma Phrase.exists_marks_eq {p : Phrase} (h : p.contexts = []) :
    ∃ chars : List Char, p.marks = chars.map .char := by
  induction p with
  | nil => exact ⟨[], rfl⟩
  | text chars rest ih =>
    obtain ⟨behind, hbehind⟩ := ih h
    exact ⟨chars ++ behind, by rw [marks, hbehind, List.map_append]⟩
  | placeholder name rest ih =>
    obtain ⟨behind, hbehind⟩ := ih h
    exact ⟨'\x7b' :: (name ++ '}' :: behind), by simp [marks, hbehind]⟩
  | context inner rest => simp [contexts] at h

/-- The marks of ordinary text are ordinary, wherever they are placed. -/
lemma exists_eq_char_of_mem_place {chars : List Char} {position : Nat} {m : Nat × Mark}
    (h : m ∈ place position (chars.map .char)) : ∃ c, m.2 = .char c := by
  have hmem : m.2 ∈ (place position (chars.map Mark.char)).map Prod.snd := List.mem_map_of_mem h
  rw [map_snd_place] at hmem
  obtain ⟨c, -, hc⟩ := List.mem_map.1 hmem
  exact ⟨c, hc.symm⟩

/-- What a phrase without contexts is written as has no delimiter. -/
lemma Phrase.isUnbracketed {p : Phrase} (h : p.contexts = [])
    (hchain : p.marks.IsChain Mark.MayPrecede) : IsUnbracketed (p.marks.flatMap Mark.spell) := by
  obtain ⟨chars, hchars⟩ := exists_marks_eq h
  intro m hm
  rw [marks_flatMap_spell hchain, hchars] at hm
  exact exists_eq_char_of_mem_place hm

/-- The context that closes first stands at its place. -/
lemma Phrase.First.standsIn {p inner : Phrase} {before behind : List Mark}
    (h : p.First before inner behind) (hchain : p.marks.IsChain Mark.MayPrecede) :
    (contextBehind before inner).StandsIn (p.marks.flatMap Mark.spell) where
  text := by
    refine ⟨before.flatMap Mark.spell, behind.flatMap Mark.spell, ?_, rfl, rfl⟩
    rw [h.marks, contextBehind]
    simp [Mark.spell]
  marks := by
    obtain ⟨chars, hchars⟩ := exists_marks_eq h.flat
    have hstop : (contextBehind before inner).stop - 1 = utf8Length (before.flatMap Mark.spell) +
        utf8Length Mark.opening.spell + utf8Length (inner.marks.flatMap Mark.spell) := by
      show _ + _ + 2 - 1 = _ + 1 + _
      omega
    have hmarks : Template.marks 0 (p.marks.flatMap Mark.spell) = Template.place 0 before ++
        ((contextBehind before inner).start, .opening) ::
          (Template.place (utf8Length (before.flatMap Mark.spell) +
            utf8Length Mark.opening.spell) (chars.map .char) ++
              ((contextBehind before inner).stop - 1, .closing) ::
                Template.place ((contextBehind before inner).stop - 1 +
                  utf8Length Mark.closing.spell) behind) := by
      rw [marks_flatMap_spell hchain, h.marks, place_append, Template.place, place_append,
        Template.place, hstop, Nat.zero_add, ← hchars]
      rfl
    exact ⟨_, _, _, hmarks, fun m hm => exists_eq_char_of_mem_place hm⟩
  inner := by
    refine isUnbracketed h.flat ?_
    rw [h.marks] at hchain
    have hrest := (List.isChain_append.1 hchain).2.1
    exact (List.isChain_append.1 (List.isChain_cons.1 hrest).2).1

/-- **What the search finds** stands at its place in the text. -/
lemma standsIn_of_extractContext {s : List Char} {c : Context}
    (h : extractContext s = .ok (some c)) : c.StandsIn s := by
  cases hparse : Phrase.parse s with
  | error m =>
    rw [extractContext_eq_error_iff.2 hparse] at h
    cases h
  | ok p =>
    obtain ⟨⟨htidy, hdelimited⟩, rfl⟩ := Phrase.parse_eq_ok_iff_spell.1 hparse
    have hchain := (Phrase.isChain_marks_iff htidy).2 hdelimited
    rw [← Phrase.flatMap_spell_marks htidy] at h ⊢
    by_cases hflat : p.contexts = []
    · rw [extractContext_flat hflat hchain] at h
      cases h
    · obtain ⟨before, inner, behind, hfirst, -⟩ := Phrase.exists_first_visits (fun _ => []) hflat
      rw [extractContext_first hfirst hchain] at h
      obtain rfl := Option.some.inj (Except.ok.inj h)
      exact hfirst.standsIn hchain

/-! ## Rounds -/

/-- Contexts are found one after the other, each being replaced by the same text before the next one
is looked for, until none is found. -/
inductive Rounds (replacement : List Char) : List Char → List Context → List Char → Prop
  | done {s : List Char} (h : extractContext s = .ok none) : Rounds replacement s [] s
  | round {s left : List Char} {c : Context} {found : List Context}
      (h : extractContext s = .ok (some c))
      (hrest : Rounds replacement (c.replace replacement s) found left) :
    Rounds replacement s (c :: found) left

/-- A bounded number of rounds that ends before the bound is reached has come to an end. -/
lemma rounds_of_replaceUpTo {replacement : List Char} {rounds : Nat} {s left : List Char}
    {found : List Context} (h : replaceUpTo (fun _ => replacement) rounds s = .ok (found, left))
    (hlength : found.length < rounds) : Rounds replacement s found left := by
  induction rounds generalizing s found with
  | zero => exact absurd hlength (Nat.not_lt_zero _)
  | succ rounds ih =>
    rw [replaceUpTo] at h
    obtain ⟨result, hresult, h⟩ := bind_eq_ok_iff.1 h
    cases result with
    | none =>
      cases h
      exact .done hresult
    | some c =>
      obtain ⟨⟨found', left'⟩, hrest, h⟩ := bind_eq_ok_iff.1 h
      cases h
      exact .round hresult (ih hrest (Nat.lt_of_succ_lt_succ hlength))

namespace Phrase

/-- There are as many contexts as opening delimiters. -/
lemma count_opening_marks (p : Phrase) : p.marks.count .opening = p.contexts.length := by
  have hchars : ∀ chars : List Char, (chars.map Mark.char).count .opening = 0 := by
    intro chars
    rw [List.count_eq_zero]
    simp
  induction p with
  | nil => rfl
  | text chars rest ih => rw [marks, List.count_append, hchars, ih, Nat.zero_add, contexts]
  | placeholder name rest ih => simp [marks, contexts, hchars, ih]
  | context inner rest ihi ihr =>
    simp [marks, contexts, ihi, ihr]
    omega

/-- In a context is found what its phrase is when those inside it have been replaced. -/
lemma map_inner_visits (f : Phrase → List Char) (p : Phrase) (position : Nat) :
    (p.visits f position).map Context.inner =
      p.contexts.map fun inner => (inner.settleAll f).marks.flatMap Mark.spell := by
  induction p generalizing position with
  | nil => rfl
  | text chars rest ih | placeholder name rest ih => exact ih _
  | context inner rest ihi ihr =>
    simp only [visits, contexts, List.map_append, List.map_cons, ihi, ihr]

/-- **The rounds from a text** whose contexts are replaced by ordinary text without backslashes.
They visit the contexts of its phrase, and leave what the phrase is with that text in their
places. -/
lemma rounds_visits {s replacement : List Char} {p : Phrase} (hparse : parse s = .ok p)
    (hreplacement : ∀ c ∈ replacement, c ≠ '<' ∧ c ≠ '>' ∧ c ≠ '\\') :
    Rounds replacement s (p.visits (fun _ => replacement) 0)
        ((p.settleAll fun _ => replacement).marks.flatMap Mark.spell) ∧
      replaceContexts (fun _ => replacement) s = .ok (p.visits (fun _ => replacement) 0,
        (p.settleAll fun _ => replacement).marks.flatMap Mark.spell) ∧
      IsUnbracketed ((p.settleAll fun _ => replacement).marks.flatMap Mark.spell) := by
  obtain ⟨⟨htidy, hdelimited⟩, rfl⟩ := parse_eq_ok_iff_spell.1 hparse
  have hchain := (isChain_marks_iff htidy).2 hdelimited
  have hescape : escape replacement = replacement :=
    escape_eq_self fun c hc => by simp [isDelimiter, hreplacement c hc]
  have hlast : replacement.getLast? ≠ some '\\' :=
    fun h => (hreplacement _ (List.mem_of_getLast? h)).2.2 rfl
  have hlength := length_contexts_le p
  rw [← flatMap_spell_marks htidy]
  obtain ⟨-, hleft, hrun⟩ := replaceUpTo_eq_visits (fun _ => replacement) (fun _ => replacement)
    (fun _ => True) (fun _ _ _ => ⟨trivial, hlast, hescape.symm⟩)
    ((p.marks.flatMap Mark.spell).length + 1) trivial hchain (by omega)
  refine ⟨rounds_of_replaceUpTo hrun ?_, hrun, isUnbracketed (contexts_settleAll _ p) hleft⟩
  rw [length_visits]
  omega

end Phrase

/-- **The search and the rounds.** The search for a context fails on a text if reading the text as a
template does, and both report the same delimiter. What the search finds stands at its place: from
an opening delimiter to the closing one that is its partner, with no other delimiter in between. If
the contexts of a template are replaced one after the other by ordinary text without backslashes, no
round fails. There are as many rounds as the template has contexts, which is as many as it has
opening delimiters; they visit the contexts in the order in which these close, those inside a
context before it, each with the text that is in it by then and at the place that it has by then;
and the text that is left has no delimiter.

**Proof sketch.** The search goes over the marks from the left with a stack of open delimiters,
reading takes them apart from the right; by induction on the marks the same delimiter is left over
(`firstClosed_eq_error_iff`). What the search finds in a balanced text is the context of its phrase
that closes first (`Phrase.First.standsIn`). With ordinary text in its place, the text is that of a
phrase with one context less and the others in the same order, so that the rounds visit all contexts
(`Phrase.rounds_visits`). There are as many contexts as opening delimiters, since each context is
written with one (`Phrase.count_opening_marks`). -/
theorem replaceContexts_visits :
    (∀ (source : String) (m : Mismatch),
      extractContext source.toList = .error m ↔ parse source = .error m) ∧
    (∀ (s : List Char) (c : Context), extractContext s = .ok (some c) → c.StandsIn s) ∧
    ∀ (source : String) (t : Template) (replacement : List Char), parse source = .ok t →
      (∀ c ∈ replacement, c ≠ '<' ∧ c ≠ '>' ∧ c ≠ '\\') →
      let f : Phrase → List Char := fun _ => replacement
      let found := t.phrase.visits f 0
      let left := (t.phrase.settleAll f).marks.flatMap Mark.spell
      Rounds replacement source.toList found left ∧
        replaceContexts (fun _ => replacement) source.toList = .ok (found, left) ∧
        found.length = t.phrase.contexts.length ∧
        t.phrase.contexts.length = ((marks 0 source.toList).map Prod.snd).count .opening ∧
        found.map Context.inner =
          t.phrase.contexts.map (fun inner => (inner.settleAll f).marks.flatMap Mark.spell) ∧
        IsUnbracketed left := by
  refine ⟨fun source m => extractContext_eq_error_iff.trans parse_eq_error_iff.symm,
    fun s c => standsIn_of_extractContext, fun source t replacement ht hreplacement => ?_⟩
  have hparse := exists_parse_iff.1 ⟨t, ht, rfl⟩
  obtain ⟨hrounds, hreplace, hleft⟩ := Phrase.rounds_visits hparse hreplacement
  refine ⟨hrounds, hreplace, Phrase.length_visits _ _ _, ?_, Phrase.map_inner_visits _ _ _, hleft⟩
  obtain ⟨hbehind, hunclosed, hhere⟩ := Phrase.ofMarks_eq_ok_iff.1 hparse
  have hmarks := Phrase.Partial.marks_ofMarks _ hunclosed
  rw [hbehind, List.flatMap_nil, List.append_nil, hhere] at hmarks
  rw [hmarks, Phrase.count_opening_marks]

/-- Three rounds, of which the second one takes in what the first one has put in, next to an escaped
delimiter and a character of two bytes. -/
theorem replaceContexts_visits_nested : ∃ t : Template,
    parse "é<b<c\\>>d>e<f>" = .ok t ∧
      Context.StandsIn ⟨"c\\>".toList, 4, 9⟩ "é<b<c\\>>d>e<f>".toList ∧
      replaceContexts (fun _ => ['#']) "é<b<c\\>>d>e<f>".toList =
        .ok ([⟨"c\\>".toList, 4, 9⟩, ⟨"b#d".toList, 2, 7⟩, ⟨['f'], 4, 7⟩], "é#e#".toList) ∧
      Rounds ['#'] "é<b<c\\>>d>e<f>".toList
        [⟨"c\\>".toList, 4, 9⟩, ⟨"b#d".toList, 2, 7⟩, ⟨['f'], 4, 7⟩] "é#e#".toList := by
  obtain ⟨t, ht, hphrase⟩ := exists_parse_iff.2 (show Phrase.parse "é<b<c\\>>d>e<f>".toList =
    .ok (.text ['é'] (.context (.text ['b'] (.context (.text ['c', '>'] .nil) (.text ['d'] .nil)))
      (.text ['e'] (.context (.text ['f'] .nil) .nil)))) by rfl)
  obtain ⟨-, hstands, htemplate⟩ := replaceContexts_visits
  obtain ⟨hrounds, hrun, -⟩ := htemplate _ t ['#'] ht (by simp)
  rw [hphrase] at hrounds hrun
  exact ⟨t, ht, hstands _ _ rfl, hrun, hrounds⟩

end XmlHarvest.Template
