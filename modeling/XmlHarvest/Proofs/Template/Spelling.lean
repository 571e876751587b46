import Mathlib.Data.List.Basic
import Mathlib.Data.List.Chain
import Mathlib.Data.List.TakeWhile
import XmlHarvest.Proofs.Template.Marks
import XmlHarvest.Template.Basic

/-!
# Spelling of phrases

Reading a template loses nothing: written back, its phrase is the text it was read from, character
for character. The phrases that come from a text are the canonical ones, and each of them is read
from the text it is written as. Texts of a canonical phrase are as long as possible and hold no
placeholder, and none ends in a backslash that would escape the delimiter behind it.

## Main definitions

* `Template.Phrase.spell`: a phrase as it is written.
* `Template.Phrase.IsCanonical`: the phrases that come from a text.
* `Template.Phrase.marks`: the marks of a phrase.

## Main results

* `Template.Phrase.marks_ofMarks`: reading keeps the marks.
* `Template.Phrase.isTidy_ofMarks`: what is read is tidy.
* `Template.Phrase.ofMarks_of_marks`: a tidy phrase is read from its marks.
* `Template.parse_eq_ok_iff`: a text has a phrase if the phrase is canonical and written as the
  text.
-/

namespace XmlHarvest.Template

/-! ## Names and placeholders -/

/-- A name of a placeholder: characters of such names, and at least one. -/
def IsName (name : List Char) : Prop :=
  name ≠ [] ∧ ∀ c ∈ name, isPlaceholderChar c = true

/-- A name in braces occurs in a text. -/
def HasPlaceholder (chars : List Char) : Prop :=
  ∃ before name behind, chars = before ++ '\x7b' :: (name ++ '}' :: behind) ∧ IsName name

/-- A placeholder is read from a name and a closing brace, and from nothing else. -/
lemma placeholder?_eq_some_iff {s name behind : List Char} :
    placeholder? s = some (name, behind) ↔ s = name ++ '}' :: behind ∧ IsName name := by
  constructor
  · intro h
    unfold placeholder? at h
    simp only at h
    split at h
    · rename_i rest hrest
      split at h
      · cases h
      · rename_i hname
        simp only [Option.some.injEq, Prod.mk.injEq] at h
        obtain ⟨rfl, rfl⟩ := h
        refine ⟨?_, by simpa using hname, fun c hc => List.mem_takeWhile_imp hc⟩
        rw [← hrest, List.takeWhile_append_dropWhile]
    · cases h
  · rintro ⟨rfl, hne, hname⟩
    have htake : (name ++ '}' :: behind).takeWhile isPlaceholderChar = name := by
      rw [List.takeWhile_append_of_pos hname]
      simp [show isPlaceholderChar '}' = false by decide]
    have hdrop : (name ++ '}' :: behind).dropWhile isPlaceholderChar = '}' :: behind := by
      rw [List.dropWhile_append_of_pos hname]
      simp [show isPlaceholderChar '}' = false by decide]
    simp [placeholder?, htake, hdrop, hne]

/-- No placeholder occurs in a text if no brace begins one. -/
lemma not_hasPlaceholder_iff {chars : List Char} : ¬HasPlaceholder chars ↔
    ∀ before behind, chars = before ++ '\x7b' :: behind → placeholder? behind = none := by
  constructor
  · intro h before behind hchars
    by_contra hsome
    obtain ⟨⟨name, rest⟩, hp⟩ := Option.ne_none_iff_exists'.1 hsome
    obtain ⟨rfl, hname⟩ := placeholder?_eq_some_iff.1 hp
    exact h ⟨before, name, rest, hchars, hname⟩
  · rintro h ⟨before, name, behind, hchars, hname⟩
    have := h before _ hchars
    rw [placeholder?_eq_some_iff.2 ⟨rfl, hname⟩] at this
    cases this

/-- A placeholder occurs in a text with another one in front if it begins the text or occurs in the
text behind. -/
lemma hasPlaceholder_cons {c : Char} {chars : List Char} (h : HasPlaceholder (c :: chars)) :
    (c = '\x7b' ∧ (placeholder? chars).isSome) ∨ HasPlaceholder chars := by
  obtain ⟨before, name, behind, heq, hname⟩ := h
  cases before with
  | nil =>
    simp only [List.nil_append, List.cons.injEq] at heq
    refine .inl ⟨heq.1, ?_⟩
    rw [heq.2, placeholder?_eq_some_iff.2 ⟨rfl, hname⟩]
    rfl
  | cons b before =>
    simp only [List.cons_append, List.cons.injEq] at heq
    exact .inr ⟨before, name, behind, heq.2, hname⟩

namespace Phrase

/-! ## Canonical phrases -/

/-- A phrase as it is written: texts with their angle brackets escaped, placeholders in braces and
contexts in angle brackets. -/
def spell : Phrase → List Char
  | .nil => []
  | .text chars rest => escape chars ++ rest.spell
  | .placeholder name rest => '\x7b' :: (name ++ '}' :: rest.spell)
  | .context inner rest => '<' :: (inner.spell ++ '>' :: rest.spell)

/-- Whether a phrase begins with a text. -/
def IsText : Phrase → Prop
  | .text .. => True
  | _ => False

/-- Whether a phrase begins with a context. -/
def IsContext : Phrase → Prop
  | .context .. => True
  | _ => False

/-- No text is empty, next to another one or holds a placeholder, and all names are names. -/
def IsTidy : Phrase → Prop
  | .nil => True
  | .text chars rest => chars ≠ [] ∧ ¬HasPlaceholder chars ∧ ¬rest.IsText ∧ rest.IsTidy
  | .placeholder name rest => IsName name ∧ rest.IsTidy
  | .context inner rest => inner.IsTidy ∧ rest.IsTidy

/-- No text ends in a backslash right before a context or, where the phrase is enclosed in one,
right before its end. -/
def IsDelimited (enclosed : Prop) : Phrase → Prop
  | .nil => True
  | .text chars rest => (chars.getLast? = some '\\' → ¬rest.IsContext ∧ ¬(enclosed ∧ rest = .nil)) ∧
      rest.IsDelimited enclosed
  | .placeholder _ rest => rest.IsDelimited enclosed
  | .context inner rest => inner.IsDelimited True ∧ rest.IsDelimited enclosed

/-- The phrases that come from a text. -/
structure IsCanonical (p : Phrase) : Prop where
  tidy : p.IsTidy
  delimited : p.IsDelimited False

/-! ## The marks of a phrase -/

/-- The marks of a phrase. -/
def marks : Phrase → List Mark
  | .nil => []
  | .text chars rest => chars.map .char ++ rest.marks
  | .placeholder name rest => .char '\x7b' :: (name.map .char ++ .char '}' :: rest.marks)
  | .context inner rest => .opening :: (inner.marks ++ .closing :: rest.marks)

/-- Characters of names are written as they are. -/
lemma escape_name {name : List Char} (h : IsName name) : escape name = name := by
  refine escape_eq_self fun c hc => ?_
  by_contra hd
  rcases isDelimiter_iff.1 (by simpa using hd) with rfl | rfl
  · exact absurd (h.2 _ hc) (by decide)
  · exact absurd (h.2 _ hc) (by decide)

/-- A phrase is written as its marks are. -/
lemma flatMap_spell_marks {p : Phrase} (h : p.IsTidy) : p.marks.flatMap Mark.spell = p.spell := by
  induction p with
  | nil => rfl
  | text chars rest ih =>
    rw [marks, List.flatMap_append, flatMap_spell_map_char, ih h.2.2.2, spell]
  | placeholder name rest ih =>
    rw [marks, List.flatMap_cons, List.flatMap_append, List.flatMap_cons, flatMap_spell_map_char,
      escape_name h.1, ih h.2]
    rfl
  | context inner rest ihi ihr =>
    rw [marks, List.flatMap_cons, List.flatMap_append, List.flatMap_cons, ihi h.1, ihr h.2]
    rfl

/-! ## A character in front of a phrase -/

@[simp] lemma marks_prependText (chars : List Char) (p : Phrase) :
    (prependText chars p).marks = chars.map .char ++ p.marks := by
  unfold prependText
  split
  · rename_i h
    simp [List.isEmpty_iff.1 h]
  · rfl

/-- A character that completes no placeholder joins the text behind it. -/
lemma prependChar_prependText {c : Char} {chars : List Char} {p : Phrase} (hp : ¬p.IsText)
    (hc : c = '\x7b' → placeholder? chars = none) :
    prependChar c (prependText chars p) = .text (c :: chars) p := by
  cases chars with
  | nil =>
    cases p with
    | text => exact absurd trivial hp
    | nil | placeholder | context => rfl
  | cons d chars =>
    show prependChar c (.text (d :: chars) p) = _
    rw [prependChar]
    by_cases hbrace : c = '\x7b'
    · rw [if_pos hbrace, hc hbrace]
    · rw [if_neg hbrace]

/-- An opening brace in front of a name and a closing brace makes a placeholder. -/
lemma prependChar_placeholder {name chars : List Char} (hname : IsName name) (p : Phrase) :
    prependChar '\x7b' (.text (name ++ '}' :: chars) p) =
      .placeholder name (prependText chars p) := by
  rw [prependChar, if_pos rfl, placeholder?_eq_some_iff.2 ⟨rfl, hname⟩]

/-- A phrase is a text, which may be empty, in front of a phrase without one. -/
lemma exists_eq_prependText {p : Phrase} (hp : p.IsTidy) :
    ∃ chars rest, p = prependText chars rest ∧ ¬rest.IsText ∧ rest.IsTidy ∧
      ¬HasPlaceholder chars := by
  have hnil : ¬HasPlaceholder [] := by
    rintro ⟨before, name, behind, h, -⟩
    simp at h
  cases p with
  | text chars rest =>
    refine ⟨chars, rest, ?_, hp.2.2.1, hp.2.2.2, hp.2.1⟩
    rw [prependText, if_neg (by simpa using hp.1)]
  | nil | placeholder | context => exact ⟨[], _, rfl, not_false, hp, hnil⟩

lemma isTidy_prependText {chars : List Char} {p : Phrase} (hp : ¬p.IsText) (htidy : p.IsTidy)
    (hchars : ¬HasPlaceholder chars) : (prependText chars p).IsTidy := by
  unfold prependText
  split
  · exact htidy
  · rename_i h
    exact ⟨by simpa using h, hchars, hp, htidy⟩

/-- The mark of a character in front of a phrase stands in front of its marks. -/
lemma marks_prependChar (c : Char) (p : Phrase) : (prependChar c p).marks = .char c :: p.marks := by
  cases p with
  | text chars rest =>
    by_cases hc : c = '\x7b'
    · cases hp : placeholder? chars with
      | none => simp [prependChar, hc, hp, marks]
      | some found =>
        obtain ⟨name, behind⟩ := found
        obtain ⟨rfl, -⟩ := placeholder?_eq_some_iff.1 hp
        simp [prependChar, hc, hp, marks]
    · simp [prependChar, hc, marks]
  | nil | placeholder | context => simp [prependChar, marks]

/-- A character in front of a tidy phrase gives a tidy phrase. -/
lemma isTidy_prependChar (c : Char) {p : Phrase} (h : p.IsTidy) : (prependChar c p).IsTidy := by
  obtain ⟨chars, rest, rfl, hrest, htidy, hchars⟩ := exists_eq_prependText h
  by_cases hc : c = '\x7b' ∧ (placeholder? chars).isSome
  · obtain ⟨rfl, hsome⟩ := hc
    obtain ⟨⟨name, behind⟩, hp⟩ := Option.isSome_iff_exists.1 hsome
    obtain ⟨rfl, hname⟩ := placeholder?_eq_some_iff.1 hp
    have hbehind : ¬HasPlaceholder behind := by
      rintro ⟨a, n, b, rfl, hn⟩
      exact hchars ⟨name ++ '}' :: a, n, b, by simp, hn⟩
    rw [prependText, if_neg (by simp), prependChar_placeholder hname]
    exact ⟨hname, isTidy_prependText hrest htidy hbehind⟩
  · rw [prependChar_prependText hrest fun hbrace => by simpa [hbrace] using hc]
    refine ⟨by simp, fun hp => ?_, hrest, htidy⟩
    exact (hasPlaceholder_cons hp).elim hc hchars

/-! ## Reading marks -/

namespace Partial

/-- What a mark preserves: as long as no opening delimiter is left without a partner, the marks that
were read are those of the phrases, each closing delimiter standing in front of what is behind
it. -/
lemma marks_ofMarks : ∀ (ms : List (Nat × Mark)), (ofMarks ms).unclosed = none →
    ms.map Prod.snd = (ofMarks ms).here.marks ++
      (ofMarks ms).behind.flatMap fun b => .closing :: b.2.marks
  | [], _ => rfl
  | (position, m) :: ms, h => by
    rw [ofMarks] at h ⊢
    cases m with
    | char c =>
      have ih := marks_ofMarks ms h
      rw [List.map_cons, ih]
      simp [prepend, marks_prependChar]
    | closing =>
      have ih := marks_ofMarks ms h
      rw [List.map_cons, ih]
      simp [prepend, Phrase.marks]
    | opening =>
      cases hb : (ofMarks ms).behind with
      | nil => simp [prepend, hb] at h
      | cons b behind =>
        have ih := marks_ofMarks ms (by simpa [prepend, hb] using h)
        rw [List.map_cons, ih]
        simp [prepend, hb, Phrase.marks]

/-- What a mark preserves: all phrases are tidy. -/
lemma isTidy_ofMarks (ms : List (Nat × Mark)) :
    (ofMarks ms).here.IsTidy ∧ ∀ b ∈ (ofMarks ms).behind, b.2.IsTidy := by
  induction ms with
  | nil => exact ⟨trivial, by simp [ofMarks]⟩
  | cons m ms ih =>
    obtain ⟨position, m⟩ := m
    obtain ⟨hhere, hbehind⟩ := ih
    rw [ofMarks]
    cases m with
    | char c => exact ⟨isTidy_prependChar c hhere, hbehind⟩
    | closing =>
      refine ⟨trivial, fun b hb => ?_⟩
      rcases List.mem_cons.1 hb with rfl | hb
      · exact hhere
      · exact hbehind b hb
    | opening =>
      cases hb : (ofMarks ms).behind with
      | nil => simpa [prepend, hb] using hhere
      | cons b behind =>
        rw [hb] at hbehind
        simp only [prepend, hb]
        exact ⟨⟨hhere, hbehind b List.mem_cons_self⟩,
          fun b' hb' => hbehind b' (List.mem_cons_of_mem b hb')⟩

/-- Ordinary characters in front of marks join the text behind them, if they complete no
placeholder. -/
lemma ofMarks_chars {chars : List Char} (behind : List Char) {rest : Phrase}
    (hrest : ¬rest.IsText) :
    ∀ {qs ms : List (Nat × Mark)}, qs.map Prod.snd = chars.map .char →
      (ofMarks ms).here = prependText behind rest →
      (∀ a b, chars = a ++ '\x7b' :: b → placeholder? (b ++ behind) = none) →
      ofMarks (qs ++ ms) = { ofMarks ms with here := prependText (chars ++ behind) rest } := by
  induction chars with
  | nil =>
    intro qs ms hqs hhere _
    obtain rfl : qs = [] := by simpa using hqs
    rw [List.nil_append, List.nil_append, ← hhere]
  | cons c chars ih =>
    intro qs ms hqs hhere hno
    obtain ⟨⟨position, _⟩, qs, rfl, rfl, hqs'⟩ := List.map_eq_cons_iff.1 hqs
    have htail := ih hqs' hhere fun a b hab => hno (c :: a) b (by rw [hab]; rfl)
    rw [List.cons_append, ofMarks, htail]
    have hc : c = '\x7b' → placeholder? (chars ++ behind) = none :=
      fun hc => hno [] chars (by simp [hc])
    show Partial.prepend _ position (.char c) = _
    simp only [prepend, prependChar_prependText hrest hc]
    rfl

/-- **A tidy phrase is read from its marks**, whatever the positions, in front of marks that begin
with a closing delimiter or with nothing. -/
lemma ofMarks_append : ∀ {p : Phrase}, p.IsTidy → ∀ {qs ms : List (Nat × Mark)},
    qs.map Prod.snd = p.marks → (ofMarks ms).here = .nil →
      ofMarks (qs ++ ms) = { ofMarks ms with here := p }
  | .nil, _, qs, ms, hqs, hhere => by
    obtain rfl : qs = [] := by simpa [Phrase.marks] using hqs
    rw [List.nil_append, ← hhere]
  | .text chars rest, ⟨hne, hno, hrest, htidy⟩, _, ms, hqs, hhere => by
    obtain ⟨qc, qr, rfl, hqc, hqr⟩ := List.map_eq_append_iff.1 hqs
    have htail := ofMarks_append htidy hqr hhere
    rw [List.append_assoc, ofMarks_chars [] hrest hqc (by rw [htail]; rfl), htail,
      List.append_nil, prependText, if_neg (by simpa using hne)]
    intro a b hab
    rw [List.append_nil]
    exact not_hasPlaceholder_iff.1 hno a b hab
  | .placeholder name rest, ⟨hname, htidy⟩, _, ms, hqs, hhere => by
    obtain ⟨⟨_, _⟩, _, rfl, rfl, hqs'⟩ := List.map_eq_cons_iff.1 hqs
    obtain ⟨qn, _, rfl, hqn, hqs''⟩ := List.map_eq_append_iff.1 hqs'
    obtain ⟨⟨last, _⟩, qr, rfl, rfl, hqr⟩ := List.map_eq_cons_iff.1 hqs''
    have htail := ofMarks_append htidy hqr hhere
    obtain ⟨chars, rest', rfl, hrest', -, hchars⟩ := exists_eq_prependText htidy
    -- the closing brace and the name join the text behind, and the opening brace takes them off
    have hclosing : ofMarks ((last, .char '}') :: qr ++ ms) =
        { ofMarks ms with here := prependText ('}' :: chars) rest' } := by
      rw [List.cons_append, ofMarks, htail]
      simp only [prepend]
      rw [prependChar_prependText hrest' fun h => absurd h (by decide)]
      rfl
    have hbody := ofMarks_chars ('}' :: chars) hrest' hqn (by rw [hclosing]) ?_
    · rw [List.cons_append, List.append_assoc, ofMarks, hbody, hclosing]
      simp only [prepend]
      rw [prependText, if_neg (by simp), prependChar_placeholder hname]
    · rintro a b rfl
      exact absurd (hname.2 '\x7b' (by simp)) (by decide)
  | .context inner rest, ⟨hinner, hrest⟩, _, ms, hqs, hhere => by
    obtain ⟨⟨_, _⟩, _, rfl, rfl, hqs'⟩ := List.map_eq_cons_iff.1 hqs
    obtain ⟨qi, _, rfl, hqi, hqs''⟩ := List.map_eq_append_iff.1 hqs'
    obtain ⟨⟨_, _⟩, qr, rfl, rfl, hqr⟩ := List.map_eq_cons_iff.1 hqs''
    have htail := ofMarks_append hrest hqr hhere
    rw [List.cons_append, List.append_assoc, ofMarks,
      ofMarks_append hinner hqi (by rw [List.cons_append, ofMarks]; rfl), List.cons_append, ofMarks,
      htail]
    rfl

end Partial

/-- Reading marks succeeds with a phrase if nothing is left behind it or unclosed. -/
lemma ofMarks_eq_ok_iff {ms : List (Nat × Mark)} {p : Phrase} : ofMarks ms = .ok p ↔
    (Partial.ofMarks ms).behind = [] ∧ (Partial.ofMarks ms).unclosed = none ∧
      (Partial.ofMarks ms).here = p := by
  simp only [ofMarks]
  split
  · rename_i hb
    simp [hb]
  · rename_i hb hu
    simp [hb, hu]
  · rename_i hb hu
    simp [hb, hu]

/-! ## Neighbours in a phrase -/

/-- Characters may stand next to each other in any order. -/
lemma isChain_map_char (chars : List Char) : (chars.map Mark.char).IsChain Mark.MayPrecede := by
  induction chars with
  | nil => exact .nil
  | cons c chars ih =>
    rw [List.map_cons, List.isChain_cons]
    refine ⟨fun m hm => ?_, ih⟩
    simp only [List.head?_map, Option.mem_def, Option.map_eq_some_iff] at hm
    obtain ⟨d, -, rfl⟩ := hm
    exact mayPrecede_char _ d

/-- Characters may stand in front of marks unless the last one is a backslash and the first mark a
delimiter. -/
lemma isChain_map_char_append {chars : List Char} {ms : List Mark} :
    (chars.map Mark.char ++ ms).IsChain Mark.MayPrecede ↔
      (chars.getLast? = some '\\' → ms.head? ≠ some .opening ∧ ms.head? ≠ some .closing) ∧
        ms.IsChain Mark.MayPrecede := by
  rw [List.isChain_append]
  simp only [isChain_map_char, true_and, List.getLast?_map, Option.mem_def, Option.map_eq_some_iff]
  constructor
  · rintro ⟨hms, hseam⟩
    refine ⟨fun hlast => ⟨fun hm => ?_, fun hm => ?_⟩, hms⟩
    · exact (hseam _ ⟨_, hlast, rfl⟩ _ hm rfl).1 rfl
    · exact (hseam _ ⟨_, hlast, rfl⟩ _ hm rfl).2 rfl
  · rintro ⟨hseam, hms⟩
    refine ⟨hms, ?_⟩
    rintro _ ⟨c, hlast, rfl⟩ m hm hc
    cases hc
    obtain ⟨ho, hc⟩ := hseam hlast
    exact ⟨fun h => ho (h ▸ hm), fun h => hc (h ▸ hm)⟩

/-- **No ordinary backslash stands in front of a delimiter** among the marks of a phrase if no text
ends in one there. The marks behind the phrase close a context or there are none. -/
lemma isChain_marks_append : ∀ {p : Phrase}, p.IsTidy → ∀ (enclosed : Prop) {ms : List Mark},
    (enclosed → ms.head? = some .closing) → (¬enclosed → ms = []) →
      ((p.marks ++ ms).IsChain Mark.MayPrecede ↔
        p.IsDelimited enclosed ∧ ms.IsChain Mark.MayPrecede)
  | .nil, _, _, _, _, _ => by simp [marks, IsDelimited]
  | .text chars rest, ⟨_, _, hrest, htidy⟩, enclosed, ms, hclosed, hopen => by
    rw [marks, List.append_assoc, isChain_map_char_append,
      isChain_marks_append htidy enclosed hclosed hopen, IsDelimited, and_assoc]
    refine and_congr_left fun _ => imp_congr_right fun _ => ?_
    cases rest with
    | text => exact absurd trivial hrest
    | placeholder | context => simp [marks, IsContext]
    | nil =>
      by_cases henclosed : enclosed
      · simp [marks, hclosed henclosed, henclosed]
      · simp [marks, hopen henclosed, henclosed, IsContext]
  | .placeholder name rest, ⟨_, htidy⟩, enclosed, ms, hclosed, hopen => by
    have hmarks : (placeholder name rest).marks ++ ms =
        ('\x7b' :: (name ++ ['}'])).map Mark.char ++ (rest.marks ++ ms) := by simp [marks]
    have hlast : ('\x7b' :: (name ++ ['}'])).getLast? = some '}' := by
      rw [← List.cons_append, List.getLast?_concat]
    rw [hmarks, isChain_map_char_append, isChain_marks_append htidy enclosed hclosed hopen, hlast,
      IsDelimited]
    simp
  | .context inner rest, ⟨hinner, hrest⟩, enclosed, ms, hclosed, hopen => by
    have hdelimiter : ∀ {m n : Mark}, (m = .opening ∨ m = .closing) → m.MayPrecede n := by
      rintro m n (rfl | rfl)
      · exact mayPrecede_of_ne (by simp) n
      · exact mayPrecede_of_ne (by simp) n
    rw [marks, List.cons_append, List.append_assoc, List.cons_append, List.isChain_cons,
      isChain_marks_append hinner True (fun _ => rfl) (absurd trivial),
      List.isChain_cons, isChain_marks_append hrest enclosed hclosed hopen, IsDelimited]
    simp only [hdelimiter (.inl rfl), hdelimiter (.inr rfl), implies_true, true_and, and_assoc]

/-- The marks of a tidy phrase are those of a text if no text ends in a backslash in front of a
delimiter. -/
lemma isChain_marks_iff {p : Phrase} (h : p.IsTidy) :
    p.marks.IsChain Mark.MayPrecede ↔ p.IsDelimited False := by
  have hchain : (p.marks ++ []).IsChain Mark.MayPrecede ↔
      p.IsDelimited False ∧ [].IsChain Mark.MayPrecede :=
    isChain_marks_append h False (nomatch ·) fun _ => rfl
  simpa using hchain

/-! ## Reading and writing -/

/-- **A text has a phrase** if the phrase is canonical and written as the text.

**Proof sketch.** A text is the spelling of its marks, reading keeps the marks, and what is read is
tidy; and a tidy phrase is read from its marks, which are those of the text it is written as unless
a text ends in a backslash in front of a delimiter. -/
lemma parse_eq_ok_iff_spell {s : List Char} {p : Phrase} :
    parse s = .ok p ↔ p.IsCanonical ∧ p.spell = s := by
  rw [parse, ofMarks_eq_ok_iff]
  constructor
  · rintro ⟨hbehind, hunclosed, rfl⟩
    have hmarks := Partial.marks_ofMarks _ hunclosed
    rw [hbehind, List.flatMap_nil, List.append_nil] at hmarks
    have htidy := (Partial.isTidy_ofMarks (Template.marks 0 s)).1
    refine ⟨⟨htidy, (isChain_marks_iff htidy).1 (hmarks ▸ marks_chain 0 s)⟩, ?_⟩
    rw [← flatMap_spell_marks htidy, ← hmarks, Template.flatMap_spell_marks]
  · rintro ⟨⟨htidy, hdelimited⟩, rfl⟩
    rw [← flatMap_spell_marks htidy, marks_flatMap_spell ((isChain_marks_iff htidy).2 hdelimited)]
    have hread : Partial.ofMarks (place 0 p.marks ++ []) = { Partial.ofMarks [] with here := p } :=
      Partial.ofMarks_append htidy (map_snd_place 0 p.marks) rfl
    rw [List.append_nil] at hread
    rw [hread]
    exact ⟨rfl, rfl, rfl⟩

end Phrase

/-- A template is read from a text if the text has a phrase. -/
lemma exists_parse_iff {source : String} {p : Phrase} :
    (∃ t, parse source = .ok t ∧ t.phrase = p) ↔ Phrase.parse source.toList = .ok p := by
  constructor
  · rintro ⟨t, ht, rfl⟩
    unfold parse at ht
    split at ht
    · rename_i phrase hphrase
      cases ht
      exact hphrase
    · cases ht
  · intro h
    refine ⟨⟨source, p, h⟩, ?_, rfl⟩
    unfold parse
    split
    · rename_i phrase hphrase
      rw [h] at hphrase
      cases hphrase
      rfl
    · rename_i e he
      rw [h] at he
      cases he

/-- **Reading templates is lossless and exact.** A text is read with a phrase if, and only if, the
phrase is canonical and written as the text: whatever is read is written back character for
character, and whatever canonical phrase is written is read back as it is.

**Proof sketch.** A template is read if its phrase is (`exists_parse_iff`), and a phrase is read
from a text exactly if it is canonical and written as the text (`Phrase.parse_eq_ok_iff_spell`). -/
theorem parse_eq_ok_iff (source : String) (p : Phrase) :
    (∃ t, parse source = .ok t ∧ t.phrase = p) ↔
      p.IsCanonical ∧ String.ofList p.spell = source := by
  rw [exists_parse_iff, Phrase.parse_eq_ok_iff_spell]
  refine and_congr_right fun _ => ⟨fun h => ?_, fun h => ?_⟩
  · rw [h, String.ofList_toList]
  · rw [← h, String.toList_ofList]

end XmlHarvest.Template
