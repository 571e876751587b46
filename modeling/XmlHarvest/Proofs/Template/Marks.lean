import Mathlib.Data.List.Basic
import Mathlib.Data.List.Chain
import XmlHarvest.Template.Mark

/-!
# Spelling of marks

A text and its marks determine each other: marks are written one behind the other, ordinary angle
brackets with a backslash, and every text is the spelling of its marks. Not all sequences of marks
come from a text. In a text a backslash in front of a delimiter takes its meaning away, so an
ordinary backslash never stands right in front of a delimiter, and this is the only restriction.

## Main definitions

* `Template.Mark.spell`, `Template.escape`: how marks and ordinary text are written.
* `Template.Mark.MayPrecede`: when two marks may be neighbours.
* `Template.place`: marks with the positions they have when they are written.

## Main results

* `Template.flatMap_spell_marks`: a text is the spelling of its marks.
* `Template.marks_chain`: neighbours among the marks of a text.
* `Template.marks_flatMap_spell`: the marks of what marks spell.
-/

namespace XmlHarvest.Template

open Text

/-! ## Marks as text -/

/-- How a mark is written. -/
def Mark.spell : Mark → List Char
  | .char c => if isDelimiter c then ['\\', c] else [c]
  | .opening => ['<']
  | .closing => ['>']

/-- Ordinary text as it is written in a template: angle brackets have a backslash in front. -/
def escape (chars : List Char) : List Char :=
  chars.flatMap fun c => (Mark.char c).spell

@[simp] lemma escape_nil : escape [] = [] := rfl

@[simp] lemma escape_cons (c : Char) (chars : List Char) :
    escape (c :: chars) = (Mark.char c).spell ++ escape chars := rfl

@[simp] lemma escape_append (s t : List Char) : escape (s ++ t) = escape s ++ escape t :=
  List.flatMap_append

/-- Text without angle brackets is written as it is. -/
lemma escape_eq_self {chars : List Char} (h : ∀ c ∈ chars, isDelimiter c = false) :
    escape chars = chars := by
  induction chars with
  | nil => rfl
  | cons c chars ih =>
    rw [escape_cons, ih fun d hd => h d (List.mem_cons_of_mem c hd), Mark.spell,
      if_neg (by simp [h c List.mem_cons_self])]
    rfl

/-- Ordinary text is the spelling of its characters. -/
lemma flatMap_spell_map_char (chars : List Char) :
    (chars.map Mark.char).flatMap Mark.spell = escape chars := by
  rw [List.flatMap_map, escape]

lemma spell_plain (c : Char) : (Mark.plain c).spell = [c] := by
  unfold Mark.plain
  split
  · rename_i hc
    rw [hc]
    rfl
  · split
    · rename_i hc
      rw [hc]
      rfl
    · rename_i hl hr
      rw [Mark.spell, if_neg (by simp [isDelimiter, hl, hr])]

/-- A character other than a delimiter is an ordinary one. -/
lemma plain_eq_char {c : Char} (h : isDelimiter c = false) : Mark.plain c = .char c := by
  simp only [isDelimiter, Bool.or_eq_false_iff, decide_eq_false_iff_not] at h
  rw [Mark.plain, if_neg h.1, if_neg h.2]

lemma isDelimiter_iff {c : Char} : isDelimiter c = true ↔ c = '<' ∨ c = '>' := by
  simp [isDelimiter]

/-! ## One mark off a text -/

/-- An escaped delimiter is an ordinary character. -/
lemma marks_escaped {d : Char} (hd : isDelimiter d = true) (position : Nat) (s : List Char) :
    marks position ('\\' :: d :: s) = (position, .char d) :: marks (position + 2) s := by
  simp [marks, hd]

/-- A character that does not escape the next one is a mark of its own. -/
lemma marks_cons {c : Char} {s : List Char}
    (h : c = '\\' → ∀ d ∈ s.head?, isDelimiter d = false) (position : Nat) :
    marks position (c :: s) = (position, .plain c) :: marks (position + c.utf8Size) s := by
  cases s with
  | nil => simp [marks]
  | cons d r =>
    rw [marks, if_neg]
    intro hcd
    simp only [Bool.and_eq_true, decide_eq_true_iff] at hcd
    simp [h hcd.1 d (by simp)] at hcd

/-! ## Neighbours -/

/-- Whether a mark may stand right in front of another one: an ordinary backslash may not stand in
front of a delimiter. -/
def Mark.MayPrecede (a b : Mark) : Prop :=
  a = .char '\\' → b ≠ .opening ∧ b ≠ .closing

lemma mayPrecede_of_ne {a : Mark} (h : a ≠ .char '\\') (b : Mark) : a.MayPrecede b :=
  fun ha => absurd ha h

lemma mayPrecede_char (a : Mark) (c : Char) : a.MayPrecede (.char c) :=
  fun _ => ⟨by simp, by simp⟩

/-- The mark of a character is a delimiter only if the character is one. -/
lemma mayPrecede_plain {c d : Char} (h : c = '\\' → isDelimiter d = false) :
    (Mark.plain c).MayPrecede (.plain d) := by
  by_cases hc : c = '\\'
  · rw [plain_eq_char (h hc)]
    exact mayPrecede_char _ d
  · refine mayPrecede_of_ne (fun hm => hc ?_) _
    have := spell_plain c
    rw [hm] at this
    simpa [Mark.spell, isDelimiter] using this.symm

/-- The first mark of a text is an ordinary character or that of the first character. -/
lemma head?_marks {s : List Char} {position : Nat} {m : Nat × Mark}
    (h : m ∈ (marks position s).head?) :
    (∃ c, m.2 = .char c) ∨ ∃ c ∈ s.head?, m.2 = .plain c := by
  match s with
  | [] => simp [marks] at h
  | [c] =>
    simp only [marks, List.head?_cons, Option.mem_def, Option.some.injEq] at h
    exact .inr ⟨c, rfl, h ▸ rfl⟩
  | c :: d :: r =>
    rw [marks] at h
    split at h
    · simp only [List.head?_cons, Option.mem_def, Option.some.injEq] at h
      exact .inl ⟨d, h ▸ rfl⟩
    · simp only [List.head?_cons, Option.mem_def, Option.some.injEq] at h
      exact .inr ⟨c, rfl, h ▸ rfl⟩

/-- **No ordinary backslash stands in front of a delimiter** among the marks of a text. -/
lemma marks_chain (position : Nat) (s : List Char) :
    ((marks position s).map Prod.snd).IsChain Mark.MayPrecede := by
  induction position, s using marks.induct with
  | case1 => simp [marks]
  | case2 => simp [marks]
  | case3 position c d r h ih =>
    rw [marks, if_pos h, List.map_cons, List.isChain_cons]
    refine ⟨fun _ _ => mayPrecede_of_ne (fun hd => ?_) _, ih⟩
    simp only [Bool.and_eq_true] at h
    cases hd
    simp [isDelimiter] at h
  | case4 position c d r h ih =>
    rw [marks, if_neg h, List.map_cons, List.isChain_cons]
    refine ⟨fun m hm => ?_, ih⟩
    simp only [List.head?_map, Option.mem_def, Option.map_eq_some_iff] at hm
    obtain ⟨m, hm, rfl⟩ := hm
    obtain ⟨e, he⟩ | ⟨e, he, hplain⟩ := head?_marks hm
    · rw [he]
      exact mayPrecede_char _ e
    · simp only [List.head?_cons, Option.mem_def, Option.some.injEq] at he
      subst he
      rw [hplain]
      refine mayPrecede_plain fun hc => ?_
      simpa [hc] using h

/-! ## A text and its marks -/

/-- **A text is the spelling of its marks.** -/
lemma flatMap_spell_marks (position : Nat) (s : List Char) :
    ((marks position s).map Prod.snd).flatMap Mark.spell = s := by
  induction position, s using marks.induct with
  | case1 => rfl
  | case2 position c => simp [marks, spell_plain]
  | case3 position c d r h ih =>
    rw [marks, if_pos h, List.map_cons, List.flatMap_cons, ih]
    simp only [Bool.and_eq_true, decide_eq_true_iff] at h
    simp [Mark.spell, h.1, h.2]
  | case4 position c d r h ih =>
    rw [marks, if_neg h, List.map_cons, List.flatMap_cons, ih, spell_plain]
    rfl

/-- Marks with the positions they have when they are written from a position on. -/
def place (position : Nat) : List Mark → List (Nat × Mark)
  | [] => []
  | m :: ms => (position, m) :: place (position + utf8Length m.spell) ms

@[simp] lemma map_snd_place (position : Nat) (ms : List Mark) :
    (place position ms).map Prod.snd = ms := by
  induction ms generalizing position with
  | nil => rfl
  | cons m ms ih => rw [place, List.map_cons, ih]

lemma place_append (position : Nat) (ms ns : List Mark) : place position (ms ++ ns) =
    place position ms ++ place (position + utf8Length (ms.flatMap Mark.spell)) ns := by
  induction ms generalizing position with
  | nil => simp [place, utf8Length]
  | cons m ms ih =>
    simp only [List.cons_append, place, ih, List.flatMap_cons, utf8Length_append, Nat.add_assoc]

/-- The first character that marks spell is a delimiter only if the first mark is one. -/
lemma head?_flatMap_spell {ms : List Mark} {d : Char} (hd : d ∈ (ms.flatMap Mark.spell).head?)
    (hdelimiter : isDelimiter d = true) : ∃ m ∈ ms.head?, m = .opening ∨ m = .closing := by
  cases ms with
  | nil => simp at hd
  | cons m ms =>
    refine ⟨m, rfl, ?_⟩
    cases m with
    | opening => exact .inl rfl
    | closing => exact .inr rfl
    | char c =>
      rw [List.flatMap_cons, Mark.spell] at hd
      split at hd
      · simp only [List.cons_append, List.head?_cons, Option.mem_def, Option.some.injEq] at hd
        subst hd
        simp [isDelimiter] at hdelimiter
      · rename_i hc
        simp only [List.cons_append, List.head?_cons, Option.mem_def, Option.some.injEq] at hd
        subst hd
        exact absurd hdelimiter hc

/-- **The marks of what marks spell** are these marks, if no ordinary backslash stands in front of a
delimiter. -/
lemma marks_flatMap_spell {ms : List Mark} (h : ms.IsChain Mark.MayPrecede) (position : Nat) :
    marks position (ms.flatMap Mark.spell) = place position ms := by
  induction ms generalizing position with
  | nil => rfl
  | cons m ms ih =>
    obtain ⟨hm, hms⟩ := List.isChain_cons.1 h
    rw [List.flatMap_cons, place, ← ih hms]
    -- a mark that is written as one character that does not escape the next one
    have hone : ∀ c, m.spell = [c] → m = .plain c → marks position (m.spell ++
        ms.flatMap Mark.spell) = (position, m) :: marks (position + utf8Length m.spell)
          (ms.flatMap Mark.spell) := by
      intro c hspell hplain
      rw [hspell, List.singleton_append, marks_cons, ← hplain]
      · simp [utf8Length]
      · rintro rfl d hd
        by_contra hdelimiter
        obtain ⟨n, hn, hdn⟩ := head?_flatMap_spell hd (by simpa using hdelimiter)
        obtain ⟨ho, hc⟩ := hm n hn (hplain.trans (plain_eq_char rfl))
        exact hdn.elim ho hc
    cases m with
    | opening => exact hone '<' rfl rfl
    | closing => exact hone '>' rfl rfl
    | char c =>
      cases hc : isDelimiter c with
      | false => exact hone c (by simp [Mark.spell, hc]) (plain_eq_char hc).symm
      | true =>
        have hsize : utf8Length ['\\', c] = 2 := by
          rcases isDelimiter_iff.1 hc with rfl | rfl <;> rfl
        rw [Mark.spell, if_pos hc, hsize]
        exact marks_escaped hc position _

end XmlHarvest.Template
