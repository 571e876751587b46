import Mathlib.Data.List.TakeWhile
import XmlHarvest.Proofs.Except
import XmlHarvest.Query.Call

/-!
# Normalizing white space

What `normalize-space` leaves of a text is told by the words of the text and the white space around
them, for any class of white space. The function goes by the blanks of Unicode. This is the white
space of markup and expressions as long as a text has no other blanks, and no longer: of the others,
none is left where it stands.

## Main definitions

* `Text.Spaced`: a text of given words, with white space before, between and behind them.
* `Text.IsNormalized`: a text with one space between its words and none around them.

## Main results

* `Text.Spaced.unique`: a text has its words in one way.
* `Text.isNormalized_normalizeSpace`: the blanks of Unicode are normalized.
* `Text.isNormalized_isSpacing_iff`: when this is what is asked for by the white space of markup.
* `Query.call_normalizeSpace`: the function of the query language.
-/

namespace XmlHarvest

namespace Text

/-! ## Words and white space -/

/-- The text consists of these words, in this order, and of white space of the class `p` before,
between and behind them. A word is a run of other characters, and ends with the text or where white
space begins. -/
inductive Spaced (p : Char → Bool) : List (List Char) → List Char → Prop
  | nil {s : List Char} : (∀ c ∈ s, p c = true) → Spaced p [] s
  | cons {g w s : List Char} {ws : List (List Char)} : (∀ c ∈ g, p c = true) → w ≠ [] →
      (∀ c ∈ w, p c = false) → (∀ c ∈ s.head?, p c = true) → Spaced p ws s →
      Spaced p (w :: ws) (g ++ (w ++ s))

/-- The text `t` has the words of the text `s` with one space between neighbours, and nothing
else. -/
def IsNormalized (p : Char → Bool) (s t : List Char) : Prop :=
  ∃ ws, Spaced p ws s ∧ t = List.intercalate [' '] ws

variable {p q : Char → Bool} {s t : List Char} {ws : List (List Char)} {c : Char}

namespace Spaced

/-- White space before a text does not count. -/
lemma cons_blank (hc : p c = true) (h : Spaced p ws s) : Spaced p ws (c :: s) := by
  cases h with
  | nil hs => exact .nil (List.forall_mem_cons.2 ⟨hc, hs⟩)
  | cons hgap hne hw hhead hs =>
    exact .cons (g := c :: _) (List.forall_mem_cons.2 ⟨hc, hgap⟩) hne hw hhead hs

/-- A text that does not begin with white space has a word, and it begins with this one. A character
before it belongs to the word. -/
lemma cons_of_neg {d : Char} (hc : p c = false) (hd : p d = false) (h : Spaced p ws (d :: s)) :
    ∃ w ws', ws = w :: ws' ∧ Spaced p ((c :: w) :: ws') (c :: d :: s) := by
  generalize htext : d :: s = text at h
  cases h with
  | nil hs =>
    subst htext
    exact absurd (hs d List.mem_cons_self) (by simp [hd])
  | @cons gap w rest ws hgap hne hw hhead hs =>
    cases gap with
    | nil =>
      refine ⟨w, ws, rfl, ?_⟩
      exact .cons (g := []) (w := c :: w) (by simp) (by simp)
        (List.forall_mem_cons.2 ⟨hc, hw⟩) hhead hs
    | cons e gap =>
      obtain rfl : d = e := (List.cons.inj htext).1
      exact absurd (hgap d List.mem_cons_self) (by simp [hd])

/-- White space at the beginning has no words in it. -/
lemma filter_splitOnP_append {gap : List Char} (hgap : ∀ c ∈ gap, p c = true) :
    ((gap ++ s).splitOnP p).filter (fun w => w ≠ []) = (s.splitOnP p).filter fun w => w ≠ [] := by
  induction gap with
  | nil => rfl
  | cons c gap ih =>
    obtain ⟨hc, hgap⟩ := List.forall_mem_cons.1 hgap
    rw [List.cons_append, List.splitOnP_cons_eq_if_modifyHead, if_pos hc,
      List.filter_cons_of_neg (by simp), ih hgap]

/-- The words are what stands between the characters of the class, without the empty parts. -/
lemma eq_filter_splitOnP (h : Spaced p ws s) : ws = (s.splitOnP p).filter fun w => w ≠ [] := by
  induction h with
  | @nil s hs =>
    have hblank := filter_splitOnP_append (s := []) hs
    rw [List.append_nil] at hblank
    rw [hblank, List.splitOnP_nil]
    rfl
  | @cons gap w s ws hgap hne hw hhead hs ih =>
    rw [filter_splitOnP_append hgap]
    cases s with
    | nil =>
      rw [List.append_nil, List.splitOnP_eq_singleton hw, List.filter_cons_of_pos (by simpa), ih,
        List.splitOnP_nil]
      rfl
    | cons c s =>
      have hc : p c = true := hhead c rfl
      rw [List.splitOnP_append_cons _ _ hc, List.splitOnP_eq_singleton hw, List.singleton_append,
        List.filter_cons_of_pos (by simpa), ih, List.splitOnP_cons_eq_if_modifyHead, if_pos hc,
        List.filter_cons_of_neg (by simp)]

/-- **A text has its words in one way.** -/
lemma unique {ws' : List (List Char)} (h : Spaced p ws s) (h' : Spaced p ws' s) : ws = ws' :=
  h.eq_filter_splitOnP.trans h'.eq_filter_splitOnP.symm

/-- The words depend on the class of the characters of the text only. -/
lemma congr (h : Spaced p ws s) (hclass : ∀ c ∈ s, p c = q c) : Spaced q ws s := by
  induction h with
  | nil hs => exact .nil fun c hc => hclass c hc ▸ hs c hc
  | @cons gap w s ws hgap hne hw hhead hs ih =>
    rw [List.forall_mem_append, List.forall_mem_append] at hclass
    obtain ⟨hclassGap, hclassWord, hclassRest⟩ := hclass
    refine .cons (fun c hc => hclassGap c hc ▸ hgap c hc) hne
      (fun c hc => hclassWord c hc ▸ hw c hc) (fun c hc => ?_) (ih hclassRest)
    exact hclassRest c (List.mem_of_mem_head? hc) ▸ hhead c hc

/-- The characters of the words are those of the text that are not of the class. -/
lemma mem_flatten_iff (h : Spaced p ws s) : c ∈ ws.flatten ↔ c ∈ s ∧ p c = false := by
  induction h with
  | nil hs =>
    simp only [List.flatten_nil, List.not_mem_nil, false_iff, not_and, Bool.not_eq_false]
    exact hs c
  | cons hgap hne hw hhead hs ih =>
    rw [List.flatten_cons, List.mem_append, List.mem_append, List.mem_append, ih]
    constructor
    · rintro (hc | ⟨hc, hpc⟩)
      · exact ⟨.inr (.inl hc), hw c hc⟩
      · exact ⟨.inr (.inr hc), hpc⟩
    · rintro ⟨hc | hc | hc, hpc⟩
      · exact absurd (hgap c hc) (by simp [hpc])
      · exact .inl hc
      · exact .inr ⟨hc, hpc⟩

/-- A text with one space between its words has these words. -/
lemma intercalate (h : Spaced p ws s) (hp : p ' ' = true) :
    Spaced p ws (List.intercalate [' '] ws) := by
  induction h with
  | nil hs => exact .nil (by simp)
  | @cons gap w s ws hgap hne hw hhead hs ih =>
    cases ws with
    | nil =>
      have hword :=
        Spaced.cons (p := p) (g := []) (s := []) (by simp) hne hw (by simp) (.nil (by simp))
      simpa using hword
    | cons w' ws =>
      have hword := Spaced.cons (g := []) (by simp) hne hw (by simpa using hp) (ih.cons_blank hp)
      simpa using hword

end Spaced

/-! ## Normalized texts -/

namespace IsNormalized

/-- What comes of normalizing a text is determined. -/
lemma unique {t' : List Char} (h : IsNormalized p s t) (h' : IsNormalized p s t') : t = t' := by
  obtain ⟨ws, hs, rfl⟩ := h
  obtain ⟨ws', hs', rfl⟩ := h'
  rw [hs.unique hs']

/-- A normalized text is left as it is. -/
lemma self (h : IsNormalized p s t) (hp : p ' ' = true) : IsNormalized p t t := by
  obtain ⟨ws, hs, rfl⟩ := h
  exact ⟨ws, hs.intercalate hp, rfl⟩

/-- Besides spaces, a normalized text has the characters that are not of the class. -/
lemma mem_iff (h : IsNormalized p s t) (hc : c ≠ ' ') : c ∈ t ↔ c ∈ s ∧ p c = false := by
  obtain ⟨ws, hs, rfl⟩ := h
  rw [← hs.mem_flatten_iff]
  clear hs
  induction ws with
  | nil => simp
  | cons w ws ih =>
    cases ws with
    | nil => simp
    | cons w' ws =>
      rw [List.flatten_cons, List.mem_append, ← ih]
      simp [hc]

end IsNormalized

/-- The words of a text are what stands between its blanks. -/
lemma spaced_words (s : List Char) : Spaced isBlank (words s) s := by
  induction s using words.induct with
  | case1 => exact .nil (by simp)
  | case2 c hc =>
    rw [words, if_pos hc]
    exact .nil (by simpa using hc)
  | case3 c hc =>
    rw [words, if_neg hc]
    exact .cons (g := []) (w := [c]) (s := []) (by simp) (by simp) (by simpa using hc) (by simp)
      (.nil (by simp))
  | case4 c d r hc ih =>
    rw [words, if_pos hc]
    exact ih.cons_blank hc
  | case5 c d r hc hd ih =>
    rw [words, if_neg hc, if_pos hd]
    exact .cons (g := []) (w := [c]) (by simp) (by simp) (by simpa using hc) (by simpa using hd) ih
  | case6 c d r hc hd hnil ih =>
    obtain ⟨w, ws, hcons, -⟩ := ih.cons_of_neg (c := c) (by simpa using hc) (by simpa using hd)
    rw [hnil] at hcons
    cases hcons
  | case7 c d r hc hd w ws hwords ih =>
    obtain ⟨w', ws', hcons, hspaced⟩ :=
      ih.cons_of_neg (c := c) (by simpa using hc) (by simpa using hd)
    rw [hwords] at hcons
    cases hcons
    rw [words, if_neg hc, if_neg hd, hwords]
    exact hspaced

/-- **Blanks are normalized.** -/
lemma isNormalized_normalizeSpace (s : List Char) : IsNormalized isBlank s (normalizeSpace s) :=
  ⟨words s, spaced_words s, rfl⟩

/-- Normalizing a second time changes nothing. -/
lemma normalizeSpace_normalizeSpace (s : List Char) :
    normalizeSpace (normalizeSpace s) = normalizeSpace s :=
  (isNormalized_normalizeSpace _).unique ((isNormalized_normalizeSpace s).self (by decide))

/-- The white space of markup is blank. -/
lemma isBlank_of_isSpacing (h : isSpacing c = true) : isBlank c = true := by
  simp only [isSpacing, Bool.or_eq_true, beq_iff_eq] at h
  rcases h with ((rfl | rfl) | rfl) | rfl <;> decide

/-- **Blanks and the white space of markup**: a text with normalized blanks is also what the white
space of markup asks for if, and only if, the text has no other blanks.

**Proof sketch.** A blank that is no white space of markup would have to stay where it is, but the
only blanks that are left are spaces. -/
lemma isNormalized_isSpacing_iff : IsNormalized isSpacing s (normalizeSpace s) ↔
    ∀ c ∈ s, isBlank c = true → isSpacing c = true := by
  constructor
  · intro h c hc hblank
    by_contra hspacing
    have hne : c ≠ ' ' := by
      rintro rfl
      exact hspacing rfl
    have hleft : c ∈ normalizeSpace s := (h.mem_iff hne).2 ⟨hc, by simpa using hspacing⟩
    have hnone := ((isNormalized_normalizeSpace s).mem_iff hne).1 hleft
    rw [hblank] at hnone
    cases hnone.2
  · intro h
    refine ⟨words s, (spaced_words s).congr fun c hc => ?_, rfl⟩
    rw [Bool.eq_iff_iff]
    exact ⟨h c hc, isBlank_of_isSpacing⟩

end Text

/-! ## The function -/

namespace Query

open Text

/-- **The function `normalize-space`** succeeds for every argument, or for the context node. Its
value is the text with its blanks normalized, which determines the value. Applied to this value, the
function leaves it as it is. It is the text with the white space of markup normalized if the text
has no other blanks, and only then.

**Proof sketch.** The words that are joined are those of the text (`spaced_words`), and a text has
its words in one way (`Spaced.unique`), which determines the value. The joined words are again the
words of the value, so that a second time changes nothing (`normalizeSpace_normalizeSpace`). A blank
that is no white space of markup would have to be left where it stands, but no blank is left except
spaces (`isNormalized_isSpacing_iff`). -/
theorem call_normalizeSpace (d : Document) (arguments : List Value) (focus : Focus) :
    ∃ t : String, call d .normalizeSpace arguments focus = .ok (.text t) ∧
      (∀ u, IsNormalized isBlank (argumentText d focus arguments[0]?).toList u ↔ u = t.toList) ∧
      call d .normalizeSpace [.text t] focus = .ok (.text t) ∧
      (IsNormalized isSpacing (argumentText d focus arguments[0]?).toList t.toList ↔
        ∀ c ∈ (argumentText d focus arguments[0]?).toList,
          isBlank c = true → isSpacing c = true) := by
  refine ⟨_, rfl, fun u => ?_, ?_, ?_⟩
  · rw [String.toList_ofList]
    constructor
    · intro h
      exact h.unique (isNormalized_normalizeSpace _)
    · rintro rfl
      exact isNormalized_normalizeSpace _
  · show Except.ok (Value.text (String.ofList (normalizeSpace (String.ofList _).toList))) = _
    rw [String.toList_ofList, normalizeSpace_normalizeSpace]
  · rw [String.toList_ofList]
    exact isNormalized_isSpacing_iff

/-- **A no-break space is replaced**, although it is no white space of markup: with this white space
normalized, `a`, a no-break space and `b` stay as they are. -/
theorem call_normalizeSpace_noBreakSpace : ∃ d : Document, Document.parse "<r/>" = .ok d ∧
    call d .normalizeSpace [.text "a\u00a0b"] ⟨0, 1, 1⟩ = .ok (.text "a b") ∧
      IsNormalized isSpacing ['a', '\u00a0', 'b'] ['a', '\u00a0', 'b'] ∧
      ¬IsNormalized isSpacing ['a', '\u00a0', 'b'] ['a', ' ', 'b'] := by
  have hparse : (Document.parse "<r/>").toOption.isSome := by decide +kernel
  obtain ⟨d, hd⟩ := Option.isSome_iff_exists.1 hparse
  have hself : IsNormalized isSpacing ['a', '\u00a0', 'b'] ['a', '\u00a0', 'b'] :=
    ⟨[['a', '\u00a0', 'b']], .cons (g := []) (s := []) (by simp) (by simp) (by simp [isSpacing])
      (by simp) (.nil (by simp)), rfl⟩
  refine ⟨d, toOption_eq_some_iff.1 hd, ?_, hself, fun h => ?_⟩
  · have htext : normalizeSpace "a\u00a0b".toList = "a b".toList := by decide +kernel
    show Except.ok (Value.text (String.ofList (normalizeSpace "a\u00a0b".toList))) = _
    rw [htext, String.ofList_toList]
  · exact absurd (h.unique hself) (by decide)

end Query

end XmlHarvest
