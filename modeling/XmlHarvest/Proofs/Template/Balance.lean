import Mathlib.Data.List.Infix
import XmlHarvest.Proofs.Template.Spelling

/-!
# Balanced texts

The delimiters of a text are balanced if no beginning of it closes more contexts than it opens, and
the whole text closes as many as it opens. A text is read as a template exactly if its delimiters
are balanced.

## Main definitions

* `Template.IsBalanced`: the delimiters of a text match.

## Main results

* `Template.Phrase.Partial.isClosed_ofMarks_iff`: what is left over of marks, by counting.
* `Template.exists_parse_iff_isBalanced`: which texts are read as templates.
-/

namespace XmlHarvest.Template

/-- Behind a beginning of the marks no more than `depth` contexts are closed that were not opened
there, and behind all of them exactly `depth`. -/
def ClosesExactly (depth : Nat) (ms : List Mark) : Prop :=
  ms.count .closing = depth + ms.count .opening ∧
    ∀ before, before <+: ms → before.count .closing ≤ depth + before.count .opening

/-- The delimiters of a text match each other. -/
def IsBalanced (s : List Char) : Prop :=
  ClosesExactly 0 ((marks 0 s).map Prod.snd)

/-- A beginning of marks is empty or a beginning of those behind the first one. -/
lemma closesExactly_cons_iff {depth : Nat} {m : Mark} {ms : List Mark} :
    ClosesExactly depth (m :: ms) ↔
      (m :: ms).count .closing = depth + (m :: ms).count .opening ∧
        ∀ before, before <+: ms →
          (m :: before).count .closing ≤ depth + (m :: before).count .opening := by
  simp only [ClosesExactly, List.prefix_cons_iff]
  refine and_congr_right fun _ => ⟨fun h before hbefore => ?_, ?_⟩
  · exact h _ (.inr ⟨before, rfl, hbefore⟩)
  · rintro h _ (rfl | ⟨before, rfl, hbefore⟩)
    · exact Nat.zero_le _
    · exact h before hbefore

lemma closesExactly_char {depth : Nat} {c : Char} {ms : List Mark} :
    ClosesExactly depth (.char c :: ms) ↔ ClosesExactly depth ms := by
  rw [closesExactly_cons_iff]
  simp [ClosesExactly]

/-- An opening delimiter is one more to be closed. -/
lemma closesExactly_opening {depth : Nat} {ms : List Mark} :
    ClosesExactly depth (.opening :: ms) ↔ ClosesExactly (depth + 1) ms := by
  rw [closesExactly_cons_iff]
  simp [ClosesExactly, Nat.add_assoc, Nat.add_comm 1]

/-- A closing delimiter is one less to be closed. -/
lemma closesExactly_closing {depth : Nat} {ms : List Mark} :
    ClosesExactly (depth + 1) (.closing :: ms) ↔ ClosesExactly depth ms := by
  rw [closesExactly_cons_iff]
  simp [ClosesExactly, Nat.add_right_comm]

/-- Outside of every context nothing can be closed. -/
lemma not_closesExactly_closing {ms : List Mark} : ¬ClosesExactly 0 (.closing :: ms) := by
  intro h
  have hfirst := h.2 [.closing] (by simp)
  simp at hfirst

namespace Phrase

/-- **What is left over of marks, by counting.** Marks leave `depth` closing delimiters and no
opening one without a partner exactly if they close `depth` contexts that were not opened there.

**Proof sketch.** Induction on the marks for all depths, as the marks are read. -/
lemma Partial.isClosed_ofMarks_iff {depth : Nat} {ms : List (Nat × Mark)} :
    (Partial.ofMarks ms).behind.length = depth ∧ (Partial.ofMarks ms).unclosed = none ↔
      ClosesExactly depth (ms.map Prod.snd) := by
  induction ms generalizing depth with
  | nil => simp [Partial.ofMarks, ClosesExactly, eq_comm]
  | cons m ms ih =>
    obtain ⟨position, m⟩ := m
    rw [Partial.ofMarks, List.map_cons]
    cases m with
    | char c => rw [closesExactly_char, ← ih, Partial.prepend]
    | closing =>
      cases depth with
      | zero => simp [not_closesExactly_closing, Partial.prepend]
      | succ depth => simp [closesExactly_closing, ← ih, Partial.prepend]
    | opening =>
      rw [closesExactly_opening, ← ih, Partial.prepend]
      cases (Partial.ofMarks ms).behind with
      | nil => simp
      | cons g gs => simp

end Phrase

/-- **A text is read as a template** exactly if its delimiters are balanced. -/
theorem exists_parse_iff_isBalanced {source : String} :
    (∃ t, parse source = .ok t) ↔ IsBalanced source.toList := by
  rw [IsBalanced, ← Phrase.Partial.isClosed_ofMarks_iff, List.length_eq_zero_iff]
  constructor
  · rintro ⟨t, ht⟩
    obtain ⟨hbehind, hunclosed, -⟩ := Phrase.ofMarks_eq_ok_iff.1 (exists_parse_iff.1 ⟨t, ht, rfl⟩)
    exact ⟨hbehind, hunclosed⟩
  · rintro ⟨hbehind, hunclosed⟩
    obtain ⟨t, ht, -⟩ := exists_parse_iff.2 (Phrase.ofMarks_eq_ok_iff.2 ⟨hbehind, hunclosed, rfl⟩)
    exact ⟨t, ht⟩

end XmlHarvest.Template
