import Mathlib.Data.List.TakeWhile
import XmlHarvest.Text.Blank
import XmlHarvest.Text.Search

/-!
# Trimming and dividing texts

What is left of a text without the blanks around it, and the parts between the characters of a
class. Neither depends on more than the class of each character, so characters may be exchanged for
others of the same class.

## Main results

* `Text.trimChars_eq_nil_iff`, `Text.trimChars_eq_self`: texts that are blank, and texts without
  blanks.
* `Text.trimChars_around`, `Text.exists_eq_around_trimChars`: blanks around a text.
* `Text.fields_append_cons`: the first part of a text.
* `Text.trimChars_map`, `Text.fields_map`: other characters of the same class.
-/

namespace XmlHarvest.Text

variable {p : Char → Bool} {s t : List Char}

/-! ## Trimming -/

/-- Nothing is left of a text from its end if all its characters are of the class. -/
lemma trimEndWhile_eq_nil_iff : trimEndWhile p s = [] ↔ ∀ c ∈ s, p c = true := by
  induction s with
  | nil => simp [trimEndWhile]
  | cons c s ih =>
    rw [List.forall_mem_cons, ← ih, trimEndWhile]
    cases hs : trimEndWhile p s with
    | nil => by_cases hc : p c <;> simp [hc]
    | cons d kept => simp

/-- Nothing is left of a text without the blanks around it if it is blank. -/
lemma trimChars_eq_nil_iff : trimChars s = [] ↔ ∀ c ∈ s, isBlank c = true := by
  rw [trimChars, trimEndWhile_eq_nil_iff]
  constructor
  · intro h c hc
    -- the first character that is not blank would be left
    rw [← List.takeWhile_append_dropWhile (p := isBlank) (l := s)] at hc
    rcases List.mem_append.1 hc with hc | hc
    · exact List.mem_takeWhile_imp hc
    · exact h c hc
  · intro h c hc
    exact h c ((List.dropWhile_sublist isBlank).mem hc)

/-- A text without characters of the class keeps its end. -/
lemma trimEndWhile_eq_self (h : ∀ c ∈ s, p c = false) : trimEndWhile p s = s := by
  induction s with
  | nil => rfl
  | cons c s ih =>
    obtain ⟨hc, hs⟩ := List.forall_mem_cons.1 h
    rw [trimEndWhile, ih hs]
    cases s with
    | nil => simp [hc]
    | cons d s => rfl

/-- A text without blanks is left as it is. -/
lemma trimChars_eq_self (h : ∀ c ∈ s, isBlank c = false) : trimChars s = s := by
  have hstart : trimStart s = s := by
    cases s with
    | nil => rfl
    | cons c s => exact List.dropWhile_cons_of_neg (by simp [h c])
  rw [trimChars, hstart, trimEndWhile_eq_self h]

/-- Characters of the class at the end do not count. -/
lemma trimEndWhile_append (ht : ∀ c ∈ t, p c = true) :
    trimEndWhile p (s ++ t) = trimEndWhile p s := by
  induction s with
  | nil => exact trimEndWhile_eq_nil_iff.2 ht
  | cons c s ih => rw [List.cons_append, trimEndWhile, trimEndWhile, ih]

/-- **Blanks around a text** do not count. -/
lemma trimChars_around {before behind : List Char} (hbefore : ∀ c ∈ before, isBlank c = true)
    (hbehind : ∀ c ∈ behind, isBlank c = true) :
    trimChars (before ++ s ++ behind) = trimChars s := by
  have hstart : trimStart (before ++ s ++ behind) = trimStart (s ++ behind) := by
    rw [trimStart, List.append_assoc, List.dropWhile_append_of_pos hbefore, trimStart]
  rw [trimChars, hstart, trimStart, List.dropWhile_append, trimChars, trimStart]
  split
  · rename_i hempty
    -- nothing but blanks: what is left of the blanks behind is trimmed from the end
    have hnil : trimEndWhile isBlank (behind.dropWhile isBlank) = [] :=
      trimEndWhile_eq_nil_iff.2 fun c hc => hbehind c ((List.dropWhile_sublist _).mem hc)
    rw [hnil, List.isEmpty_iff.1 hempty, trimEndWhile]
  · exact trimEndWhile_append hbehind

/-- What is trimmed from the end of a text is of the class. -/
lemma exists_eq_trimEndWhile_append (p : Char → Bool) (s : List Char) :
    ∃ behind, s = trimEndWhile p s ++ behind ∧ ∀ c ∈ behind, p c = true := by
  induction s with
  | nil => exact ⟨[], rfl, nofun⟩
  | cons c s ih =>
    obtain ⟨behind, hs, hbehind⟩ := ih
    rw [trimEndWhile]
    cases hkept : trimEndWhile p s with
    | nil =>
      rw [hkept, List.nil_append] at hs
      by_cases hc : p c = true
      · exact ⟨c :: s, by simp [hc], List.forall_mem_cons.2 ⟨hc, hs ▸ hbehind⟩⟩
      · exact ⟨s, by simp [hc], hs ▸ hbehind⟩
    | cons d kept =>
      rw [hkept] at hs
      exact ⟨behind, congrArg (c :: ·) hs, hbehind⟩

/-- **A text is what is left of it with blanks around.** -/
lemma exists_eq_around_trimChars (s : List Char) : ∃ before behind,
    s = before ++ trimChars s ++ behind ∧ (∀ c ∈ before, isBlank c = true) ∧
      ∀ c ∈ behind, isBlank c = true := by
  obtain ⟨behind, hend, hbehind⟩ := exists_eq_trimEndWhile_append isBlank (trimStart s)
  refine ⟨s.takeWhile isBlank, behind, ?_, fun c hc => List.mem_takeWhile_imp hc, hbehind⟩
  rw [trimChars, List.append_assoc, ← hend, trimStart, List.takeWhile_append_dropWhile]

/-- A digit is no blank. -/
lemma not_isBlank_of_isDigit {c : Char} (h : c.isDigit = true) : isBlank c = false := by
  have hrange : 48 ≤ c.toNat ∧ c.toNat ≤ 57 := by
    simpa [Char.isDigit, UInt32.le_iff_toNat_le] using h
  simp [isBlank]
  omega

/-! ## Parts -/

/-- There is always a part. -/
lemma fields_ne_nil : fields p s ≠ [] := by
  cases s with
  | nil => simp [fields]
  | cons c s =>
    rw [fields]
    split
    · simp
    · split <;> simp

/-- A character that is not of the class belongs to the first part. -/
lemma fields_cons_of_neg {c : Char} (hc : p c = false) {f : List Char} {fs : List (List Char)}
    (h : fields p s = f :: fs) : fields p (c :: s) = (c :: f) :: fs := by
  rw [fields, hc, h]
  rfl

/-- **The first part** of a text ends where the first character of the class stands. -/
lemma fields_append_cons {c : Char} (hs : ∀ d ∈ s, p d = false) (hc : p c = true) :
    fields p (s ++ c :: t) = s :: fields p t := by
  induction s with
  | nil => rw [List.nil_append, fields, if_pos hc]
  | cons d s ih =>
    obtain ⟨hd, hs⟩ := List.forall_mem_cons.1 hs
    exact fields_cons_of_neg hd (ih hs)

/-- A text without characters of the class is its only part. -/
lemma fields_eq_singleton (hs : ∀ d ∈ s, p d = false) : fields p s = [s] := by
  induction s with
  | nil => rfl
  | cons d s ih =>
    obtain ⟨hd, hs⟩ := List.forall_mem_cons.1 hs
    exact fields_cons_of_neg hd (ih hs)

/-! ## Other characters of the same class -/

section Map

variable {f : Char → Char}

lemma trimEndWhile_map (hf : ∀ c, p (f c) = p c) :
    trimEndWhile p (s.map f) = (trimEndWhile p s).map f := by
  induction s with
  | nil => rfl
  | cons c s ih =>
    rw [List.map_cons, trimEndWhile, trimEndWhile, ih, hf]
    cases trimEndWhile p s with
    | nil => cases p c <;> rfl
    | cons d kept => rfl

/-- Blanks are trimmed wherever they stand for others. -/
lemma trimChars_map (hf : ∀ c, isBlank (f c) = isBlank c) :
    trimChars (s.map f) = (trimChars s).map f := by
  have hclass : isBlank ∘ f = isBlank := funext hf
  rw [trimChars, trimStart, List.dropWhile_map, hclass, trimEndWhile_map hf, trimChars, trimStart]

/-- Parts are divided where the characters of the class stand, whichever these are. -/
lemma fields_map (hf : ∀ c, p (f c) = p c) :
    fields p (s.map f) = (fields p s).map (List.map f) := by
  induction s with
  | nil => rfl
  | cons c s ih =>
    obtain ⟨part, parts, hparts⟩ := List.exists_cons_of_ne_nil (fields_ne_nil (p := p) (s := s))
    rw [hparts, List.map_cons] at ih
    cases hc : p c with
    | true =>
      rw [List.map_cons, fields, fields, hf, hc, if_pos rfl, if_pos rfl, ih, hparts]
      rfl
    | false =>
      rw [fields_cons_of_neg hc hparts, List.map_cons,
        fields_cons_of_neg ((hf c).trans hc) ih]
      rfl

end Map

end XmlHarvest.Text
