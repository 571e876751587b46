import XmlHarvest.Proofs.Number.Halfway
import XmlHarvest.Proofs.Query.Parsing
import XmlHarvest.Proofs.Text.Parts
import XmlHarvest.Query.Value

/-!
# Texts that are numbers

A text is tested before it is read as a number, by its characters alone: digits, and a point at most
once. The texts that pass the test are just the numbers of the grammar of expressions, and all of
them can be read. So a text is a number if it is one of the grammar, with an optional minus sign and
blanks around it, and in an expression a number is read as the text that it is.

## Main definitions

* `Query.IsSigned`: a number of the grammar with an optional minus sign.

## Main results

* `Query.isPlain_iff`: the test by characters is the grammar.
* `Query.readUnsigned?_isSome_of_isUnsigned`: the numbers of the grammar can be read.
* `Query.isNaN_ofChars_iff`: the texts that are not numbers.
* `Query.numbers_of_notation`: numbers in texts and in expressions.
-/

namespace XmlHarvest

/-! ## Doubles near a ratio -/

namespace Number

/-- The double nearest to a ratio is a number, be it infinite. -/
lemma isNaN_ofRatio (negative : Bool) (num den : Nat) :
    (ofRatio negative num den).isNaN = false := by
  rcases (nearestBits_le num den).lt_or_eq with hfinite | hinfinite
  · have hunits := hasUnits_ofBits hfinite negative
    exact (Bool.or_eq_false_iff.1 hunits.isNaN_or_isInf).1
  · rw [ofRatio, hinfinite]
    cases negative <;> decide

end Number

namespace Query

open Number Text

variable {s t : List Char}

/-- How a sign is written in front of a number. -/
def spellSign (negative : Bool) : List Char :=
  if negative then ['-'] else []

/-- A number of the grammar with an optional minus sign. -/
def IsSigned (s : List Char) : Prop :=
  ∃ negative r, IsUnsigned r ∧ s = spellSign negative ++ r

/-! ## The test -/

lemma ne_point_of_isDigit {c : Char} (h : c.isDigit = true) : c ≠ '.' := by
  rintro rfl
  cases h

/-- A number of the grammar holds digits and points. -/
lemma IsUnsigned.isDigit_or (h : IsUnsigned s) : ∀ c ∈ s, c.isDigit = true ∨ c = '.' := by
  cases h with
  | whole _ _ h => exact fun c hc => .inl (h c hc)
  | point w f _ h hf =>
    intro c hc
    rcases List.mem_append.1 hc with hc | hc
    · exact .inl (h c hc)
    · rcases List.mem_cons.1 hc with rfl | hc
      · exact .inr rfl
      · exact .inl (hf c hc)

/-- **The test by characters is the grammar** of numbers without a sign. -/
lemma isPlain_iff : isPlain s = true ↔ IsUnsigned s := by
  have hcount {r : List Char} (h : ∀ c ∈ r, c.isDigit = true) : r.count '.' = 0 :=
    List.count_eq_zero.2 fun hmem => ne_point_of_isDigit (h _ hmem) rfl
  simp only [isPlain, Bool.and_eq_true, Bool.not_eq_true', List.isEmpty_eq_false_iff, bne_iff_ne,
    List.all_eq_true, Bool.or_eq_true, beq_iff_eq, decide_eq_true_eq]
  constructor
  · rintro ⟨⟨⟨hne, hpoint⟩, hall⟩, hone⟩
    by_cases hmem : '.' ∈ s
    · obtain ⟨w, f, rfl, hw⟩ := List.eq_append_cons_of_mem hmem
      have hf : '.' ∉ f := by
        rw [List.count_append, List.count_cons_self] at hone
        exact List.count_eq_zero.1 (by omega)
      refine .point w f ?_ (fun c hc => ?_) fun c hc => ?_
      · by_contra hempty
        obtain ⟨rfl, rfl⟩ : w = [] ∧ f = [] := by simpa only [not_or, not_not] using hempty
        exact hpoint rfl
      · exact (hall c (by simp [hc])).resolve_right fun h => hw (h ▸ hc)
      · exact (hall c (by simp [hc])).resolve_right fun h => hf (h ▸ hc)
    · exact .whole s hne fun c hc => (hall c hc).resolve_right fun h => hmem (h ▸ hc)
  · intro h
    refine ⟨⟨?_, h.isDigit_or⟩, ?_⟩
    · cases h with
      | whole _ hne h => exact ⟨hne, fun hs => ne_point_of_isDigit (h '.' (by simp [hs])) rfl⟩
      | point w f hne _ _ =>
        refine ⟨by simp, fun hs => ?_⟩
        have hlength := congrArg List.length hs
        simp only [List.length_append, List.length_cons, List.length_nil] at hlength
        rcases hne with hw | hf
        · exact hw (List.eq_nil_of_length_eq_zero (by omega))
        · exact hf (List.eq_nil_of_length_eq_zero (by omega))
    · cases h with
      | whole _ _ h =>
        rw [hcount h]
        exact Nat.zero_le _
      | point w f _ h hf => rw [List.count_append, List.count_cons_self, hcount h, hcount hf]

/-! ## Reading -/

/-- Digits are read as a whole number. -/
lemma readUnsigned?_digits (hne : s ≠ []) (h : ∀ c ∈ s, c.isDigit = true) :
    readUnsigned? s = some ⟨digitsValue 0 s, 0⟩ := by
  have hend : ∀ c ∈ ([] : List Char).head?, c.isDigit = false := nofun
  obtain ⟨htake, hdrop⟩ := takeWhile_dropWhile_append h hend
  rw [List.append_nil] at htake hdrop
  simp [readUnsigned?, htake, hdrop, hne]

/-- Digits with a point are read as a whole number with as many places as digits stand behind it. -/
lemma readUnsigned?_point {w f : List Char} (hne : w ≠ [] ∨ f ≠ [])
    (h : ∀ c ∈ w, c.isDigit = true) (hf : ∀ c ∈ f, c.isDigit = true) :
    readUnsigned? (w ++ '.' :: f) = some ⟨digitsValue (digitsValue 0 w) f, -(f.length : Int)⟩ := by
  have hpoint : ∀ c ∈ ('.' :: f).head?, c.isDigit = false := by simp
  obtain ⟨htake, hdrop⟩ := takeWhile_dropWhile_append h hpoint
  have hempty : (w.isEmpty && f.isEmpty) = false := by
    rcases hne with hne | hne <;> simp [hne]
  have hall : f.all Char.isDigit = true := List.all_eq_true.2 hf
  simp [readUnsigned?, htake, hdrop, hall, hempty]

/-- **The numbers of the grammar can be read.** -/
lemma readUnsigned?_isSome_of_isUnsigned (h : IsUnsigned s) : (readUnsigned? s).isSome := by
  cases h with
  | whole _ hne h =>
    rw [readUnsigned?_digits hne h]
    rfl
  | point w f hne h hf =>
    rw [readUnsigned?_point hne h hf]
    rfl

/-! ## Numbers in texts -/

/-- A number of the grammar is read as the double nearest to it. -/
lemma exists_ofPlain_eq (h : IsUnsigned s) : ∃ d, readUnsigned? s = some d ∧
    ∀ negative, ofPlain negative s = ofDecimal negative d := by
  obtain ⟨d, hd⟩ := Option.isSome_iff_exists.1 (readUnsigned?_isSome_of_isUnsigned h)
  refine ⟨d, hd, fun negative => ?_⟩
  rw [ofPlain, if_pos (isPlain_iff.2 h), hd, Option.elim_some]

lemma isNaN_ofPlain_iff {negative : Bool} : (ofPlain negative s).isNaN = true ↔ ¬IsUnsigned s := by
  by_cases h : IsUnsigned s
  · obtain ⟨d, -, hvalue⟩ := exists_ofPlain_eq h
    rw [hvalue, ofDecimal, isNaN_ofRatio]
    simp [h]
  · rw [ofPlain, if_neg (mt isPlain_iff.1 h)]
    exact iff_of_true rfl h

lemma not_isUnsigned_minus : ¬IsUnsigned ('-' :: s) := by
  intro h
  rcases h.isDigit_or '-' List.mem_cons_self with h | h <;> cases h

/-- No character of a number is a blank. -/
lemma IsSigned.not_isBlank (h : IsSigned s) : ∀ c ∈ s, isBlank c = false := by
  obtain ⟨negative, r, hr, rfl⟩ := h
  have hunsigned : ∀ c ∈ r, isBlank c = false := fun c hc => by
    rcases hr.isDigit_or c hc with h | rfl
    · exact not_isBlank_of_isDigit h
    · decide
  cases negative with
  | false => exact hunsigned
  | true => exact List.forall_mem_cons.2 ⟨by decide, hunsigned⟩

/-- A number is read behind its sign. -/
lemma ofChars_eq_ofPlain {negative : Bool} {r : List Char} (hr : IsUnsigned r)
    (hs : trimChars s = spellSign negative ++ r) : ofChars s = ofPlain negative r := by
  rw [ofChars, hs]
  cases negative with
  | true => rfl
  | false =>
    split
    · rename_i t heq
      have hminus : r = '-' :: t := heq
      exact absurd (hminus ▸ hr) not_isUnsigned_minus
    · rfl

/-- **The texts that are not numbers**: what is left of them without blanks is not of the
grammar. -/
lemma isNaN_ofChars_iff : (ofChars s).isNaN = true ↔ ¬IsSigned (trimChars s) := by
  constructor
  · rintro hnan ⟨negative, r, hr, hs⟩
    rw [ofChars_eq_ofPlain hr hs, isNaN_ofPlain_iff] at hnan
    exact hnan hr
  · intro h
    rw [ofChars]
    split
    · rename_i r hs
      exact isNaN_ofPlain_iff.2 fun hr => h ⟨true, r, hr, hs⟩
    · exact isNaN_ofPlain_iff.2 fun hr => h ⟨false, _, hr, rfl⟩

/-- **A number without blanks** is read as the double nearest to it. -/
lemma IsUnsigned.ofChars_eq (h : IsUnsigned s) {d : Decimal} (hd : readUnsigned? s = some d)
    (negative : Bool) : ofChars (spellSign negative ++ s) = ofDecimal negative d := by
  have htrim : trimChars (spellSign negative ++ s) = spellSign negative ++ s :=
    trimChars_eq_self (IsSigned.not_isBlank ⟨negative, s, h, rfl⟩)
  obtain ⟨d', hd', hvalue⟩ := exists_ofPlain_eq h
  cases hd.symm.trans hd'
  rw [ofChars_eq_ofPlain h htrim, hvalue]

/-! ## Numbers in expressions -/

/-- A text is a number of the grammar if it is cut off as one. -/
lemma firstNumber?_eq_self_iff : firstNumber? s = some (s, []) ↔ IsUnsigned s := by
  refine ⟨isUnsigned_of_firstNumber?, fun h => ?_⟩
  have hfirst : firstNumber? (s ++ []) = some (s, []) := firstNumber?_append h nofun
  rwa [List.append_nil] at hfirst

/-- A number of the grammar denotes the double that its text denotes. -/
lemma IsUnsigned.isValueOf (h : IsUnsigned s) : IsValueOf (ofChars s) s := by
  obtain ⟨d, hd⟩ := Option.isSome_iff_exists.1 (readUnsigned?_isSome_of_isUnsigned h)
  exact ⟨h, d, hd, h.ofChars_eq hd false⟩

/-- A number token is read as a number leaf. -/
lemma readPrimary_number (h : IsUnsigned s) (depth : Nat) (rest : List Token) :
    readPrimary (depth + 1) (.number s :: rest) = some (.number (ofChars s), rest) := by
  obtain ⟨-, d, hd, hvalue⟩ := h.isValueOf
  rw [readPrimary, hd, hvalue]
  rfl

/-- A number of the grammar is an expression. -/
lemma parse?_number {source : String} (h : IsUnsigned source.toList) :
    parse? source = some (.number (ofText source)) := by
  have hproper : ∀ t ∈ [Token.number source.toList], t.IsProper := List.forall_mem_singleton.2 h
  have htokens : tokens? ([] ++ source.toList) = some [.number source.toList] :=
    tokens?_of_mem_spaced hproper nofun rfl
  have hwell : (Expr.number (ofText source) : Expr written).WellFormed :=
    Expr.wellFormed_iff.2 ⟨⟨_, h.isValueOf⟩, trivial⟩
  have hspelled : [Token.number source.toList] ∈ (Expr.number (ofText source)).spellings := by
    rw [Expr.spellings]
    exact ⟨_, h.isValueOf, rfl⟩
  have hread := (Expr.readsBack _ hwell).readsTier hspelled (ends_nil 0)
  have hdepth : needed (17 - 2 * Tier.disjunction.rank) [.number source.toList] ≤
      depthPerToken * 2 := by
    simp only [needed, depthPerToken, List.length_singleton]
    omega
  rw [List.append_nil] at hread
  rw [List.nil_append] at htokens
  rw [parse?, htokens]
  show (readTier (depthPerToken * 2) .disjunction [.number source.toList]).bind _ = _
  rw [hread _ hdepth]
  rfl

/-- **Numbers in texts and in expressions.** A text is not a number unless it consists of blanks
around a number of the grammar with an optional minus sign. The numbers of the grammar are those
texts that are cut off as one token; such a text is an expression, namely the number that the text
is. Wherever a number token stands in an expression, it can be read, and as the number that its text
is.

**Proof sketch.** The test by characters lets through the numbers of the grammar (`isPlain_iff`).
All of these can be read, as doubles that are nearest to a ratio and therefore numbers; so a text is
a number exactly if it is one of the grammar behind its blanks and its sign (`isNaN_ofChars_iff`). A
number of the grammar is one token, which is a spelling of the number leaf and read back as such
(`parse?_number`). In every text, the tokens are tokens of the grammar. -/
theorem numbers_of_notation :
    (∀ s : String, (ofText s).isNaN = true ↔ ¬∃ before t behind, s.toList = before ++ t ++ behind ∧
      (∀ c ∈ before, isBlank c = true) ∧ (∀ c ∈ behind, isBlank c = true) ∧ IsSigned t) ∧
    (∀ s : String, firstNumber? s.toList = some (s.toList, []) ↔ IsUnsigned s.toList) ∧
    (∀ s : String, IsUnsigned s.toList →
      parse? s = some (.number (ofText s)) ∧ (ofText s).isNaN = false) ∧
    ∀ (source : List Char) (ts : List Token), tokens? source = some ts →
      ∀ digits : List Char, .number digits ∈ ts → IsUnsigned digits ∧
        (readUnsigned? digits).isSome ∧
        ∀ depth rest, readPrimary (depth + 1) (.number digits :: rest) =
          some (.number (ofText (String.ofList digits)), rest) := by
  refine ⟨fun s => ?_, fun s => firstNumber?_eq_self_iff, fun s hs => ⟨parse?_number hs, ?_⟩,
    fun source ts hts digits hdigits => ?_⟩
  · rw [ofText, isNaN_ofChars_iff]
    refine not_congr ⟨fun h => ?_, ?_⟩
    · obtain ⟨before, behind, heq, hbefore, hbehind⟩ := exists_eq_around_trimChars s.toList
      exact ⟨before, _, behind, heq, hbefore, hbehind, h⟩
    · rintro ⟨before, t, behind, heq, hbefore, hbehind, ht⟩
      rwa [heq, trimChars_around hbefore hbehind, trimChars_eq_self ht.not_isBlank]
  · obtain ⟨-, d, -, hvalue⟩ := hs.isValueOf
    rw [ofText, hvalue, ofDecimal, isNaN_ofRatio]
  · have h : IsUnsigned digits := isProper_of_tokens? hts _ hdigits
    refine ⟨h, readUnsigned?_isSome_of_isUnsigned h, fun depth rest => ?_⟩
    rw [readPrimary_number h, ofText, String.toList_ofList]

/-- Half a number below zero between blanks is read, and the same text without digits is not. A
point may stand behind the digits of a number in an expression, and in front of them. -/
theorem numbers_of_notation_point :
    (ofText " -.5\t").isNaN = false ∧ (ofText " -.\t").isNaN = true ∧
    firstNumber? "1.".toList = some ("1.".toList, []) ∧
    (parse? "1." = some (.number (ofText "1.")) ∧ (ofText "1.").isNaN = false) ∧
    tokens? "a[.5]".toList = some [.name ⟨none, "a"⟩, .symbol .openBracket, .number ['.', '5'],
      .symbol .closeBracket] ∧
    ∀ depth rest, readPrimary (depth + 1) (.number ['.', '5'] :: rest) =
      some (.number (ofText (String.ofList ['.', '5'])), rest) := by
  obtain ⟨htext, hword, hexpression, htoken⟩ := numbers_of_notation
  have hone : IsUnsigned "1.".toList := .point ['1'] [] (by simp) (by simp) (by simp)
  have htokens : tokens? "a[.5]".toList = some [.name ⟨none, "a"⟩, .symbol .openBracket,
      .number ['.', '5'], .symbol .closeBracket] := by decide +kernel
  refine ⟨?_, by decide +kernel, (hword "1.").2 hone, hexpression "1." hone, htokens,
    (htoken _ _ htokens ['.', '5'] (by simp)).2.2⟩
  rw [← Bool.not_eq_true, htext, not_not]
  exact ⟨[' '], ['-', '.', '5'], ['\t'], by decide +kernel, by simp [isBlank], by simp [isBlank],
    true, ['.', '5'], .point [] ['5'] (by simp) (by simp) (by simp), rfl⟩

end Query

end XmlHarvest
