import XmlHarvest.Proofs.Number.Exact
import XmlHarvest.Proofs.Query.Numeral
import XmlHarvest.Query.Evaluation

/-!
# Numbers written and read again

A finite double is written as a decimal that is nearest to no other double, so it is found again
when its text is read. The text has an optional minus sign, digits, and a point with more digits or
none, whatever the size of the number is. Only the sign of a zero is lost.

## Main definitions

* `Query.IsWritten`: the form of a text that a number is written as.

## Main results

* `Number.nearestBits_shortest`: the decimal that is written has the bits of the double.
* `Number.readUnsigned?_toChars`: reading a decimal in positional notation.
* `Query.ofText_toText`: a number that is written and read again.
-/

namespace XmlHarvest

namespace Query

open Number Text

/-- Digits, and a point with digits behind it or nothing. -/
inductive IsWritten : List Char → Prop
  | whole {w : List Char} (hw : w ≠ []) (h : ∀ c ∈ w, c.isDigit) : IsWritten w
  | point {w f : List Char} (hw : w ≠ []) (hf : f ≠ []) (h : ∀ c ∈ w ++ f, c.isDigit) :
    IsWritten (w ++ '.' :: f)

lemma IsWritten.isUnsigned {s : List Char} (h : IsWritten s) : IsUnsigned s := by
  cases h with
  | whole hw h => exact .whole _ hw h
  | point hw hf h =>
    exact .point _ _ (.inl hw) (fun c hc => h c (by simp [hc])) fun c hc => h c (by simp [hc])

end Query

/-! ## Positional notation -/

namespace Number

open Query

variable {d : Decimal} {tie : Tie} {m : Nat} {e : Int}

lemma digitsValue_eq (acc : Nat) (s : List Char) :
    digitsValue acc s = Nat.ofDigitChars 10 s acc := by
  induction s generalizing acc with
  | nil => exact Nat.ofDigitChars_nil.symm
  | cons c s ih => exact (ih _).trans Nat.ofDigitChars_cons.symm

lemma isDigit_of_mem_toDigits {n : Nat} {c : Char} (h : c ∈ Nat.toDigits 10 n) : c.isDigit = true :=
  Nat.isDigit_of_mem_toDigits (by norm_num) le_rfl h

/-- A decimal without places is written with zeros behind its digits. -/
lemma toChars_of_nonneg (h : 0 ≤ d.exponent) :
    d.toChars ≠ [] ∧ (∀ c ∈ d.toChars, c.isDigit = true) ∧
      Nat.ofDigitChars 10 d.toChars 0 = d.digits * 10 ^ d.exponent.toNat := by
  rw [Decimal.toChars, if_pos h]
  refine ⟨by simp [Nat.toDigits_ne_nil], fun c hc => ?_, ?_⟩
  · rcases List.mem_append.1 hc with hc | hc
    · exact isDigit_of_mem_toDigits hc
    · rw [List.eq_of_mem_replicate hc]
      rfl
  · rw [Nat.ofDigitChars_append, Nat.ofDigitChars_ten_toDigits, Nat.ofDigitChars_replicate_zero,
      Nat.mul_comm]

/-- A decimal with places is written with as many digits behind the point. -/
lemma toChars_of_neg (h : d.exponent < 0) : ∃ w f, d.toChars = w ++ '.' :: f ∧ w ≠ [] ∧
    f.length = (-d.exponent).toNat ∧ (∀ c ∈ w ++ f, c.isDigit = true) ∧
      Nat.ofDigitChars 10 (w ++ f) 0 = d.digits := by
  rw [Decimal.toChars, if_neg (by omega)]
  dsimp only
  split
  · rename_i hshort
    refine ⟨_, _, rfl, ?_, ?_, ?_, ?_⟩
    · exact List.ne_nil_of_length_pos (by rw [List.length_take]; omega)
    · rw [List.length_drop]
      omega
    · rw [List.take_append_drop]
      exact fun c => isDigit_of_mem_toDigits
    · rw [List.take_append_drop, Nat.ofDigitChars_ten_toDigits]
  · rename_i hlong
    refine ⟨['0'], _, rfl, by simp, ?_, fun c hc => ?_, ?_⟩
    · rw [List.length_append, List.length_replicate]
      omega
    · rw [List.singleton_append, List.mem_cons, List.mem_append] at hc
      rcases hc with rfl | hc | hc
      · rfl
      · rw [List.eq_of_mem_replicate hc]
        rfl
      · exact isDigit_of_mem_toDigits hc
    · rw [List.singleton_append, ← List.cons_append, ← List.replicate_succ, Nat.ofDigitChars_append,
        Nat.ofDigitChars_replicate_zero, Nat.mul_zero, Nat.ofDigitChars_ten_toDigits]

/-- **A decimal in positional notation** has the form of a number, and is read as a decimal of the
same numerator and denominator. -/
lemma readUnsigned?_toChars (d : Decimal) : IsWritten d.toChars ∧
    ∃ r, readUnsigned? d.toChars = some r ∧ r.num = d.num ∧ r.den = d.den := by
  rcases le_or_gt 0 d.exponent with h | h
  · obtain ⟨hne, hdigits, hvalue⟩ := toChars_of_nonneg h
    refine ⟨.whole hne hdigits, _, readUnsigned?_digits hne hdigits, ?_, ?_⟩
    · rw [Decimal.num, Decimal.num, digitsValue_eq, hvalue]
      exact Nat.mul_one _
    · rw [Decimal.den, Decimal.den, Int.toNat_of_nonpos (by omega : -d.exponent ≤ 0)]
      rfl
  · obtain ⟨w, f, heq, hne, hlength, hdigits, hvalue⟩ := toChars_of_neg h
    have hf : f ≠ [] := List.ne_nil_of_length_pos (by omega)
    rw [heq]
    refine ⟨.point hne hf hdigits, _, readUnsigned?_point (.inl hne)
      (fun c hc => hdigits c (by simp [hc])) fun c hc => hdigits c (by simp [hc]), ?_⟩
    have hexponent : -(f.length : Int) = d.exponent := by omega
    rw [digitsValue_eq, digitsValue_eq, ← Nat.ofDigitChars_append, hvalue, hexponent]
    exact ⟨rfl, rfl⟩

/-! ## The decimal that is written -/

/-- A candidate has the bits that are looked for. -/
lemma nearestBits_of_candidate? {bits num den n : Nat}
    (h : candidate? tie bits num den n = some d) : nearestBits d.num d.den = bits := by
  rw [candidate?] at h
  dsimp only at h
  split at h
  · rename_i hlow hhigh
    split at h
    · cases h
      exact beq_iff_eq.1 hlow
    · cases h
      exact beq_iff_eq.1 hhigh
  · rename_i hlow _
    cases h
    exact beq_iff_eq.1 hlow
  · rename_i _ hhigh
    cases h
    exact beq_iff_eq.1 hhigh
  · cases h

/-- **The decimal that is written has the bits of the double.**

**Proof sketch.** A decimal that is found by the search has these bits by the test of the search.
The decimal that stands behind the search is the exact value of the double. -/
lemma nearestBits_shortest (hm : IsCanonicalPair m e) :
    nearestBits (shortest tie m e).num (shortest tie m e).den = (e + 1074).toNat * 2 ^ 52 + m := by
  have hbits : nearestBits (m * Nat.pow 2 e.toNat) (Nat.pow 2 (-e).toNat) =
      (e + 1074).toNat * 2 ^ 52 + m := by
    refine nearestBits_of_exact (Nat.pow_pos (by norm_num)) ?_ hm
    rw [zpow_eq_div two_ne_zero, mul_div_assoc', Nat.pow_eq, Nat.pow_eq]
    push_cast
    rfl
  rw [shortest]
  split
  · rename_i d hd
    obtain ⟨n, -, hn⟩ := List.exists_of_findSome?_eq_some hd
    rw [nearestBits_of_candidate? hn, hbits]
  · split
    · rename_i hwhole
      have hden : Nat.pow 2 (-e).toNat = 1 := by rw [Int.toNat_of_nonpos (by omega)]
      rw [hden] at hbits
      rw [← hbits]
      exact congrArg₂ nearestBits (Nat.mul_one _) (by rw [Decimal.den]; rfl)
    · rename_i hfraction
      refine nearestBits_of_exact (Nat.pow_pos (by norm_num)) ?_ hm
      have hwhole : e.toNat = 0 := Int.toNat_of_nonpos (by omega)
      have hnum : (⟨m * Nat.pow 5 (-e).toNat, e⟩ : Decimal).num = m * 5 ^ (-e).toNat := by
        show m * Nat.pow 5 (-e).toNat * Nat.pow 10 e.toNat = _
        rw [hwhole]
        exact Nat.mul_one _
      have hden : (⟨m * Nat.pow 5 (-e).toNat, e⟩ : Decimal).den =
          2 ^ (-e).toNat * 5 ^ (-e).toNat := by
        rw [← Nat.mul_pow]
        rfl
      rw [hnum, hden, zpow_eq_div two_ne_zero, hwhole]
      push_cast
      field_simp

/-! ## The text of a double -/

variable {x : Float} {negative : Bool}

lemma exists_shape_of_isFinite (h : x.isFinite = true) :
    ∃ negative m e, shape x = .finite negative m e := by
  have hfinite : x.toModel.unpack.isFinite = true := h
  rw [shape_eq]
  cases hx : x.toModel.unpack with
  | infinity s =>
    rw [hx] at hfinite
    cases hfinite
  | notANumber =>
    rw [hx] at hfinite
    cases hfinite
  | zero s => exact ⟨_, _, _, rfl⟩
  | finite s m e hm => exact ⟨_, _, _, rfl⟩

/-- The value of a double by its significand and exponent. -/
lemma hasUnits_of_shape (h : shape x = .finite negative m e) :
    HasUnits x (signed negative (m * gridSize e)) := by
  have hvalue : (shape x).value? = some ((signed negative m : Rat) * 2 ^ e) := by
    rw [h, Shape.value?]
  obtain ⟨v, hv, -⟩ := exists_hasUnits hvalue
  obtain ⟨negative', m', e', hshape, -, -, -, rfl⟩ := hasUnits_iff_shape.1 hv
  cases h.symm.trans hshape
  exact hv

lemma hasUnits_zero : HasUnits 0 0 :=
  hasUnits_iff_shape.2 ⟨false, 0, -1074, by decide, by norm_num, le_rfl, .inr rfl, by simp [signed]⟩

/-- A double is zero if its significand is. -/
lemma beq_zero_iff (h : shape x = .finite negative m e) : (x == 0) = true ↔ m = 0 := by
  rw [(hasUnits_of_shape h).beq_iff hasUnits_zero, ← Int.natAbs_eq_zero, natAbs_signed,
    Nat.mul_eq_zero, or_iff_left (gridSize_pos e).ne']

/-- Zero is written without a sign. -/
lemma toText_of_zero (h : shape x = .finite negative 0 e) : toText x = "0" := by
  rw [toText, h]
  exact if_pos rfl

/-- A double that is not zero is written as a decimal behind its sign. -/
lemma toList_toText (h : shape x = .finite negative m e) (hm : m ≠ 0) :
    (toText x).toList = spellSign negative ++ (shortest .greater m e).toChars := by
  rw [toText, h]
  dsimp only
  rw [if_neg hm]
  cases negative with
  | false => exact String.toList_ofList
  | true => simp [spellSign]

/-- **A double that is not zero is read from its text.** -/
lemma ofText_toText_of_ne_zero (h : shape x = .finite negative m e) (hm : m ≠ 0) :
    ofText (toText x) = x := by
  obtain ⟨hform, r, hr, hnum, hden⟩ := readUnsigned?_toChars (shortest .greater m e)
  rw [ofText, toList_toText h hm, hform.isUnsigned.ofChars_eq hr, ofDecimal, hnum, hden]
  exact ofRatio_eq_of_shape h (nearestBits_shortest (isCanonicalPair_of_shape h hm))

end Number

namespace Query

open Number Text

/-- The expression `number(string(e))`. -/
def numberOfString (e : Expr resolved) : Expr resolved :=
  .call Function.number [.call Function.string [e]]

variable {x : Float} {d : Document} {focus : Focus} {e : Expr resolved}

lemma evaluate_numberOfString (he : e.evaluate d focus = .ok (.number x)) :
    (numberOfString e).evaluate d focus = .ok (.number (ofText (toText x))) := by
  simp only [numberOfString, Expr.evaluate, evaluateAll, he]
  rfl

lemma evaluate_equal {l r : Expr resolved} {y : Float} (hl : l.evaluate d focus = .ok (.number x))
    (hr : r.evaluate d focus = .ok (.number y)) :
    (Expr.binary .eq l r).evaluate d focus = .ok (.boolean (x == y)) := by
  rw [Expr.evaluate, hl, hr]
  · rfl
  · nofun
  · nofun

/-- **Numbers written and read again.** A finite double is written as digits with an optional minus
sign, and a point with more digits or none. Read from this text, it is the same double, or zero
without a sign. In an expression, a number that is made a text and a number again equals the number.

**Proof sketch.** A zero is written as `0`, and any other double as a decimal behind its sign
(`toList_toText`). This decimal has the bits of the double, by the test that it has passed or
because it is the exact value (`nearestBits_shortest`). Written in positional notation and read
again, it is a decimal of the same value (`readUnsigned?_toChars`), and so the nearest double is the
one that was written (`ofText_toText_of_ne_zero`). The expressions have just these values, and a
finite double equals itself. -/
theorem ofText_toText (hx : x.isFinite = true) :
    (∃ negative s, IsWritten s ∧ (toText x).toList = spellSign negative ++ s) ∧
    ofText (toText x) = (if x == 0 then 0 else x) ∧
    ∀ (d : Document) (focus : Focus) (e : Expr resolved), e.evaluate d focus = .ok (.number x) →
      (numberOfString e).evaluate d focus = .ok (.number (if x == 0 then 0 else x)) ∧
      (Expr.binary .eq (numberOfString e) e).evaluate d focus = .ok (.boolean true) := by
  obtain ⟨negative, m, k, hshape⟩ := exists_shape_of_isFinite hx
  have hzero := beq_zero_iff hshape
  have hform : ∃ negative s, IsWritten s ∧ (toText x).toList = spellSign negative ++ s := by
    by_cases hm : m = 0
    · exact ⟨false, ['0'], .whole (by simp) (by simp), by rw [toText_of_zero (hm ▸ hshape)]; rfl⟩
    · exact ⟨negative, _, (readUnsigned?_toChars _).1, toList_toText hshape hm⟩
  have hread : ofText (toText x) = if x == 0 then 0 else x := by
    by_cases hm : m = 0
    · rw [if_pos (hzero.2 hm), toText_of_zero (hm ▸ hshape)]
      decide +kernel
    · rw [if_neg (mt hzero.1 hm), ofText_toText_of_ne_zero hshape hm]
  have hequal : ((if x == 0 then 0 else x) == x) = true := by
    have hunits := hasUnits_of_shape hshape
    split
    · rename_i hx0
      exact (hasUnits_zero.beq_iff hunits).2 ((hunits.beq_iff hasUnits_zero).1 hx0).symm
    · exact (hunits.beq_iff hunits).2 rfl
  refine ⟨hform, hread, fun d focus e he => ?_⟩
  have hvalue := evaluate_numberOfString he
  rw [hread] at hvalue
  exact ⟨hvalue, by rw [evaluate_equal hvalue he, hequal]⟩

/-- The double below zero that is nearest to it is written with 324 places. -/
theorem ofText_toText_least :
    (ofRatio true 1 (Nat.pow 2 1074)).isFinite = true ∧
    toText (ofRatio true 1 (Nat.pow 2 1074)) =
      "-0." ++ String.ofList (List.replicate 323 '0') ++ "5" ∧
    ofText (toText (ofRatio true 1 (Nat.pow 2 1074))) = ofRatio true 1 (Nat.pow 2 1074) ∧
    ∀ d focus, (Expr.binary .eq (numberOfString (.number (ofRatio true 1 (Nat.pow 2 1074))))
      (.number (ofRatio true 1 (Nat.pow 2 1074)))).evaluate d focus = .ok (.boolean true) := by
  have hfinite : (ofRatio true 1 (Nat.pow 2 1074)).isFinite = true := by decide +kernel
  obtain ⟨-, hread, hexpression⟩ := ofText_toText hfinite
  refine ⟨hfinite, by decide +kernel, ?_, fun d focus => (hexpression d focus _ ?_).2⟩
  · rw [hread]
    decide +kernel
  · rw [Expr.evaluate]

end Query

end XmlHarvest
