import XmlHarvest.Proofs.Number.Halfway
import XmlHarvest.Query.Call

/-!
# Rounding and parts of a text

The bounds of a part of a text are rounded as `round` rounds them, and the characters are compared
with them as doubles. For texts whose positions are doubles, this picks the characters between the
two whole numbers.

## Main results

* `Query.pick_eq`: characters between two positions.
* `Query.round_and_substring`: the whole number that a finite double is rounded to, and the part of
  a text between two of them.
-/

open XmlHarvest.Number
open Float.Model (UnpackedFloat)

namespace XmlHarvest.Query

/-! ## Positions -/

section Bounds

variable {x y : Float} {a b : Int} {n : Nat}

lemma le_ofNat_iff (hx : HasUnits x (a * gridSize 0)) (hn : n < 2 ^ 53) : x ≤ ofNat n ↔ a ≤ n := by
  have hone : (0 : Int) < gridSize 0 := Int.natCast_pos.2 (gridSize_pos 0)
  rw [hx.le_iff (hasUnits_ofNat_of_le hn.le), mul_le_mul_iff_left₀ hone]

/-- A position is below a sum of whole numbers, also if the sum is not itself a double. -/
lemma ofNat_lt_add_iff (hx : HasUnits x (a * gridSize 0)) (hy : HasUnits y (b * gridSize 0))
    (hn : n < 2 ^ 53) : ofNat n < x + y ↔ n < a + b := by
  have hone : (0 : Int) < gridSize 0 := Int.natCast_pos.2 (gridSize_pos 0)
  have hsum : nearestInt (a * gridSize 0 + b * gridSize 0) = nearestInt (a + b) * gridSize 0 := by
    rw [← add_mul, nearestInt_mul_gridSize]
  have hnearest : (n : Int) < nearestInt (a + b) ↔ n < a + b := by
    constructor
    · intro h
      by_contra hle
      have hshort : IsShort (n : Int).natAbs := isShort_of_le (by omega)
      exact absurd (nearestInt_le hshort (Int.not_lt.1 hle)) (Int.not_le.2 h)
    · intro h
      have hshort : IsShort ((n : Int) + 1).natAbs := isShort_of_le (by omega)
      exact le_nearestInt hshort h
  rcases Nat.lt_or_ge (nearestInt (a * gridSize 0 + b * gridSize 0)).natAbs limit with hin | hout
  · rw [(hasUnits_ofNat_of_le hn.le).lt_iff (hx.add hy hin), hsum, mul_lt_mul_iff_left₀ hone,
      hnearest]
  · obtain ⟨s, hs, hpos⟩ := hx.add_of_limit_le hy hout
    rw [(hasUnits_ofNat_of_le hn.le).lt_infinite_iff hs, hpos, hsum, mul_pos_iff_of_pos_right hone,
      ← hnearest]
    rw [hsum, Int.natAbs_mul, Int.natAbs_natCast] at hout
    have hlarge : 2 ^ 54 < (nearestInt (a + b)).natAbs :=
      Nat.lt_of_mul_lt_mul_right (mul_gridSize_lt_limit.trans_le hout)
    omega

end Bounds

/-! ## Parts of a text -/

/-- **Characters between two positions**, those of a text whose first character is at `p`. -/
lemma pick_eq {first last : Float} {a b : Int} {s : List Char} {p : Nat}
    (h : ∀ n, p ≤ n → n < p + s.length →
      (first ≤ ofNat n ∧ ofNat n < last ↔ a ≤ n ∧ n < b)) :
    pick first last p s = (s.take (b - p).toNat).drop (a - p).toNat := by
  induction s generalizing p with
  | nil => simp [pick]
  | cons c r ih =>
    have ih := ih (p := p + 1) fun n hlow hhigh => h n (by omega) (by
      rw [List.length_cons]
      omega)
    have hhead := h p le_rfl (by simp)
    rw [pick, ih]
    simp only [Bool.and_eq_true, decide_eq_true_eq, hhead]
    split
    · rename_i hin
      have htake : (b - p).toNat = (b - (p + 1 : Nat)).toNat + 1 := by omega
      have hdrop : (a - p).toNat = 0 ∧ (a - (p + 1 : Nat)).toNat = 0 := by omega
      rw [htake, hdrop.1, hdrop.2, List.take_succ_cons]
      rfl
    · rename_i hout
      rcases le_or_gt b p with hend | hinside
      · have htake : (b - p).toNat = 0 ∧ (b - (p + 1 : Nat)).toNat = 0 := by omega
        rw [htake.1, htake.2, List.take_zero, List.take_zero, List.drop_nil, List.drop_nil]
      · have htake : (b - p).toNat = (b - (p + 1 : Nat)).toNat + 1 := by omega
        have hdrop : (a - p).toNat = (a - (p + 1 : Nat)).toNat + 1 := by omega
        rw [htake, hdrop, List.take_succ_cons, List.drop_succ_cons]

/-! ## Rounding -/

/-- What it means to be rounded to the nearest whole number, halves up. -/
lemma rounded_isNearest_iff (v : Rat) :
    (rounded v - 1 / 2 : Rat) ≤ v ∧ v < rounded v + 1 / 2 ↔ ¬IsMisrounded v := by
  have hlow : (⌊v + 1 / 2⌋ : Rat) ≤ v + 1 / 2 := Int.floor_le _
  have hhigh : v + 1 / 2 < (⌊v + 1 / 2⌋ : Rat) + 1 := Int.lt_floor_add_one _
  rw [rounded]
  split
  · rename_i hmis
    refine iff_of_false ?_ (not_not_intro hmis)
    rintro ⟨hle, -⟩
    push_cast at hle
    linarith
  · rename_i hmis
    refine iff_of_true ⟨?_, ?_⟩ hmis <;> linarith

lemma rounded_value {x : Float} {v : Rat} (h : (shape x).value? = some v) :
    HasUnits (Number.round x) (rounded v * gridSize 0) := by
  obtain ⟨u, hu, rfl⟩ := exists_hasUnits h
  exact hu.round

/-- **Rounding and parts of a text.** A finite double is rounded to a whole number, which is the
nearest one with halves going up, unless the value is the double below one half or an odd number
between `2 ^ 52` and `2 ^ 53`. The part of a text from a start on, and that of a length, are made of
the characters between the rounded bounds.

**Proof sketch.** The sum of the value and one half is computed in the grid of the least positive
double, separately for whole numbers and fractions. Positions are doubles, so they are compared with
the rounded bounds as whole numbers, also where the sum of the bounds is not a double or beyond the
range. -/
theorem round_and_substring {x : Float} {v : Rat} (hx : (shape x).value? = some v) :
    (shape (Number.round x)).value? = some (rounded v : Rat) ∧
      ((rounded v - 1 / 2 : Rat) ≤ v ∧ v < rounded v + 1 / 2 ↔ ¬IsMisrounded v) ∧
      (∀ s : List Char, s.length < 2 ^ 53 →
        substring s x none = s.drop (rounded v - 1).toNat) ∧
      ∀ (s : List Char) (y : Float) (w : Rat), s.length < 2 ^ 53 → (shape y).value? = some w →
        substring s x (some y) =
          (s.take (rounded v + rounded w - 1).toNat).drop (rounded v - 1).toNat := by
  have hround : HasUnits (Number.round x) (rounded v * gridSize 0) := rounded_value hx
  have hinfinity : infinity.toModel.unpack = .infinity .positive := unpack_packedInfinity _
  refine ⟨?_, rounded_isNearest_iff v, fun s hs => ?_, fun s y w hs hy => ?_⟩
  · rw [hround.value?_eq, Int.cast_mul, Int.cast_natCast, mul_div_cancel_right₀ _ gridSize_ne_zero]
  · have hend : pick (Number.round x) infinity 1 s =
        (s.take ((s.length + 1 : Int) - (1 : Nat)).toNat).drop (rounded v - (1 : Nat)).toNat :=
      pick_eq fun n _ hn => and_congr (le_ofNat_iff hround (by omega))
        (iff_of_true (((hasUnits_ofNat_of_le (by omega)).lt_infinite_iff hinfinity).2 rfl)
          (by omega))
    rw [List.take_of_length_le (by omega)] at hend
    exact hend
  · exact pick_eq fun n _ hn =>
      and_congr (le_ofNat_iff hround (by omega))
        (ofNat_lt_add_iff hround (rounded_value hy) (by omega))

/-- The part of `"12345"` that starts at 1.5 and has length 2.6. -/
theorem round_and_substring_digits :
    (shape (ofRatio false 3 2)).value? = some (3 / 2) ∧
      (shape (ofRatio false 13 5)).value? = some (5854679515581645 / 2 ^ 51) ∧
      substring "12345".toList (ofRatio false 3 2) (some (ofRatio false 13 5)) = "234".toList := by
  have hstart : (shape (ofRatio false 3 2)).value? = some (3 / 2) := by
    have hshape : shape (ofRatio false 3 2) = .finite false (3 * 2 ^ 51) (-52) := by decide
    rw [hshape, Shape.value?, signed]
    norm_num
  have hlength : (shape (ofRatio false 13 5)).value? = some (5854679515581645 / 2 ^ 51) := by
    have hshape : shape (ofRatio false 13 5) = .finite false 5854679515581645 (-51) := by decide
    rw [hshape, Shape.value?, signed]
    norm_num
  refine ⟨hstart, hlength, ?_⟩
  rw [(round_and_substring hstart).2.2.2 _ _ _ (by decide) hlength]
  decide +kernel

/-- **The double below one half is rounded up**, and 4503599627370497 becomes the next number,
although it is a whole number. -/
theorem round_not_nearest :
    ((shape (ofRatio false (2 ^ 53 - 1) (2 ^ 54))).value? = some (1 / 2 - 1 / 2 ^ 54) ∧
      (shape (Number.round (ofRatio false (2 ^ 53 - 1) (2 ^ 54)))).value? = some 1 ∧
      ¬(1 / 2 - 1 / 2 ^ 54 : Rat) ≥ 1 - 1 / 2) ∧
    (shape (ofRatio false 4503599627370497 1)).value? = some 4503599627370497 ∧
      (shape (Number.round (ofRatio false 4503599627370497 1))).value? = some 4503599627370498 := by
  have hhalf : shape (ofRatio false (2 ^ 53 - 1) (2 ^ 54)) = .finite false (2 ^ 53 - 1) (-54) := by
    decide
  have hone : shape (Number.round (ofRatio false (2 ^ 53 - 1) (2 ^ 54))) =
      .finite false (2 ^ 52) (-52) := by
    decide
  have hodd : shape (ofRatio false 4503599627370497 1) = .finite false 4503599627370497 0 := by
    decide
  have heven : shape (Number.round (ofRatio false 4503599627370497 1)) =
      .finite false 4503599627370498 0 := by decide
  rw [hhalf, hone, hodd, heven]
  simp only [Shape.value?, signed]
  norm_num

end XmlHarvest.Query
