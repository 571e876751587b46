import Mathlib.Data.Int.Log
import XmlHarvest.Proofs.Number.Finite

/-!
# Ratios that are doubles

The bits of the double nearest to a ratio depend on its value only. A ratio that is itself a double
has the bits of that double: its significand is found on the grid of its exponent, and nothing is
rounded.

## Main definitions

* `Number.IsCanonicalPair`: the significand and the exponent of a positive double.

## Main results

* `Number.gridExponent_eq`: the grid of a ratio by its logarithm.
* `Number.nearestBits_of_exact`: the bits of a ratio that is a double.
* `Number.fields_of_shape`: the bits of a double by its significand and exponent.
* `Number.ofRatio_eq_of_shape`: a double by its bits.
-/

namespace XmlHarvest.Number

variable {num den m : Nat} {e : Int}

/-- The significand and the exponent that a positive double has in its bits: 53 bits, or fewer on
the finest grid, and not beyond the range. -/
structure IsCanonicalPair (m : Nat) (e : Int) : Prop where
  pos : 0 < m
  lt : m < 2 ^ 53
  le_exponent : -1074 ≤ e
  exponent_le : e ≤ 971
  grid : 2 ^ 52 ≤ m ∨ e = -1074

/-! ## The grid of a ratio -/

/-- A power with a sign in its exponent, as a ratio. -/
lemma zpow_eq_div {b : Rat} (hb : b ≠ 0) (e : Int) : b ^ e = b ^ e.toNat / b ^ (-e).toNat := by
  have hsplit : e = (e.toNat : Int) - ((-e).toNat : Int) := by omega
  conv_lhs => rw [hsplit]
  rw [zpow_sub₀ hb, zpow_natCast, zpow_natCast]

/-- The scaled ratio is the ratio in units of the grid. -/
lemma scaled_div (num den : Nat) (e : Int) :
    ((scaled num den e).1 : Rat) / (scaled num den e).2 = num / den / 2 ^ e := by
  have hnum : ((scaled num den e).1 : Rat) = num * 2 ^ (-e).toNat := by
    rw [← Nat.cast_ofNat (n := 2), ← Nat.cast_pow, ← Nat.cast_mul]
    rfl
  have hden : ((scaled num den e).2 : Rat) = den * 2 ^ e.toNat := by
    rw [← Nat.cast_ofNat (n := 2), ← Nat.cast_pow, ← Nat.cast_mul]
    rfl
  rw [hnum, hden, zpow_eq_div two_ne_zero]
  field_simp

lemma scaled_den_pos (hden : 0 < den) (e : Int) : 0 < (scaled num den e).2 :=
  Nat.mul_pos hden (Nat.pow_pos (by norm_num))

/-- A ratio lies between the powers of two by the logarithms of its parts. -/
lemma two_pow_log2_lt (hnum : 0 < num) (hden : 0 < den) :
    (2 : Rat) ^ ((num.log2 : Int) - den.log2 - 1) < num / den ∧
      (num / den : Rat) < 2 ^ ((num.log2 : Int) - den.log2 + 1) := by
  have hden' : (0 : Rat) < den := by exact_mod_cast hden
  have hnumlow : (2 : Rat) ^ num.log2 ≤ num := by exact_mod_cast Nat.log2_self_le hnum.ne'
  have hnumhigh : (num : Rat) < 2 ^ (num.log2 + 1) := by exact_mod_cast Nat.lt_log2_self
  have hdenlow : (2 : Rat) ^ den.log2 ≤ den := by exact_mod_cast Nat.log2_self_le hden.ne'
  have hdenhigh : (den : Rat) < 2 ^ (den.log2 + 1) := by exact_mod_cast Nat.lt_log2_self
  constructor
  · have hpow : (2 : Rat) ^ ((num.log2 : Int) - den.log2 - 1) =
        2 ^ num.log2 / 2 ^ (den.log2 + 1) := by
      rw [sub_sub, zpow_sub₀ (by norm_num), zpow_natCast]
      norm_cast
    rw [hpow, div_lt_div_iff₀ (by positivity) hden']
    exact mul_lt_mul' hnumlow hdenhigh hden'.le (by positivity)
  · have hpow : (2 : Rat) ^ ((num.log2 : Int) - den.log2 + 1) =
        2 ^ (num.log2 + 1) / 2 ^ den.log2 := by
      rw [sub_add_eq_add_sub, zpow_sub₀ (by norm_num), zpow_natCast]
      norm_cast
    rw [hpow, div_lt_div_iff₀ hden' (by positivity)]
    exact mul_lt_mul hnumhigh hdenlow (by positivity) (by positivity)

/-- The integral part of the logarithm lies between two powers of two. -/
lemma log_eq_of_bounds {r : Rat} {k : Int} (hlow : 2 ^ k ≤ r) (hhigh : r < 2 ^ (k + 1)) :
    Int.log 2 r = k := by
  have hpos : 0 < r := lt_of_lt_of_le (by positivity) hlow
  have hle : k ≤ Int.log 2 r :=
    (Int.zpow_le_iff_le_log Nat.one_lt_two hpos).1 (by exact_mod_cast hlow)
  have hlt : Int.log 2 r < k + 1 :=
    (Int.lt_zpow_iff_log_lt Nat.one_lt_two hpos).1 (by exact_mod_cast hhigh)
  omega

/-- **The grid of a ratio** has 53 bits up to its logarithm, or is the finest one.

**Proof sketch.** By the logarithms of its parts, the ratio has 53 or 54 bits on the grid that is
tried first. If the quotient on this grid shows 54 bits, the next grid is taken. -/
lemma gridExponent_eq (hnum : 0 < num) (hden : 0 < den) :
    gridExponent num den = max (-1074) (Int.log 2 (num / den : Rat) - 52) := by
  let e : Int := (num.log2 : Int) - den.log2 - 53
  obtain ⟨hlow, hhigh⟩ := two_pow_log2_lt hnum hden
  rw [show (num.log2 : Int) - den.log2 - 1 = e + 52 by omega] at hlow
  rw [show (num.log2 : Int) - den.log2 + 1 = e + 52 + 1 + 1 by omega] at hhigh
  have htest : (scaled num den e).1 / (scaled num den e).2 < Nat.pow 2 53 ↔
      (num / den : Rat) < 2 ^ (e + 52 + 1) := by
    have hb : (0 : Rat) < (scaled num den e).2 := by exact_mod_cast scaled_den_pos hden e
    have hgrid : (2 : Rat) ^ (e + 52 + 1) = 2 ^ 53 * 2 ^ e := by
      rw [show e + 52 + 1 = 53 + e by ring, zpow_add₀ (by norm_num)]
      norm_num
    rw [Nat.div_lt_iff_lt_mul (scaled_den_pos hden e), hgrid, ← div_lt_iff₀ (by positivity),
      ← scaled_div, div_lt_iff₀ hb]
    exact_mod_cast Iff.rfl
  show max (-1074)
    (if (scaled num den e).1 / (scaled num den e).2 < Nat.pow 2 53 then e else e + 1) = _
  split
  · rename_i hlt
    rw [log_eq_of_bounds hlow.le (htest.1 hlt), add_sub_cancel_right]
  · rename_i hge
    have hle : (2 : Rat) ^ (e + 52 + 1) ≤ num / den := not_lt.1 fun h => hge (htest.2 h)
    rw [log_eq_of_bounds hle hhigh]
    omega

/-! ## Exact ratios -/

/-- A ratio that is a positive double is positive. -/
lemma pos_of_exact (hden : 0 < den) (h : (num / den : Rat) = m * 2 ^ e) (hm : IsCanonicalPair m e) :
    (0 : Rat) < num / den ∧ 0 < num := by
  have hr : (0 : Rat) < num / den := by
    have hpos : (0 : Rat) < m := by exact_mod_cast hm.pos
    rw [h]
    positivity
  have hden' : (0 : Rat) < den := by exact_mod_cast hden
  exact ⟨hr, by exact_mod_cast (div_pos_iff_of_pos_right hden').1 hr⟩

/-- A canonical value is on the grid of its exponent. -/
lemma gridExponent_of_exact (hden : 0 < den) (h : (num / den : Rat) = m * 2 ^ e)
    (hm : IsCanonicalPair m e) : gridExponent num den = e := by
  obtain ⟨hr, hnum⟩ := pos_of_exact hden h hm
  have hhigh : Int.log 2 (num / den : Rat) < 53 + e := by
    refine (Int.lt_zpow_iff_log_lt Nat.one_lt_two hr).1 ?_
    rw [h, zpow_add₀ (by norm_num)]
    have hlt : (m : Rat) < 2 ^ 53 := by exact_mod_cast hm.lt
    exact mul_lt_mul_of_pos_right (by exact_mod_cast hlt) (by positivity)
  have hfinest := hm.le_exponent
  rw [gridExponent_eq hnum hden]
  rcases hm.grid with hge | rfl
  · have hlow : 52 + e ≤ Int.log 2 (num / den : Rat) := by
      refine (Int.zpow_le_iff_le_log Nat.one_lt_two hr).1 ?_
      rw [h, zpow_add₀ (by norm_num)]
      have hge' : (2 : Rat) ^ 52 ≤ m := by exact_mod_cast hge
      exact mul_le_mul_of_nonneg_right (by exact_mod_cast hge') (by positivity)
    omega
  · omega

/-- **The bits of a ratio that is a double** are its exponent and its significand. -/
lemma nearestBits_of_exact (hden : 0 < den) (h : (num / den : Rat) = m * 2 ^ e)
    (hm : IsCanonicalPair m e) : nearestBits num den = (e + 1074).toNat * 2 ^ 52 + m := by
  have hnum := (pos_of_exact hden h hm).2
  have hb : 0 < (scaled num den e).2 := scaled_den_pos hden e
  have hexact : (scaled num den e).1 = m * (scaled num den e).2 := by
    have hb' : ((scaled num den e).2 : Rat) ≠ 0 := by exact_mod_cast hb.ne'
    have hquotient := scaled_div num den e
    rw [h, mul_div_cancel_right₀ _ (by positivity), div_eq_iff hb'] at hquotient
    exact_mod_cast hquotient
  have hround : roundHalfEven (scaled num den e).1 (scaled num den e).2 = m :=
    roundHalfEven_of_near (by omega) (by omega)
  have hlt := hm.lt
  have hrange := hm.exponent_le
  rw [nearestBits, if_neg hnum.ne', gridExponent_of_exact hden h hm]
  show min (2047 * 2 ^ 52) ((e + 1074).toNat * 2 ^ 52 +
    roundHalfEven (scaled num den e).1 (scaled num den e).2) = _
  rw [hround]
  omega

/-! ## The bits of a double -/

section Shape

variable {x : Float} {negative : Bool}

/-- The significand and the exponent of a double that is not zero. -/
lemma isCanonicalPair_of_shape (h : shape x = .finite negative m e) (hm : m ≠ 0) :
    IsCanonicalPair m e := by
  rw [shape] at h
  simp only [Nat.pow_eq] at h
  split_ifs at h with hlast hfraction hfirst
  · rw [Shape.finite.injEq] at h
    obtain ⟨-, rfl, rfl⟩ := h
    exact ⟨Nat.pos_of_ne_zero hm, by omega, le_rfl, by norm_num, .inr rfl⟩
  · rw [Shape.finite.injEq] at h
    obtain ⟨-, rfl, rfl⟩ := h
    exact ⟨by omega, by omega, by omega, by omega, .inl (by omega)⟩

/-- **The bits of a double**: its sign, its exponent and its significand. -/
lemma fields_of_shape (h : shape x = .finite negative m e) :
    x.toBits.toNat = (if negative then Nat.pow 2 63 else 0) + ((e + 1074).toNat * 2 ^ 52 + m) := by
  have hbits : x.toBits.toNat < 2 ^ 64 := x.toBits.toNat_lt
  rw [shape] at h
  simp only [Nat.pow_eq] at h ⊢
  split_ifs at h with hlast hfraction hfirst
  · rw [Shape.finite.injEq] at h
    obtain ⟨rfl, rfl, rfl⟩ := h
    simp only [beq_iff_eq]
    split <;> omega
  · rw [Shape.finite.injEq] at h
    obtain ⟨rfl, rfl, rfl⟩ := h
    simp only [beq_iff_eq]
    split <;> omega

/-- **A double by its bits.** -/
lemma ofRatio_eq_of_shape (h : shape x = .finite negative m e)
    (hbits : nearestBits num den = (e + 1074).toNat * 2 ^ 52 + m) :
    ofRatio negative num den = x := by
  rw [ofRatio, hbits, ← fields_of_shape h, UInt64.ofNat_toNat, Float.ofBits_toBits]

end Shape

end XmlHarvest.Number
