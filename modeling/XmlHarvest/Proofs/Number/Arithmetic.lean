import XmlHarvest.Proofs.Number.Nearest
import XmlHarvest.Proofs.Number.Packing

/-!
# Arithmetic on doubles

A finite double is a multiple of the least positive one, `2 ^ (-1074)`. The sum and the difference
of two doubles are the exact ones, rounded to the nearest multiple of 53 bits, and become infinite
beyond the range.

## Main definitions

* `Number.Holds`: what is remembered of a ratio that is cut off.
* `Number.gridSize`: powers of two, counted in the least positive double.
* `Number.Denotes`: how many times the least positive double a value is.

## Main results

* `Number.denotes_round`: the rounding of the arithmetic is the one to the nearest short number.
* `Number.Denotes.add`: exact sums are rounded.
* `Number.sub_eq_add_neg_unpacked`: differences are sums.
-/

open Float.Model (UnpackedFloat Format)
open Float.Model.UnpackedFloat

namespace XmlHarvest.Number

/-! ## Shifts that remember what is lost -/

/-- A significand of which less is kept than there was: the whole part of a ratio, whether the rest
is at least one half, and whether it is neither nothing nor one half. -/
structure Holds (em : ExtendedMantissa) (a b : Nat) : Prop where
  mantissa_eq : em.mantissa = a / b
  round_iff : em.roundBit = true ↔ b ≤ 2 * (a % b)
  sticky_iff : em.stickyBit = true ↔ a % b ≠ 0 ∧ 2 * (a % b) ≠ b

namespace Holds

variable {em : ExtendedMantissa} {a b : Nat}

/-- Dividing by two loses one more bit. -/
lemma shiftRightOne (h : Holds em a b) (hb : 0 < b) : Holds em.shiftRightOne a (b * 2) := by
  have hdiv : a / (b * 2) = a / b / 2 := (Nat.div_div_eq_div_mul a b 2).symm
  have hmod : a % (b * 2) = a % b + b * (a / b % 2) := Nat.mod_mul
  have hlt : a % b < b := Nat.mod_lt a hb
  have hbit : a / b % 2 = 0 ∨ a / b % 2 = 1 := Nat.mod_two_eq_zero_or_one _
  refine ⟨?_, ?_, ?_⟩
  · rw [hdiv, ← h.mantissa_eq]
    rfl
  · show (em.mantissa % 2 != 0) = true ↔ _
    rw [h.mantissa_eq, hmod]
    rcases hbit with hbit | hbit <;> rw [hbit] <;> simp <;> omega
  · show (em.roundBit || em.stickyBit) = true ↔ _
    rw [Bool.or_eq_true, h.round_iff, h.sticky_iff, hmod]
    rcases hbit with hbit | hbit <;> rw [hbit] <;> simp <;> omega

/-- Shifting a significand divides it by a power of two. -/
lemma shiftRight (a n : Nat) :
    Holds (ExtendedMantissa.ofMantissaAndAccuracy a .exact >>> n) a (2 ^ n) := by
  show Holds (n.repeat ExtendedMantissa.shiftRightOne _) a (2 ^ n)
  induction n with
  | zero =>
    refine ⟨(Nat.div_one a).symm, ?_, ?_⟩
    · simp [Nat.repeat, ExtendedMantissa.ofMantissaAndAccuracy, Nat.mod_one]
    · simp [Nat.repeat, ExtendedMantissa.ofMantissaAndAccuracy, Nat.mod_one]
  | succ n ih => exact ih.shiftRightOne (Nat.two_pow_pos n)

/-- The bits that are remembered are what rounding needs. -/
lemma roundedMantissa_eq (h : Holds em a b) : em.roundedMantissa = roundHalfEven a b := by
  obtain ⟨mantissa, roundBit, stickyBit⟩ := em
  obtain ⟨rfl, hround, hsticky⟩ := h
  simp only at hround hsticky
  cases roundBit with
  | false =>
    cases stickyBit with
    | false =>
      rw [roundHalfEven_of_lt (by simp at hround hsticky; omega)]
      rfl
    | true =>
      rw [roundHalfEven_of_lt (by simp at hround hsticky; omega)]
      rfl
  | true =>
    cases stickyBit with
    | false =>
      rw [roundHalfEven_of_eq (by simp at hround hsticky; omega)]
      rfl
    | true =>
      rw [roundHalfEven_of_gt (by simp at hround hsticky; omega)]
      rfl

end Holds

/-! ## Rounding -/

/-- The number of times that `2 ^ (-1074)` is contained in `2 ^ e`. It is too large to be computed
in passing, so it is never unfolded by itself. -/
@[irreducible] def gridSize (e : Int) : Nat :=
  2 ^ (e + 1074).toNat

lemma gridSize_pos (e : Int) : 0 < gridSize e := by
  rw [gridSize]
  exact Nat.two_pow_pos _

/-- A finer grid from the finest one on. -/
lemma gridSize_sub {e t : Int} (ht : -1074 ≤ t) (h : t ≤ e) :
    gridSize e = 2 ^ (e - t).toNat * gridSize t := by
  rw [gridSize, gridSize, ← Nat.pow_add]
  congr 1
  omega

/-- Two grids that are `k` bits apart. -/
lemma gridSize_eq_mul {e t : Int} (k : Nat) (ht : -1074 ≤ t) (h : e = t + k) :
    gridSize e = 2 ^ k * gridSize t := by
  rw [gridSize_sub ht (by omega), h, add_sub_cancel_left, Int.toNat_natCast]

lemma isShort_mul_gridSize {m : Nat} (hm : m < 2 ^ 53) (e : Int) : IsShort (m * gridSize e) :=
  ⟨m, (e + 1074).toNat, hm, by rw [gridSize]⟩

/-- How many times the least positive double a value is. -/
def Denotes : UnpackedFloat → Int → Prop
  | .zero _, v => v = 0
  | .finite s m e h, v => IsCanonical (.finite s m e h) ∧ v = s.apply (m * gridSize e : Nat)
  | _, _ => False

/-- The grid on which a positive value is rounded has the spacing of its short numbers. -/
lemma gridSize_targetExponent {m : Nat} {e : Int} (hm : 0 < m) (he : -1074 ≤ e) :
    -1074 ≤ Format.binary64.targetExponent (Float.Model.totalExponent m e) ∧
      gridSize (Format.binary64.targetExponent (Float.Model.totalExponent m e)) =
        spacing (m * gridSize e) := by
  have htarget : Format.binary64.targetExponent (Float.Model.totalExponent m e) =
      max ((m.log2 : Int) + 1 + e - 53) (-1074) := rfl
  rw [htarget, spacing, gridSize, gridSize, log2_mul_two_pow hm.ne']
  refine ⟨le_max_right _ _, ?_⟩
  congr 1
  omega

/-- The carry of a rounding, which gives at most one bit too much, is shifted out again. -/
lemma exists_carry {q : Nat} {t : Int} (hq : q ≤ 2 ^ 53) (ht : -1074 ≤ t) :
    ∃ em e, shiftToTargetExponent .binary64 q t .exact = (em, e) ∧
      em.mantissa * gridSize e = q * gridSize t ∧ em.mantissa < 2 ^ 53 ∧ t ≤ e ∧
      (em.mantissa = q ∧ e = t ∨ em.mantissa = 2 ^ 52) := by
  let n := (Format.binary64.targetExponent (Float.Model.totalExponent q t) - t).toNat
  have hn : n = (max ((q.log2 : Int) + 1 + t - 53) (-1074) - t).toNat := rfl
  have hmantissa : (ExtendedMantissa.ofMantissaAndAccuracy q .exact >>> n).mantissa = q / 2 ^ n :=
    (Holds.shiftRight q n).mantissa_eq
  refine ⟨_, _, rfl, ?_⟩
  show _ * gridSize (t + n) = _ ∧ _ ∧ t ≤ t + n ∧ (_ ∧ t + n = t ∨ _)
  rw [hmantissa]
  rcases hq.lt_or_eq with hlt | rfl
  · have hlog : q.log2 < 53 := by
      rcases Nat.eq_zero_or_pos q with rfl | hpos
      · decide
      · exact (Nat.log2_lt hpos.ne').2 hlt
    have hzero : n = 0 := by omega
    rw [hzero, Nat.pow_zero, Nat.div_one]
    exact ⟨congrArg (q * gridSize ·) (by omega), hlt, by omega, .inl ⟨rfl, by omega⟩⟩
  · have hlog : (2 ^ 53).log2 = 53 := Nat.log2_two_pow
    have hone : n = 1 := by
      rw [hlog] at hn
      omega
    have hgrid : gridSize (t + 1) = 2 ^ 1 * gridSize t := gridSize_eq_mul 1 ht rfl
    rw [hone]
    refine ⟨?_, by decide, by omega, .inr (by decide)⟩
    show 2 ^ 53 / 2 ^ 1 * gridSize (t + 1) = _
    rw [hgrid, ← Nat.mul_assoc]
    rfl

/-- What is left of a value on the grid of its short numbers is rounded as these are. -/
lemma roundedMantissa_mul_gridSize {m : Nat} {e : Int} (hm : 0 < m) (he : -1074 ≤ e)
    (hfine : e ≤ Format.binary64.targetExponent (Float.Model.totalExponent m e)) :
    ∃ em t, shiftToTargetExponent .binary64 m e .exact = (em, t) ∧ -1074 ≤ t ∧
      gridSize t = spacing (m * gridSize e) ∧
      em.roundedMantissa = roundHalfEven (m * gridSize e) (spacing (m * gridSize e)) := by
  obtain ⟨ht, hspacing⟩ := gridSize_targetExponent hm he
  let n := (Format.binary64.targetExponent (Float.Model.totalExponent m e) - e).toNat
  have hn : e + n = Format.binary64.targetExponent (Float.Model.totalExponent m e) := by omega
  have hgrid : 2 ^ n * gridSize e = spacing (m * gridSize e) := by
    rw [← hspacing, gridSize_sub he hfine]
  refine ⟨ExtendedMantissa.ofMantissaAndAccuracy m .exact >>> n, e + n, rfl, ?_, ?_, ?_⟩
  · rwa [hn]
  · rw [hn, hspacing]
  · rw [(Holds.shiftRight m n).roundedMantissa_eq, ← roundHalfEven_mul_right (gridSize_pos e),
      hgrid]

/-- A value on a grid that is fine enough is rounded to the nearest short number. -/
lemma denotes_roundWithAccuracy {m : Nat} {e : Int} (hm : 0 < m) (he : -1074 ≤ e)
    (hfine : e ≤ Format.binary64.targetExponent (Float.Model.totalExponent m e)) (s : Sign) :
    Denotes (roundWithAccuracy .binary64 s m e .exact)
      (s.apply (nearest (m * gridSize e) : Nat)) := by
  obtain ⟨em, t, hshift, ht, hspacing, hrounded⟩ := roundedMantissa_mul_gridSize hm he hfine
  have hq : em.roundedMantissa ≤ 2 ^ 53 := by
    rw [hrounded]
    exact roundHalfEven_le (spacing_pos _) (lt_mul_spacing _).le
  obtain ⟨em', e', hcarry, hvalue, hlt, hle, hmantissa⟩ := exists_carry hq ht
  have hnearest : em'.mantissa * gridSize e' = nearest (m * gridSize e) := by
    rw [hvalue, hrounded, hspacing, nearest]
  have hpos : 0 < em'.mantissa := by
    have hone : 1 ≤ nearest (m * gridSize e) :=
      le_nearest (isShort_of_le (by norm_num)) (Nat.mul_pos hm (gridSize_pos e))
    rw [← hnearest] at hone
    exact Nat.pos_of_mul_pos_right hone
  rw [roundWithAccuracy, hshift]
  dsimp only
  rw [hcarry]
  dsimp only
  rw [dif_neg hpos.ne']
  refine ⟨⟨hlt, by omega, ?_⟩, by rw [hnearest]⟩
  rcases hmantissa with ⟨hsame, rfl⟩ | hcarried
  · rcases ht.eq_or_lt with heq | hgt
    · exact .inr heq.symm
    · -- above the finest grid there are 53 bits
      have hne : spacing (m * gridSize e) ≠ 1 := by
        rw [← hspacing, gridSize]
        exact (Nat.one_lt_two_pow (by omega)).ne'
      rw [hsame, hrounded]
      exact .inl (le_roundHalfEven (spacing_pos _) (mul_spacing_le hne))
  · exact .inl hcarried.ge

/-- **The rounding of the arithmetic is the one to the nearest short number.**

**Proof sketch.** The value is written on the grid of its short numbers or on a finer one, where
nothing is lost. What is shifted out then decides how the rest is rounded. A carry changes the grid
and not the value. -/
lemma denotes_round {m : Nat} {e : Int} (hm : 0 < m) (he : -1074 ≤ e) (s : Sign) :
    Denotes (UnpackedFloat.round .binary64 s m e) (s.apply (nearest (m * gridSize e) : Nat)) := by
  let t := Format.binary64.targetExponent (Float.Model.totalExponent m e)
  obtain ⟨ht, hspacing⟩ := gridSize_targetExponent hm he
  -- the value on a grid that is fine enough
  let m' := m <<< (e - t).toNat
  let e' := e - (e - t).toNat
  have he' : -1074 ≤ e' := by omega
  have hm' : 0 < m' := by
    show 0 < m <<< _
    rw [Nat.shiftLeft_eq]
    exact Nat.mul_pos hm (Nat.two_pow_pos _)
  have hvalue : m' * gridSize e' = m * gridSize e := by
    have hsub : (e - e').toNat = (e - t).toNat := by omega
    rw [gridSize_sub he' (by omega : e' ≤ e), hsub, ← Nat.mul_assoc, ← Nat.shiftLeft_eq]
  have htarget : Format.binary64.targetExponent (Float.Model.totalExponent m' e') = t := by
    have hlog : m'.log2 = m.log2 + (e - t).toNat := by
      rw [← log2_mul_two_pow hm.ne', ← Nat.shiftLeft_eq]
    show max ((m'.log2 : Int) + 1 + e' - 53) (-1074) = max ((m.log2 : Int) + 1 + e - 53) (-1074)
    omega
  have hround := denotes_roundWithAccuracy hm' he' (by omega) s
  rw [hvalue] at hround
  exact hround

/-! ## Sums -/

lemma natAbs_apply (s : Sign) (n : Nat) : (s.apply n).natAbs = n := by
  cases s with
  | negative => exact (Int.natAbs_neg _).trans (Int.natAbs_natCast n)
  | positive => exact Int.natAbs_natCast n

/-- A finite value has at most 53 bits. -/
lemma Denotes.isShort {u : UnpackedFloat} {v : Int} (h : Denotes u v) : IsShort v.natAbs := by
  cases u with
  | infinity s => exact h.elim
  | notANumber => exact h.elim
  | zero s =>
    obtain rfl : v = 0 := h
    exact isShort_of_le (Nat.zero_le _)
  | finite s m e hm =>
    obtain ⟨⟨hlt, -, -⟩, rfl⟩ := h
    rw [natAbs_apply]
    exact isShort_mul_gridSize hlt e

/-- An integer on some grid is rounded by its magnitude, and zero has the given sign. -/
lemma denotes_normalize (n : Int) {e : Int} (he : -1074 ≤ e) (s : Sign) :
    Denotes (UnpackedFloat.normalize .binary64 n e s) (nearestInt (n * gridSize e)) := by
  rcases lt_trichotomy n 0 with hn | rfl | hn
  · obtain ⟨k, rfl⟩ : ∃ k : Nat, n = -k := ⟨n.natAbs, by omega⟩
    rw [UnpackedFloat.normalize, compare_lt_iff_lt.2 hn, neg_mul, nearestInt_neg, ← Nat.cast_mul,
      nearestInt_natCast, neg_neg, Int.toNat_natCast]
    exact denotes_round (by omega) he .negative
  · rw [UnpackedFloat.normalize, compare_eq_iff_eq.2 rfl, zero_mul,
      nearestInt_eq_self (isShort_of_le (by decide))]
    rfl
  · obtain ⟨k, rfl⟩ : ∃ k : Nat, n = k := ⟨n.natAbs, by omega⟩
    rw [UnpackedFloat.normalize, compare_gt_iff_gt.2 hn, ← Nat.cast_mul, nearestInt_natCast,
      Int.toNat_natCast]
    exact denotes_round (by omega) he .positive

/-- A value on a finer grid. -/
lemma apply_decreaseExponent (s : Sign) (m : Nat) {e t : Int} (ht : -1074 ≤ t) (h : t ≤ e) :
    s.apply ((decreaseExponent m e t).1 : Nat) * gridSize t = s.apply (m * gridSize e : Nat) := by
  have hvalue : (decreaseExponent m e t).1 * gridSize t = m * gridSize e := by
    rw [gridSize_sub ht h, ← Nat.mul_assoc, ← Nat.shiftLeft_eq]
    rfl
  rw [← hvalue, Nat.cast_mul]
  cases s with
  | negative => exact neg_mul ..
  | positive => rfl

/-- **Sums are rounded.** -/
lemma Denotes.add {u u' : UnpackedFloat} {v v' : Int} (h : Denotes u v) (h' : Denotes u' v') :
    Denotes (UnpackedFloat.add .binary64 u u') (nearestInt (v + v')) := by
  cases u with
  | infinity s => exact h.elim
  | notANumber => exact h.elim
  | zero s =>
    obtain rfl : v = 0 := h
    rw [zero_add, nearestInt_eq_self h'.isShort]
    cases u' with
    | infinity s' => exact h'.elim
    | notANumber => exact h'.elim
    | zero s' =>
      rw [UnpackedFloat.add]
      split <;> exact h'
    | finite s' m' e' hm' => exact h'
  | finite s m e hm =>
    cases u' with
    | infinity s' => exact h'.elim
    | notANumber => exact h'.elim
    | zero s' =>
      obtain rfl : v' = 0 := h'
      rw [add_zero, nearestInt_eq_self h.isShort]
      exact h
    | finite s' m' e' hm' =>
      obtain ⟨⟨-, he, -⟩, rfl⟩ := h
      obtain ⟨⟨-, he', -⟩, rfl⟩ := h'
      have ht : -1074 ≤ min e e' := le_min he he'
      rw [← apply_decreaseExponent s m ht (min_le_left e e'),
        ← apply_decreaseExponent s' m' ht (min_le_right e e'), ← add_mul]
      exact denotes_normalize _ ht .positive

/-- The opposite value. -/
lemma Denotes.neg {u : UnpackedFloat} {v : Int} (h : Denotes u v) : Denotes u.neg (-v) := by
  cases u with
  | infinity s => exact h.elim
  | notANumber => exact h.elim
  | zero s =>
    obtain rfl : v = 0 := h
    rfl
  | finite s m e hm =>
    obtain ⟨hcanonical, rfl⟩ := h
    refine ⟨hcanonical, ?_⟩
    cases s with
    | negative => exact neg_neg _
    | positive => rfl

/-- The magnitude of a value. -/
lemma Denotes.abs {u : UnpackedFloat} {v : Int} (h : Denotes u v) : Denotes u.abs v.natAbs := by
  cases u with
  | infinity s => exact h.elim
  | notANumber => exact h.elim
  | zero s =>
    obtain rfl : v = 0 := h
    rfl
  | finite s m e hm =>
    obtain ⟨hcanonical, rfl⟩ := h
    exact ⟨hcanonical, congrArg Nat.cast (natAbs_apply s _)⟩

/-- A difference is a sum. -/
lemma sub_eq_add_neg_unpacked (u u' : UnpackedFloat) :
    UnpackedFloat.sub .binary64 u u' = UnpackedFloat.add .binary64 u u'.neg := by
  cases u with
  | infinity s | notANumber | zero s => cases u' <;> rfl
  | finite s m e h =>
    cases u' with
    | infinity s' | notANumber | zero s' => rfl
    | finite s' m' e' h' =>
      refine congrArg (fun n => UnpackedFloat.normalize .binary64 n (min e e') .positive) ?_
      cases s' with
      | negative => exact Int.sub_neg ..
      | positive => rfl

end XmlHarvest.Number
