import Mathlib
import XmlHarvest.Number.Binary

/-!
# Doubles as bits

Arithmetic on doubles takes them out of their bits, and puts the result back. What is taken out has
a significand of exactly 53 bits, or it is on the grid of the subnormal values. A result of this
kind is found again in the bits that it is put into, unless it is beyond the range.

The library's own lemmas on doubles and their fields are in no part of Mathlib but the whole. So
this module imports all of it, and a module that needs one of these lemmas imports this module.

## Main definitions

* `Number.shapeOf`: what a double stands for once it is taken out of its bits.
* `Number.IsCanonical`: a value with 53 bits, or on the finest grid.

## Main results

* `Number.shape_eq`: the shape of a double does not depend on how it is taken apart.
* `Number.isCanonical_unpack`: what bits hold is canonical.
* `Number.unpack_pack`: what is put into bits is found again.
-/

open Float.Model (UnpackedFloat Format)
open Float.Model.UnpackedFloat

namespace XmlHarvest.Number

/-! ## Taking doubles out of bits -/

/-- Whether a sign is the negative one. -/
def isNegative : Sign → Bool
  | .negative => true
  | .positive => false

/-- What a double stands for once it is taken out of its bits. -/
def shapeOf : UnpackedFloat → Shape
  | .infinity s => .infinite (isNegative s)
  | .notANumber => .nan
  | .zero s => .finite (isNegative s) 0 (-1074)
  | .finite s m e _ => .finite (isNegative s) m e

section Fields

variable (b : BitVec Format.binary64.numBits)

lemma toNat_unpackMantissa : (unpackMantissa b).toNat = b.toNat % 2 ^ 52 := by
  rw [unpackMantissa_def, BitVec.extractLsb'_toNat]
  simp

lemma toNat_unpackExponent : (unpackExponent b).toNat = b.toNat / 2 ^ 52 % 2 ^ 11 := by
  rw [unpackExponent_def, BitVec.extractLsb'_toNat, Nat.shiftRight_eq_div_pow]

lemma isNegative_unpackSign :
    isNegative (Sign.ofBitVec (unpackSign b)) = (b.toNat / 2 ^ 63 == 1) := by
  have hsign : (unpackSign b).toNat = b.toNat / 2 ^ 63 := by
    have hlt : b.toNat / 2 ^ 63 < 2 ^ 1 := by
      have hb : b.toNat < 2 ^ 64 := b.isLt
      omega
    rw [unpackSign_def, BitVec.extractLsb'_toNat, Nat.shiftRight_eq_div_pow]
    exact Nat.mod_eq_of_lt hlt
  rw [← hsign]
  rcases BitVec.eq_zero_or_eq_one (unpackSign b) with h | h
  · rw [h]
    rfl
  · rw [h]
    rfl

end Fields

/-- The leading bit, which is not written, counts `2 ^ 52`. -/
lemma toNat_one_append (m : BitVec 52) : (1#1 ++ m).toNat = 2 ^ 52 + m.toNat := by
  show 2 ^ 52 ||| m.toNat = _
  rw [Nat.or_comm, Nat.or_two_pow_eq_add_of_lt m.isLt, Nat.add_comm]

/-- A field of eleven bits is filled with ones if it has the number 2047. -/
lemma eq_ones_iff (e : BitVec 11) : e = -1#11 ↔ e.toNat = 2047 := by
  rw [← BitVec.toNat_inj]
  rfl

lemma eq_zero_iff {w : Nat} (v : BitVec w) : v = 0#w ↔ v.toNat = 0 := by
  rw [← BitVec.toNat_inj, BitVec.toNat_zero]

/-- **The shape of a double** does not depend on how it is taken apart. -/
lemma shape_eq (x : Float) : shape x = shapeOf x.toModel.unpack := by
  have hshape : ∀ b : BitVec Format.binary64.numBits, shapeOf (unpack .binary64 b) =
      if (unpackExponent b).toNat = 2047 then
        if (unpackMantissa b).toNat = 0 then
          .infinite (isNegative (Sign.ofBitVec (unpackSign b)))
        else .nan
      else if (unpackExponent b).toNat = 0 then
        .finite (isNegative (Sign.ofBitVec (unpackSign b))) (unpackMantissa b).toNat (-1074)
      else .finite (isNegative (Sign.ofBitVec (unpackSign b)))
        (2 ^ 52 + (unpackMantissa b).toNat) ((unpackExponent b).toNat - 1075) := by
    intro b
    simp only [← eq_ones_iff, ← eq_zero_iff]
    fun_cases unpack with
    | case1 _ _ _ _ he hm => rw [if_pos he, if_pos hm, shapeOf]
    | case2 _ _ he hm => rw [if_pos he, if_neg hm, shapeOf]
    | case3 m e _ s he he' hm =>
      rw [if_neg he, if_pos he', (eq_zero_iff (unpackMantissa b)).1 hm, shapeOf]
    | case4 m e exponent _ s he he' _ =>
      have hexponent : exponent + 1 = -1074 := by
        simp only [exponent, he', BitVec.toNat_zero]
        decide
      rw [if_neg he, if_pos he', shapeOf, hexponent]
    | case5 m e exponent _ s he he' =>
      rw [if_neg he, if_neg he', shapeOf, toNat_one_append]
      rfl
  show _ = shapeOf (unpack .binary64 x.toBits.toBitVec)
  rw [hshape, toNat_unpackMantissa, toNat_unpackExponent, isNegative_unpackSign]
  rfl

/-! ## Canonical values -/

/-- A value has a significand of 53 bits, or one of fewer bits on the finest grid. -/
def IsCanonical : UnpackedFloat → Prop
  | .finite _ m e _ => m < 2 ^ 53 ∧ -1074 ≤ e ∧ (2 ^ 52 ≤ m ∨ e = -1074)
  | _ => True

/-- What bits hold is canonical. -/
lemma isCanonical_unpack (b : BitVec Format.binary64.numBits) :
    IsCanonical (unpack .binary64 b) := by
  fun_cases unpack with
  | case1 | case2 | case3 => trivial
  | case4 m e exponent _ s he he' _ =>
    have hexponent : exponent + 1 = -1074 := by
      simp only [exponent, he', BitVec.toNat_zero]
      decide
    have hm : m.toNat < 2 ^ 52 := m.isLt
    exact ⟨by omega, by omega, .inr hexponent⟩
  | case5 m e exponent _ s he he' =>
    have hm : m.toNat < 2 ^ 52 := m.isLt
    have he0 : e.toNat ≠ 0 := fun h => he' ((eq_zero_iff e).2 h)
    have hexponent : exponent = (e.toNat : Int) - 1075 := rfl
    rw [IsCanonical, toNat_one_append]
    exact ⟨by omega, by omega, .inl (by omega)⟩

/-! ## Putting doubles into bits -/

lemma unpack_packedInfinity (s : Sign) :
    unpack .binary64 (packedInfinity .binary64 s) = .infinity s := by
  simp [unpack, packedInfinity]

/-- A value beyond the range becomes infinite. -/
lemma unpack_pack_of_lt {s : Sign} {m : Nat} {e : Int} {h : 0 < m} (he : 971 < e) :
    unpack .binary64 (pack .binary64 (.finite s m e h)) = .infinity s := by
  have hbiased : 2 ^ 11 ≤ (e + 1023 + 52).toNat + 1 := by omega
  have hpack : pack .binary64 (.finite s m e h) = packedInfinity .binary64 s := if_pos hbiased
  rw [hpack, unpack_packedInfinity]

/-- **What is put into bits is found again**, if it is canonical and within the range.

**Proof sketch.** With 53 bits, the first of them is dropped and the exponent field is neither zero
nor filled with ones. With fewer bits the exponent field is zero. -/
lemma unpack_pack_finite {s : Sign} {m : Nat} {e : Int} {h : 0 < m}
    (hu : IsCanonical (.finite s m e h)) (he : e ≤ 971) :
    unpack .binary64 (pack .binary64 (.finite s m e h)) = .finite s m e h := by
  obtain ⟨hm, hlow, hgrid⟩ := hu
  have hrange : ¬2 ^ 11 ≤ (e + 1023 + 52).toNat + 1 := by omega
  rcases Nat.lt_or_ge m (2 ^ 52) with hlt | hge
  · have hlog : ¬m.log2 + 1 = 53 := by
      have hlog52 : m.log2 < 52 := (Nat.log2_lt h.ne').2 hlt
      omega
    have hpack : pack .binary64 (.finite s m e h) =
        packComponents .binary64 s 0#11 (BitVec.ofNat 52 m) :=
      (if_neg hrange).trans (if_neg hlog)
    have hfield : (BitVec.ofNat 52 m).toNat = m :=
      (BitVec.toNat_ofNat ..).trans (Nat.mod_eq_of_lt hlt)
    have hne : BitVec.ofNat 52 m ≠ 0#52 := fun hzero => h.ne' (hfield ▸ (eq_zero_iff _).1 hzero)
    rw [hpack, unpack]
    simp only [unpackExponent_packComponents, unpackMantissa_packComponents,
      unpackSign_packComponents, Sign.ofBitVec_toBitVec]
    rw [if_neg (by decide), if_pos trivial, dif_neg hne, UnpackedFloat.finite.injEq]
    refine ⟨rfl, hfield, ?_⟩
    show (0 : Int) - (1023 + 52) + 1 = e
    omega
  · have hlog : m.log2 + 1 = 53 := by
      have hlog52 : 52 ≤ m.log2 := (Nat.le_log2 h.ne').2 hge
      have hlog53 : m.log2 < 53 := (Nat.log2_lt h.ne').2 hm
      omega
    have hpack : pack .binary64 (.finite s m e h) = packComponents .binary64 s
        (BitVec.ofNat 11 (e + 1023 + 52).toNat) (BitVec.ofNat 52 m) :=
      (if_neg hrange).trans (if_pos hlog)
    have hexponent : (BitVec.ofNat 11 (e + 1023 + 52).toNat).toNat = (e + 1023 + 52).toNat :=
      (BitVec.toNat_ofNat ..).trans (Nat.mod_eq_of_lt (by omega))
    have hfield : 2 ^ 52 + (BitVec.ofNat 52 m).toNat = m := by
      rw [BitVec.toNat_ofNat]
      omega
    have hnone : BitVec.ofNat 11 (e + 1023 + 52).toNat ≠ -1#11 := by
      rw [ne_eq, eq_ones_iff, hexponent]
      omega
    have hnzero : BitVec.ofNat 11 (e + 1023 + 52).toNat ≠ 0#11 := by
      rw [ne_eq, eq_zero_iff, hexponent]
      omega
    rw [hpack, unpack]
    simp only [unpackExponent_packComponents, unpackMantissa_packComponents,
      unpackSign_packComponents, Sign.ofBitVec_toBitVec]
    rw [if_neg hnone, if_neg hnzero, UnpackedFloat.finite.injEq]
    refine ⟨rfl, (toNat_one_append _).trans hfield, ?_⟩
    show ((BitVec.ofNat 11 (e + 1023 + 52).toNat).toNat : Int) - (1023 + 52) = e
    rw [hexponent]
    omega

end XmlHarvest.Number
