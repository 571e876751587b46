import XmlHarvest.Number.Rounding
import XmlHarvest.Proofs.Number.Finite

/-!
# Whole numbers as doubles

The bits of the double nearest to a whole number are computed without arithmetic on doubles. They
hold the nearest short number, and so the floor of a double, which is found on its significand, is
the exact one.

## Main definitions

* `Number.patternUnits`: what the bits of a finite double without a sign stand for.

## Main results

* `Number.hasUnits_ofBits`: the value of bits.
* `Number.hasUnits_ofRatio_one`, `Number.hasUnits_ofNat_or`: the double nearest to a whole number.
* `Number.HasUnits.floor`: the floor of a double.
-/

open Float.Model (UnpackedFloat Format)
open Float.Model.UnpackedFloat

namespace XmlHarvest.Number

/-! ## The value of bits -/

/-- What the bits of a finite double without a sign stand for. -/
def patternUnits (bits : Nat) : Nat :=
  if bits / 2 ^ 52 = 0 then bits else (2 ^ 52 + bits % 2 ^ 52) * 2 ^ (bits / 2 ^ 52 - 1)

/-- A significand that is put on a grid, also one with a carry. -/
lemma patternUnits_add {k q : Nat} (hq : q ≤ 2 ^ 53) (hgrid : 2 ^ 52 ≤ q ∨ k = 0) :
    patternUnits (k * 2 ^ 52 + q) = q * 2 ^ k := by
  rcases Nat.lt_or_ge q (2 ^ 52) with hlt | hge
  · obtain rfl : k = 0 := by omega
    rw [patternUnits, if_pos (by omega)]
    omega
  · rcases hq.eq_or_lt with rfl | hlt
    · have hdiv : (k * 2 ^ 52 + 2 ^ 53) / 2 ^ 52 = k + 2 := by omega
      have hmod : (k * 2 ^ 52 + 2 ^ 53) % 2 ^ 52 = 0 := by omega
      rw [patternUnits, hdiv, hmod, if_neg (by omega), Nat.add_sub_assoc (by omega), Nat.pow_add]
      ring
    · have hdiv : (k * 2 ^ 52 + q) / 2 ^ 52 = k + 1 := by omega
      have hmod : 2 ^ 52 + (k * 2 ^ 52 + q) % 2 ^ 52 = q := by omega
      rw [patternUnits, hdiv, hmod, if_neg (by omega), Nat.add_sub_cancel]

/-- The bits of a double that is not too large are those that it is made of. -/
lemma toNat_toBits_ofBits {b : Nat} (hb : b % 2 ^ 63 ≤ 2047 * 2 ^ 52) (hrange : b < 2 ^ 64) :
    (Float.ofBits (UInt64.ofNat b)).toBits.toNat = b := by
  have hb64 : (UInt64.ofNat b).toBitVec.toNat = b := UInt64.toNat_ofNat_of_lt hrange
  have hvalid : Format.binary64.Valid (UInt64.ofNat b).toBitVec := by
    refine ⟨fun hexponent hmantissa => absurd ?_ hmantissa⟩
    have he := (eq_ones_iff _).1 hexponent
    rw [toNat_unpackExponent, hb64] at he
    refine (eq_zero_iff _).2 ?_
    rw [toNat_unpackMantissa, hb64]
    omega
  have hbits := pack_unpack_of_valid hvalid
  exact (congrArg BitVec.toNat hbits).trans hb64

/-- The fields of bits with a sign. -/
lemma shape_ofBits {b n : Nat} (hrange : b < 2 ^ 64) (hn : b % 2 ^ 63 = n)
    (hfinite : n < 2047 * 2 ^ 52) : shape (Float.ofBits (UInt64.ofNat b)) =
      if n / 2 ^ 52 = 0 then .finite (b / 2 ^ 63 == 1) n (-1074)
      else .finite (b / 2 ^ 63 == 1) (2 ^ 52 + n % 2 ^ 52) ((n / 2 ^ 52 : Nat) - 1075) := by
  have hbits := toNat_toBits_ofBits (by omega) hrange
  have hfield : b / 2 ^ 52 % 2 ^ 11 = n / 2 ^ 52 := by omega
  have hfraction : b % 2 ^ 52 = n % 2 ^ 52 := by omega
  rw [shape]
  simp only [hbits, Nat.pow_eq, hfield, hfraction]
  rw [if_neg (by omega)]
  split
  · rw [Nat.mod_eq_of_lt (by omega)]
  · rfl

/-- **The value of bits** below those of infinity, with a sign. -/
lemma hasUnits_ofBits {n : Nat} (hn : n < 2047 * 2 ^ 52) (negative : Bool) :
    HasUnits (Float.ofBits (UInt64.ofNat ((if negative then Nat.pow 2 63 else 0) + n)))
      (signed negative (patternUnits n)) := by
  have hsign : ((if negative then Nat.pow 2 63 else 0) + n < 2 ^ 64 ∧
      ((if negative then Nat.pow 2 63 else 0) + n) % 2 ^ 63 = n) ∧
      (((if negative then Nat.pow 2 63 else 0) + n) / 2 ^ 63 == 1) = negative := by
    cases negative <;> simp <;> omega
  have hshape := shape_ofBits hsign.1.1 hsign.1.2 hn
  rw [hsign.2] at hshape
  rw [hasUnits_iff_shape, patternUnits]
  rw [hshape]
  split
  · refine ⟨negative, n, -1074, rfl, by omega, le_rfl, .inr rfl, ?_⟩
    rw [gridSize]
    simp
  · refine ⟨negative, _, _, rfl, by omega, by omega, .inl (by omega), ?_⟩
    rw [gridSize]
    congr 3
    omega

/-! ## Whole numbers -/

/-- A whole number has its last significant bit 52 places behind its first one. -/
lemma gridExponent_one {n : Nat} (hn : 0 < n) : gridExponent n 1 = n.log2 - 52 := by
  let e : Int := (n.log2 : Int) - (1 : Nat).log2 - 53
  have he : e = n.log2 - 53 := by
    have hone : (1 : Nat).log2 = 0 := by decide
    omega
  have hlarge : ¬(scaled n 1 e).1 / (scaled n 1 e).2 < Nat.pow 2 53 := by
    show ¬n * 2 ^ (-e).toNat / (1 * 2 ^ e.toNat) < 2 ^ 53
    rw [one_mul, Nat.not_lt, Nat.le_div_iff_mul_le (Nat.two_pow_pos _), ← Nat.pow_add]
    refine le_trans ?_ (Nat.mul_le_mul_right _ (Nat.log2_self_le hn.ne'))
    rw [← Nat.pow_add]
    exact Nat.pow_le_pow_right (by norm_num) (by omega)
  show max (-1074) (if (scaled n 1 e).1 / (scaled n 1 e).2 < Nat.pow 2 53 then e else e + 1) = _
  rw [if_neg hlarge]
  omega

/-- The significand of the double nearest to a whole number, which is rounded at its last bit. -/
lemma roundHalfEven_significand {n : Nat} (hn : 0 < n) :
    let q := roundHalfEven (n * 2 ^ (52 - n.log2)) (2 ^ (n.log2 - 52))
    2 ^ 52 ≤ q ∧ q ≤ 2 ^ 53 ∧ q * 2 ^ (n.log2 + 1022) = nearest n * gridSize 0 := by
  intro q
  rw [gridSize]
  rcases Nat.lt_or_ge n.log2 52 with hlt | hge
  · have hq : q = n * 2 ^ (52 - n.log2) := by
      refine roundHalfEven_of_near ?_ ?_ <;>
        rw [Nat.sub_eq_zero_of_le hlt.le] <;> omega
    have hsmall : n ≤ 2 ^ 53 := by
      refine Nat.lt_log2_self.le.trans (Nat.pow_le_pow_right (by norm_num) (by omega))
    have hfirst : 2 ^ n.log2 * 2 ^ (52 - n.log2) = 2 ^ 52 := by
      rw [← Nat.pow_add, Nat.add_sub_cancel' hlt.le]
    have hlast : 2 ^ (n.log2 + 1) * 2 ^ (52 - n.log2) = 2 ^ 53 := by
      rw [Nat.pow_add_one, Nat.mul_right_comm, hfirst]
      rfl
    refine ⟨?_, ?_, ?_⟩
    · rw [hq, ← hfirst]
      exact Nat.mul_le_mul_right _ (Nat.log2_self_le hn.ne')
    · rw [hq, ← hlast]
      exact Nat.mul_le_mul_right _ Nat.lt_log2_self.le
    · have hexponent : 52 - n.log2 + (n.log2 + 1022) = ((0 : Int) + 1074).toNat := by omega
      rw [hq, nearest_of_le hsmall, Nat.mul_assoc, ← Nat.pow_add, hexponent]
  · have hq : q = roundHalfEven n (spacing n) := by
      show roundHalfEven (n * 2 ^ (52 - n.log2)) _ = _
      rw [Nat.sub_eq_zero_of_le hge, Nat.pow_zero, Nat.mul_one, spacing]
    refine ⟨?_, ?_, ?_⟩
    · rw [hq]
      refine le_roundHalfEven (spacing_pos n) ?_
      rw [spacing, ← Nat.pow_add, Nat.add_sub_cancel' hge]
      exact Nat.log2_self_le hn.ne'
    · rw [hq]
      exact roundHalfEven_le (spacing_pos n) (lt_mul_spacing n).le
    · have hexponent : n.log2 + 1022 = n.log2 - 52 + ((0 : Int) + 1074).toNat := by omega
      rw [hq, nearest, Nat.mul_assoc, hexponent, Nat.pow_add, ← spacing]

/-- The bits of the double nearest to a whole number: its exponent and its significand, or those of
infinity. -/
lemma nearestBits_one {n : Nat} (hn : 0 < n) : nearestBits n 1 =
    min (2047 * 2 ^ 52) ((n.log2 + 1022) * 2 ^ 52 +
      roundHalfEven (n * 2 ^ (52 - n.log2)) (2 ^ (n.log2 - 52))) := by
  have hup : (-((n.log2 : Int) - 52)).toNat = 52 - n.log2 := by omega
  have hdown : ((n.log2 : Int) - 52).toNat = n.log2 - 52 := by omega
  have hfield : ((n.log2 : Int) - 52 + 1074).toNat = n.log2 + 1022 := by omega
  rw [nearestBits, if_neg hn.ne', gridExponent_one hn]
  show min (2047 * 2 ^ 52) (((n.log2 : Int) - 52 + 1074).toNat * 2 ^ 52 +
    roundHalfEven (n * 2 ^ (-((n.log2 : Int) - 52)).toNat)
      (1 * 2 ^ ((n.log2 : Int) - 52).toNat)) = _
  rw [hup, hdown, hfield, one_mul]

/-- The bits of a double near a ratio are at most those of infinity. -/
lemma nearestBits_le (num den : Nat) : nearestBits num den ≤ 2047 * 2 ^ 52 := by
  rw [nearestBits]
  split
  · exact Nat.zero_le _
  · exact min_le_left _ _

/-- The double nearest to a whole number whose bits are below those of infinity. -/
lemma hasUnits_ofRatio_one_of_lt {n : Nat} (hn : nearestBits n 1 < 2047 * 2 ^ 52)
    (negative : Bool) :
    HasUnits (ofRatio negative n 1) (signed negative (nearest n * gridSize 0)) := by
  rcases Nat.eq_zero_or_pos n with rfl | hpos
  · have hzero : HasUnits (ofRatio negative 0 1) (signed negative (patternUnits 0)) :=
      hasUnits_ofBits (n := 0) (by norm_num) negative
    rw [nearest_of_le (Nat.zero_le _), zero_mul]
    exact hzero
  · rw [nearestBits_one hpos, min_lt_iff, or_iff_right (lt_irrefl _)] at hn
    obtain ⟨hlow, hhigh, hvalue⟩ := roundHalfEven_significand hpos
    rw [ofRatio, nearestBits_one hpos, min_eq_right hn.le, ← hvalue,
      ← patternUnits_add hhigh (.inl hlow)]
    exact hasUnits_ofBits hn negative

/-- **The double nearest to a whole number** that is not beyond the range. -/
lemma hasUnits_ofRatio_one {n : Nat} (hn : n < 2 ^ 64) (negative : Bool) :
    HasUnits (ofRatio negative n 1) (signed negative (nearest n * gridSize 0)) := by
  refine hasUnits_ofRatio_one_of_lt ?_ negative
  rcases Nat.eq_zero_or_pos n with rfl | hpos
  · decide
  · have hlog : n.log2 < 64 := (Nat.log2_lt hpos.ne').2 hn
    have hhigh := (roundHalfEven_significand hpos).2.1
    rw [nearestBits_one hpos]
    omega

/-- The double nearest to a natural number. -/
lemma hasUnits_ofNat {n : Nat} (hn : n < 2 ^ 64) : HasUnits (ofNat n) (nearest n * gridSize 0) :=
  hasUnits_ofRatio_one hn false

/-- The double nearest to a number of at most 53 bits is the number. -/
lemma hasUnits_ofNat_of_le {n : Nat} (hn : n ≤ 2 ^ 53) : HasUnits (ofNat n) (n * gridSize 0) := by
  have h := hasUnits_ofNat (n := n) (by omega)
  rwa [nearest_of_le hn] at h

/-- A natural number is nearest to a finite double, or beyond the range. -/
lemma hasUnits_ofNat_or (n : Nat) :
    HasUnits (ofNat n) (nearest n * gridSize 0) ∨ ∀ v, ¬HasUnits (ofNat n) v := by
  rcases Nat.lt_or_ge (nearestBits n 1) (2047 * 2 ^ 52) with hlt | hge
  · exact .inl (hasUnits_ofRatio_one_of_lt hlt false)
  · right
    have hbits : nearestBits n 1 = 2047 * 2 ^ 52 := le_antisymm (nearestBits_le n 1) hge
    have hshape : shape (Float.ofBits (UInt64.ofNat (0 + 2047 * 2 ^ 52))) = .infinite false := by
      decide
    intro v hv
    obtain ⟨negative, m, e, hfinite, -⟩ := hasUnits_iff_shape.1 hv
    rw [ofNat, ofRatio, hbits] at hfinite
    cases hshape.symm.trans hfinite

/-- A sum of at most 53 bits is exact. -/
lemma HasUnits.add_whole {x y : Float} {v w : Int} (hx : HasUnits x v) (hy : HasUnits y w) {n : Nat}
    (hn : n ≤ 2 ^ 53) (h : v + w = n * gridSize 0) : HasUnits (x + y) (n * gridSize 0) := by
  have hunits := hasUnits_ofNat_of_le hn
  have hexact : nearestInt (v + w) = n * gridSize 0 := h ▸ nearestInt_eq_self (h ▸ hunits.isShort)
  rw [← hexact]
  exact hx.add hy (hexact ▸ hunits.natAbs_lt)

/-- A difference of at most 53 bits is exact. -/
lemma HasUnits.sub_whole {x y : Float} {v w : Int} (hx : HasUnits x v) (hy : HasUnits y w) {n : Nat}
    (hn : n ≤ 2 ^ 53) (h : v - w = n * gridSize 0) : HasUnits (x - y) (n * gridSize 0) := by
  have hunits := hasUnits_ofNat_of_le hn
  have hexact : nearestInt (v - w) = n * gridSize 0 := h ▸ nearestInt_eq_self (h ▸ hunits.isShort)
  rw [← hexact]
  exact hx.sub hy (hexact ▸ hunits.natAbs_lt)

/-! ## Floor -/

lemma signed_mul (negative : Bool) (m k : Nat) :
    signed negative (m * k) = signed negative m * k := by
  cases negative <;> simp [signed]

/-- The whole number below a ratio with a sign, by the quotient of the magnitudes. -/
lemma signed_ediv (negative : Bool) (m : Nat) {unit : Nat} (hunit : 0 < unit) :
    signed negative m / (unit : Int) =
      signed negative (if negative && m % unit != 0 then m / unit + 1 else m / unit) := by
  have hsplit : unit * (m / unit) + m % unit = m := Nat.div_add_mod m unit
  have hlt : m % unit < unit := Nat.mod_lt m hunit
  cases negative with
  | false => rfl
  | true =>
    simp only [signed, Bool.true_and, bne_iff_ne, if_true, ne_eq]
    rcases Nat.eq_zero_or_pos (m % unit) with hzero | hpos
    · have hdvd : (unit : Int) ∣ m := Int.natCast_dvd_natCast.2 (Nat.dvd_of_mod_eq_zero hzero)
      rw [if_neg (by omega), Int.neg_ediv_of_dvd hdvd]
      rfl
    · rw [if_pos hpos.ne']
      refine ((Int.ediv_emod_unique (r := unit - (m % unit : Nat)) (Int.natCast_pos.2 hunit)).2
        ⟨?_, by omega, by omega⟩).1
      have hsplit : (unit : Int) * (m / unit : Nat) + (m % unit : Nat) = m := by
        exact_mod_cast hsplit
      rw [Nat.cast_succ, mul_neg, mul_add, mul_one]
      omega

/-- **The floor of a double** is the exact one.

**Proof sketch.** A value on the grid of the whole numbers is one of them. On a finer grid the
quotient of the significand has fewer bits than it, so it is the significand of the result. -/
lemma HasUnits.floor {x : Float} {v : Int} (h : HasUnits x v) :
    HasUnits (floor x) (v / gridSize 0 * gridSize 0) := by
  obtain ⟨negative, m, e, hshape, hm, he, -, rfl⟩ := hasUnits_iff_shape.1 h
  have hone : (gridSize 0 : Int) ≠ 0 := by exact_mod_cast (gridSize_pos 0).ne'
  rw [Number.floor, toInteger, hshape]
  dsimp only
  split
  · rename_i hwhole
    have hgrid : signed negative (m * gridSize e) =
        signed negative (m * 2 ^ (e - 0).toNat) * gridSize 0 := by
      rw [gridSize_sub (by norm_num) hwhole, ← Nat.mul_assoc, signed_mul]
    rw [hgrid, Int.mul_ediv_cancel _ hone, ← hgrid]
    exact h
  · rename_i hfine
    have hgrid : gridSize 0 = 2 ^ (-e).toNat * gridSize e := by
      rw [gridSize_sub he (by omega), zero_sub]
    have hquotient : signed negative (m * gridSize e) / (gridSize 0 : Int) =
        signed negative m / (2 ^ (-e).toNat : Nat) := by
      rw [hgrid, signed_mul, Nat.cast_mul]
      exact Int.mul_ediv_mul_of_pos_left _ _ (Int.natCast_pos.2 (gridSize_pos e))
    have hpos : 0 < 2 ^ (-e).toNat := Nat.two_pow_pos _
    rw [hquotient, signed_ediv negative m hpos]
    have hsmall : m / 2 ^ (-e).toNat + 1 ≤ 2 ^ 53 := by
      have hlt : m / 2 ^ (-e).toNat < 2 ^ 53 := (Nat.div_le_self _ _).trans_lt hm
      omega
    have hresult : ∀ q ≤ 2 ^ 53,
        HasUnits (ofRatio negative q 1) (signed negative q * gridSize 0) := by
      intro q hq
      have hvalue := hasUnits_ofRatio_one (n := q) (by omega) negative
      rwa [nearest_of_le hq, signed_mul] at hvalue
    refine hresult _ ?_
    split
    · exact hsmall
    · exact (Nat.le_succ _).trans hsmall

end XmlHarvest.Number
