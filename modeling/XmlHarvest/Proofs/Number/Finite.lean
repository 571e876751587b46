import XmlHarvest.Proofs.Number.Arithmetic

/-!
# Finite doubles

A finite double is a multiple of the least positive one, and what arithmetic and comparisons do with
doubles is said by these multiples.

## Main definitions

* `Number.HasUnits`: how many times the least positive double a double is.
* `Number.Shape.value?`: the exact value of a finite double.

## Main results

* `Number.hasUnits_iff_shape`: the multiple by significand and exponent.
* `Number.HasUnits.value?_eq`, `Number.exists_hasUnits`: the multiple and the exact value.
* `Number.HasUnits.add`, `Number.HasUnits.sub`: sums and differences are the nearest doubles.
* `Number.HasUnits.lt_iff`, `Number.HasUnits.le_iff`, `Number.HasUnits.beq_iff`: comparisons.
-/

open Float.Model (UnpackedFloat Format)
open Float.Model.UnpackedFloat

namespace XmlHarvest.Number

/-- The double is finite, and this many times the least positive double. -/
def HasUnits (x : Float) (v : Int) : Prop :=
  Denotes x.toModel.unpack v

/-- The first multiple of the least positive double that is beyond the range. -/
def limit : Nat :=
  gridSize 1024

/-! ## Shapes -/

/-- A magnitude with a sign. -/
def signed (negative : Bool) (n : Nat) : Int :=
  if negative then -n else n

lemma natAbs_signed (negative : Bool) (n : Nat) : (signed negative n).natAbs = n := by
  cases negative with
  | false => exact Int.natAbs_natCast n
  | true => exact (Int.natAbs_neg _).trans (Int.natAbs_natCast n)

/-- **The multiple by significand and exponent.** A finite double is its significand on the grid of
its exponent, which has 53 bits, or fewer on the finest grid. -/
lemma hasUnits_iff_shape {x : Float} {v : Int} : HasUnits x v ↔
    ∃ negative m e, shape x = .finite negative m e ∧ m < 2 ^ 53 ∧ -1074 ≤ e ∧
      (2 ^ 52 ≤ m ∨ e = -1074) ∧ v = signed negative (m * gridSize e) := by
  have hcanonical : IsCanonical x.toModel.unpack := isCanonical_unpack _
  rw [shape_eq, HasUnits]
  cases hx : x.toModel.unpack with
  | infinity s =>
    refine ⟨fun h => h.elim, ?_⟩
    rintro ⟨_, _, _, h, -⟩
    cases h
  | notANumber =>
    refine ⟨fun h => h.elim, ?_⟩
    rintro ⟨_, _, _, h, -⟩
    cases h
  | zero s =>
    constructor
    · intro h
      obtain rfl : v = 0 := h
      exact ⟨isNegative s, 0, -1074, rfl, by norm_num, le_rfl, .inr rfl, by simp [signed]⟩
    · rintro ⟨_, _, _, h, -, -, -, rfl⟩
      cases h
      simp [signed, Denotes]
  | finite s m e hm =>
    rw [hx] at hcanonical
    have hsigned : s.apply (m * gridSize e : Nat) = signed (isNegative s) (m * gridSize e) := by
      cases s <;> rfl
    constructor
    · rintro ⟨⟨hlt, hlow, hgrid⟩, rfl⟩
      exact ⟨_, m, e, rfl, hlt, hlow, hgrid, hsigned⟩
    · rintro ⟨_, _, _, h, -, -, -, rfl⟩
      cases h
      exact ⟨hcanonical, hsigned.symm⟩

/-- The forms of a finite double. -/
lemma HasUnits.unpack_cases {x : Float} {v : Int} (h : HasUnits x v) :
    (∃ s, x.toModel.unpack = .zero s) ∨ ∃ s m e hm, x.toModel.unpack = .finite s m e hm := by
  rw [HasUnits] at h
  cases hx : x.toModel.unpack with
  | infinity s => exact (hx ▸ h : Denotes (.infinity s) v).elim
  | notANumber => exact (hx ▸ h : Denotes .notANumber v).elim
  | zero s => exact .inl ⟨s, rfl⟩
  | finite s m e hm => exact .inr ⟨s, m, e, hm, rfl⟩

/-- The forms of a double that is not finite. -/
lemma unpack_cases_of_not_hasUnits {x : Float} (h : ∀ v, ¬HasUnits x v) :
    (∃ s, x.toModel.unpack = .infinity s) ∨ x.toModel.unpack = .notANumber := by
  have hcanonical : IsCanonical x.toModel.unpack := isCanonical_unpack _
  simp only [HasUnits] at h
  cases hx : x.toModel.unpack with
  | infinity s => exact .inl ⟨s, rfl⟩
  | notANumber => exact .inr rfl
  | zero s =>
    rw [hx] at h
    exact absurd rfl (h 0)
  | finite s m e hm =>
    rw [hx] at h hcanonical
    exact absurd ⟨hcanonical, rfl⟩ (h _)

/-- The exact value of a shape, if it is finite. -/
def Shape.value? : Shape → Option Rat
  | .finite negative m e => some (signed negative m * 2 ^ e)
  | .nan | .infinite _ => none

lemma gridSize_ne_zero {e : Int} : (gridSize e : Rat) ≠ 0 :=
  Nat.cast_ne_zero.2 (gridSize_pos e).ne'

/-- The grid of an exponent against the grid of the whole numbers. -/
lemma gridSize_div (e : Int) (he : -1074 ≤ e) : (gridSize e : Rat) / gridSize 0 = 2 ^ e := by
  have hsplit : e = (e + 1074).toNat - ((0 : Int) + 1074).toNat := by omega
  rw [gridSize, gridSize, Nat.cast_pow, Nat.cast_pow, Nat.cast_ofNat]
  conv_rhs => rw [hsplit]
  rw [zpow_sub₀ (by norm_num), zpow_natCast, zpow_natCast]

/-- **The exact value** of a finite double by its multiple. -/
lemma HasUnits.value?_eq {x : Float} {v : Int} (h : HasUnits x v) :
    (shape x).value? = some ((v : Rat) / gridSize 0) := by
  obtain ⟨negative, m, e, hshape, -, he, -, rfl⟩ := hasUnits_iff_shape.1 h
  rw [hshape, Shape.value?, ← gridSize_div e he]
  refine congrArg some ?_
  rw [← mul_div_assoc]
  cases negative <;> simp [signed]

/-- A double with an exact value is finite. -/
lemma exists_hasUnits {x : Float} {q : Rat} (h : (shape x).value? = some q) :
    ∃ v : Int, HasUnits x v ∧ q = (v : Rat) / gridSize 0 := by
  have hfinite : ∃ v, HasUnits x v := by
    by_contra hnone
    rw [shape_eq] at h
    obtain ⟨s, hx⟩ | hx := unpack_cases_of_not_hasUnits (not_exists.1 hnone) <;>
      rw [hx] at h <;> cases h
  obtain ⟨v, hv⟩ := hfinite
  exact ⟨v, hv, Option.some.inj (h.symm.trans hv.value?_eq)⟩

/-! ## Range -/

/-- The size of a value by its exponent. -/
lemma Denotes.natAbs_finite {s : Sign} {m : Nat} {e : Int} {hm : 0 < m} {v : Int}
    (h : Denotes (.finite s m e hm) v) : v.natAbs = m * gridSize e := by
  rw [h.2, natAbs_apply]

/-- The exponents of the values within the range. -/
lemma Denotes.lt_limit_iff {s : Sign} {m : Nat} {e : Int} {hm : 0 < m} {v : Int}
    (h : Denotes (.finite s m e hm) v) : v.natAbs < limit ↔ e ≤ 971 := by
  have habs : v.natAbs = m * gridSize e := h.natAbs_finite
  obtain ⟨⟨hlt, hlow, hgrid⟩, -⟩ := h
  have hlimit : limit = 2 ^ 53 * gridSize 971 := gridSize_eq_mul 53 (by norm_num) rfl
  rw [habs, hlimit]
  constructor
  · intro hsmall
    by_contra hlarge
    have hwide : gridSize e = 2 ^ (e - 972).toNat * gridSize 972 :=
      gridSize_sub (by omega) (by omega)
    have hnext : gridSize 972 = 2 ^ 1 * gridSize 971 := gridSize_eq_mul 1 (by norm_num) rfl
    have hle : gridSize 972 ≤ gridSize e := by
      rw [hwide]
      exact Nat.le_mul_of_pos_left _ (Nat.two_pow_pos _)
    have hm52 : 2 ^ 52 ≤ m := by omega
    have hprod : 2 ^ 52 * gridSize 972 ≤ m * gridSize e := Nat.mul_le_mul hm52 hle
    omega
  · intro he
    have hwide : gridSize 971 = 2 ^ (971 - e).toNat * gridSize e := gridSize_sub hlow he
    have hle : gridSize e ≤ gridSize 971 := by
      rw [hwide]
      exact Nat.le_mul_of_pos_left _ (Nat.two_pow_pos _)
    calc m * gridSize e < 2 ^ 53 * gridSize e := Nat.mul_lt_mul_of_pos_right hlt (gridSize_pos e)
      _ ≤ 2 ^ 53 * gridSize 971 := Nat.mul_le_mul_left _ hle

/-- A value within the range is found again in its bits. -/
lemma Denotes.pack {u : UnpackedFloat} {v : Int} (h : Denotes u v) (hv : v.natAbs < limit) :
    Denotes (unpack .binary64 (UnpackedFloat.pack .binary64 u)) v := by
  cases u with
  | infinity s => exact h.elim
  | notANumber => exact h.elim
  | zero s =>
    have hzero : unpack .binary64 (UnpackedFloat.pack .binary64 (.zero s)) = .zero s :=
      unpack_packedZero
    rwa [hzero]
  | finite s m e hm => rwa [unpack_pack_finite h.1 (h.lt_limit_iff.1 hv)]

/-- The sign of a value that is not zero. -/
lemma Denotes.sign_finite {m : Nat} {e : Int} {hm : 0 < m} {v : Int} :
    (Denotes (.finite .negative m e hm) v → v < 0) ∧
      (Denotes (.finite .positive m e hm) v → 0 < v) := by
  have hpos : (0 : Int) < (m * gridSize e : Nat) :=
    Int.natCast_pos.2 (Nat.mul_pos hm (gridSize_pos e))
  refine ⟨?_, ?_⟩
  · rintro ⟨-, rfl⟩
    exact Int.neg_neg_of_pos hpos
  · rintro ⟨-, rfl⟩
    exact hpos

/-- A value beyond the range becomes infinite, and keeps its sign. -/
lemma Denotes.unpack_pack_of_limit_le {u : UnpackedFloat} {v : Int} (h : Denotes u v)
    (hv : limit ≤ v.natAbs) :
    ∃ s, unpack .binary64 (UnpackedFloat.pack .binary64 u) = .infinity s ∧
      (s = .positive ↔ 0 < v) := by
  cases u with
  | infinity s => exact h.elim
  | notANumber => exact h.elim
  | zero s =>
    obtain rfl : v = 0 := h
    exact absurd hv (Nat.not_le.2 (gridSize_pos 1024))
  | finite s m e hm =>
    have he : ¬e ≤ 971 := fun he => Nat.not_lt.2 hv (h.lt_limit_iff.2 he)
    refine ⟨s, unpack_pack_of_lt (Int.not_le.1 he), ?_⟩
    cases s with
    | negative =>
      have hneg : v < 0 := Denotes.sign_finite.1 h
      exact ⟨nofun, fun hpos => absurd hneg hpos.not_gt⟩
    | positive => exact iff_of_true rfl (Denotes.sign_finite.2 h)

namespace HasUnits

variable {x y : Float} {v w : Int}

/-- A double is within the range. -/
lemma natAbs_lt (h : HasUnits x v) : v.natAbs < limit := by
  by_contra hlarge
  obtain ⟨s, hs, -⟩ := Denotes.unpack_pack_of_limit_le h (Nat.not_lt.1 hlarge)
  have hbits : UnpackedFloat.pack .binary64 x.toModel.unpack = x.toBits.toBitVec :=
    pack_unpack_of_valid x.toModel.valid
  have hinfinite : x.toModel.unpack = .infinity s := by
    rw [hbits] at hs
    exact hs
  rw [HasUnits, hinfinite] at h
  exact h

/-- The value of a double has at most 53 bits. -/
lemma isShort (h : HasUnits x v) : IsShort v.natAbs :=
  Denotes.isShort h

/-- **A sum is the nearest double**, if that is within the range. -/
lemma add (hx : HasUnits x v) (hy : HasUnits y w) (h : (nearestInt (v + w)).natAbs < limit) :
    HasUnits (x + y) (nearestInt (v + w)) :=
  (Denotes.add hx hy).pack h

/-- **A difference is the nearest double**, if that is within the range. -/
lemma sub (hx : HasUnits x v) (hy : HasUnits y w) (h : (nearestInt (v - w)).natAbs < limit) :
    HasUnits (x - y) (nearestInt (v - w)) := by
  have hsum := Denotes.add hx (Denotes.neg hy)
  rw [← sub_eq_add_neg_unpacked] at hsum
  exact hsum.pack h

/-- The difference of two finite doubles that are not negative is finite. -/
lemma sub_of_nonneg (hx : HasUnits x v) (hy : HasUnits y w) (hv : 0 ≤ v) (hw : 0 ≤ w) :
    HasUnits (x - y) (nearestInt (v - w)) := by
  refine hx.sub hy ?_
  rw [natAbs_nearestInt]
  rcases le_total v w with hvw | hvw
  · exact (nearest_le hy.isShort (by omega)).trans_lt hy.natAbs_lt
  · exact (nearest_le hx.isShort (by omega)).trans_lt hx.natAbs_lt

/-- The sum of a finite double and one that is nearer to zero and of the other sign is finite. -/
lemma add_of_nonpos (hx : HasUnits x v) (hy : HasUnits y w) (hw : 0 ≤ w) (hvw : v + w ≤ 0) :
    HasUnits (x + y) (nearestInt (v + w)) := by
  refine hx.add hy ?_
  rw [natAbs_nearestInt]
  exact (nearest_le hx.isShort (by omega)).trans_lt hx.natAbs_lt

/-- A sum beyond the range is infinite. -/
lemma add_of_limit_le (hx : HasUnits x v) (hy : HasUnits y w)
    (h : limit ≤ (nearestInt (v + w)).natAbs) :
    ∃ s, (x + y).toModel.unpack = .infinity s ∧ (s = .positive ↔ 0 < nearestInt (v + w)) :=
  (Denotes.add hx hy).unpack_pack_of_limit_le h

/-- A difference beyond the range is not finite. -/
lemma not_hasUnits_sub_of_limit_le (hx : HasUnits x v) (hy : HasUnits y w)
    (h : limit ≤ (nearestInt (v - w)).natAbs) (u : Int) : ¬HasUnits (x - y) u := by
  have hsum := Denotes.add hx (Denotes.neg hy)
  rw [← sub_eq_add_neg_unpacked] at hsum
  obtain ⟨s, hs, -⟩ := hsum.unpack_pack_of_limit_le h
  intro hu
  exact (hs ▸ hu : Denotes (.infinity s) u)

/-- The magnitude of a double. -/
lemma abs (h : HasUnits x v) : HasUnits x.abs v.natAbs :=
  (Denotes.abs h).pack h.natAbs_lt

end HasUnits

/-! ## Comparisons -/

/-- A finer grid has room for 53 bits below the values of a coarser one. -/
lemma mul_gridSize_lt {m m' : Nat} {e e' : Int} (hm : m < 2 ^ 53) (he : -1074 ≤ e) (hlt : e < e')
    (hgrid : 2 ^ 52 ≤ m' ∨ e' = -1074) : m * gridSize e < m' * gridSize e' := by
  have hm' : 2 ^ 52 ≤ m' := by omega
  have hwide : gridSize e' = 2 ^ (e' - e).toNat * gridSize e := gridSize_sub he hlt.le
  have htwo : 2 ^ 1 ≤ 2 ^ (e' - e).toNat := Nat.pow_le_pow_right (by norm_num) (by omega)
  calc m * gridSize e < 2 ^ 53 * gridSize e := Nat.mul_lt_mul_of_pos_right hm (gridSize_pos e)
    _ = 2 ^ 52 * (2 ^ 1 * gridSize e) := by ring
    _ ≤ m' * (2 ^ (e' - e).toNat * gridSize e) :=
      Nat.mul_le_mul hm' (Nat.mul_le_mul_right _ htwo)
    _ = m' * gridSize e' := by rw [hwide]

/-- Canonical magnitudes are ordered by exponent and then by significand. -/
lemma compare_magnitude {m m' : Nat} {e e' : Int} {s s' : Sign} {hm : 0 < m} {hm' : 0 < m'}
    (h : IsCanonical (.finite s m e hm)) (h' : IsCanonical (.finite s' m' e' hm')) :
    (compare e e').then (compare m m') = compare (m * gridSize e) (m' * gridSize e') := by
  obtain ⟨hlt, he, hgrid⟩ := h
  obtain ⟨hlt', he', hgrid'⟩ := h'
  rcases lt_trichotomy e e' with hee | rfl | hee
  · rw [compare_lt_iff_lt.2 hee, compare_lt_iff_lt.2 (mul_gridSize_lt hlt he hee hgrid')]
    rfl
  · rw [compare_eq_iff_eq.2 rfl]
    show compare m m' = _
    rcases lt_trichotomy m m' with hmm | rfl | hmm
    · rw [compare_lt_iff_lt.2 hmm,
        compare_lt_iff_lt.2 (Nat.mul_lt_mul_of_pos_right hmm (gridSize_pos e))]
    · rw [compare_eq_iff_eq.2 rfl, compare_eq_iff_eq.2 rfl]
    · rw [compare_gt_iff_gt.2 hmm,
        compare_gt_iff_gt.2 (Nat.mul_lt_mul_of_pos_right hmm (gridSize_pos e))]
  · rw [compare_gt_iff_gt.2 hee, compare_gt_iff_gt.2 (mul_gridSize_lt hlt' he' hee hgrid)]
    rfl

lemma compare_natCast (a b : Nat) : compare (a : Int) b = compare a b := by
  rcases lt_trichotomy a b with h | rfl | h
  · rw [compare_lt_iff_lt.2 h, compare_lt_iff_lt.2 (Int.ofNat_lt.2 h)]
  · rw [compare_eq_iff_eq.2 rfl, compare_eq_iff_eq.2 rfl]
  · rw [compare_gt_iff_gt.2 h, compare_gt_iff_gt.2 (Int.ofNat_lt.2 h)]

lemma compare_neg (a b : Int) : compare (-a) (-b) = (compare a b).swap := by
  rcases lt_trichotomy a b with h | rfl | h
  · rw [compare_lt_iff_lt.2 h, compare_gt_iff_gt.2 (Int.neg_lt_neg h)]
    rfl
  · rw [compare_eq_iff_eq.2 rfl, compare_eq_iff_eq.2 rfl]
    rfl
  · rw [compare_gt_iff_gt.2 h, compare_lt_iff_lt.2 (Int.neg_lt_neg h)]
    rfl

/-- Values are compared as the multiples that they are. -/
lemma Denotes.compare_eq {u u' : UnpackedFloat} {v v' : Int} (h : Denotes u v)
    (h' : Denotes u' v') : u.compare u' = some (compare v v') := by
  cases u with
  | infinity s => exact h.elim
  | notANumber => exact h.elim
  | zero s =>
    obtain rfl : v = 0 := h
    cases u' with
    | infinity s' => exact h'.elim
    | notANumber => exact h'.elim
    | zero s' =>
      obtain rfl : v' = 0 := h'
      rfl
    | finite s' m' e' hm' =>
      cases s' with
      | negative => exact congrArg some (compare_gt_iff_gt.2 (Denotes.sign_finite.1 h')).symm
      | positive => exact congrArg some (compare_lt_iff_lt.2 (Denotes.sign_finite.2 h')).symm
  | finite s m e hm =>
    cases u' with
    | infinity s' => exact h'.elim
    | notANumber => exact h'.elim
    | zero s' =>
      obtain rfl : v' = 0 := h'
      cases s with
      | negative => exact congrArg some (compare_lt_iff_lt.2 (Denotes.sign_finite.1 h)).symm
      | positive => exact congrArg some (compare_gt_iff_gt.2 (Denotes.sign_finite.2 h)).symm
    | finite s' m' e' hm' =>
      cases s with
      | negative =>
        cases s' with
        | negative =>
          show some ((compare e e').then (compare m m')).swap = _
          rw [compare_magnitude h.1 h'.1, h.2, h'.2, ← compare_natCast, ← compare_neg]
          rfl
        | positive =>
          exact congrArg some (compare_lt_iff_lt.2
            ((Denotes.sign_finite.1 h).trans (Denotes.sign_finite.2 h'))).symm
      | positive =>
        cases s' with
        | negative =>
          exact congrArg some (compare_gt_iff_gt.2
            ((Denotes.sign_finite.1 h').trans (Denotes.sign_finite.2 h))).symm
        | positive =>
          show some ((compare e e').then (compare m m')) = _
          rw [compare_magnitude h.1 h'.1, h.2, h'.2, ← compare_natCast]
          rfl

lemma lt_iff_unpacked {x y : Float} :
    x < y ↔ UnpackedFloat.lt x.toModel.unpack y.toModel.unpack = true := by
  show decide (x.toModel < y.toModel) = true ↔ _
  exact decide_eq_true_iff

namespace HasUnits

variable {x y : Float} {v w : Int} (hx : HasUnits x v) (hy : HasUnits y w)

include hx hy

lemma lt_iff : x < y ↔ v < w := by
  rw [lt_iff_unpacked, UnpackedFloat.lt, beq_iff_eq, Denotes.compare_eq hx hy, Option.some.injEq,
    compare_lt_iff_lt]

lemma le_iff : x ≤ y ↔ v ≤ w := by
  show decide (x.toModel ≤ y.toModel) = true ↔ _
  rw [decide_eq_true_iff]
  show UnpackedFloat.le x.toModel.unpack y.toModel.unpack = true ↔ _
  rw [UnpackedFloat.le, Denotes.compare_eq hx hy, Option.any_some, Int.isLE_compare]

lemma beq_iff : (x == y) = true ↔ v = w := by
  show UnpackedFloat.beq x.toModel.unpack y.toModel.unpack = true ↔ _
  rw [UnpackedFloat.beq, beq_iff_eq, Denotes.compare_eq hx hy, Option.some.injEq, compare_eq_iff_eq]

end HasUnits

/-! ## Doubles that are not finite -/

section NotFinite

variable {x y : Float} {v : Int} {s : Sign}

/-- Every finite double is below the infinite one that is positive. -/
lemma HasUnits.lt_infinite_iff (hx : HasUnits x v) (hy : y.toModel.unpack = .infinity s) :
    x < y ↔ s = .positive := by
  rw [lt_iff_unpacked]
  obtain ⟨s', hu⟩ | ⟨s', m, e, hm, hu⟩ := hx.unpack_cases <;> rw [hu, hy] <;> cases s
  · exact iff_of_false Bool.false_ne_true nofun
  · exact iff_of_true rfl rfl
  · exact iff_of_false Bool.false_ne_true nofun
  · exact iff_of_true rfl rfl

/-- What is not finite does not equal a finite double. -/
lemma HasUnits.not_beq (hy : HasUnits y v) (hx : ∀ w, ¬HasUnits x w) : ¬(y == x) = true := by
  show ¬UnpackedFloat.beq y.toModel.unpack x.toModel.unpack = true
  obtain ⟨s, hx⟩ | hx := unpack_cases_of_not_hasUnits hx <;>
    obtain ⟨s', hy⟩ | ⟨s', m, e, hm, hy⟩ := hy.unpack_cases <;> rw [hx, hy]
  · cases s <;> exact Bool.false_ne_true
  · cases s <;> exact Bool.false_ne_true
  · exact Bool.false_ne_true
  · exact Bool.false_ne_true

/-- No finite double is above the magnitude of one that is not finite. -/
lemma HasUnits.not_abs_lt (hy : HasUnits y v) (hx : ∀ w, ¬HasUnits x w) : ¬x.abs < y := by
  rw [lt_iff_unpacked]
  show ¬UnpackedFloat.lt (unpack .binary64 (UnpackedFloat.pack .binary64 x.toModel.unpack.abs))
    y.toModel.unpack = true
  obtain ⟨s, hx⟩ | hx := unpack_cases_of_not_hasUnits hx <;> rw [hx]
  · have habs : unpack .binary64 (UnpackedFloat.pack .binary64 (UnpackedFloat.infinity s).abs) =
        .infinity .positive := unpack_packedInfinity _
    obtain ⟨s', hy⟩ | ⟨s', m, e, hm, hy⟩ := hy.unpack_cases <;> rw [habs, hy] <;>
      exact Bool.false_ne_true
  · have habs : unpack .binary64 (UnpackedFloat.pack .binary64 UnpackedFloat.notANumber.abs) =
        .notANumber := rfl
    rw [habs]
    exact Bool.false_ne_true

/-- What is not finite is not finite in its bits. -/
lemma not_denotes_pack {u : UnpackedFloat} (hu : (∃ s, u = .infinity s) ∨ u = .notANumber)
    (w : Int) : ¬Denotes (unpack .binary64 (UnpackedFloat.pack .binary64 u)) w := by
  obtain ⟨s, rfl⟩ | rfl := hu
  · have hpacked : unpack .binary64 (UnpackedFloat.pack .binary64 (.infinity s)) = .infinity s :=
      unpack_packedInfinity s
    rw [hpacked]
    exact id
  · have hpacked : unpack .binary64 (UnpackedFloat.pack .binary64 .notANumber) = .notANumber := rfl
    rw [hpacked]
    exact id

/-- A sum with a finite double is finite only if the other side is. -/
lemma HasUnits.not_hasUnits_add (hy : HasUnits y v) (hx : ∀ w, ¬HasUnits x w) (w : Int) :
    ¬HasUnits (x + y) w := by
  refine not_denotes_pack (u := UnpackedFloat.add .binary64 x.toModel.unpack y.toModel.unpack) ?_ w
  obtain ⟨s, hx⟩ | hx := unpack_cases_of_not_hasUnits hx <;>
    obtain ⟨s', hy⟩ | ⟨s', m, e, hm, hy⟩ := hy.unpack_cases <;> rw [hx, hy]
  · exact .inl ⟨s, rfl⟩
  · exact .inl ⟨s, rfl⟩
  · exact .inr rfl
  · exact .inr rfl

/-- A difference from a finite double is finite only if the other side is. -/
lemma HasUnits.not_hasUnits_sub (hy : HasUnits y v) (hx : ∀ w, ¬HasUnits x w) (w : Int) :
    ¬HasUnits (x - y) w := by
  refine not_denotes_pack (u := UnpackedFloat.sub .binary64 x.toModel.unpack y.toModel.unpack) ?_ w
  obtain ⟨s, hx⟩ | hx := unpack_cases_of_not_hasUnits hx <;>
    obtain ⟨s', hy⟩ | ⟨s', m, e, hm, hy⟩ := hy.unpack_cases <;> rw [hx, hy]
  · exact .inl ⟨s, rfl⟩
  · exact .inl ⟨s, rfl⟩
  · exact .inr rfl
  · exact .inr rfl

/-- A difference is finite only if what is taken away is. -/
lemma HasUnits.not_hasUnits_sub_right (hx : HasUnits x v) (hy : ∀ w, ¬HasUnits y w) (w : Int) :
    ¬HasUnits (x - y) w := by
  refine not_denotes_pack (u := UnpackedFloat.sub .binary64 x.toModel.unpack y.toModel.unpack) ?_ w
  obtain ⟨s, hy⟩ | hy := unpack_cases_of_not_hasUnits hy <;>
    obtain ⟨s', hx⟩ | ⟨s', m, e, hm, hx⟩ := hx.unpack_cases <;> rw [hx, hy]
  · exact .inl ⟨-s, rfl⟩
  · exact .inl ⟨-s, rfl⟩
  · exact .inr rfl
  · exact .inr rfl

end NotFinite

end XmlHarvest.Number
