import Mathlib.Data.Rat.Floor
import XmlHarvest.Proofs.Number.Whole

/-!
# Rounding to a whole number

A double is rounded to a whole number by the floor of its sum with one half. The sum is itself
rounded to a double, and there are two places where this shows: below one half, whose neighbour
becomes one, and between `2 ^ 52` and `2 ^ 53`, where the halves have no doubles and every odd
number becomes the next even one. All other doubles are rounded to the nearest whole number, halves
up.

## Main definitions

* `Number.IsMisrounded`: the values that are not rounded to the nearest whole number.
* `Number.rounded`: the whole number that a value is rounded to.

## Main results

* `Number.nearestInt_two_mul_add_one`: the sum of a whole number and one half.
* `Number.nearestInt_add_two_pow_ediv`: the sum of a fraction and one half.
* `Number.HasUnits.round`: the value of a rounded double.
-/

open Float.Model (UnpackedFloat)

namespace XmlHarvest.Number

/-! ## Whole numbers and one half -/

/-- An odd number with one bit too many is rounded to the neighbour that is a multiple of four. -/
lemma nearest_of_odd {n : Nat} (hodd : n % 2 = 1) (hlow : 2 ^ 53 ≤ n) (hhigh : n < 2 ^ 54) :
    nearest n = (n / 2 + n / 2 % 2) * 2 := by
  have hlog : n.log2 = 53 := (Nat.log2_eq_iff (by omega)).2 ⟨hlow, hhigh⟩
  have hspacing : spacing n = 2 ^ 1 := by rw [spacing, hlog]
  rw [nearest_of_tie (j := n / 2) (by rw [hspacing]; omega), hspacing, pow_one]

lemma log2_two_mul_add_one {n : Nat} (hn : 0 < n) : (2 * n + 1).log2 = (2 * n).log2 := by
  have hlow : 2 ^ (2 * n).log2 ≤ 2 * n := Nat.log2_self_le (by omega)
  have hhigh : 2 * n < 2 ^ ((2 * n).log2 + 1) := Nat.lt_log2_self
  have heven : 2 ^ ((2 * n).log2 + 1) = 2 * 2 ^ (2 * n).log2 := Nat.pow_succ'
  rw [Nat.log2_eq_iff (by omega)]
  omega

/-- With two bits too many, the neighbour of a short even number is rounded to it. -/
lemma nearest_of_adjacent {n m : Nat} (hm : IsShort (2 * m)) (hlarge : 2 ^ 54 ≤ n)
    (hadjacent : n = 2 * m + 1 ∨ n + 1 = 2 * m) : nearest n = 2 * m := by
  have hlog : 54 ≤ n.log2 := (Nat.le_log2 (by omega)).2 hlarge
  have hspacing : 2 ^ 2 ≤ spacing n := Nat.pow_le_pow_right (by norm_num) (by omega)
  have hbits : n.log2 ≤ (2 * m).log2 := by
    rcases hadjacent with rfl | h
    · exact (log2_two_mul_add_one (by omega)).le
    · exact log2_le_log2 (by omega)
  exact nearest_of_near (hm.spacing_dvd hbits) (by omega) (by omega)

/-- **The sum of a whole number and one half**, counted in halves. Up to `2 ^ 53` it is exact, up to
`2 ^ 54` it is a tie between two neighbours, and from there on it is the number itself. -/
lemma nearestInt_two_mul_add_one {z : Int} (hz : IsShort z.natAbs) : nearestInt (2 * z + 1) =
    if (2 * z + 1).natAbs < 2 ^ 53 then 2 * z + 1
    else if z % 2 = 1 ∧ z.natAbs < 2 ^ 53 then 2 * z + 2 else 2 * z := by
  rcases Nat.lt_or_ge (2 * z + 1).natAbs (2 ^ 53) with hsmall | hlarge
  · rw [if_pos hsmall, nearestInt_eq_self (isShort_of_le hsmall.le)]
  rw [if_neg (Nat.not_lt.2 hlarge), nearestInt]
  have hsign : (2 * z + 1).sign = 1 ∧ 0 ≤ z ∨ (2 * z + 1).sign = -1 ∧ z < 0 := by
    rcases lt_or_ge z 0 with hneg | hpos
    · exact .inr ⟨Int.sign_eq_neg_one_of_neg (by omega), hneg⟩
    · exact .inl ⟨Int.sign_eq_one_of_pos (by omega), hpos⟩
  rcases Nat.lt_or_ge (2 * z + 1).natAbs (2 ^ 54) with htie | hfar
  · rw [nearest_of_odd (by omega) hlarge htie]
    rcases hsign with ⟨hs, hz0⟩ | ⟨hs, hz0⟩ <;> rw [hs] <;> split <;> omega
  · have hshort : IsShort (2 * z.natAbs) := by
      rw [Nat.mul_comm]
      exact hz.mul_two_pow 1
    rw [nearest_of_adjacent hshort hfar (by omega), if_neg (by omega)]
    rcases hsign with ⟨hs, hz0⟩ | ⟨hs, hz0⟩ <;> rw [hs] <;> omega

/-! ## Fractions and one half -/

/-- Rounding does not change a quotient if there is a short number between the dividend and the next
multiple. -/
lemma nearestInt_ediv {x y q b : Int} (hq : IsShort (q * b).natAbs) (hy : IsShort y.natAbs)
    (hlow : q * b ≤ x) (hxy : x ≤ y) (hhigh : y < (q + 1) * b) : nearestInt x / b = x / b := by
  have hb : 0 < b := by
    rw [add_mul, one_mul] at hhigh
    omega
  have hquotient : ∀ w, q * b ≤ w → w ≤ y → w / b = q := fun w hqw hwy =>
    Int.le_antisymm
      (Int.lt_add_one_iff.1 ((Int.ediv_lt_iff_lt_mul hb).2 (hwy.trans_lt hhigh)))
      ((Int.le_ediv_iff_mul_le hb).2 hqw)
  rw [hquotient x hlow hxy, hquotient _ (le_nearestInt hq hlow) (nearestInt_le hy hxy)]

/-- **The sum of a fraction and one half**, counted in the last bit of the fraction. One half has
`d` more bits. Rounding the sum does not change its whole part, except where all bits of the
fraction are set and the sum has one bit more than fits.

**Proof sketch.** Where the sum has too many bits, the whole part of it is followed by a short
number: by one half more, if there is a whole part, and else by the greatest one with one half as
its first bit, or by three quarters. -/
lemma nearestInt_add_two_pow_ediv {z : Int} {d : Nat} (hz : z.natAbs < 2 ^ 53)
    (hcarry : ¬(d = 53 ∧ z = 2 ^ 53 - 1)) :
    nearestInt (z + 2 ^ d) / 2 ^ (d + 1) = (z + 2 ^ d) / 2 ^ (d + 1) := by
  have hpos : (0 : Int) < 2 ^ d := by positivity
  have hdouble : (2 : Int) ^ (d + 1) = 2 * 2 ^ d := pow_succ' 2 d
  rcases Nat.lt_or_ge (2 ^ 53) (z + 2 ^ d).natAbs with hlarge | hsmall
  swap
  · rw [nearestInt_eq_self (isShort_of_le hsmall)]
  rcases lt_trichotomy d 53 with hd | rfl | hd
  · have hone : 1 ≤ d := by
      rw [Nat.one_le_iff_ne_zero]
      rintro rfl
      omega
    have hwhole : 2 ^ (52 - d) * 2 ^ (d + 1) = 2 ^ 53 := by
      rw [← Nat.pow_add, show 52 - d + (d + 1) = 53 by omega]
    have hwhole' : (2 : Int) ^ (52 - d) * 2 ^ (d + 1) = 2 ^ 53 := by exact_mod_cast hwhole
    have hshort : IsShort ((2 : Int) ^ 53 + 2 ^ d).natAbs := by
      refine ⟨2 ^ (53 - d) + 1, d, ?_, ?_⟩
      · have hle : 2 ^ (53 - d) ≤ 2 ^ 52 := Nat.pow_le_pow_right (by norm_num) (by omega)
        omega
      · have hsplit : 2 ^ 53 = 2 ^ (53 - d) * 2 ^ d := by
          rw [← Nat.pow_add, Nat.sub_add_cancel hd.le]
        rw [Nat.add_mul, ← hsplit, Nat.one_mul]
        exact Int.natAbs_natCast (2 ^ 53 + 2 ^ d)
    refine nearestInt_ediv (q := 2 ^ (52 - d)) (y := 2 ^ 53 + 2 ^ d) ?_ hshort ?_ ?_ ?_
    · rw [hwhole']
      exact isShort_of_le le_rfl
    · omega
    · omega
    · rw [add_mul, hwhole']
      omega
  · have hshort : IsShort ((2 : Int) ^ 54 - 2).natAbs := ⟨2 ^ 53 - 1, 1, by norm_num, rfl⟩
    exact nearestInt_ediv (q := 0) (isShort_of_le (by norm_num)) hshort (by omega) (by omega)
      (by omega)
  · have hpow : (2 : Int) ^ d = 2 * 2 ^ (d - 1) := by
      rw [← pow_succ', Nat.sub_add_cancel (by omega)]
    have hlow : (2 : Int) ^ 53 ≤ 2 ^ (d - 1) := pow_le_pow_right₀ (by norm_num) (by omega)
    have hshort : IsShort (3 * (2 : Int) ^ (d - 1)).natAbs := by
      refine ⟨3, d - 1, by norm_num, ?_⟩
      rw [Int.natAbs_mul, Int.natAbs_pow]
      rfl
    exact nearestInt_ediv (q := 0) (isShort_of_le (by norm_num)) hshort (by omega) (by omega)
      (by omega)

/-! ## The value of a rounded double -/

/-- The values that are not rounded to the nearest whole number: the double below one half, and the
odd numbers that have no double one half above them. -/
def IsMisrounded (v : Rat) : Prop :=
  v = 1 / 2 - 1 / 2 ^ 54 ∨
    v.den = 1 ∧ v.num % 2 = 1 ∧ 2 ^ 52 < v.num.natAbs ∧ v.num.natAbs < 2 ^ 53

instance : DecidablePred IsMisrounded :=
  fun _ => inferInstanceAs (Decidable (_ ∨ _))

/-- The whole number that a value is rounded to. -/
def rounded (v : Rat) : Int :=
  if IsMisrounded v then ⌊v + 1 / 2⌋ + 1 else ⌊v + 1 / 2⌋

lemma nearestInt_mul_gridSize (z e : Int) :
    nearestInt (z * gridSize e) = nearestInt z * gridSize e := by
  rw [gridSize, Nat.cast_pow]
  exact nearestInt_mul_two_pow z _

lemma gridSize_zero_eq : gridSize 0 = 2 * gridSize (-1) :=
  gridSize_eq_mul 1 (by norm_num) rfl

/-- One half, counted in the least positive double. -/
lemma hasUnits_half : HasUnits (ofRatio false 1 2) (gridSize (-1)) := by
  have hshape : shape (ofRatio false 1 2) = .finite false (2 ^ 52) (-53) := by decide
  refine hasUnits_iff_shape.2 ⟨_, _, _, hshape, by norm_num, by norm_num, .inl le_rfl, ?_⟩
  exact congrArg Nat.cast (gridSize_eq_mul 52 (by norm_num) rfl)

/-- The whole number below a multiple and one half. -/
lemma floor_add_half (v : Int) :
    ⌊(v : Rat) / gridSize 0 + 1 / 2⌋ = (v + gridSize (-1)) / gridSize 0 := by
  have hhalf : (1 / 2 : Rat) = (gridSize (-1) : Rat) / gridSize 0 := by
    rw [gridSize_div _ (by norm_num)]
    norm_num
  rw [hhalf, ← add_div, ← Rat.floor_intCast_div_natCast]
  push_cast
  rfl

lemma floor_intCast_add_half (z : Int) : ⌊(z : Rat) + 1 / 2⌋ = z := by
  rw [Int.floor_intCast_add, add_eq_left, Int.floor_eq_iff]
  norm_num

/-- The whole numbers that are not rounded to themselves. -/
lemma isMisrounded_intCast {z : Int} :
    IsMisrounded z ↔ z % 2 = 1 ∧ 2 ^ 52 < z.natAbs ∧ z.natAbs < 2 ^ 53 := by
  have hhalf : (z : Rat) ≠ 1 / 2 - 1 / 2 ^ 54 := by
    intro h
    have hpos : (0 : Rat) < z := by
      rw [h]
      norm_num
    have hlt : (z : Rat) < 1 := by
      rw [h]
      norm_num
    have hpos : 0 < z := by exact_mod_cast hpos
    have hlt : z < 1 := by exact_mod_cast hlt
    omega
  rw [IsMisrounded, or_iff_right hhalf, Rat.den_intCast, Rat.num_intCast, and_iff_right rfl]

lemma rounded_intCast (z : Int) : rounded z =
    if z % 2 = 1 ∧ 2 ^ 52 < z.natAbs ∧ z.natAbs < 2 ^ 53 then z + 1 else z := by
  rw [rounded, floor_intCast_add_half]
  exact if_congr isMisrounded_intCast rfl rfl

/-- The double below one half becomes one. -/
lemma rounded_belowHalf : rounded (1 / 2 - 1 / 2 ^ 54) = 1 := by
  have hfloor : ⌊(1 / 2 - 1 / 2 ^ 54 : Rat) + 1 / 2⌋ = 0 := by
    rw [Int.floor_eq_iff]
    norm_num
  rw [rounded, if_pos (.inl rfl), hfloor, zero_add]

/-- The double below one half, counted in the least positive double. -/
lemma div_eq_belowHalf_iff {v : Int} : (v / gridSize 0 : Rat) = 1 / 2 - 1 / 2 ^ 54 ↔
    v = (2 ^ 53 - 1 : Nat) * gridSize (-54) := by
  have hgrid : (gridSize (-54) : Rat) / gridSize 0 = 1 / 2 ^ 54 := by
    rw [gridSize_div _ (by norm_num)]
    norm_num
  have hvalue : (1 / 2 - 1 / 2 ^ 54 : Rat) = (2 ^ 53 - 1 : Nat) * gridSize (-54) / gridSize 0 := by
    rw [mul_div_assoc, hgrid]
    norm_num
  rw [hvalue, div_left_inj' gridSize_ne_zero]
  exact_mod_cast Iff.rfl

/-- The range goes beyond `2 ^ 54`. -/
lemma mul_gridSize_lt_limit : 2 ^ 54 * gridSize 0 < limit := by
  rw [limit, gridSize_sub (e := 1024) (t := 0) (by norm_num) (by norm_num)]
  exact Nat.mul_lt_mul_of_pos_right (Nat.pow_lt_pow_right (by norm_num) (by norm_num))
    (gridSize_pos 0)

/-- The sum of a value up to `2 ^ 53` and one half is within the range. -/
lemma nearestInt_add_half_lt_limit {v : Int} (h : v.natAbs ≤ 2 ^ 53 * gridSize 0) :
    (nearestInt (v + gridSize (-1))).natAbs < limit := by
  have hshort : IsShort (2 ^ 54 * gridSize 0) := by
    rw [gridSize]
    exact IsShort.mul_two_pow ⟨1, 54, by norm_num, by norm_num⟩ _
  have hhalf : gridSize 0 = 2 * gridSize (-1) := gridSize_zero_eq
  rw [natAbs_nearestInt]
  exact (nearest_le hshort (by omega)).trans_lt mul_gridSize_lt_limit

namespace HasUnits

variable {x : Float} {v z : Int}

/-- A finite double is neither infinite nor not a number. -/
lemma isNaN_or_isInf (h : HasUnits x v) : (x.isNaN || x.isInf) = false := by
  show (x.toModel.unpack.isNaN || x.toModel.unpack.isInf) = false
  obtain ⟨s, hx⟩ | ⟨s, m, e, hm, hx⟩ := h.unpack_cases <;> rw [hx] <;> rfl

/-- A double is rounded to the whole part of the sum with one half. -/
lemma round_of_sum (h : HasUnits x v) (hrange : (nearestInt (v + gridSize (-1))).natAbs < limit)
    (hz : nearestInt (v + gridSize (-1)) / gridSize 0 = z) :
    HasUnits (round x) (z * gridSize 0) := by
  rw [Number.round, if_neg (by rw [h.isNaN_or_isInf]; exact Bool.false_ne_true), ← hz]
  exact (h.add hasUnits_half hrange).floor

/-- Rounding a double that is a whole number. -/
lemma round_of_whole (h : HasUnits x (z * gridSize 0)) :
    HasUnits (round x) (rounded z * gridSize 0) := by
  have hshort : IsShort z.natAbs := by
    have hunits : IsShort (z * gridSize 0).natAbs := h.isShort
    rw [Int.natAbs_mul, Int.natAbs_natCast, gridSize] at hunits
    exact hunits.of_mul_two_pow
  have hhalf : (0 : Int) < gridSize (-1) := Int.natCast_pos.2 (gridSize_pos _)
  have hone : (gridSize 0 : Int) = 2 * gridSize (-1) := congrArg Nat.cast gridSize_zero_eq
  have hsum : nearestInt (z * gridSize 0 + gridSize (-1)) =
      nearestInt (2 * z + 1) * gridSize (-1) := by
    rw [← nearestInt_mul_gridSize, hone]
    congr 1
    ring
  refine h.round_of_sum ?_ ?_
  · rcases Nat.lt_or_ge z.natAbs (2 ^ 53) with hsmall | hlarge
    · refine nearestInt_add_half_lt_limit ?_
      rw [Int.natAbs_mul, Int.natAbs_natCast]
      exact Nat.mul_le_mul_right _ hsmall.le
    · rw [hsum, nearestInt_two_mul_add_one hshort, if_neg (by omega), if_neg (by omega),
        mul_comm 2 z, mul_assoc, ← hone]
      exact h.natAbs_lt
  · rw [hsum, hone, Int.mul_ediv_mul_of_pos_left _ _ hhalf, nearestInt_two_mul_add_one hshort,
      rounded_intCast]
    split <;> split <;> omega

/-- Rounding a double with a fraction. -/
lemma round_of_fraction {e : Int} (h : HasUnits x (z * gridSize e)) (hz : z.natAbs < 2 ^ 53)
    (he : -1074 ≤ e) (hfine : e < 0) (hcarry : ¬(e = -54 ∧ z = 2 ^ 53 - 1)) :
    HasUnits (round x) ((z * gridSize e + gridSize (-1)) / gridSize 0 * gridSize 0) := by
  have hgrid : (0 : Int) < gridSize e := Int.natCast_pos.2 (gridSize_pos e)
  have hhalf : gridSize (-1) = 2 ^ (-1 - e).toNat * gridSize e := gridSize_sub he (by omega)
  have hone : gridSize 0 = 2 ^ ((-1 - e).toNat + 1) * gridSize e := by
    rw [gridSize_zero_eq, hhalf, pow_succ', Nat.mul_assoc]
  have hsplit : z * gridSize e + gridSize (-1) = (z + 2 ^ (-1 - e).toNat) * gridSize e := by
    rw [hhalf]
    push_cast
    ring
  refine h.round_of_sum (nearestInt_add_half_lt_limit ?_) ?_
  · rw [Int.natAbs_mul, Int.natAbs_natCast, hone]
    exact Nat.mul_le_mul hz.le (Nat.le_mul_of_pos_left _ (Nat.two_pow_pos _))
  · rw [hsplit, nearestInt_mul_gridSize, hone]
    push_cast
    rw [Int.mul_ediv_mul_of_pos_left _ _ hgrid, Int.mul_ediv_mul_of_pos_left _ _ hgrid]
    exact nearestInt_add_two_pow_ediv hz (by omega)

/-- Rounding the double below one half: the sum is a tie between one and its neighbour below. -/
lemma round_of_belowHalf (h : HasUnits x ((2 ^ 53 - 1 : Nat) * gridSize (-54))) :
    HasUnits (round x) (1 * gridSize 0) := by
  have hgrid : (0 : Int) < gridSize (-54) := Int.natCast_pos.2 (gridSize_pos _)
  have hhalf : gridSize (-1) = 2 ^ 53 * gridSize (-54) := gridSize_eq_mul 53 (by norm_num) rfl
  have hone : gridSize 0 = 2 ^ 54 * gridSize (-54) := gridSize_eq_mul 54 (by norm_num) rfl
  have hsum : nearestInt ((2 ^ 53 - 1 : Nat) * gridSize (-54) + gridSize (-1)) = gridSize 0 := by
    have hsplit : ((2 ^ 53 - 1 : Nat) * gridSize (-54) + gridSize (-1) : Int) =
        (2 ^ 54 - 1 : Nat) * gridSize (-54) := by
      rw [hhalf]
      push_cast
      ring
    rw [hsplit, nearestInt_mul_gridSize, nearestInt_natCast,
      nearest_of_odd (by norm_num) (by norm_num) (by norm_num), hone]
    push_cast
    rfl
  refine h.round_of_sum (nearestInt_add_half_lt_limit ?_) ?_
  · rw [Int.natAbs_mul, Int.natAbs_natCast, Int.natAbs_natCast, hone]
    exact Nat.mul_le_mul (by norm_num) (Nat.le_mul_of_pos_left _ (by norm_num))
  · rw [hsum]
    exact Int.ediv_self (Int.natCast_pos.2 (gridSize_pos 0)).ne'

/-- **The value of a rounded double.** -/
theorem round (h : HasUnits x v) : HasUnits (round x) (rounded (v / gridSize 0) * gridSize 0) := by
  by_cases hwhole : ∃ z : Int, v = z * gridSize 0
  · obtain ⟨z, rfl⟩ := hwhole
    rw [Int.cast_mul, Int.cast_natCast, mul_div_cancel_right₀ _ gridSize_ne_zero]
    exact h.round_of_whole
  by_cases hhalf : v = (2 ^ 53 - 1 : Nat) * gridSize (-54)
  · rw [div_eq_belowHalf_iff.2 hhalf, rounded_belowHalf]
    exact (hhalf ▸ h).round_of_belowHalf
  -- no other double with a fraction is misrounded
  have hmis : ¬IsMisrounded (v / gridSize 0) := by
    rintro (hbelow | ⟨hden, -⟩)
    · exact hhalf (div_eq_belowHalf_iff.1 hbelow)
    · have hnum := (eq_div_iff gridSize_ne_zero).1 ((Rat.den_eq_one_iff _).1 hden)
      exact hwhole ⟨_, by exact_mod_cast hnum.symm⟩
  obtain ⟨negative, m, e, hshape, hm, he, -, rfl⟩ := hasUnits_iff_shape.1 h
  have hfine : e < 0 := by
    by_contra hge
    refine hwhole ⟨signed negative (m * 2 ^ (e - 0).toNat), ?_⟩
    rw [gridSize_sub (by norm_num) (Int.not_lt.1 hge), ← Nat.mul_assoc, signed_mul]
  rw [rounded, if_neg hmis, floor_add_half]
  rw [signed_mul] at h hhalf ⊢
  refine h.round_of_fraction (by rwa [natAbs_signed]) he hfine ?_
  rintro ⟨rfl, hm'⟩
  exact hhalf (by rw [hm']; rfl)

end HasUnits

end XmlHarvest.Number
