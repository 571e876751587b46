import XmlHarvest.Document.Basic
import XmlHarvest.Proofs.Number.Whole
import XmlHarvest.Proofs.Query.Order

/-!
# Numbers as positions

A predicate whose value is a number keeps the node at that position. The number and the position are
compared as doubles, up to a difference of less than the distance from 1 to the next double.
Positions are at least 1, and above 1 the doubles are that far apart, so this is equality, with one
exception: the double below 1 also counts as 1.

## Main definitions

* `Query.positionEquals`: the comparison of the position with an expression.

## Main results

* `Number.abs_sub_ofNat_lt_iff`: the numbers that count as a position.
* `Query.keepAll_number`: a predicate with a number as its value.
-/

open Float.Model (UnpackedFloat Format)
open Float.Model.UnpackedFloat

namespace XmlHarvest.Number

/-! ## Numbers that count as a position -/

lemma hasUnits_positionTolerance : HasUnits Query.positionTolerance (gridSize (-52)) := by
  have hshape : shape Query.positionTolerance = .finite false (2 ^ 52) (-104) := by decide
  refine hasUnits_iff_shape.2 ⟨_, _, _, hshape, by norm_num, by norm_num, .inl le_rfl, ?_⟩
  exact congrArg Nat.cast (gridSize_eq_mul 52 (by norm_num) rfl)

/-- How far the doubles below 1 and those above are apart. -/
lemma gridSize_around_one :
    gridSize 0 = 2 ^ 52 * gridSize (-52) ∧ gridSize (-52) = 2 * gridSize (-53) :=
  ⟨gridSize_eq_mul 52 (by norm_num) rfl, gridSize_eq_mul 1 (by norm_num) rfl⟩

/-- Multiples of a number that are less than it apart are equal. -/
lemma eq_of_natAbs_sub_lt {a b : Int} {g : Nat} (h : (a * g - b * g).natAbs < g) : a = b := by
  rw [← sub_mul, Int.natAbs_mul, Int.natAbs_natCast] at h
  have hzero : (a - b).natAbs = 0 := by
    by_contra hne
    exact absurd (Nat.le_mul_of_pos_left g (Nat.pos_of_ne_zero hne)) (Nat.not_le.2 h)
  exact Int.sub_eq_zero.1 (Int.natAbs_eq_zero.1 hzero)

/-- On the grids of the doubles below 1, the last one is the only one that is near a position. -/
lemma belowOne_of_near {v e : Int} {m n : Nat} (hv : v.natAbs = m * gridSize e) (hm : m < 2 ^ 53)
    (he : -1074 ≤ e) (hfine : e < -52) (hn : 0 < n)
    (hnear : (v - nearest n * gridSize 0).natAbs < gridSize (-52)) :
    n = 1 ∧ v + gridSize (-53) = gridSize 0 := by
  obtain ⟨hone, hbelow⟩ := gridSize_around_one
  have hpos : 0 < gridSize (-53) := gridSize_pos _
  have hgrid : gridSize (-53) = 2 ^ (-53 - e).toNat * gridSize e := gridSize_sub he (by omega)
  have hunit : 0 < 2 ^ (-53 - e).toNat := Nat.two_pow_pos _
  -- the value is below 1, so the position is the first one
  have hsmall : m * gridSize e ≤ (2 ^ 53 - 1) * gridSize (-53) := by
    rw [hgrid]
    exact Nat.mul_le_mul (by omega) (Nat.le_mul_of_pos_left _ hunit)
  obtain rfl : n = 1 := by
    by_contra hne
    have htwo : 2 ≤ nearest n := le_nearest (isShort_of_le (by norm_num)) (by omega)
    have hposition : 2 * gridSize 0 ≤ nearest n * gridSize 0 := Nat.mul_le_mul_right _ htwo
    have hcast : ((nearest n * gridSize 0 : Nat) : Int) = nearest n * gridSize 0 := Nat.cast_mul _ _
    omega
  rw [nearest_of_le (by norm_num), Nat.cast_one, one_mul] at hnear
  -- all bits of the significand are set, and its last one is that of the doubles below 1
  have hlow : (2 ^ 53 - 2) * gridSize (-53) < m * gridSize e := by omega
  have hbits : (2 ^ 53 - 2) * 2 ^ (-53 - e).toNat < m := by
    rw [hgrid, ← Nat.mul_assoc] at hlow
    exact Nat.lt_of_mul_lt_mul_right hlow
  have hlast : m = 2 ^ 53 - 1 ∧ 2 ^ (-53 - e).toNat = 1 := by omega
  rw [hlast.2, one_mul] at hgrid
  rw [hlast.1, ← hgrid] at hv
  exact ⟨rfl, by omega⟩

/-- **Near a position there is only the position itself**, and the double below 1.

**Proof sketch.** A double on the grid of those above 1 is a multiple of the bound, and so is a
position. On finer grids all doubles are below 1. -/
lemma eq_or_belowOne_of_near {x : Float} {v : Int} {n : Nat} (h : HasUnits x v) (hn : 0 < n)
    (hnear : (v - nearest n * gridSize 0).natAbs < gridSize (-52)) :
    v = nearest n * gridSize 0 ∨ n = 1 ∧ v + gridSize (-53) = gridSize 0 := by
  obtain ⟨negative, m, e, hshape, hm, he, -, rfl⟩ := hasUnits_iff_shape.1 h
  rcases lt_or_ge e (-52) with hfine | hcoarse
  · exact .inr (belowOne_of_near (natAbs_signed _ _) hm he hfine hn hnear)
  · left
    have hvalue : (signed negative (m * gridSize e) : Int) =
        signed negative (m * 2 ^ (e - -52).toNat) * gridSize (-52) := by
      rw [gridSize_sub (by norm_num) hcoarse, ← Nat.mul_assoc, signed_mul]
    have hposition : (nearest n * gridSize 0 : Int) =
        (nearest n * 2 ^ 52 : Nat) * gridSize (-52) := by
      rw [gridSize_around_one.1]
      push_cast
      ring
    rw [hvalue, hposition] at hnear ⊢
    rw [eq_of_natAbs_sub_lt hnear]

/-- The exact value of the double below 1, counted in the least positive double. -/
lemma value?_eq_belowOne_iff {x : Float} {v : Int} (h : HasUnits x v) :
    (shape x).value? = some (1 - 1 / 2 ^ 53) ↔ v + gridSize (-53) = gridSize 0 := by
  have hgrid : (gridSize (-53) : Rat) / gridSize 0 = 1 / 2 ^ 53 := by
    rw [gridSize_div _ (by norm_num)]
    norm_num
  rw [h.value?_eq, Option.some.injEq, ← hgrid, eq_sub_iff_add_eq, ← add_div,
    div_eq_one_iff_eq gridSize_ne_zero]
  exact_mod_cast Iff.rfl

/-- **The numbers that count as a position.**

**Proof sketch.** Rounding the difference does not cross the bound, which is a double. So the exact
difference is below the bound. -/
theorem abs_sub_ofNat_lt_iff {x : Float} {n : Nat} (hn : 0 < n) (hrange : n < 2 ^ 64) :
    (x - ofNat n).abs < Query.positionTolerance ↔
      (ofNat n == x) = true ∨ n = 1 ∧ (shape x).value? = some (1 - 1 / 2 ^ 53) := by
  have hposition : HasUnits (ofNat n) (nearest n * gridSize 0) := hasUnits_ofNat hrange
  have hshort : ∀ e, IsShort (gridSize e) := fun e => by
    simpa using isShort_mul_gridSize (m := 1) (by norm_num) e
  by_cases hfinite : ∃ v, HasUnits x v
  · obtain ⟨v, hv⟩ := hfinite
    have hdiff : (x - ofNat n).abs < Query.positionTolerance ↔
        (nearestInt (v - nearest n * gridSize 0)).natAbs < gridSize (-52) := by
      rcases Nat.lt_or_ge (nearestInt (v - nearest n * gridSize 0)).natAbs limit with hin | hout
      · rw [(hv.sub hposition hin).abs.lt_iff hasUnits_positionTolerance, Int.ofNat_lt]
      · have hnot := hasUnits_positionTolerance.not_abs_lt
          (hv.not_hasUnits_sub_of_limit_le hposition hout)
        refine iff_of_false hnot (Nat.not_lt.2 (le_trans ?_ hout))
        rw [limit, gridSize_sub (e := 1024) (t := -52) (by norm_num) (by norm_num)]
        exact Nat.le_mul_of_pos_left _ (Nat.two_pow_pos _)
    rw [hdiff, natAbs_nearestInt, hposition.beq_iff hv, value?_eq_belowOne_iff hv]
    constructor
    · intro hlt
      have hnear : (v - nearest n * gridSize 0).natAbs < gridSize (-52) := by
        by_contra hfar
        exact absurd (le_nearest (hshort _) (Nat.not_lt.1 hfar)) (Nat.not_le.2 hlt)
      exact (eq_or_belowOne_of_near hv hn hnear).imp_left Eq.symm
    · rintro (heq | ⟨rfl, hbelow⟩)
      · rw [heq, sub_self, Int.natAbs_zero, nearest_of_le (Nat.zero_le _)]
        exact gridSize_pos _
      · have hfirst : nearest 1 = 1 := nearest_of_le (by norm_num)
        have hdistance : (v - gridSize 0).natAbs = gridSize (-53) := by omega
        rw [hfirst, Nat.cast_one, one_mul, hdistance, nearest_eq_self (hshort _),
          gridSize_around_one.2]
        exact lt_mul_of_one_lt_left (gridSize_pos _) (by norm_num)
  · have hnot : ∀ v, ¬HasUnits x v := not_exists.1 hfinite
    refine iff_of_false (hasUnits_positionTolerance.not_abs_lt (hposition.not_hasUnits_sub hnot)) ?_
    rintro (heq | ⟨-, hbelow⟩)
    · exact hposition.not_beq hnot heq
    · obtain ⟨v, hv, -⟩ := exists_hasUnits hbelow
      exact hnot v hv

/-- The double below 1 does not equal 1. -/
lemma not_ofNat_one_beq {x : Float} (h : (shape x).value? = some (1 - 1 / 2 ^ 53)) :
    ¬(ofNat 1 == x) = true := by
  obtain ⟨v, hv, -⟩ := exists_hasUnits h
  have hfirst : HasUnits (ofNat 1) (nearest 1 * gridSize 0) := hasUnits_ofNat (by norm_num)
  have hbelow : v + gridSize (-53) = gridSize 0 := (value?_eq_belowOne_iff hv).1 h
  have hpos : (0 : Int) < gridSize (-53) := Int.natCast_pos.2 (gridSize_pos _)
  rw [hfirst.beq_iff hv, nearest_of_le (by norm_num), Nat.cast_one, one_mul]
  omega

end XmlHarvest.Number

namespace XmlHarvest.Query

open Number

/-! ## Predicates -/

/-- The comparison of the position with an expression. -/
def positionEquals (e : Expr resolved) : Expr resolved :=
  .binary .eq (.call Function.position []) e

variable {d : Document} {e : Expr resolved} {is : List NodeId} {x : Nat → Float}

/-- The value of a comparison with the position. -/
lemma evaluate_positionEquals {focus : Focus} {y : Float}
    (he : e.evaluate d focus = .ok (.number y)) :
    (positionEquals e).evaluate d focus = .ok (.boolean (ofNat focus.position == y)) := by
  rw [positionEquals, Expr.evaluate, he]
  · rfl
  · nofun
  · nofun

/-- The nodes that a predicate keeps, by its values; the first of them is at `p`. -/
lemma keepFrom_eq {test : Focus → Except Error Value} {v : Nat → Value} {size p : Nat}
    (h : ∀ i (hi : i < is.length), test ⟨is[i], p + i, size⟩ = .ok (v (p + i))) :
    keepFrom test size p is =
      .ok (((is.zipIdx p).filter fun m => keeps m.2 (v m.2)).map Prod.fst) := by
  induction is generalizing p with
  | nil => rfl
  | cons i is ih =>
    have hrest := ih (p := p + 1) fun j hj => by
      have hnext := h (j + 1) (Nat.succ_lt_succ hj)
      rwa [List.getElem_cons_succ, ← Nat.add_assoc, Nat.add_right_comm] at hnext
    have hhead := h 0 (Nat.zero_lt_succ _)
    rw [Nat.add_zero, List.getElem_cons_zero] at hhead
    rw [keepFrom, hhead, hrest, List.zipIdx_cons, List.filter_cons]
    show Except.ok (if _ then _ else _) = _
    split <;> rfl

lemma keepAll_singleton (p : Expr resolved) :
    keepAll d [p] is = keepFrom (fun focus => p.evaluate d focus) is.length 1 is := by
  rw [keepAll, keepWhere]
  cases keepFrom (fun focus => p.evaluate d focus) is.length 1 is with
  | error fault => rfl
  | ok js => exact keepAll.eq_1 d js

/-- A number keeps the node at that position, and the double below 1 keeps the first node. -/
lemma keeps_number {position : Nat} (hpos : 0 < position) (hrange : position < 2 ^ 64) (y : Float) :
    keeps position (.number y) = true ↔ keeps position (.boolean (ofNat position == y)) = true ∨
      position = 1 ∧ (shape y).value? = some (1 - 1 / 2 ^ 53) := by
  rw [keeps, decide_eq_true_iff, abs_sub_ofNat_lt_iff hpos hrange]
  rfl

/-- From the second node on, a number is a comparison with the position. -/
lemma filter_keeps_number (hlen : is.length + 2 ≤ 2 ^ 64) :
    ((is.zipIdx 2).filter fun m => keeps m.2 (.number (x m.2))) =
      (is.zipIdx 2).filter fun m => keeps m.2 (.boolean (Number.ofNat m.2 == x m.2)) := by
  refine List.filter_congr fun m hm => ?_
  have hlow : 2 ≤ m.2 := List.le_snd_of_mem_zipIdx hm
  have hhigh : m.2 < 2 + is.length := List.snd_lt_add_of_mem_zipIdx hm
  rw [Bool.eq_iff_iff, keeps_number (by omega) (by omega), or_iff_left]
  rintro ⟨hfirst, -⟩
  omega

/-- **A predicate with a number as its value** keeps the nodes whose position it is. Where its value
at the first node is the double below 1, this node is kept as well.

**Proof sketch.** Both predicates are asked of the nodes one by one (`keepFrom_eq`). A number is as
near to a position as it must be exactly if it equals the position, or the position is 1 and the
number is the double below 1 (`keeps_number`), which does not equal 1. So from the second node on
both predicates keep the same nodes (`filter_keeps_number`), and the first node is considered by
itself. -/
theorem keepAll_number (hlen : is.length < 2 ^ 64)
    (he : ∀ i (hi : i < is.length),
      e.evaluate d ⟨is[i], i + 1, is.length⟩ = .ok (.number (x (i + 1)))) :
    ∃ js, keepAll d [positionEquals e] is = .ok js ∧
      keepAll d [e] is =
        .ok (if (shape (x 1)).value? = some (1 - 1 / 2 ^ 53) then is.take 1 ++ js else js) := by
  have hnumber : ∀ i (hi : i < is.length),
      e.evaluate d ⟨is[i], 1 + i, is.length⟩ = .ok (.number (x (1 + i))) := by
    intro i hi
    rw [Nat.add_comm]
    exact he i hi
  refine ⟨_, (keepAll_singleton _).trans (keepFrom_eq (v := fun n => .boolean (ofNat n == x n))
    fun i hi => evaluate_positionEquals (hnumber i hi)), ?_⟩
  rw [keepAll_singleton, keepFrom_eq (v := fun n => .number (x n)) hnumber]
  cases is with
  | nil => simp
  | cons i is =>
    rw [List.length_cons] at hlen
    rw [List.zipIdx_cons, List.filter_cons, List.filter_cons, filter_keeps_number (by omega)]
    have hhead := keeps_number Nat.one_pos (by norm_num) (x 1)
    by_cases hbelow : (shape (x 1)).value? = some (1 - 1 / 2 ^ 53)
    · have hkept : keeps 1 (.number (x 1)) = true := hhead.2 (.inr ⟨rfl, hbelow⟩)
      have hdropped : ¬keeps 1 (.boolean (Number.ofNat 1 == x 1)) = true := not_ofNat_one_beq hbelow
      rw [if_pos hbelow, if_pos hkept, if_neg hdropped]
      rfl
    · have hsame : keeps 1 (.number (x 1)) = keeps 1 (.boolean (Number.ofNat 1 == x 1)) :=
        Bool.eq_iff_iff.2 (hhead.trans (or_iff_left fun h => hbelow h.2))
      rw [if_neg hbelow, hsame]

/-- The last of two nodes is at the position `last()`. -/
theorem keepAll_number_last : ∃ d : Document, Document.parse "<r><a/><b/></r>" = .ok d ∧
    keepAll d [positionEquals (.call Function.last [])] [2, 3] = .ok [3] ∧
    keepAll d [.call Function.last []] [2, 3] = .ok [3] := by
  have hparse : (Document.parse "<r><a/><b/></r>").toOption.isSome = true := by cbv
  obtain ⟨d, hd⟩ := Option.isSome_iff_exists.1 hparse
  have hlast : ∀ i (hi : i < [2, 3].length), (Expr.call Function.last []).evaluate d
      ⟨[2, 3][i], i + 1, [2, 3].length⟩ = .ok (.number (Number.ofNat 2)) := by
    intro i hi
    rw [Expr.evaluate]
    rfl
  have hequal : keepAll d [positionEquals (.call Function.last [])] [2, 3] = .ok [3] := by
    rw [keepAll_singleton, keepFrom_eq (v := fun n => .boolean (Number.ofNat n == Number.ofNat 2))
      fun i hi => evaluate_positionEquals (Nat.add_comm 1 i ▸ hlast i hi)]
    decide
  have hvalue : shape (Number.ofNat 2) = .finite false (2 ^ 52) (-51) := by decide
  have hother : (shape (Number.ofNat 2)).value? ≠ some (1 - 1 / 2 ^ 53) := by
    rw [hvalue, Shape.value?, signed]
    norm_num
  obtain ⟨js, hjs, hnumber⟩ := keepAll_number (x := fun _ => Number.ofNat 2) (by decide) hlast
  rw [hequal] at hjs
  cases hjs
  exact ⟨d, toOption_eq_some_iff.1 hd, hequal, by rwa [if_neg hother] at hnumber⟩

/-- **The double below 1 keeps the first node**, although the position does not equal it. -/
theorem keepAll_belowOne : ∃ d : Document, Document.parse "<r><a/></r>" = .ok d ∧
    keepAll d [positionEquals (.number (ofRatio false (2 ^ 53 - 1) (2 ^ 53)))] [2] = .ok [] ∧
    keepAll d [.number (ofRatio false (2 ^ 53 - 1) (2 ^ 53))] [2] = .ok [2] := by
  have hparse : (Document.parse "<r><a/></r>").toOption.isSome = true := by cbv
  obtain ⟨d, hd⟩ := Option.isSome_iff_exists.1 hparse
  have hvalue : ∀ focus, (Expr.number (ofRatio false (2 ^ 53 - 1) (2 ^ 53))).evaluate d focus =
      .ok (.number (ofRatio false (2 ^ 53 - 1) (2 ^ 53))) := by
    intro focus
    rw [Expr.evaluate]
  refine ⟨d, toOption_eq_some_iff.1 hd, ?_, ?_⟩
  · rw [keepAll_singleton, keepFrom_eq
      (v := fun n => .boolean (Number.ofNat n == ofRatio false (2 ^ 53 - 1) (2 ^ 53)))
      fun i hi => evaluate_positionEquals (hvalue _)]
    decide
  · rw [keepAll_singleton, keepFrom_eq (v := fun _ => .number (ofRatio false (2 ^ 53 - 1) (2 ^ 53)))
      fun i hi => hvalue _]
    decide

end XmlHarvest.Query
