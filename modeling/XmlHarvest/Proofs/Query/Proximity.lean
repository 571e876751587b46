import XmlHarvest.Proofs.Query.Distribution
import XmlHarvest.Proofs.Query.Position

/-!
# Positions by proximity

A step counts its candidates along its axis, before they are put in document order, and a reverse
axis lists them against that order. A filter in parentheses counts the nodes that are in order
already. So the same position is one from the front or one from the back, and the step with a
position on a reverse axis is a filter that counts back from `last()`.

## Main definitions

* `Query.nodeAt`: the node at a position.
* `Query.Expr.step`: the path with one step from the context node.
* `Query.Expr.fromEnd`: the position `last() - k + 1`.

## Main results

* `Query.keeps_ofNat`, `Query.keeps_fromEnd`: the positions that numbers keep are the exact ones.
* `Query.keepAll_ofNat`, `Query.keepAll_fromEnd`: the node at a position, and the one from the end.
* `Query.step_by_proximity`: a step with a position on every axis.
-/

namespace XmlHarvest.Query

open Number

/-! ## The positions that numbers keep -/

variable {p k : Nat} {x : Float}

/-- A finite number keeps the position that it is, apart from the double below 1. -/
lemma keeps_number_iff {v : Int} (hx : HasUnits x v) (hp : 0 < p) (hrange : p < 2 ^ 53) :
    keeps p (.number x) = true ↔
      v = p * gridSize 0 ∨ p = 1 ∧ v + gridSize (-53) = gridSize 0 := by
  rw [keeps, decide_eq_true_iff, abs_sub_ofNat_lt_iff hp (by omega), value?_eq_belowOne_iff hx,
    (hasUnits_ofNat_of_le hrange.le).beq_iff hx, eq_comm]

/-- What is not finite keeps no position. -/
lemma not_keeps_number (hx : ∀ v, ¬HasUnits x v) (hrange : p < 2 ^ 53) :
    ¬keeps p (.number x) = true := by
  rw [keeps, decide_eq_true_iff]
  exact hasUnits_positionTolerance.not_abs_lt
    ((hasUnits_ofNat_of_le hrange.le).not_hasUnits_sub hx)

/-- A whole number keeps the position that it is. -/
lemma keeps_whole_iff {n : Nat} (hx : HasUnits x (n * gridSize 0)) (hn : 0 < n) (hp : 0 < p)
    (hrange : p < 2 ^ 53) : keeps p (.number x) = true ↔ n = p := by
  have hgrid : (0 : Int) < gridSize 0 := Int.natCast_pos.2 (gridSize_pos 0)
  have hbelow : (0 : Int) < gridSize (-53) := Int.natCast_pos.2 (gridSize_pos (-53))
  have hle : (gridSize 0 : Int) ≤ n * gridSize 0 :=
    le_mul_of_one_le_left hgrid.le (by exact_mod_cast hn)
  rw [keeps_number_iff hx hp hrange, or_iff_left (by omega), mul_eq_mul_right_iff,
    or_iff_left hgrid.ne', Nat.cast_inj]

/-- A number that is not positive keeps no position. -/
lemma not_keeps_of_nonpos {v : Int} (hx : HasUnits x v) (hv : v ≤ 0) (hp : 0 < p)
    (hrange : p < 2 ^ 53) : ¬keeps p (.number x) = true := by
  have hgrid : (0 : Int) < gridSize 0 := Int.natCast_pos.2 (gridSize_pos 0)
  have hone : gridSize 0 = 2 ^ 52 * gridSize (-52) ∧ gridSize (-52) = 2 * gridSize (-53) :=
    gridSize_around_one
  have hposition : (0 : Int) < p * gridSize 0 := mul_pos (by exact_mod_cast hp) hgrid
  rw [keeps_number_iff hx hp hrange]
  omega

/-- **A natural number keeps its own position**, and none where it is too large to be exact. -/
lemma keeps_ofNat (hk : 0 < k) (hp : 0 < p) (hrange : p < 2 ^ 53) :
    keeps p (.number (ofNat k)) = true ↔ k = p := by
  rcases hasUnits_ofNat_or k with hfinite | hinfinite
  · rcases le_or_gt k (2 ^ 53) with hle | hlt
    · exact keeps_whole_iff (hasUnits_ofNat_of_le hle) hk hp hrange
    · have hnearest : 2 ^ 53 ≤ nearest k := le_nearest (isShort_of_le le_rfl) hlt.le
      rw [keeps_whole_iff hfinite (by omega) hp hrange]
      omega
  · refine iff_of_false (not_keeps_number hinfinite hrange) ?_
    rintro rfl
    exact hinfinite _ (hasUnits_ofNat_of_le hrange.le)

/-- Counting back beyond the first position keeps none: the difference stays negative when it is
rounded, so that the sum is not positive, or there is an infinite number in it. -/
lemma not_keeps_beyond {size : Nat} (hsize : size < 2 ^ 53) (hout : size < k) (hp : 0 < p)
    (hrange : p < 2 ^ 53) : ¬keeps p (.number (ofNat size - ofNat k + ofNat 1)) = true := by
  have hlast : HasUnits (ofNat size) (size * gridSize 0) := hasUnits_ofNat_of_le hsize.le
  have hone : HasUnits (ofNat 1) (gridSize 0) := by
    simpa using hasUnits_ofNat_of_le (n := 1) (by norm_num)
  have hgrid : (0 : Int) ≤ gridSize 0 := Int.natCast_nonneg _
  rcases hasUnits_ofNat_or k with hfinite | hinfinite
  · have hnearest : size + 1 ≤ nearest k := le_nearest (isShort_of_le (by omega)) hout
    have hexact : (size * gridSize 0 - nearest k * gridSize 0 : Int) ≤ -gridSize 0 := by
      have hmul : ((size + 1 : Nat) * gridSize 0 : Int) ≤ nearest k * gridSize 0 :=
        mul_le_mul_of_nonneg_right (by exact_mod_cast hnearest) hgrid
      rw [Nat.cast_add, Nat.cast_one, add_one_mul] at hmul
      omega
    have hshort : IsShort (-gridSize 0 : Int).natAbs := by
      rw [Int.natAbs_neg]
      exact hone.isShort
    have hdiff := hlast.sub_of_nonneg hfinite (by positivity) (by positivity)
    have hbelow := nearestInt_le hshort hexact
    have hsum := hdiff.add_of_nonpos hone hgrid (by omega)
    refine not_keeps_of_nonpos hsum ?_ hp hrange
    exact nearestInt_le (isShort_of_le (Nat.zero_le _)) (by omega)
  · exact not_keeps_number (hone.not_hasUnits_add (hlast.not_hasUnits_sub_right hinfinite)) hrange

/-- **Counting back from a size** keeps the position that is as far from the end. Where the size is
not exceeded, all numbers are exact. -/
lemma keeps_fromEnd {size : Nat} (hsize : size < 2 ^ 53) (hp : 0 < p) (hle : p ≤ size) :
    keeps p (.number (ofNat size - ofNat k + ofNat 1)) = true ↔ p + k = size + 1 := by
  rcases le_or_gt k size with hin | hout
  · have hlast : HasUnits (ofNat size) (size * gridSize 0) := hasUnits_ofNat_of_le hsize.le
    have hone : HasUnits (ofNat 1) ((1 : Nat) * gridSize 0) := hasUnits_ofNat_of_le (by norm_num)
    have hposition : HasUnits (ofNat k) (k * gridSize 0) := hasUnits_ofNat_of_le (by omega)
    have hdiff : HasUnits (ofNat size - ofNat k) ((size - k : Nat) * gridSize 0) :=
      hlast.sub_whole hposition (by omega) (by rw [Nat.cast_sub hin, sub_mul])
    have hsum : HasUnits (ofNat size - ofNat k + ofNat 1) ((size - k + 1 : Nat) * gridSize 0) :=
      hdiff.add_whole hone (by omega) (by rw [Nat.cast_add, add_mul])
    rw [keeps_whole_iff hsum (by omega) hp (by omega)]
    omega
  · exact iff_of_false (not_keeps_beyond hsize hout hp (by omega)) (by omega)

/-! ## The node at a position -/

/-- The node at a position, which counts from 1, if there are as many nodes. -/
def nodeAt (k : Nat) (is : List NodeId) : List NodeId :=
  is[k - 1]?.toList

variable {d : Document} {is : List NodeId}

/-- There is no node behind the last position. -/
lemma nodeAt_eq_nil (h : is.length < k) : nodeAt k is = [] := by
  rw [nodeAt, List.getElem?_eq_none (by omega)]
  rfl

/-- A position from the end counts in the other direction. -/
lemma nodeAt_reverse (hk : 0 < k) (hle : k ≤ is.length) :
    nodeAt k is.reverse = nodeAt (is.length + 1 - k) is := by
  rw [nodeAt, nodeAt, List.getElem?_reverse (by omega)]
  congr 2
  omega

/-- Of numbered nodes one has a certain number. -/
lemma filter_zipIdx (i p : Nat) :
    ((is.zipIdx p).filter fun m => m.2 = p + i).map Prod.fst = is[i]?.toList := by
  induction is generalizing i p with
  | nil => rfl
  | cons j is ih =>
    rw [List.zipIdx_cons, List.filter_cons]
    cases i with
    | zero =>
      have hrest : ((is.zipIdx (p + 1)).filter fun m => m.2 = p + 0) = [] := by
        refine List.filter_eq_nil_iff.2 fun m hm => ?_
        have hlow : p + 1 ≤ m.2 := List.le_snd_of_mem_zipIdx hm
        rw [decide_eq_true_iff]
        omega
      rw [if_pos (by simp), hrest]
      rfl
    | succ i =>
      rw [if_neg (by simp), List.getElem?_cons_succ, ← ih i (p + 1), Nat.add_right_comm,
        Nat.add_assoc]

/-- A predicate with a number as its value keeps the node at the position that the number keeps. -/
lemma keepAll_eq_nodeAt {e : Expr resolved} (hk : 0 < k)
    (he : ∀ i position, e.evaluate d ⟨i, position, is.length⟩ = .ok (.number x))
    (hx : ∀ p, 0 < p → p ≤ is.length → (keeps p (.number x) = true ↔ p = k)) :
    keepAll d [e] is = .ok (nodeAt k is) := by
  have hfilter : ((is.zipIdx 1).filter fun m => keeps m.2 (.number x)) =
      (is.zipIdx 1).filter fun m => m.2 = 1 + (k - 1) := by
    refine List.filter_congr fun m hm => ?_
    have hlow : 1 ≤ m.2 := List.le_snd_of_mem_zipIdx hm
    have hhigh : m.2 < 1 + is.length := List.snd_lt_add_of_mem_zipIdx hm
    rw [Bool.eq_iff_iff, hx m.2 hlow (by omega), decide_eq_true_iff]
    omega
  rw [keepAll_singleton, keepFrom_eq (v := fun _ => .number x) fun i hi => he _ _, hfilter,
    filter_zipIdx, nodeAt]

/-- The position `last() - k + 1`. -/
def Expr.fromEnd (k : Nat) : Expr resolved :=
  .binary .add (.binary .sub (.call .last []) (.number (ofNat k))) (.number (ofNat 1))

lemma evaluate_fromEnd (focus : Focus) : (Expr.fromEnd k).evaluate d focus =
    .ok (.number (ofNat focus.size - ofNat k + ofNat 1)) := by
  simp only [Expr.fromEnd, Expr.evaluate]
  rfl

/-- **A position keeps the node there.** -/
lemma keepAll_ofNat (hk : 0 < k) (hlen : is.length < 2 ^ 53) :
    keepAll d [.number (ofNat k)] is = .ok (nodeAt k is) :=
  keepAll_eq_nodeAt hk (fun _ _ => by rw [Expr.evaluate]) fun p hp hle => by
    rw [keeps_ofNat hk hp (by omega), eq_comm]

/-- **A position from the end keeps the node there.** -/
lemma keepAll_fromEnd (hk : 0 < k) (hlen : is.length < 2 ^ 53) :
    keepAll d [.fromEnd k] is = .ok (nodeAt k is.reverse) := by
  rcases le_or_gt k is.length with hle | hgt
  · rw [nodeAt_reverse hk hle]
    refine keepAll_eq_nodeAt (x := ofNat is.length - ofNat k + ofNat 1) (by omega)
      (fun _ _ => evaluate_fromEnd _) fun p hp hpos => ?_
    rw [keeps_fromEnd hlen hp hpos]
    omega
  · -- no position is as far from the end, and none is behind it
    have hbehind : nodeAt k is.reverse = nodeAt (is.length + 1) is := by
      rw [nodeAt_eq_nil (by rwa [List.length_reverse]), nodeAt_eq_nil (Nat.lt_succ_self _)]
    rw [hbehind]
    refine keepAll_eq_nodeAt (x := ofNat is.length - ofNat k + ofNat 1) (Nat.succ_pos _)
      (fun _ _ => evaluate_fromEnd _) fun p hp hpos => ?_
    rw [keeps_fromEnd hlen hp hpos]
    omega

/-! ## Steps -/

/-- Nodes in document order, turned round for a reverse axis: the order in which an axis lists
them. -/
def byProximity (a : Axis) (is : List NodeId) : List NodeId :=
  if a.isReverse then is.reverse else is

lemma length_byProximity (a : Axis) (is : List NodeId) : (byProximity a is).length = is.length := by
  rw [byProximity]
  split
  · exact List.length_reverse
  · rfl

/-- Nodes that are listed by proximity are put in document order again. -/
lemma inOrder_byProximity (h : is.Pairwise (· < ·)) (a : Axis) :
    inOrder (byProximity a is) = is := by
  refine (inOrder_sorted _).eq_of_mem_iff h fun i => ?_
  rw [mem_inOrder, byProximity]
  split
  · exact List.mem_reverse
  · exact Iff.rfl

/-- One node is in order. -/
lemma inOrder_nodeAt : inOrder (nodeAt k is) = nodeAt k is := by
  refine inOrder_eq_self ?_
  rw [nodeAt]
  cases is[k - 1]? with
  | none => exact List.Pairwise.nil
  | some i => exact List.pairwise_singleton _ _

/-- The nodes to which an axis leads and that pass a test, in document order. -/
structure IsCandidateList (d : Document) (a : Axis) (test : NodeTest resolved) (n : NodeId)
    (is : List NodeId) : Prop where
  sorted : is.Pairwise (· < ·)
  mem_iff : ∀ j, j ∈ is ↔ d.OnAxis n j a ∧ passes d a j test = true
  length_le : is.length ≤ d.size
  listed : ((d.axis a n).filter fun j => passes d a j test) = byProximity a is

/-- An axis lists its nodes in document order, or against it if it is a reverse axis. -/
lemma exists_isCandidateList {n : NodeId} (hn : n < d.size) (a : Axis) (test : NodeTest resolved) :
    ∃ is, IsCandidateList d a test n is := by
  let listed := (d.axis a n).filter fun j => passes d a j test
  have hmem : ∀ j, j ∈ listed ↔ d.OnAxis n j a ∧ passes d a j test = true := fun j => by
    rw [List.mem_filter, Document.mem_axis_iff hn]
  have hlength : listed.length ≤ d.size :=
    (List.length_filter_le _ _).trans (Document.length_axis_le hn a)
  cases ha : a.isReverse with
  | false =>
    refine ⟨listed, (Document.axis_sorted ha n).filter _, hmem, hlength, ?_⟩
    rw [byProximity, ha]
    rfl
  | true =>
    have hsorted : listed.Pairwise (· > ·) := (Document.axis_sorted_of_isReverse ha n).filter _
    refine ⟨listed.reverse, List.pairwise_reverse.2 hsorted, fun j => ?_, ?_, ?_⟩
    · rw [List.mem_reverse, hmem]
    · rwa [List.length_reverse]
    · rw [byProximity, if_pos ha, List.reverse_reverse]

/-- The path with one step from the context node. -/
def Expr.step (a : Axis) (test : NodeTest resolved) (ps : List (Expr resolved)) : Expr resolved :=
  .path .context [.mk a test ps]

variable {a : Axis} {test : NodeTest resolved} {ps : List (Expr resolved)} {focus : Focus}
  {js : List NodeId}

/-- A step puts in order what its predicates keep by proximity. -/
lemma evaluate_step (his : IsCandidateList d a test focus.node is)
    (h : keepAll d ps (byProximity a is) = .ok js) :
    (Expr.step a test ps).evaluate d focus = .ok (.nodes (inOrder js)) := by
  rw [Expr.step, ← evaluateNodes_eq_ok_iff, evaluateNodes_context, follow_step_eq_ok_iff,
    Step.select, his.listed]
  exact ⟨js, h, rfl⟩

/-- A filter keeps what its predicates keep in document order. -/
lemma evaluate_filter {e : Expr resolved} (he : e.evaluate d focus = .ok (.nodes is))
    (h : keepAll d ps is = .ok js) : (Expr.filter e ps).evaluate d focus = .ok (.nodes js) := by
  rw [Expr.evaluate]
  exact bind_eq_ok_iff.2 ⟨_, he, bind_eq_ok_iff.2 ⟨is, rfl, bind_eq_ok_iff.2 ⟨js, h, rfl⟩⟩⟩

/-- **Positions count by proximity on reverse axes**, and in document order on the others. From
every node of a document a step selects the nodes that its axis leads to and that pass its test, in
document order. A position behind a forward axis selects the node at this position, and behind a
reverse axis the one that is as far from the end, at `last() - k + 1`. If there are fewer nodes, it
selects none.

**Proof sketch.** The nodes that an axis lists are in document order or against it
(`exists_isCandidateList`). Numbers of nodes have 32 bits, so they are exact as doubles, and a
position keeps the node that has it (`keepAll_ofNat`), or the one as far from the end
(`keepAll_fromEnd`). -/
theorem step_by_proximity (hnode : focus.node < d.size) (a : Axis)
    (test : NodeTest resolved) (hk : 0 < k) :
    ∃ is, (Expr.step a test []).evaluate d focus = .ok (.nodes is) ∧ is.Pairwise (· < ·) ∧
      (∀ j, j ∈ is ↔ d.OnAxis focus.node j a ∧ passes d a j test = true) ∧
      (Expr.step a test [.number (ofNat k)]).evaluate d focus =
        .ok (.nodes (nodeAt k (byProximity a is))) ∧
      (Expr.filter (.step a test [])
          [if a.isReverse then .fromEnd k else .number (ofNat k)]).evaluate d focus =
        .ok (.nodes (nodeAt k (byProximity a is))) ∧
      (is.length < k → nodeAt k (byProximity a is) = []) := by
  obtain ⟨is, his⟩ := exists_isCandidateList hnode a test
  have hlen : is.length < 2 ^ 53 := his.length_le.trans_lt (d.size_lt.trans (by decide))
  have hstep : (Expr.step a test []).evaluate d focus = .ok (.nodes is) := by
    have hall : keepAll d [] (byProximity a is) = .ok (byProximity a is) := by rw [keepAll]
    rw [evaluate_step his hall, inOrder_byProximity his.sorted]
  have hposition := evaluate_step his (keepAll_ofNat hk (by rwa [length_byProximity]))
  rw [inOrder_nodeAt] at hposition
  refine ⟨is, hstep, his.sorted, his.mem_iff, hposition, evaluate_filter hstep ?_, fun hlt => ?_⟩
  · rw [byProximity]
    split
    · exact keepAll_fromEnd hk hlen
    · exact keepAll_ofNat hk hlen
  · exact nodeAt_eq_nil (by rwa [length_byProximity])

/-- The nearest of three siblings before an element is the last one of them. -/
theorem step_by_proximity_preceding : ∃ d : Document,
    Document.parse "<r><a/><b/>t<c/><d/></r>" = .ok d ∧ 6 < d.size ∧
      (Expr.step .precedingSibling .any []).evaluate d ⟨6, 1, 1⟩ = .ok (.nodes [2, 3, 5]) ∧
      (Expr.step .precedingSibling .any [.number (ofNat 1)]).evaluate d ⟨6, 1, 1⟩ =
        .ok (.nodes [5]) ∧
      (Expr.filter (.step .precedingSibling .any []) [.fromEnd 1]).evaluate d ⟨6, 1, 1⟩ =
        .ok (.nodes [5]) := by
  have h : ((Document.parse "<r><a/><b/>t<c/><d/></r>").toOption.bind fun d =>
      ((Expr.step .precedingSibling .any []).evaluateNodes d ⟨6, 1, 1⟩).toOption.map fun is =>
        (d.size, is)) = some (7, [2, 3, 5]) := by cbv
  obtain ⟨d, hd, h⟩ := Option.bind_eq_some_iff.1 h
  obtain ⟨is, his, h⟩ := Option.map_eq_some_iff.1 h
  obtain ⟨hsize, rfl⟩ := Prod.mk.inj h
  have hnode : (⟨6, 1, 1⟩ : Focus).node < d.size := by rw [hsize]; decide
  have hnodes := evaluateNodes_eq_ok_iff.1 (toOption_eq_some_iff.1 his)
  obtain ⟨is, hstep, -, -, hposition, hfilter, -⟩ :=
    step_by_proximity hnode .precedingSibling .any Nat.one_pos
  cases hnodes.symm.trans hstep
  exact ⟨d, toOption_eq_some_iff.1 hd, hnode, hstep, hposition, hfilter⟩

end XmlHarvest.Query
