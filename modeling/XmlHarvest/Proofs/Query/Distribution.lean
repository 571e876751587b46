import Mathlib.Data.List.Sort
import XmlHarvest.Proofs.Query.Plain

/-!
# Paths node by node

A path may be cut between any two of its steps. The nodes that it selects are those that the steps
behind the cut select from each single node that the part before it leads to, united. The steps are
followed from all these nodes together, so nodes are put in order where a single node would not ask
for it; and the predicates of a step count the nodes that the step finds from one node, whatever it
finds from others.

## Main definitions

* `Query.Finds`: a node is among those that a computation returns.
* `Query.IsUnionOf`: the nodes that computations for several nodes return, united.
* `Query.Expr.evaluateNodes`: the nodes of an expression that has a node-set for its value.

## Main results

* `Query.isUnionOf_twice_iff`: the union of unions.
* `Query.follow_eq_ok_iff`: steps from many nodes are steps from each of them.
* `Query.evaluateNodes_append_iff`: a path that is cut.
* `Query.path_distributes`: a path that is cut anywhere, and the predicates of its last step.
-/

namespace XmlHarvest.Query

/-! ## Nodes of several origins -/

section Union

variable {ε : Type}

/-- The computation for `i` returns nodes, and `j` is one of them. -/
def Finds (f : NodeId → Except ε (List NodeId)) (i j : NodeId) : Prop :=
  ∃ part, f i = .ok part ∧ j ∈ part

/-- The nodes that are found by `f` from the nodes `is`: none of the computations fails, and the
nodes are in document order, none twice. -/
structure IsUnionOf (js is : List NodeId) (f : NodeId → Except ε (List NodeId)) : Prop where
  succeed : ∀ i ∈ is, ∃ part, f i = .ok part
  sorted : js.Pairwise (· < ·)
  mem_iff : ∀ j, j ∈ js ↔ ∃ i ∈ is, Finds f i j

variable {is is' js : List NodeId} {f g h : NodeId → Except ε (List NodeId)}

/-- What is found from a node whose computation is known. -/
lemma finds_iff {i j : NodeId} {part : List NodeId} (hpart : f i = .ok part) :
    Finds f i j ↔ j ∈ part := by
  simp [Finds, hpart]

/-- There is one union at most. -/
lemma IsUnionOf.eq (hjs : IsUnionOf js is f) {ks : List NodeId} (hks : IsUnionOf ks is f) :
    js = ks :=
  hjs.sorted.eq_of_mem_iff hks.sorted fun j => (hjs.mem_iff j).trans (hks.mem_iff j).symm

/-- There is a union if no computation fails. -/
lemma exists_isUnionOf (hf : ∀ i ∈ is, ∃ part, f i = .ok part) : ∃ js, IsUnionOf js is f := by
  obtain ⟨parts, hparts⟩ := exists_mapM_eq_ok_iff.2 hf
  refine ⟨inOrder parts.flatten, hf, inOrder_sorted _, fun j => ?_⟩
  rw [mem_inOrder, mem_flatten_of_mapM_eq_ok hparts]
  rfl

/-- The faults do not matter. -/
lemma IsUnionOf.of_eq_ok_iff {ε' : Type} {f' : NodeId → Except ε' (List NodeId)}
    (hjs : IsUnionOf js is f) (hf : ∀ i part, f i = .ok part ↔ f' i = .ok part) :
    IsUnionOf js is f' where
  succeed i hi := by
    obtain ⟨part, hpart⟩ := hjs.succeed i hi
    exact ⟨part, (hf i part).1 hpart⟩
  sorted := hjs.sorted
  mem_iff j := by simp only [hjs.mem_iff j, Finds, hf]

/-- The order of the origins does not matter, nor does it matter how often they occur. -/
lemma IsUnionOf.of_mem_iff (hjs : IsUnionOf js is f) (his : ∀ i, i ∈ is ↔ i ∈ is') :
    IsUnionOf js is' f where
  succeed i hi := hjs.succeed i ((his i).2 hi)
  sorted := hjs.sorted
  mem_iff j := by simp only [hjs.mem_iff j, his]

/-- Nodes that are in order are the union of each of them alone. -/
lemma isUnionOf_singletons (his : is.Pairwise (· < ·)) :
    IsUnionOf is is fun i => (.ok [i] : Except ε (List NodeId)) where
  succeed i _ := ⟨[i], rfl⟩
  sorted := his
  mem_iff j := by simp [Finds]

/-- **A union of unions.** Nodes are found in two rounds: by `f` from single nodes, and by `g` from
those. It is the same to unite what is found in both rounds from each node and to unite what the
second round finds from all nodes of the first one. -/
lemma isUnionOf_twice_iff {found : List NodeId}
    (hfound : ∀ k, k ∈ found ↔ ∃ i ∈ is, Finds f i k)
    (htwice : ∀ i js, h i = .ok js ↔ ∃ part, f i = .ok part ∧ IsUnionOf js part g) :
    IsUnionOf js is h ↔ (∀ i ∈ is, ∃ part, f i = .ok part) ∧ IsUnionOf js found g := by
  have hsucceed : (∀ i ∈ is, ∃ js, h i = .ok js) ↔
      (∀ i ∈ is, ∃ part, f i = .ok part) ∧ ∀ k ∈ found, ∃ part, g k = .ok part := by
    constructor
    · intro hh
      refine ⟨fun i hi => ?_, fun k hk => ?_⟩
      · obtain ⟨js, hjs⟩ := hh i hi
        obtain ⟨part, hpart, -⟩ := (htwice i js).1 hjs
        exact ⟨part, hpart⟩
      · obtain ⟨i, hi, hik⟩ := (hfound k).1 hk
        obtain ⟨js, hjs⟩ := hh i hi
        obtain ⟨part, hpart, hunion⟩ := (htwice i js).1 hjs
        exact hunion.succeed k ((finds_iff hpart).1 hik)
    · rintro ⟨hf, hg⟩ i hi
      obtain ⟨part, hpart⟩ := hf i hi
      have hall : ∀ k ∈ part, ∃ rest, g k = .ok rest := fun k hk =>
        hg k ((hfound k).2 ⟨i, hi, (finds_iff hpart).2 hk⟩)
      obtain ⟨js, hjs⟩ := exists_isUnionOf hall
      exact ⟨js, (htwice i js).2 ⟨part, hpart, hjs⟩⟩
  have hfinds : (∀ i ∈ is, ∃ js, h i = .ok js) → ∀ j,
      (∃ i ∈ is, Finds h i j) ↔ ∃ k ∈ found, Finds g k j := by
    intro hh j
    have hone : ∀ i ∈ is, Finds h i j ↔ ∃ k, Finds f i k ∧ Finds g k j := by
      intro i hi
      obtain ⟨js, hjs⟩ := hh i hi
      obtain ⟨part, hpart, hunion⟩ := (htwice i js).1 hjs
      simp only [finds_iff hjs, finds_iff hpart, hunion.mem_iff]
    simp only [hfound]
    grind
  constructor
  · intro hjs
    obtain ⟨hf, hg⟩ := hsucceed.1 hjs.succeed
    exact ⟨hf, hg, hjs.sorted, fun j => (hjs.mem_iff j).trans (hfinds hjs.succeed j)⟩
  · rintro ⟨hf, hjs⟩
    have hh := hsucceed.2 ⟨hf, hjs.succeed⟩
    exact ⟨hh, hjs.sorted, fun j => (hjs.mem_iff j).trans (hfinds hh j).symm⟩

end Union

variable {d : Document}

/-! ## Steps -/

/-- The first step puts what it selects in order before the others follow. -/
lemma follow_cons_eq_ok_iff {s : Step resolved} {ss : List (Step resolved)} {is js : List NodeId} :
    follow d (s :: ss) is = .ok js ↔ ∃ selected, (is.mapM fun i => s.select d i) = .ok selected ∧
      follow d ss (inOrder selected.flatten) = .ok js := by
  rw [follow, bind_eq_ok_iff]
  refine exists_congr fun selected => and_congr_right fun hselected => ?_
  rw [← shortcut_eq_inOrder hselected]

/-- The first step from one node. -/
lemma follow_cons_singleton_eq_ok_iff {s : Step resolved} {ss : List (Step resolved)} {i : NodeId}
    {js : List NodeId} : follow d (s :: ss) [i] = .ok js ↔
      ∃ part, s.select d i = .ok part ∧ follow d ss (inOrder part) = .ok js := by
  rw [follow_cons_eq_ok_iff]
  constructor
  · rintro ⟨_, h, hjs⟩
    rw [List.mapM_cons, List.mapM_nil] at h
    obtain ⟨part, hpart, h⟩ := bind_eq_ok_iff.1 h
    cases h
    exact ⟨part, hpart, by simpa using hjs⟩
  · rintro ⟨part, hpart, hjs⟩
    refine ⟨[part], ?_, by simpa using hjs⟩
    rw [List.mapM_cons, hpart]
    rfl

/-- **Steps from many nodes are steps from each of them**, the nodes that these lead to united.

**Proof sketch.** Induction on the steps. What the first step selects from all nodes has the members
of what it selects from each, in order; the other steps are by induction followed from each of these
members alone, so that both sides unite the same nodes (`isUnionOf_twice_iff`). -/
lemma follow_eq_ok_iff {ss : List (Step resolved)} {is js : List NodeId}
    (his : is.Pairwise (· < ·)) :
    follow d ss is = .ok js ↔ IsUnionOf js is fun i => follow d ss [i] := by
  induction ss generalizing is js with
  | nil =>
    simp only [follow]
    have hunion : IsUnionOf is is fun i => (.ok [i] : Except Error (List NodeId)) :=
      isUnionOf_singletons his
    constructor
    · rintro ⟨⟩
      exact hunion
    · intro h
      rw [h.eq hunion]
  | cons s ss ih =>
    have htwice : ∀ i js, follow d (s :: ss) [i] = .ok js ↔ ∃ part, s.select d i = .ok part ∧
        IsUnionOf js part fun k => follow d ss [k] := by
      intro i js
      rw [follow_cons_singleton_eq_ok_iff]
      refine exists_congr fun part => and_congr_right fun _ => ?_
      rw [ih (inOrder_sorted part)]
      exact ⟨fun h => h.of_mem_iff fun _ => mem_inOrder,
        fun h => h.of_mem_iff fun _ => mem_inOrder.symm⟩
    have hfound : ∀ {selected}, (is.mapM fun i => s.select d i) = .ok selected →
        ∀ k, k ∈ inOrder selected.flatten ↔ ∃ i ∈ is, Finds (fun i => s.select d i) i k := by
      intro selected hselected k
      rw [mem_inOrder, mem_flatten_of_mapM_eq_ok hselected]
      rfl
    rw [follow_cons_eq_ok_iff]
    constructor
    · rintro ⟨selected, hselected, hjs⟩
      refine (isUnionOf_twice_iff (hfound hselected) htwice).2 ⟨?_, (ih (inOrder_sorted _)).1 hjs⟩
      exact exists_mapM_eq_ok_iff.1 ⟨selected, hselected⟩
    · intro h
      have hselect : ∀ i ∈ is, ∃ part, s.select d i = .ok part := by
        intro i hi
        obtain ⟨js, hjs⟩ := h.succeed i hi
        obtain ⟨part, hpart, -⟩ := (htwice i js).1 hjs
        exact ⟨part, hpart⟩
      obtain ⟨selected, hselected⟩ := exists_mapM_eq_ok_iff.2 hselect
      have hunion := ((isUnionOf_twice_iff (hfound hselected) htwice).1 h).2
      exact ⟨selected, hselected, (ih (inOrder_sorted _)).2 hunion⟩

/-- Steps are followed in two parts, one behind the other. -/
lemma follow_append (ss tt : List (Step resolved)) (is : List NodeId) :
    follow d (ss ++ tt) is = follow d ss is >>= follow d tt := by
  induction ss generalizing is with
  | nil =>
    rw [List.nil_append, follow]
    rfl
  | cons s ss ih =>
    rw [List.cons_append, follow, follow, bind_assoc]
    exact congrArg _ (funext fun selected => ih _)

/-! ## Paths -/

/-- The nodes of an expression that has a node-set for its value. -/
def Expr.evaluateNodes (d : Document) (focus : Focus) (e : Expr resolved) :
    Except Error (List NodeId) := do
  (← e.evaluate d focus).toNodes

/-- The nodes of an expression are its value. -/
lemma evaluateNodes_eq_ok_iff {e : Expr resolved} {focus : Focus} {is : List NodeId} :
    e.evaluateNodes d focus = .ok is ↔ e.evaluate d focus = .ok (.nodes is) := by
  rw [Expr.evaluateNodes, bind_eq_ok_iff]
  constructor
  · rintro ⟨v, hv, h⟩
    rw [hv, toNodes_eq_ok_iff.1 h]
  · intro h
    exact ⟨_, h, rfl⟩

/-- The nodes of an expression are in order. -/
lemma evaluateNodes_sorted {e : Expr resolved} {focus : Focus} {is : List NodeId}
    (h : e.evaluateNodes d focus = .ok is) : is.Pairwise (· < ·) :=
  evaluate_sorted (evaluateNodes_eq_ok_iff.1 h)

/-- The nodes of a path are those that its steps lead to from its start. -/
lemma evaluateNodes_path (start : Start resolved) (ss : List (Step resolved)) (focus : Focus) :
    (Expr.path start ss).evaluateNodes d focus = start.evaluate d focus >>= follow d ss := by
  rw [Expr.evaluateNodes, Expr.evaluate, bind_assoc]
  refine congrArg _ (funext fun is => ?_)
  rw [bind_assoc]
  exact bind_pure _

/-- The value of a path is its nodes. -/
lemma evaluate_path_eq_ok_iff {start : Start resolved} {ss : List (Step resolved)} {focus : Focus}
    {v : Value} : (Expr.path start ss).evaluate d focus = .ok v ↔
      ∃ js, v = .nodes js ∧ (Expr.path start ss).evaluateNodes d focus = .ok js := by
  simp only [evaluateNodes_path, Expr.evaluate, bind_eq_ok_iff, pure_eq_ok_iff]
  grind

/-- The nodes of a relative path are those that its steps lead to from the context node. -/
lemma evaluateNodes_context (ss : List (Step resolved)) (focus : Focus) :
    (Expr.path .context ss).evaluateNodes d focus = follow d ss [focus.node] := by
  rw [evaluateNodes_path, Start.evaluate]
  rfl

/-- Steps behind an expression lead to the nodes that they lead to as a relative path from each of
the nodes of the expression, united. -/
lemma evaluateNodes_follow_iff {e : Expr resolved} {tt : List (Step resolved)} {focus : Focus}
    {js : List NodeId} : (e.evaluateNodes d focus >>= follow d tt) = .ok js ↔
      ∃ is, e.evaluateNodes d focus = .ok is ∧
        IsUnionOf js is fun i => (Expr.path .context tt).evaluateNodes d ⟨i, 1, 1⟩ := by
  rw [bind_eq_ok_iff]
  simp only [evaluateNodes_context]
  exact exists_congr fun is => and_congr_right fun his =>
    follow_eq_ok_iff (evaluateNodes_sorted his)

/-- **A path that is cut**: the nodes of the whole path are those of the relative path behind the
cut at each of the nodes that the part before the cut selects, united. -/
lemma evaluateNodes_append_iff {start : Start resolved} {ss tt : List (Step resolved)}
    {focus : Focus} {js : List NodeId} :
    (Expr.path start (ss ++ tt)).evaluateNodes d focus = .ok js ↔
      ∃ is, (Expr.path start ss).evaluateNodes d focus = .ok is ∧
        IsUnionOf js is fun i => (Expr.path .context tt).evaluateNodes d ⟨i, 1, 1⟩ := by
  have hsteps : follow d (ss ++ tt) = fun is => follow d ss is >>= follow d tt :=
    funext (follow_append ss tt)
  rw [← evaluateNodes_follow_iff, evaluateNodes_path, evaluateNodes_path, bind_assoc, hsteps]

/-- A path that starts with an expression is cut behind it. -/
lemma evaluateNodes_expr_iff {e : Expr resolved} {tt : List (Step resolved)} {focus : Focus}
    {js : List NodeId} : (Expr.path (.expr e) tt).evaluateNodes d focus = .ok js ↔
      ∃ is, e.evaluateNodes d focus = .ok is ∧
        IsUnionOf js is fun i => (Expr.path .context tt).evaluateNodes d ⟨i, 1, 1⟩ := by
  rw [← evaluateNodes_follow_iff, evaluateNodes_path, Start.evaluate]
  rfl

/-- One step from one node leads to the nodes that it selects, put in order. -/
lemma follow_step_eq_ok_iff {s : Step resolved} {i : NodeId} {js : List NodeId} :
    follow d [s] [i] = .ok js ↔ ∃ found, s.select d i = .ok found ∧ inOrder found = js := by
  rw [follow_cons_singleton_eq_ok_iff]
  simp only [follow, Except.ok.injEq]

/-- The nodes that one step leads to from a node are those that it selects. -/
lemma isUnionOf_step_iff {s : Step resolved} {is js : List NodeId} :
    (IsUnionOf js is fun i => follow d [s] [i]) ↔ IsUnionOf js is fun i => s.select d i := by
  have hok : ∀ i, (∃ part, follow d [s] [i] = .ok part) ↔ ∃ found, s.select d i = .ok found := by
    intro i
    simp only [follow_step_eq_ok_iff]
    grind
  have hfinds : ∀ i j, Finds (fun i => follow d [s] [i]) i j ↔
      Finds (fun i => s.select d i) i j := by
    intro i j
    simp only [Finds, follow_step_eq_ok_iff]
    constructor
    · rintro ⟨_, ⟨found, hfound, rfl⟩, hj⟩
      exact ⟨found, hfound, mem_inOrder.1 hj⟩
    · rintro ⟨found, hfound, hj⟩
      exact ⟨_, ⟨found, hfound, rfl⟩, mem_inOrder.2 hj⟩
  constructor
  · intro h
    exact ⟨fun i hi => (hok i).1 (h.succeed i hi), h.sorted,
      fun j => by simp only [h.mem_iff, hfinds]⟩
  · intro h
    exact ⟨fun i hi => (hok i).2 (h.succeed i hi), h.sorted,
      fun j => by simp only [h.mem_iff, hfinds]⟩

/-- **Paths distribute over context nodes.** In every document and every focus, for every path and
every cut between its steps: the whole path selects nodes if, and only if, the part before the cut
does and the part behind it selects nodes at each of them as a relative path, and then it selects
just these, united. In particular the predicates of the last step count the nodes that pass its test
from one node only.

**Proof sketch.** Steps can be followed in two parts (`follow_append`), and by induction on the
steps, following them from many nodes unites what they lead to from each (`follow_eq_ok_iff`). With
the last step alone behind the cut, what is united are the nodes that this step selects
(`isUnionOf_step_iff`). -/
theorem path_distributes (d : Document) (focus : Focus) (start : Start resolved)
    (ss : List (Step resolved)) (js : List NodeId) :
    (∀ tt : List (Step resolved),
      (Expr.path start (ss ++ tt)).evaluate d focus = .ok (.nodes js) ↔
        ∃ is, (Expr.path start ss).evaluate d focus = .ok (.nodes is) ∧
          IsUnionOf js is fun i => (Expr.path .context tt).evaluateNodes d ⟨i, 1, 1⟩) ∧
      ∀ (axis : Axis) (test : NodeTest resolved) (ps : List (Expr resolved)),
        (Expr.path start (ss ++ [.mk axis test ps])).evaluate d focus = .ok (.nodes js) ↔
          ∃ is, (Expr.path start ss).evaluate d focus = .ok (.nodes is) ∧
            IsUnionOf js is fun i =>
              keepAll d ps ((d.axis axis i).filter fun j => passes d axis j test) := by
  simp only [← evaluateNodes_eq_ok_iff]
  refine ⟨fun tt => evaluateNodes_append_iff, fun axis test ps => ?_⟩
  rw [evaluateNodes_append_iff]
  simp only [evaluateNodes_context, isUnionOf_step_iff, Step.select]

end XmlHarvest.Query
