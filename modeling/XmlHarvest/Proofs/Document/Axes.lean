import Mathlib.Data.List.Perm.Subperm
import XmlHarvest.Document.Axis
import XmlHarvest.Proofs.Document.Tree

/-!
# Axes by parent links

Half of the axes scan a range of numbers, and the other half follows links. Here all of them are
told in the same words, by parent links and document order alone, and the two halves are shown to
fit together.

## Main definitions

* `Document.OnAxis`: the nodes that an axis leads to, by parent links and document order.
* `Axis.around`: the axes that divide a document around a node.
* `Document.AxesExact`: what the axes list, and how they fit together.

## Main results

* `Document.mem_axis_iff`: an axis lists the nodes that it leads to.
* `Document.axis_sorted`, `Document.axis_sorted_of_isReverse`: the order of its list.
* `Document.mem_following_iff_siblings`: the following axis by siblings.
* `Document.axis_exact`: the axes are exact.
-/

namespace XmlHarvest

/-- The axes that divide a document around a node. -/
def Axis.around : List Axis :=
  [.itself, .ancestor, .descendant, .following, .preceding]

namespace Document

/-! ## What an axis leads to -/

section Definitions

variable (d : Document)

/-- Two members of the same content. Attributes have no siblings. -/
def AreSiblings (i j : Nat) : Prop :=
  d.kind i ≠ .attribute ∧ d.kind j ≠ .attribute ∧ ∃ p, d.parent? i = some p ∧ d.parent? j = some p

/-- The axis leads from the node `n` to the node `j`. -/
def OnAxis (n j : Nat) : Axis → Prop
  | .child => d.parent? j = some n ∧ d.kind j ≠ .attribute
  | .descendant => d.Encloses n j ∧ d.kind j ≠ .attribute
  | .parent => d.parent? n = some j
  | .ancestor => d.Encloses j n
  | .followingSibling => n < j ∧ d.AreSiblings n j
  | .precedingSibling => j < n ∧ d.AreSiblings n j
  | .following => n < j ∧ j < d.size ∧ d.kind j ≠ .attribute ∧ ¬d.Encloses n j
  | .preceding => j < n ∧ d.kind j ≠ .attribute ∧ ¬d.Encloses j n
  | .attribute => d.parent? j = some n ∧ d.kind j = .attribute
  | .namespaces => False
  | .itself => j = n
  | .descendantOrSelf => j = n ∨ d.Encloses n j ∧ d.kind j ≠ .attribute
  | .ancestorOrSelf => j = n ∨ d.Encloses j n

end Definitions

variable {d : Document} {n j : Nat}

/-! ## Ranges -/

/-- A range holds the nodes between its bounds that are no attributes. -/
lemma mem_span_iff {first last : Nat} :
    j ∈ d.span first last ↔ first ≤ j ∧ j < last ∧ d.kind j ≠ .attribute := by
  simp only [span, List.mem_filter, List.mem_range'_1, decide_eq_true_iff]
  constructor
  · rintro ⟨⟨h1, h2⟩, hk⟩
    exact ⟨h1, by omega, hk⟩
  · rintro ⟨h1, h2, hk⟩
    exact ⟨⟨h1, by omega⟩, hk⟩

/-- Ranges are in document order. -/
lemma span_sorted (first last : Nat) : (d.span first last).Pairwise (· < ·) :=
  List.Pairwise.filter _ List.pairwise_lt_range'

/-- The range behind a node up to its stop holds its descendants. -/
lemma mem_descendants_iff : j ∈ d.descendants n ↔ d.Encloses n j ∧ d.kind j ≠ .attribute := by
  rw [descendants, mem_span_iff, encloses_iff]
  exact ⟨fun ⟨h1, h2, hk⟩ => ⟨⟨h1, h2⟩, hk⟩, fun ⟨⟨h1, h2⟩, hk⟩ => ⟨h1, h2, hk⟩⟩

/-- The range from the stop of a node on holds the nodes behind it that it does not enclose. -/
lemma mem_following_iff (hn : n < d.size) : j ∈ d.following n ↔
    n < j ∧ j < d.size ∧ d.kind j ≠ .attribute ∧ ¬d.Encloses n j := by
  have hstop : n < d.stop n := d.numbered.lt_stop n hn
  rw [following, mem_span_iff, encloses_iff]
  constructor
  · rintro ⟨h1, h2, hk⟩
    exact ⟨by omega, h2, hk, by omega⟩
  · rintro ⟨h1, h2, hk, hj⟩
    exact ⟨by omega, h2, hk⟩

/-- The nodes that stop before a node are those before it that do not enclose it. -/
lemma mem_preceding_iff : j ∈ d.preceding n ↔
    j < n ∧ d.kind j ≠ .attribute ∧ ¬d.Encloses j n := by
  rw [preceding, List.mem_filter, mem_span_iff, encloses_iff, decide_eq_true_iff]
  constructor
  · rintro ⟨⟨-, h1, hk⟩, h2⟩
    exact ⟨h1, hk, by omega⟩
  · rintro ⟨h1, hk, h2⟩
    exact ⟨⟨Nat.zero_le j, h1, hk⟩, by omega⟩

/-! ## Siblings -/

/-- The siblings of a node, itself included. -/
lemma mem_siblings_iff : j ∈ d.siblings n ↔ d.AreSiblings n j := by
  unfold siblings AreSiblings
  split
  · rename_i hk
    simp [hk]
  · rename_i hk
    cases hp : d.parent? n with
    | none => simp
    | some p => simp [mem_children_iff, hk, and_comm]

/-- Siblings are listed in document order. -/
lemma siblings_sorted (n : Nat) : (d.siblings n).Pairwise (· < ·) := by
  unfold siblings
  split
  · exact List.Pairwise.nil
  · split
    · exact children_sorted _
    · exact List.Pairwise.nil

/-- Siblings come one behind the other: the second one is not inside the first.

**Proof sketch.** Otherwise the first one would be the common parent or lie behind it, while the
second one is inside. But a node lies behind its parent. -/
lemma AreSiblings.stop_le (h : d.AreSiblings n j) (hnj : n < j) : d.stop n ≤ j := by
  obtain ⟨-, -, p, hpn, hpj⟩ := h
  have hlt := (parent_lt hpn).1
  by_contra hj
  obtain ⟨q, hq, hnq⟩ := d.numbered.le_parent n j hnj (not_le.1 hj)
  have hqp : q = p := Option.some.inj (hq.symm.trans hpj)
  omega

/-! ## Membership -/

/-- **An axis lists the nodes that it leads to.** -/
lemma mem_axis_iff (hn : n < d.size) (a : Axis) : j ∈ d.axis a n ↔ d.OnAxis n j a := by
  cases a with
  | child => exact mem_children_iff
  | descendant => exact mem_descendants_iff
  | parent => simp [axis, OnAxis]
  | ancestor => exact mem_ancestors_iff
  | followingSibling =>
    simp only [axis, OnAxis, followingSiblings, List.mem_filter, mem_siblings_iff,
      decide_eq_true_iff, and_comm]
  | precedingSibling =>
    simp only [axis, OnAxis, precedingSiblings, List.mem_filter, List.mem_reverse,
      mem_siblings_iff, decide_eq_true_iff, and_comm]
  | following => exact mem_following_iff hn
  | preceding => simp only [axis, OnAxis, List.mem_reverse, mem_preceding_iff]
  | «attribute» => exact mem_attributes_iff
  | namespaces => simp [axis, OnAxis]
  | itself => simp [axis, OnAxis]
  | descendantOrSelf => simp only [axis, OnAxis, List.mem_cons, mem_descendants_iff]
  | ancestorOrSelf => simp only [axis, OnAxis, List.mem_cons, mem_ancestors_iff]

/-! ## Order -/

/-- The ancestors of a node lie before it, and are listed nearest first. -/
lemma ancestors_sorted (n : Nat) : (d.ancestors n).Pairwise (· > ·) := by
  induction n using Nat.strong_induction_on with
  | _ n ih =>
    rw [ancestors]
    cases hp : d.parent? n with
    | none => exact List.Pairwise.nil
    | some p =>
      have hlt := (parent_lt hp).1
      simp only [if_pos hlt]
      refine List.pairwise_cons.2 ⟨fun i hi => ?_, ih p hlt⟩
      exact (mem_ancestors_iff.1 hi).lt_and_stop_le.1

/-- **A forward axis lists its nodes in document order**, none twice. -/
lemma axis_sorted {a : Axis} (ha : a.isReverse = false) (n : Nat) :
    (d.axis a n).Pairwise (· < ·) := by
  cases a with
  | child => exact children_sorted n
  | descendant => exact span_sorted _ _
  | followingSibling => exact (siblings_sorted n).filter _
  | following => exact span_sorted _ _
  | «attribute» => exact attributes_sorted n
  | namespaces => exact List.Pairwise.nil
  | itself => exact List.pairwise_singleton _ _
  | descendantOrSelf =>
    refine List.pairwise_cons.2 ⟨fun i hi => ?_, span_sorted _ _⟩
    exact (mem_descendants_iff.1 hi).1.lt_and_stop_le.1
  | parent | ancestor | precedingSibling | preceding | ancestorOrSelf => cases ha

/-- **A reverse axis lists its nodes against document order**, none twice. -/
lemma axis_sorted_of_isReverse {a : Axis} (ha : a.isReverse = true) (n : Nat) :
    (d.axis a n).Pairwise (· > ·) := by
  cases a with
  | parent =>
    simp only [axis]
    cases d.parent? n with
    | none => exact List.Pairwise.nil
    | some p => exact List.pairwise_singleton _ _
  | ancestor => exact ancestors_sorted n
  | precedingSibling =>
    exact (List.pairwise_reverse.2 (siblings_sorted n)).filter _
  | preceding => exact List.pairwise_reverse.2 ((span_sorted _ _).filter _)
  | ancestorOrSelf =>
    refine List.pairwise_cons.2 ⟨fun i hi => ?_, ancestors_sorted n⟩
    exact (mem_ancestors_iff.1 hi).lt_and_stop_le.1
  | child | descendant | followingSibling | following | «attribute» | namespaces | itself
  | descendantOrSelf => cases ha

/-! ## Size -/

/-- An axis leads to nodes of the document. -/
lemma lt_size_of_mem_axis (hn : n < d.size) {a : Axis} (hj : j ∈ d.axis a n) : j < d.size := by
  have h := (mem_axis_iff hn a).1 hj
  cases a with
  | child | «attribute» => exact (parent_lt h.1).2
  | descendant => exact h.1.lt_size
  | parent => exact lt_trans (parent_lt h).1 hn
  | ancestor => exact lt_trans h.lt_and_stop_le.1 hn
  | followingSibling =>
    obtain ⟨-, -, -, p, -, hp⟩ := h
    exact (parent_lt hp).2
  | precedingSibling | preceding => exact lt_trans h.1 hn
  | following => exact h.2.1
  | namespaces => exact h.elim
  | itself => exact h ▸ hn
  | descendantOrSelf =>
    rcases h with rfl | ⟨h, -⟩
    · exact hn
    · exact h.lt_size
  | ancestorOrSelf =>
    rcases h with rfl | h
    · exact hn
    · exact lt_trans h.lt_and_stop_le.1 hn

/-- An axis leads to no more nodes than there are, since it lists none twice. -/
lemma length_axis_le (hn : n < d.size) (a : Axis) : (d.axis a n).length ≤ d.size := by
  have hnodup : (d.axis a n).Nodup := by
    cases ha : a.isReverse with
    | false => exact (axis_sorted ha n).imp ne_of_lt
    | true => exact (axis_sorted_of_isReverse ha n).imp ne_of_gt
  have hsubset : d.axis a n ⊆ List.range d.size := fun j hj =>
    List.mem_range.2 (lt_size_of_mem_axis hn hj)
  have hlength := (List.Nodup.subperm hnodup hsubset).length_le
  rwa [List.length_range] at hlength

/-! ## The axes around a node -/

/-- The five axes around a node have no node in common.

**Proof sketch.** In numbers, `j` is the node itself, or before it with a stop behind it (an
ancestor), or before it with a stop before it, or behind it before its stop (a descendant), or
behind its stop. -/
lemma around_disjoint (hn : n < d.size) :
    Axis.around.Pairwise fun a b => ∀ j : Nat, j ∈ d.axis a n → j ∉ d.axis b n := by
  have hstop : n < d.stop n := d.numbered.lt_stop n hn
  simp only [Axis.around, List.pairwise_cons, List.forall_mem_cons, List.not_mem_nil,
    mem_axis_iff hn, OnAxis, encloses_iff, IsEmpty.forall_iff, implies_true, List.Pairwise.nil,
    and_true]
  refine ⟨⟨?_, ?_, ?_, ?_⟩, ⟨?_, ?_, ?_⟩, ⟨?_, ?_⟩, ?_⟩ <;> intro j h h' <;> omega

/-- Every node but an attribute is on one of the five axes around a node. -/
lemma exists_around (hn : n < d.size) (hj : j < d.size) (hk : d.kind j ≠ .attribute) :
    ∃ a ∈ Axis.around, j ∈ d.axis a n := by
  rcases Nat.lt_trichotomy j n with hlt | rfl | hlt
  · by_cases he : d.Encloses j n
    · exact ⟨.ancestor, by simp [Axis.around], (mem_axis_iff hn _).2 he⟩
    · exact ⟨.preceding, by simp [Axis.around], (mem_axis_iff hn _).2 ⟨hlt, hk, he⟩⟩
  · exact ⟨.itself, by simp [Axis.around], (mem_axis_iff hn _).2 rfl⟩
  · by_cases he : d.Encloses n j
    · exact ⟨.descendant, by simp [Axis.around], (mem_axis_iff hn _).2 ⟨he, hk⟩⟩
    · exact ⟨.following, by simp [Axis.around], (mem_axis_iff hn _).2 ⟨hlt, hj, hk, he⟩⟩

/-! ## The following axis by siblings -/

/-- Attributes enclose nothing. -/
lemma Encloses.kind_ne_attribute {i : Nat} (h : d.Encloses i j) : d.kind i ≠ .attribute := by
  obtain ⟨k, hk, -⟩ := Relation.TransGen.head'_iff.1 h
  rcases kind_parent hk with hr | he
  · simp [hr]
  · simp [he]

/-- What a node encloses is one of its members, or inside one. -/
lemma Encloses.exists_child {p : Nat} (h : d.Encloses p j) :
    ∃ s : Nat, d.parent? s = some p ∧ (j = s ∨ d.Encloses s j) := by
  obtain ⟨s, hs, hj⟩ := Relation.TransGen.head'_iff.1 h
  exact ⟨s, hs, Relation.reflTransGen_iff_eq_or_transGen.1 hj⟩

/-- A node behind `n` that `n` does not enclose is behind all nodes around `n` up to a certain one,
and inside the parent of that one.

**Proof sketch.** Strong induction upwards from `n`. Either the parent encloses the node, or the
node lies behind the stop of the parent as well. The root stops behind all nodes. -/
lemma exists_outermost (hj : j < d.size) (hstop : d.stop n ≤ j) (hn : n < d.size) :
    ∃ a p : Nat, (a = n ∨ d.Encloses a n) ∧ d.parent? a = some p ∧ d.stop a ≤ j ∧
      d.Encloses p j := by
  induction n using Nat.strong_induction_on with
  | _ n ih =>
    have hroot : d.stop 0 = d.size := d.numbered.stop_root
    have h0 : 0 < n := by
      rcases Nat.eq_zero_or_pos n with rfl | h0
      · omega
      · exact h0
    have hlt : n < d.stop n := d.numbered.lt_stop n hn
    obtain ⟨p, hp⟩ := exists_parent hn h0
    have hpn := (parent_lt hp).1
    by_cases hpj : d.stop p ≤ j
    · obtain ⟨a, q, ha, haq, haj, hq⟩ := ih p hpn hpj (by omega)
      refine ⟨a, q, .inr ?_, haq, haj, hq⟩
      rcases ha with rfl | ha
      · exact encloses_of_parent hp
      · exact ha.tail hp
    · exact ⟨n, p, .inl rfl, hp, hstop, encloses_iff.2 ⟨by omega, by omega⟩⟩

/-- A node that follows another one is a sibling behind that one or behind a node around it, or
inside such a sibling.

**Proof sketch.** Climb from the node `n` as long as the node `j` stays outside, to `a`. The parent
of `a` encloses `j`, so `j` is in one of its members, and that member is not `a` and not before
`a`, since siblings come one behind the other. -/
lemma exists_sibling_of_following (hn : n < d.size) (hk : d.kind n ≠ .attribute)
    (h : j ∈ d.axis .following n) : ∃ a ∈ d.axis .ancestorOrSelf n,
      ∃ s ∈ d.axis .followingSibling a, j ∈ d.axis .descendantOrSelf s := by
  have hlt : n < d.stop n := d.numbered.lt_stop n hn
  obtain ⟨hnj, hj, hkj, hne⟩ := (mem_axis_iff hn _).1 h
  rw [encloses_iff] at hne
  obtain ⟨a, p, ha, hap, haj, hpj⟩ := exists_outermost hj (by omega) hn
  obtain ⟨s, hsp, hs⟩ := hpj.exists_child
  have hka : d.kind a ≠ .attribute := by
    rcases ha with rfl | ha
    · exact hk
    · exact ha.kind_ne_attribute
  have hks : d.kind s ≠ .attribute := by
    rcases hs with rfl | hs
    · exact hkj
    · exact hs.kind_ne_attribute
  have hsj : s ≤ j ∧ j < d.stop s := by
    rcases hs with rfl | hs
    · exact ⟨le_rfl, d.numbered.lt_stop j hj⟩
    · have := encloses_iff.1 hs
      omega
  have halt : a < d.stop a := d.numbered.lt_stop a (parent_lt hap).2
  have has : a < s := by
    rcases Nat.lt_trichotomy a s with has | rfl | hsa
    · exact has
    · omega
    · have := AreSiblings.stop_le ⟨hks, hka, p, hsp, hap⟩ hsa
      omega
  refine ⟨a, (mem_axis_iff hn _).2 ha, s, ?_, ?_⟩
  · exact (mem_axis_iff (parent_lt hap).2 _).2 ⟨has, hka, hks, p, hap, hsp⟩
  · exact (mem_axis_iff (parent_lt hsp).2 _).2 (hs.imp id fun h => ⟨h, hkj⟩)

/-- A sibling behind a node or behind a node around it follows the node, and so does what is inside
of it: the sibling begins where the node around stops or behind, and the node stops there at the
latest. -/
lemma mem_following_of_sibling (hn : n < d.size) {a s : Nat} (ha : a ∈ d.axis .ancestorOrSelf n)
    (hs : s ∈ d.axis .followingSibling a) (hj : j ∈ d.axis .descendantOrSelf s) :
    j ∈ d.axis .following n := by
  have hlt : n < d.stop n := d.numbered.lt_stop n hn
  have ha' : a = n ∨ d.Encloses a n := (mem_axis_iff hn _).1 ha
  have hasize : a < d.size := by
    rcases ha' with rfl | h
    · exact hn
    · exact Nat.lt_trans h.lt_and_stop_le.1 hn
  obtain ⟨has, hsib⟩ : a < s ∧ d.AreSiblings a s := (mem_axis_iff hasize _).1 hs
  have hstops : d.stop n ≤ s := by
    have hle := hsib.stop_le has
    rcases ha' with rfl | h
    · exact hle
    · exact le_trans h.lt_and_stop_le.2 hle
  obtain ⟨-, hks, p, -, hsp⟩ := hsib
  have hssize := (parent_lt hsp).2
  have hj' : j = s ∨ d.Encloses s j ∧ d.kind j ≠ .attribute := (mem_axis_iff hssize _).1 hj
  rw [mem_axis_iff hn]
  rcases hj' with rfl | ⟨he, hkj⟩
  · exact ⟨by omega, hssize, hks, by rw [encloses_iff]; omega⟩
  · have hsj := he.lt_and_stop_le.1
    exact ⟨by omega, he.lt_size, hkj, by rw [encloses_iff]; omega⟩

/-- **The nodes that follow a node** are the siblings behind it or behind a node around it, and
what these siblings enclose. -/
lemma mem_following_iff_siblings (hn : n < d.size) (hk : d.kind n ≠ .attribute) :
    j ∈ d.axis .following n ↔ ∃ a ∈ d.axis .ancestorOrSelf n,
      ∃ s ∈ d.axis .followingSibling a, j ∈ d.axis .descendantOrSelf s :=
  ⟨exists_sibling_of_following hn hk,
    fun ⟨_, ha, _, hs, hj⟩ => mem_following_of_sibling hn ha hs hj⟩

/-! ## Exactness -/

/-- What the axes from the node `n` list, and how they fit together. -/
structure AxesExact (d : Document) (n : Nat) : Prop where
  /-- Each axis lists the nodes that parent links and document order put there. -/
  mem : ∀ a j, j ∈ d.axis a n ↔ d.OnAxis n j a
  /-- Forward axes list them in document order. -/
  forward : ∀ a : Axis, a.isReverse = false → (d.axis a n).Pairwise (· < ·)
  /-- Reverse axes list them against document order. -/
  backward : ∀ a : Axis, a.isReverse = true → (d.axis a n).Pairwise (· > ·)
  /-- The five axes around a node have no node in common. -/
  disjoint : Axis.around.Pairwise fun a b => ∀ j : Nat, j ∈ d.axis a n → j ∉ d.axis b n
  /-- Together they list every node but attributes. -/
  cover : ∀ j < d.size, d.kind j ≠ .attribute → ∃ a ∈ Axis.around, j ∈ d.axis a n
  /-- What follows a node are the siblings behind it or behind a node around it, with what these
  enclose. -/
  following : d.kind n ≠ .attribute → ∀ j, j ∈ d.axis .following n ↔
    ∃ a ∈ d.axis .ancestorOrSelf n, ∃ s ∈ d.axis .followingSibling a,
      j ∈ d.axis .descendantOrSelf s

/-- **The axes are exact** from every node of every document.

**Proof sketch.** What a node encloses are the nodes behind it up to its stop, so every axis is a
range of numbers or follows parent links (`mem_axis_iff`). Two nodes can lie to each other in five
ways, one for each axis around a node (`around_disjoint`, `exists_around`). For a node that follows
`n`, climb from `n` as long as it stays outside: it is then in a sibling of the node reached
(`exists_sibling_of_following`). -/
theorem axis_exact {d : Document} {n : Nat} (hn : n < d.size) : d.AxesExact n where
  mem a _ := mem_axis_iff hn a
  forward _ ha := axis_sorted ha n
  backward _ ha := axis_sorted_of_isReverse ha n
  disjoint := around_disjoint hn
  cover _ hj hk := exists_around hn hj hk
  following hk _ := mem_following_iff_siblings hn hk

/-- The axes from a text between two elements, in a document with two elements at the top. -/
theorem axis_exact_text : ∃ d : Document,
    Document.parse "<a x=\"1\"><b/>t<c y=\"2\"/></a><d>u</d>" = .ok d ∧ 4 < d.size ∧
      d.AxesExact 4 := by
  have hsize : (Document.parse "<a x=\"1\"><b/>t<c y=\"2\"/></a><d>u</d>").toOption.map size =
      some 9 := by decide +kernel
  obtain ⟨d, hsome, hsize⟩ := Option.map_eq_some_iff.1 hsize
  have hn : 4 < d.size := by omega
  exact ⟨d, toOption_eq_some_iff.1 hsome, hn, axis_exact hn⟩

end Document

end XmlHarvest
