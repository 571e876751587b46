import Mathlib.Data.List.Nodup
import Mathlib.Data.Nat.Basic
import Mathlib.Logic.Relation
import XmlHarvest.Document.Basic
import XmlHarvest.Proofs.Except

/-!
# Documents as trees

The numbers of a document's nodes against its parent links. A node encloses another one if the
parent links of the other one lead to it, and that is a matter of two comparisons: the nodes that
a node encloses are those behind it up to its stop.

## Main definitions

* `Document.Encloses`: parent links lead from one node to another.
* `Document.IsNumberedTree`: the links of a tree, and the numbers of its nodes in document order.

## Main results

* `Document.encloses_iff`: enclosure by numbers.
* `Document.mem_ancestors_iff`: the ancestors of a node are the nodes that enclose it.
* `Document.isNumberedTree`, `Document.isAncestorOf_iff_mem_ancestors`: every document is a numbered
  tree.
* `Document.parse_isNumberedTree`: so is the document of a text.
-/

namespace XmlHarvest

namespace Document

variable (d : Document)

/-- Following parent links from the node `j`, one or more of them, leads to the node `i`. -/
def Encloses (i j : Nat) : Prop :=
  Relation.TransGen (fun p k => d.parent? k = some p) i j

variable {d}

/-! ## Links -/

/-- A node with a parent is a node of the document, and its parent lies before it. -/
lemma parent_lt {i p : Nat} (h : d.parent? i = some p) : p < i ∧ i < d.size :=
  d.numbered.parent_lt h

/-- Every node but the root has a parent. -/
lemma exists_parent {i : Nat} (hi : i < d.size) (h0 : 0 < i) : ∃ p : Nat, d.parent? i = some p := by
  obtain ⟨p, -, hp⟩ := d.numbered.parent_of_pos i h0 hi
  exact ⟨p, hp⟩

/-- The root has no parent. -/
@[simp] lemma parent?_zero : d.parent? 0 = none :=
  d.numbered.parent_root

/-- The document has a root. -/
lemma size_pos : 0 < d.size :=
  d.numbered.nonempty

/-- Only the root has the kind of a root. -/
lemma kind_eq_root_iff {i : Nat} (hi : i < d.size) : d.kind i = .root ↔ i = 0 :=
  d.numbered.kind_eq_root_iff i hi

/-- Only the root and elements hold other nodes. -/
lemma kind_parent {i p : Nat} (h : d.parent? i = some p) :
    d.kind p = .root ∨ d.kind p = .element :=
  d.numbered.kind_parent i p h

/-- The children of a node are the nodes with this parent that are no attributes. -/
lemma mem_children_iff {p i : Nat} :
    i ∈ d.children p ↔ d.parent? i = some p ∧ d.kind i ≠ .attribute :=
  d.numbered.mem_children p i

/-- The attributes of a node are the attributes with this parent. -/
lemma mem_attributes_iff {p i : Nat} :
    i ∈ d.attributes p ↔ d.parent? i = some p ∧ d.kind i = .attribute :=
  d.numbered.mem_attributes p i

/-- Children are listed in document order. -/
lemma children_sorted (p : Nat) : (d.children p).Pairwise (· < ·) :=
  d.numbered.children_sorted p

/-- The attributes of an element come directly behind it. -/
lemma attributes_eq_range' (p : Nat) :
    d.attributes p = List.range' (p + 1) (d.attributes p).length :=
  d.numbered.attributes_eq p

/-- Attributes are listed in document order. -/
lemma attributes_sorted (p : Nat) : (d.attributes p).Pairwise (· < ·) := by
  rw [attributes_eq_range']
  exact List.pairwise_lt_range'

/-! ## Enclosure -/

/-- A node encloses the nodes whose parent it is. -/
lemma encloses_of_parent {i j : Nat} (h : d.parent? j = some i) : d.Encloses i j :=
  .single h

/-- An enclosed node lies behind the node that encloses it, and stops where that one stops or
before.

**Proof sketch.** Induction on the parent links, each of which keeps both: a parent lies before
the node and stops where the node stops or behind. -/
lemma Encloses.lt_and_stop_le {i j : Nat} (h : d.Encloses i j) : i < j ∧ d.stop j ≤ d.stop i := by
  induction h with
  | single hp => exact ⟨(parent_lt hp).1, d.numbered.stop_le_stop _ _ hp⟩
  | tail _ hp ih =>
    have hlt := (parent_lt hp).1
    have hle := d.numbered.stop_le_stop _ _ hp
    exact ⟨Nat.lt_trans ih.1 hlt, Nat.le_trans hle ih.2⟩

/-- An enclosed node is a node of the document, as it has a parent. -/
lemma Encloses.lt_size {i j : Nat} (h : d.Encloses i j) : j < d.size := by
  cases h with
  | single hp => exact (parent_lt hp).2
  | tail _ hp => exact (parent_lt hp).2

/-- **Enclosure by numbers**: the nodes that the node `i` encloses are those behind it up to its
stop.

**Proof sketch.** The links of an enclosed node keep to the range by `Encloses.lt_and_stop_le`.
Conversely, the parent of a node in the range is `i` itself or in the range again, and it has a
smaller number, so that strong induction leads to `i`. -/
lemma encloses_iff {i j : Nat} : d.Encloses i j ↔ i < j ∧ j < d.stop i := by
  constructor
  · intro h
    obtain ⟨hlt, hle⟩ := h.lt_and_stop_le
    have hj : j < d.stop j := d.numbered.lt_stop j h.lt_size
    exact ⟨hlt, by omega⟩
  · induction j using Nat.strong_induction_on with
    | _ j ih =>
      rintro ⟨hij, hj⟩
      obtain ⟨p, hp, hip⟩ := d.numbered.le_parent i j hij hj
      have hpj := (parent_lt hp).1
      rcases Nat.eq_or_lt_of_le hip with rfl | hlt
      · exact .single hp
      · exact (ih p hpj ⟨hlt, by omega⟩).tail hp

/-- The ancestors of a node are the nodes that enclose it.

**Proof sketch.** Induction along the parent links that `ancestors` follows. The last link of an
enclosure is the parent link of the node itself. -/
lemma mem_ancestors_iff {i j : Nat} : i ∈ d.ancestors j ↔ d.Encloses i j := by
  induction j using Nat.strong_induction_on with
  | _ j ih =>
    rw [ancestors]
    cases hp : d.parent? j with
    | none =>
      refine ⟨fun h => by simp at h, fun h => ?_⟩
      cases h with
      | single h => simp [hp] at h
      | tail _ h => simp [hp] at h
    | some p =>
      have hlt := (parent_lt hp).1
      simp only [if_pos hlt, List.mem_cons, ih p hlt]
      constructor
      · rintro (rfl | h)
        · exact .single hp
        · exact h.tail hp
      · intro h
        cases h with
        | single h =>
          rw [hp] at h
          exact .inl (Option.some.inj h).symm
        | tail h' h =>
          rw [hp] at h
          cases h
          exact .inr h'

/-- One node is an ancestor of another by numbers if it is one by parent links. -/
lemma isAncestorOf_iff {i j : Nat} : d.isAncestorOf i j = true ↔ d.Encloses i j := by
  rw [encloses_iff, isAncestorOf, Bool.and_eq_true, decide_eq_true_iff, decide_eq_true_iff]

/-! ## Numbered trees -/

variable (d) in
/-- The parent links of a document are those of a tree, the lists of attributes and children agree
with them, and the numbers are those of document order. -/
structure IsNumberedTree : Prop where
  /-- There is a root, without a parent. -/
  root : 0 < d.size ∧ d.parent? 0 = none ∧ ∀ i < d.size, d.kind i = .root ↔ i = 0
  /-- Every other node lies behind its parent, which lists it once. -/
  parent : ∀ i, 0 < i → i < d.size → ∃ p < i, d.parent? i = some p ∧
    if d.kind i = .attribute then (d.attributes p).count i = 1 ∧ (d.children p).count i = 0
    else (d.children p).count i = 1 ∧ (d.attributes p).count i = 0
  /-- No node lists others than those whose parent it is. -/
  listed : ∀ p i, i ∈ d.attributes p ∨ i ∈ d.children p → d.parent? i = some p
  attributes_sorted : ∀ p, (d.attributes p).Pairwise (· < ·)
  children_sorted : ∀ p, (d.children p).Pairwise (· < ·)
  /-- Attributes have the numbers directly behind the number of their element. -/
  attributes_next : ∀ p, d.attributes p = List.range' (p + 1) (d.attributes p).length
  /-- Only the root has children besides elements, and only elements have attributes. -/
  holder : ∀ p < d.size, (d.attributes p ≠ [] → d.kind p = .element) ∧
    (d.children p ≠ [] → d.kind p = .root ∨ d.kind p = .element)
  /-- The nodes inside a node are those that parent links lead to it from. -/
  range : ∀ i < d.size, ∀ j, i < j ∧ j < d.stop i ↔ d.Encloses i j

/-- **Every document is a numbered tree.**

**Proof sketch.** The conditions that a document carries speak of a node and its parent. Enclosure
is derived from them by induction on the way from a node to its ancestors (`encloses_iff`), and the
rest is read off. -/
theorem isNumberedTree (d : Document) : d.IsNumberedTree where
  root := ⟨size_pos, parent?_zero, fun _ hi => kind_eq_root_iff hi⟩
  parent i h0 hi := by
    obtain ⟨p, hp⟩ := exists_parent hi h0
    have hattributes := (attributes_sorted (d := d) p).imp ne_of_lt
    have hchildren := (children_sorted (d := d) p).imp ne_of_lt
    refine ⟨p, (parent_lt hp).1, hp, ?_⟩
    split
    · rename_i hk
      exact ⟨List.count_eq_one_of_mem hattributes (mem_attributes_iff.2 ⟨hp, hk⟩),
        List.count_eq_zero.2 fun h => (mem_children_iff.1 h).2 hk⟩
    · rename_i hk
      exact ⟨List.count_eq_one_of_mem hchildren (mem_children_iff.2 ⟨hp, hk⟩),
        List.count_eq_zero.2 fun h => hk (mem_attributes_iff.1 h).2⟩
  listed p i h := by
    rcases h with h | h
    · exact (mem_attributes_iff.1 h).1
    · exact (mem_children_iff.1 h).1
  attributes_sorted := attributes_sorted
  children_sorted := children_sorted
  attributes_next := attributes_eq_range'
  holder p _ := by
    constructor
    · intro h
      obtain ⟨i, hi⟩ := List.exists_mem_of_ne_nil _ h
      obtain ⟨hp, hk⟩ := mem_attributes_iff.1 hi
      exact d.numbered.kind_parent_attribute i p hp hk
    · intro h
      obtain ⟨i, hi⟩ := List.exists_mem_of_ne_nil _ h
      exact kind_parent (mem_children_iff.1 hi).1
  range _ _ _ := encloses_iff.symm

/-- Whether one node is an ancestor of another can be read off the numbers as well as off the list
of ancestors. -/
lemma isAncestorOf_iff_mem_ancestors {x y : Nat} :
    d.isAncestorOf x y = true ↔ x ∈ d.ancestors y := by
  rw [isAncestorOf_iff, mem_ancestors_iff]

/-- **The document of a text is a numbered tree**, and whether one node is an ancestor of another
can be read off the numbers as well as off the parent links.

**Proof sketch.** It holds of every document, since the builder keeps the numbering at every event
and a document carries it (`isNumberedTree`, `isAncestorOf_iff_mem_ancestors`). -/
theorem parse_isNumberedTree (text : String) : ∀ d : Document, Document.parse text = .ok d →
    d.IsNumberedTree ∧ ∀ x y, d.isAncestorOf x y = true ↔ x ∈ d.ancestors y :=
  fun d _ => ⟨d.isNumberedTree, fun _ _ => isAncestorOf_iff_mem_ancestors⟩

/-- A text with a comment before its element, which has an attribute and two children. -/
theorem parse_isNumberedTree_comment_element : ∃ d : Document,
    Document.parse "<!--c--><a x=\"1\"><b y=\"2\">t</b><c/></a>" = .ok d ∧ d.size = 8 ∧
      d.IsNumberedTree ∧ ∀ x y, d.isAncestorOf x y = true ↔ x ∈ d.ancestors y := by
  have hsize : (Document.parse "<!--c--><a x=\"1\"><b y=\"2\">t</b><c/></a>").toOption.map size =
      some 8 := by decide +kernel
  obtain ⟨d, hsome, hsize⟩ := Option.map_eq_some_iff.1 hsize
  have hd := toOption_eq_some_iff.1 hsome
  exact ⟨d, hd, hsize, parse_isNumberedTree _ d hd⟩

end Document

end XmlHarvest
