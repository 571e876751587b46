import XmlHarvest.Document.Node

/-!
# Numbering

What the numbers of a document's nodes tell. The links of a tree and the numbers of its nodes say
the same thing twice: a node lies behind its parent, and the nodes inside a node are those up to
its `stop`. The conditions here are local, that is, each speaks of a node and its parent only.

They are stated for any function `stop`, so that they can be asked of a document of which some
elements are still open as well: such an element has every node behind it inside.

## Main definitions

* `Numbered`: nodes that are numbered in document order.
* `Document`: the nodes of a document.
-/

namespace XmlHarvest

/-- The nodes are numbered in document order, and the nodes inside the node `i` are those behind it
up to `stop i`. -/
structure Numbered (nodes : Array Node) (stop : Nat → Nat) : Prop where
  nonempty : 0 < nodes.size
  kind_eq_root_iff : ∀ i : Nat, i < nodes.size → ((nodeAt nodes i).kind = .root ↔ i = 0)
  parent_root : (nodeAt nodes 0).parent = none
  parent_of_pos : ∀ i : Nat, 0 < i → i < nodes.size →
    ∃ p : Nat, p < i ∧ (nodeAt nodes i).parent = some p
  /-- Only the root and elements hold other nodes. -/
  kind_parent : ∀ i p : Nat, (nodeAt nodes i).parent = some p →
    (nodeAt nodes p).kind = .root ∨ (nodeAt nodes p).kind = .element
  /-- Only elements have attributes. -/
  kind_parent_attribute : ∀ i p : Nat, (nodeAt nodes i).parent = some p →
    (nodeAt nodes i).kind = .attribute → (nodeAt nodes p).kind = .element
  mem_children : ∀ p i : Nat, i ∈ (nodeAt nodes p).children ↔
    (nodeAt nodes i).parent = some p ∧ (nodeAt nodes i).kind ≠ .attribute
  children_sorted : ∀ p : Nat, (nodeAt nodes p).children.Pairwise (· < ·)
  mem_attributes : ∀ p i : Nat, i ∈ (nodeAt nodes p).attributes ↔
    (nodeAt nodes i).parent = some p ∧ (nodeAt nodes i).kind = .attribute
  /-- The attributes come directly behind their element. -/
  attributes_eq : ∀ p : Nat, (nodeAt nodes p).attributes =
    List.range' (p + 1) (nodeAt nodes p).attributes.length
  lt_stop : ∀ i : Nat, i < nodes.size → i < stop i
  stop_le : ∀ i : Nat, i < nodes.size → stop i ≤ nodes.size
  stop_root : stop 0 = nodes.size
  /-- A node ends where its parent ends or before. -/
  stop_le_stop : ∀ i p : Nat, (nodeAt nodes i).parent = some p → stop i ≤ stop p
  /-- A node inside another has its parent there, or the other one as its parent. -/
  le_parent : ∀ i j : Nat, i < j → j < stop i →
    ∃ p : Nat, (nodeAt nodes j).parent = some p ∧ i ≤ p

namespace Numbered

variable {nodes : Array Node} {stop : Nat → Nat}

theorem parent_lt (h : Numbered nodes stop) {i p : Nat}
    (hp : (nodeAt nodes i).parent = some p) : p < i ∧ i < nodes.size := by
  by_cases hi : i < nodes.size
  · by_cases h0 : i = 0
    · subst h0
      simp [h.parent_root] at hp
    · obtain ⟨q, hq, hqp⟩ := h.parent_of_pos i (by omega) hi
      rw [hp] at hqp
      cases hqp
      exact ⟨hq, hi⟩
  · rw [nodeAt_of_size_le (by omega)] at hp
    cases hp

/-- The numbering does not depend on the stops that the nodes themselves hold. -/
theorem congr {nodes' : Array Node} {stop' : Nat → Nat} (h : Numbered nodes stop)
    (hsize : nodes'.size = nodes.size)
    (hnode : ∀ i : Nat, ∃ s : Nat, nodeAt nodes' i = (nodeAt nodes i).close s)
    (hstop : ∀ i : Nat, stop' i = stop i) : Numbered nodes' stop' := by
  have hkind (i : Nat) : (nodeAt nodes' i).kind = (nodeAt nodes i).kind := by
    obtain ⟨s, hs⟩ := hnode i
    rw [hs, Node.kind_close]
  have hparent (i : Nat) : (nodeAt nodes' i).parent = (nodeAt nodes i).parent := by
    obtain ⟨s, hs⟩ := hnode i
    rw [hs, Node.parent_close]
  have hattributes (i : Nat) : (nodeAt nodes' i).attributes = (nodeAt nodes i).attributes := by
    obtain ⟨s, hs⟩ := hnode i
    rw [hs, Node.attributes_close]
  have hchildren (i : Nat) : (nodeAt nodes' i).children = (nodeAt nodes i).children := by
    obtain ⟨s, hs⟩ := hnode i
    rw [hs, Node.children_close]
  obtain rfl : stop' = stop := funext hstop
  constructor <;> simp only [hsize, hkind, hparent, hattributes, hchildren]
  case nonempty => exact h.nonempty
  case kind_eq_root_iff => exact h.kind_eq_root_iff
  case parent_root => exact h.parent_root
  case parent_of_pos => exact h.parent_of_pos
  case kind_parent => exact h.kind_parent
  case kind_parent_attribute => exact h.kind_parent_attribute
  case mem_children => exact h.mem_children
  case children_sorted => exact h.children_sorted
  case mem_attributes => exact h.mem_attributes
  case attributes_eq => exact h.attributes_eq
  case lt_stop => exact h.lt_stop
  case stop_le => exact h.stop_le
  case stop_root => exact h.stop_root
  case stop_le_stop => exact h.stop_le_stop
  case le_parent => exact h.le_parent

end Numbered

/-- The nodes of a document, numbered in document order. There are numbers for all of them. -/
structure Document where
  nodes : Array Node
  numbered : Numbered nodes fun i => (nodeAt nodes i).stop
  size_lt : nodes.size < nodeLimit

end XmlHarvest
