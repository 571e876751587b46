import Mathlib.Data.List.Sort
import XmlHarvest.Proofs.Document.Axes

/-!
# String-values by the members of the content

The string-value of an element is read off a range of numbers, in which nodes of all kinds stand.
The range is made of the ranges of the members of the content, one behind the other, once the
attributes at its beginning are left out. So the string-value is made of those of the members that
are elements or texts, and in the end of the texts inside, at whatever depth; nothing else says
anything.

## Main definitions

* `Document.textsIn`: the texts inside a node.

## Main results

* `Document.descendants_eq_flatMap_children`: the members of the content, each with what is inside
  of it, fill the range of a node.
* `Document.stringValue_by_content`: string-values are made of those of the content.
-/

namespace XmlHarvest

namespace Document

/-- The texts inside a node, at any depth. -/
def textsIn (d : Document) (i : NodeId) : List NodeId :=
  (d.descendants i).filter fun j => d.kind j = .text

variable {d : Document} {n i j : Nat}

/-! ## The range of a node -/

/-- The nodes from a member of the content up to its stop. -/
lemma mem_branch_iff {c : Nat} (hc : c ∈ d.children n) :
    j ∈ c :: d.descendants c ↔ c ≤ j ∧ j < d.stop c ∧ d.kind j ≠ .attribute := by
  obtain ⟨hp, hk⟩ := mem_children_iff.1 hc
  have hstop : c < d.stop c := d.numbered.lt_stop c (parent_lt hp).2
  rw [List.mem_cons, mem_descendants_iff, encloses_iff]
  constructor
  · rintro (rfl | ⟨⟨hcj, hj⟩, hkj⟩)
    · exact ⟨le_rfl, hstop, hk⟩
    · exact ⟨hcj.le, hj, hkj⟩
  · rintro ⟨hcj, hj, hkj⟩
    rcases Nat.eq_or_lt_of_le hcj with rfl | hlt
    · exact .inl rfl
    · exact .inr ⟨⟨hlt, hj⟩, hkj⟩

/-- What is inside a node is a member of its content or inside one. -/
lemma mem_descendants_iff_branch :
    j ∈ d.descendants n ↔ ∃ c ∈ d.children n, j ∈ c :: d.descendants c := by
  simp only [List.mem_cons, mem_descendants_iff]
  constructor
  · rintro ⟨he, hk⟩
    obtain ⟨c, hc, hj⟩ := he.exists_child
    refine ⟨c, mem_children_iff.2 ⟨hc, ?_⟩, hj.imp_right fun h => ⟨h, hk⟩⟩
    rcases hj with rfl | hj
    · exact hk
    · exact hj.kind_ne_attribute
  · rintro ⟨c, hc, hj⟩
    obtain ⟨hp, hk⟩ := mem_children_iff.1 hc
    rcases hj with rfl | ⟨he, hkj⟩
    · exact ⟨encloses_of_parent hp, hk⟩
    · exact ⟨.head hp he, hkj⟩

/-- The members of the content with what is inside of them come in document order: each of them
stops before the next one begins. -/
lemma branches_sorted (n : Nat) :
    ((d.children n).flatMap fun c => c :: d.descendants c).Pairwise (· < ·) := by
  rw [List.pairwise_flatMap]
  refine ⟨fun c _ => axis_sorted (a := .descendantOrSelf) rfl c, ?_⟩
  refine (children_sorted n).imp_of_mem fun {a b} ha hb hab i hi j hj => ?_
  obtain ⟨hpa, hka⟩ := mem_children_iff.1 ha
  obtain ⟨hpb, hkb⟩ := mem_children_iff.1 hb
  have hle : d.stop a ≤ b := AreSiblings.stop_le ⟨hka, hkb, n, hpa, hpb⟩ hab
  have hi := ((mem_branch_iff ha).1 hi).2.1
  have hj := ((mem_branch_iff hb).1 hj).1
  exact lt_of_lt_of_le hi (hle.trans hj)

/-- **The range of a node**, without attributes, is filled by the members of its content, each with
what is inside of it.

**Proof sketch.** Both lists are in document order and have the same members. -/
lemma descendants_eq_flatMap_children (n : Nat) :
    d.descendants n = (d.children n).flatMap fun c => c :: d.descendants c := by
  refine List.Pairwise.eq_of_mem_iff (span_sorted _ _) (branches_sorted n) fun j => ?_
  rw [List.mem_flatMap]
  exact mem_descendants_iff_branch

/-! ## What the nodes of a range say -/

/-- Only a text has characters of its own. -/
lemma textOf_eq_empty (h : d.kind i ≠ .text) : d.textOf i = "" := by
  unfold textOf
  split
  · rename_i chars hcontent
    exact (h (congrArg Content.kind hcontent)).elim
  · rfl

/-- The string-value of a text is its characters. -/
lemma stringValue_of_text (h : d.kind i = .text) : d.stringValue i = d.textOf i := by
  rw [stringValue, h]
  show (d.node i).content.value?.getD "" = _
  unfold textOf
  have hcontent : (d.node i).content.kind = .text := h
  cases hc : (d.node i).content with
  | text chars => rfl
  | root | element _ | «attribute» _ _ | comment _ | instruction _ _ =>
    rw [hc] at hcontent
    cases hcontent

/-- Nodes without characters may be left out. -/
lemma join_textOf_filter {p : Nat → Bool} {is : List Nat}
    (h : ∀ i ∈ is, p i = false → d.kind i ≠ .text) :
    String.join ((is.filter p).map d.textOf) = String.join (is.map d.textOf) := by
  induction is with
  | nil => rfl
  | cons i is ih =>
    obtain ⟨hi, his⟩ := List.forall_mem_cons.1 h
    cases hp : p i with
    | true => rw [List.filter_cons_of_pos hp, List.map_cons, List.map_cons, String.join_cons,
        String.join_cons, ih his]
    | false =>
      rw [List.filter_cons_of_neg (by simp [hp]), ih his, List.map_cons, String.join_cons,
        textOf_eq_empty (hi hp), String.empty_append]

/-- The string-value of the root and of an element is what the nodes inside say. -/
lemma stringValue_eq_join (h : d.kind n = .root ∨ d.kind n = .element) :
    d.stringValue n = String.join ((d.descendants n).map d.textOf) := by
  have hrange : d.stringValue n =
      String.join ((List.range' (n + 1) (d.stop n - (n + 1))).map d.textOf) := by
    rcases h with h | h <;> rw [stringValue, h]
  rw [hrange, descendants, span, join_textOf_filter]
  intro i _ hi htext
  simp [htext] at hi

/-- There is nothing inside a node that is neither the root nor an element. -/
lemma descendants_eq_nil (hroot : d.kind n ≠ .root) (helement : d.kind n ≠ .element) :
    d.descendants n = [] := by
  rw [List.eq_nil_iff_forall_not_mem]
  intro j hj
  obtain ⟨he, -⟩ := mem_descendants_iff.1 hj
  obtain ⟨c, hc, -⟩ := he.exists_child
  exact (kind_parent hc).elim hroot helement

/-- What a member of the content says together with the nodes inside of it: its string-value, if it
is an element or a text, and nothing otherwise. -/
lemma join_branch {c : Nat} (hc : c ∈ d.children n) :
    String.join ((c :: d.descendants c).map d.textOf) =
      if d.kind c = .element ∨ d.kind c = .text then d.stringValue c else "" := by
  obtain ⟨hp, hattribute⟩ := mem_children_iff.1 hc
  have hroot : d.kind c ≠ .root := by
    intro hk
    have hzero := (kind_eq_root_iff (parent_lt hp).2).1 hk
    rw [hzero, parent?_zero] at hp
    cases hp
  rw [List.map_cons, String.join_cons]
  cases hk : d.kind c with
  | element =>
    rw [textOf_eq_empty (by simp [hk]), String.empty_append, if_pos (.inl rfl),
      stringValue_eq_join (.inr hk)]
  | text =>
    rw [descendants_eq_nil (by simp [hk]) (by simp [hk]), if_pos (.inr rfl),
      stringValue_of_text hk, List.map_nil, String.join_nil, String.append_empty]
  | comment | instruction =>
    rw [descendants_eq_nil (by simp [hk]) (by simp [hk]), textOf_eq_empty (by simp [hk])]
    simp
  | root => exact (hroot hk).elim
  | «attribute» => exact (hattribute hk).elim

/-- What branches say together, if those that say nothing are left out. -/
lemma join_flatMap_eq {f : Nat → List Nat} {p : Nat → Prop} [DecidablePred p]
    {value : Nat → String} {is : List Nat}
    (h : ∀ i ∈ is, String.join ((f i).map d.textOf) = if p i then value i else "") :
    String.join ((is.flatMap f).map d.textOf) =
      String.join ((is.filter fun i => p i).map value) := by
  induction is with
  | nil => rfl
  | cons i is ih =>
    obtain ⟨hi, his⟩ := List.forall_mem_cons.1 h
    rw [List.flatMap_cons, List.map_append, String.join_append, hi, ih his]
    by_cases hp : p i
    · rw [if_pos hp, List.filter_cons_of_pos (by simpa using hp), List.map_cons, String.join_cons]
    · rw [if_neg hp, List.filter_cons_of_neg (by simpa using hp), String.empty_append]

/-! ## String-values -/

/-- The texts inside a node are the texts that parent links lead to it from. -/
lemma mem_textsIn_iff : i ∈ d.textsIn n ↔ d.Encloses n i ∧ d.kind i = .text := by
  rw [textsIn, List.mem_filter, mem_descendants_iff, decide_eq_true_iff]
  exact ⟨fun ⟨⟨he, _⟩, hk⟩ => ⟨he, hk⟩, fun ⟨he, hk⟩ => ⟨⟨he, by simp [hk]⟩, hk⟩⟩

/-- The texts inside a node are in document order. -/
lemma textsIn_sorted (n : Nat) : (d.textsIn n).Pairwise (· < ·) :=
  (span_sorted _ _).filter _

/-- The string-values of the texts inside a node are what the nodes inside say. -/
lemma join_textsIn (n : Nat) : String.join ((d.textsIn n).map d.stringValue) =
    String.join ((d.descendants n).map d.textOf) := by
  have hvalues : (d.textsIn n).map d.stringValue = (d.textsIn n).map d.textOf :=
    List.map_congr_left fun i hi => stringValue_of_text (mem_textsIn_iff.1 hi).2
  rw [hvalues, textsIn, join_textOf_filter]
  intro i _ hi
  simpa using hi

/-- The string-value of a text is its characters. -/
lemma stringValue_of_content {chars : String} (h : (d.node i).content = .text chars) :
    d.stringValue i = chars := by
  have hkind : d.kind i = .text := congrArg Content.kind h
  rw [stringValue_of_text hkind, textOf, h]

/-- **String-values are made of those of the content.** The string-value of the root and of every
element is that of its children that are elements or texts, one after the other, and the
string-value of a text is its characters. It is made of the texts that parent links lead to it from,
in document order, and of these alone: whatever comments, instructions and attributes there are, at
any depth, they say nothing.

**Proof sketch.** The range of the node is filled by the members of its content, each with what is
inside of it (`descendants_eq_flatMap_children`). What such a branch says is the string-value of the
member (`join_branch`). Nodes of the range that are no texts may be left out. -/
theorem stringValue_by_content {d : Document} {n : Nat}
    (hn : d.kind n = .root ∨ d.kind n = .element) :
    d.stringValue n = String.join (((d.children n).filter fun i =>
        d.kind i = .element ∨ d.kind i = .text).map d.stringValue) ∧
      d.stringValue n = String.join ((d.textsIn n).map d.stringValue) ∧
      (∀ i, i ∈ d.textsIn n ↔ d.Encloses n i ∧ d.kind i = .text) ∧
      (d.textsIn n).Pairwise (· < ·) ∧
      ∀ i chars, (d.node i).content = .text chars → d.stringValue i = chars := by
  have hvalue := stringValue_eq_join hn
  refine ⟨?_, ?_, fun _ => mem_textsIn_iff, textsIn_sorted n, fun _ _ => stringValue_of_content⟩
  · rw [hvalue, descendants_eq_flatMap_children, join_flatMap_eq fun _ hc => join_branch hc]
  · rw [hvalue, join_textsIn]

/-- An element with an attribute, a comment and an instruction at different depths. -/
theorem stringValue_by_content_mixed : ∃ d : Document,
    Document.parse "<a x=\"1\">p<!--c--><b>q<?i j?></b>r</a>" = .ok d ∧ d.kind 1 = .element ∧
      d.children 1 = [3, 4, 5, 8] ∧
      d.stringValue 1 = String.join ([3, 5, 8].map d.stringValue) ∧
      d.stringValue 1 = String.join ([3, 6, 8].map d.stringValue) ∧ d.stringValue 1 = "pqr" := by
  have h : ((Document.parse "<a x=\"1\">p<!--c--><b>q<?i j?></b>r</a>").toOption.map fun d =>
      (d.kind 1, d.children 1,
        (d.children 1).filter fun i => d.kind i = .element ∨ d.kind i = .text,
        d.textsIn 1, [3, 6, 8].map fun i => (d.node i).content)) =
      some (.element, [3, 4, 5, 8], [3, 5, 8], [3, 6, 8], [.text "p", .text "q", .text "r"]) := by
    decide +kernel
  obtain ⟨d, hd, h⟩ := Option.map_eq_some_iff.1 h
  simp only [Prod.mk.injEq, List.map_cons, List.map_nil, List.cons.injEq, and_true] at h
  obtain ⟨hkind, hchildren, hcontent, htexts, hp, hq, hr⟩ := h
  obtain ⟨hvalue, hjoined, -, -, htext⟩ := stringValue_by_content (.inr hkind)
  rw [hcontent] at hvalue
  rw [htexts] at hjoined
  refine ⟨d, toOption_eq_some_iff.1 hd, hkind, hchildren, hvalue, hjoined, ?_⟩
  rw [hjoined, List.map_cons, List.map_cons, List.map_cons, List.map_nil, htext 3 _ hp,
    htext 6 _ hq, htext 8 _ hr]
  decide

end Document

end XmlHarvest
