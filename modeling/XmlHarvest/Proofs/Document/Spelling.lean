import Mathlib.Data.List.Chain
import XmlHarvest.Document.Basic
import XmlHarvest.Proofs.Document.Layout

/-!
# Spellings of forests

One forest is spelled by many sequences of events. Character data may be cut into texts, character
data sections and references in any way, also into empty ones, declarations may stand anywhere, and
an element without content may come as one event or as two. All of these make the same document: the
layout of the forest in which texts that meet are one text, empty texts are left out, and so are
texts outside of elements.

## Main definitions

* `Forest.Spells`: the sequences of events that spell a forest.
* `Forest.merged`, `Forest.outermost`: what a document keeps of a forest inside of an element and at
  its top.
* `Forest.kinds`: the kinds of the members of a forest.
* `Forest.IsSeparated`: no text is empty, and no text is directly behind another one.

## Main results

* `Forest.Spells.ofEvents_append`, `Forest.Spells.ofEvents`: what a spelling amounts to.
* `Forest.IsSeparated.merged`, `Forest.IsSeparated.outermost`: what is kept is separated.
* `Forest.map_kind_members`: the numbers of the members lead to the members.
* `Forest.exists_document`: all spellings of a forest make the same document.
-/

namespace XmlHarvest

open Markup (Event)

/-- A document is given by its nodes. -/
lemma Document.eq_of_nodes_eq {d d' : Document} (h : d.nodes = d'.nodes) : d = d' := by
  obtain ⟨nodes, hnumbered, hsize⟩ := d
  obtain ⟨nodes', hnumbered', hsize'⟩ := d'
  obtain rfl : nodes = nodes' := h
  rfl

/-- The characters of an event that is a fragment of character data. -/
def Markup.Event.chars? : Event → Option String
  | .text chars | .characterData chars | .reference chars => some chars
  | .opening .. | .closing | .empty .. | .comment _ | .instruction .. | .declaration | .doctype =>
    none

namespace Forest

/-! ## Spellings -/

/-- The events spell the forest. The members of a forest may be texts that meet and texts without
characters; a text is spelled by fragments that make it up one after the other. -/
inductive Spells : Forest → List Event → Prop where
  | nil : Spells .nil []
  | declaration {f : Forest} {es : List Event} : Spells f es → Spells f (.declaration :: es)
  | doctype {f : Forest} {es : List Event} : Spells f es → Spells f (.doctype :: es)
  | element {content rest : Forest} {inner es : List Event} (name : QName)
      (attributes : List (QName × String)) : Spells content inner → Spells rest es →
        Spells (.element name attributes content rest)
          (.opening name attributes :: (inner ++ .closing :: es))
  /-- An element without content may be one event. -/
  | childless {rest : Forest} {es : List Event} (name : QName)
      (attributes : List (QName × String)) : Spells rest es →
        Spells (.element name attributes .nil rest) (.empty name attributes :: es)
  | comment {rest : Forest} {es : List Event} (content : String) : Spells rest es →
      Spells (.comment content rest) (.comment content :: es)
  | instruction {rest : Forest} {es : List Event} (target data : String) : Spells rest es →
      Spells (.instruction target data rest) (.instruction target data :: es)
  /-- All characters of a text have been spelled. -/
  | textEnd {rest : Forest} {es : List Event} : Spells rest es → Spells (.text "" rest) es
  | fragment {e : Event} {chars more : String} {rest : Forest} {es : List Event} :
      e.chars? = some chars → Spells (.text more rest) es →
        Spells (.text (chars ++ more) rest) (e :: es)

/-- Every forest can be spelled. -/
lemma exists_spells (f : Forest) : ∃ es, f.Spells es := by
  induction f with
  | nil => exact ⟨[], .nil⟩
  | element name attributes content rest ihc ihr =>
    obtain ⟨inner, hinner⟩ := ihc
    obtain ⟨es, hes⟩ := ihr
    exact ⟨_, .element name attributes hinner hes⟩
  | text chars rest ih =>
    obtain ⟨es, hes⟩ := ih
    have htext : Spells (.text (chars ++ "") rest) (.text chars :: es) :=
      .fragment rfl (.textEnd hes)
    rw [String.append_empty] at htext
    exact ⟨_, htext⟩
  | comment content rest ih =>
    obtain ⟨es, hes⟩ := ih
    exact ⟨_, .comment content hes⟩
  | instruction target data rest ih =>
    obtain ⟨es, hes⟩ := ih
    exact ⟨_, .instruction target data hes⟩

/-! ## What is kept -/

/-- A forest in which texts that meet are one text and empty texts are left out, here and inside of
its elements. -/
def merged : Forest → Forest
  | .nil => .nil
  | .element name attributes content rest => .element name attributes content.merged rest.merged
  | .text chars rest => rest.merged.prependText chars
  | .comment content rest => .comment content rest.merged
  | .instruction target data rest => .instruction target data rest.merged

/-- What a document keeps of a forest at its top: no texts, and the elements with their contents
merged. -/
def outermost : Forest → Forest
  | .nil => .nil
  | .element name attributes content rest => .element name attributes content.merged rest.outermost
  | .text _ rest => rest.outermost
  | .comment content rest => .comment content rest.outermost
  | .instruction target data rest => .instruction target data rest.outermost

/-- An event in front of events whose amount is known. -/
lemma Partial.ofEvents_cons {es : List Event} {p : Partial} (h : Partial.ofEvents es = .ok p)
    (e : Event) : Partial.ofEvents (e :: es) = p.prepend e := by
  rw [Partial.ofEvents, h]
  rfl

/-- A fragment of character data counts inside of an element. -/
lemma Partial.prepend_fragment {e : Event} {chars : String} (he : e.chars? = some chars)
    (p : Partial) : p.prepend e =
      .ok (if p.behind.isEmpty then p else ⟨p.here.prependText chars, p.behind⟩) := by
  cases e <;> cases he <;> rfl

namespace Spells

variable {f g : Forest} {es more : List Event} {gs : List Forest}

/-- **What a spelling amounts to inside of an element.**

**Proof sketch.** Induction on the spelling for all events behind it. The content of an element
stands in front of the end tag, behind which there is what the events behind the element amount
to. -/
lemma ofEvents_append (h : f.Spells es) (hmore : Partial.ofEvents more = .ok ⟨.nil, g :: gs⟩) :
    Partial.ofEvents (es ++ more) = .ok ⟨f.merged, g :: gs⟩ := by
  induction h generalizing more g gs with
  | nil => exact hmore
  | declaration _ ih | doctype _ ih => exact Partial.ofEvents_cons (ih hmore) _
  | @element content rest inner es name attributes _ _ ihc ihr =>
    have hclosing : Partial.ofEvents (.closing :: (es ++ more)) =
        .ok ⟨.nil, rest.merged :: g :: gs⟩ := Partial.ofEvents_cons (ihr hmore) _
    have hinner := ihc hclosing
    rw [List.cons_append, List.append_assoc]
    exact Partial.ofEvents_cons hinner _
  | childless name attributes _ ih => exact Partial.ofEvents_cons (ih hmore) _
  | comment content _ ih => exact Partial.ofEvents_cons (ih hmore) _
  | instruction target data _ ih => exact Partial.ofEvents_cons (ih hmore) _
  | textEnd _ ih =>
    rw [merged, prependText_empty]
    exact ih hmore
  | @fragment e chars text rest es he _ ih =>
    have hrest := Partial.ofEvents_cons (ih hmore) e
    rw [Partial.prepend_fragment he] at hrest
    rw [merged, prependText_append]
    exact hrest

/-- **What a spelling amounts to at the top of a document**, where character data do not count. -/
lemma ofEvents (h : f.Spells es) : Forest.ofEvents es = .ok f.outermost := by
  have hpartial : Partial.ofEvents es = .ok ⟨f.outermost, []⟩ := by
    induction h with
    | nil => rfl
    | declaration _ ih | doctype _ ih => exact Partial.ofEvents_cons ih _
    | @element content rest inner es name attributes hinner _ _ ihr =>
      have hclosing : Partial.ofEvents (.closing :: es) = .ok ⟨.nil, [rest.outermost]⟩ :=
        Partial.ofEvents_cons ihr _
      exact Partial.ofEvents_cons (hinner.ofEvents_append hclosing) _
    | childless name attributes _ ih => exact Partial.ofEvents_cons ih _
    | comment content _ ih => exact Partial.ofEvents_cons ih _
    | instruction target data _ ih => exact Partial.ofEvents_cons ih _
    | textEnd _ ih => exact ih
    | @fragment e chars text rest es he _ ih =>
      have hrest := Partial.ofEvents_cons ih e
      rw [Partial.prepend_fragment he] at hrest
      exact hrest
  rw [Forest.ofEvents, hpartial]
  rfl

end Spells

/-! ## Separated texts -/

/-- The kinds of the members of a forest. -/
def kinds : Forest → List Kind
  | .nil => []
  | .element _ _ _ rest => .element :: rest.kinds
  | .text _ rest => .text :: rest.kinds
  | .comment _ rest => .comment :: rest.kinds
  | .instruction _ _ rest => .instruction :: rest.kinds

/-- No text is empty and no text is directly in front of another one, here and inside of the
elements of a forest. -/
def IsSeparated : Forest → Prop
  | .nil => True
  | .element _ _ content rest => content.IsSeparated ∧ rest.IsSeparated
  | .text chars rest => chars ≠ "" ∧ rest.kinds.head? ≠ some .text ∧ rest.IsSeparated
  | .comment _ rest | .instruction _ _ rest => rest.IsSeparated

/-- Two neighbours that are not both texts. -/
def Apart (a b : Kind) : Prop :=
  ¬(a = .text ∧ b = .text)

namespace IsSeparated

variable {f : Forest}

/-- Character data in front of a separated forest are put into its first text or become one. -/
lemma prependText (h : f.IsSeparated) (chars : String) : (f.prependText chars).IsSeparated := by
  by_cases hchars : chars = ""
  · rwa [hchars, prependText_empty]
  · cases f with
    | text more rest =>
      refine ⟨fun hempty => hchars (String.append_eq_empty_iff.1 hempty).1, h.2⟩
    | nil | element | comment | instruction =>
      simp only [Forest.prependText, if_neg hchars]
      exact ⟨hchars, by simp [kinds], h⟩

/-- Merged texts are separated. -/
lemma merged (f : Forest) : f.merged.IsSeparated := by
  induction f with
  | nil => trivial
  | element name attributes content rest ihc ihr => exact ⟨ihc, ihr⟩
  | text chars rest ih => exact ih.prependText chars
  | comment content rest ih => exact ih
  | instruction target data rest ih => exact ih

/-- What is kept at the top is separated. -/
lemma outermost (f : Forest) : f.outermost.IsSeparated := by
  induction f with
  | nil => trivial
  | element name attributes content rest _ ihr => exact ⟨merged content, ihr⟩
  | text chars rest ih => exact ih
  | comment content rest ih => exact ih
  | instruction target data rest ih => exact ih

/-- Among the members of a separated forest no two neighbours are texts. -/
lemma isChain_kinds (h : f.IsSeparated) : f.kinds.IsChain Apart := by
  induction f with
  | nil => exact .nil
  | element name attributes content rest _ ihr =>
    exact List.isChain_cons.2 ⟨by simp [Apart], ihr h.2⟩
  | text chars rest ih =>
    refine List.isChain_cons.2 ⟨?_, ih h.2.2⟩
    rintro k hk ⟨-, rfl⟩
    exact h.2.1 hk
  | comment content rest ih => exact List.isChain_cons.2 ⟨by simp [Apart], ih h⟩
  | instruction target data rest ih => exact List.isChain_cons.2 ⟨by simp [Apart], ih h⟩

end IsSeparated

/-- No member at the top is a text. -/
lemma text_not_mem_kinds_outermost (f : Forest) : .text ∉ f.outermost.kinds := by
  induction f with
  | nil => simp [outermost, kinds]
  | element _ _ _ _ _ ih | comment _ _ ih | instruction _ _ _ ih =>
    simpa [outermost, kinds] using ih
  | text _ _ ih => exact ih

/-! ## The members among the nodes -/

/-- The kind of the node with a number in a list of nodes. -/
def kindIn (nodes : List Node) (i : NodeId) : Kind :=
  (nodes.getD i default).kind

section Layout

variable {nodes : List Node} {p i : Nat}

lemma kindIn_eq_of_prefix {n : Node} {more : List Node} (h : n :: more <+: nodes.drop i) :
    kindIn nodes i = n.kind := by
  obtain ⟨after, hafter⟩ := h
  have hi : nodes[i]? = some n := by
    rw [← Nat.add_zero i, ← List.getElem?_drop, ← hafter]
    rfl
  rw [kindIn, List.getD_eq_getElem?_getD, hi]
  rfl

lemma prefix_drop_of_append (before : List Node) {more : List Node} {j : Nat}
    (h : before ++ more <+: nodes.drop i) (hj : i + before.length = j) : more <+: nodes.drop j := by
  obtain ⟨after, hafter⟩ := h
  refine ⟨after, ?_⟩
  rw [← hj, ← List.drop_drop, ← hafter, List.append_assoc, List.drop_left]

/-- What is behind a leaf is laid out behind it. -/
lemma prefix_behind_leaf {n : Node} {more : List Node} (h : n :: more <+: nodes.drop i) :
    more <+: nodes.drop (i + 1) :=
  prefix_drop_of_append [n] h rfl

section Element

variable {name : QName} {attributes : List (QName × String)} {content rest : Forest}
  (h : (Forest.element name attributes content rest).layout p i <+: nodes.drop i)

include h

/-- The content of an element is laid out behind its attributes. -/
lemma prefix_content :
    content.layout i (i + 1 + attributes.length) <+: nodes.drop (i + 1 + attributes.length) := by
  have hbehind := prefix_drop_of_append _ (prefix_behind_leaf h)
    (congrArg (i + 1 + ·) (Layout.length_attributeNodes ..))
  exact (List.prefix_append _ _).trans hbehind

/-- What is behind an element is laid out behind its content. -/
lemma prefix_behind_element :
    rest.layout p (i + 1 + attributes.length + content.size) <+:
      nodes.drop (i + 1 + attributes.length + content.size) := by
  have hbehind := prefix_drop_of_append _ (prefix_behind_leaf h)
    (congrArg (i + 1 + ·) (Layout.length_attributeNodes ..))
  exact prefix_drop_of_append _ hbehind (congrArg (_ + ·) (Layout.length_layout ..))

end Element

/-- **The numbers of the members lead to the members** in every list of nodes that has the layout of
the forest where its first number says. -/
lemma map_kind_members {f : Forest} (h : f.layout p i <+: nodes.drop i) :
    (f.members i).map (kindIn nodes) = f.kinds := by
  induction f generalizing i with
  | nil => rfl
  | element name attributes content rest _ ihr =>
    rw [members, List.map_cons, kinds, kindIn_eq_of_prefix h, ihr (prefix_behind_element h)]
    rfl
  | text _ _ ih | comment _ _ ih | instruction _ _ _ ih =>
    rw [members, List.map_cons, kinds, kindIn_eq_of_prefix h, ih (prefix_behind_leaf h)]
    rfl

end Layout

/-! ## Texts among the nodes -/

/-- A node that is no empty text and of whose members no two neighbours are texts. -/
structure Tidy (nodes : List Node) (n : Node) : Prop where
  nonempty : ∀ chars, n.content = .text chars → chars ≠ ""
  apart : (n.children.map (kindIn nodes)).IsChain Apart

lemma tidy_leaf {nodes : List Node} {c : Content} (h : ∀ chars, c = .text chars → chars ≠ "")
    (p i : Nat) : Tidy nodes (.leaf c p i) :=
  ⟨h, .nil⟩

lemma tidy_of_mem_attributeNodes {nodes : List Node} {p i : Nat} {as : List (QName × String)}
    {n : Node} (h : n ∈ attributeNodes p i as) : Tidy nodes n := by
  induction as generalizing i with
  | nil => cases h
  | cons a as ih =>
    rcases List.mem_cons.1 h with rfl | h
    · exact tidy_leaf (by simp) p i
    · exact ih h

/-- **The nodes of a separated forest** are no empty texts and have no texts side by side.

**Proof sketch.** Induction on the forest wherever it is laid out. The members of an element are
those of its content, so their kinds are known. -/
lemma IsSeparated.tidy {f : Forest} (hf : f.IsSeparated) {nodes : List Node} {p i : Nat}
    (h : f.layout p i <+: nodes.drop i) {n : Node} (hn : n ∈ f.layout p i) : Tidy nodes n := by
  induction f generalizing p i with
  | nil => cases hn
  | element name attributes content rest ihc ihr =>
    rw [layout, List.mem_cons, List.mem_append, List.mem_append] at hn
    rcases hn with rfl | hn | hn | hn
    · refine ⟨by simp, ?_⟩
      show ((content.members _).map (kindIn nodes)).IsChain Apart
      rw [map_kind_members (prefix_content h)]
      exact hf.1.isChain_kinds
    · exact tidy_of_mem_attributeNodes hn
    · exact ihc hf.1 (prefix_content h) hn
    · exact ihr hf.2 (prefix_behind_element h) hn
  | text chars rest ih =>
    rcases List.mem_cons.1 hn with rfl | hn
    · exact tidy_leaf (fun _ heq => Content.text.inj heq ▸ hf.1) p i
    · exact ih hf.2.2 (prefix_behind_leaf h) hn
  | comment content rest ih =>
    rcases List.mem_cons.1 hn with rfl | hn
    · exact tidy_leaf (by simp) p i
    · exact ih hf (prefix_behind_leaf h) hn
  | instruction target data rest ih =>
    rcases List.mem_cons.1 hn with rfl | hn
    · exact tidy_leaf (by simp) p i
    · exact ih hf (prefix_behind_leaf h) hn

/-- The root and the nodes inside of it are those of the forest. -/
lemma IsSeparated.tidy_nodes {f : Forest} (hf : f.IsSeparated) {n : Node} (hn : n ∈ f.nodes) :
    Tidy f.nodes n := by
  have hlayout : f.layout 0 1 <+: f.nodes.drop 1 := List.prefix_refl _
  rcases List.mem_cons.1 hn with rfl | hn
  · refine ⟨by simp, ?_⟩
    show ((f.members 1).map (kindIn f.nodes)).IsChain Apart
    rw [map_kind_members hlayout]
    exact hf.isChain_kinds
  · exact hf.tidy hlayout hn

/-- The members of the root are those of the forest. -/
lemma kindIn_of_mem_members {f : Forest} {i : NodeId} (h : i ∈ f.members 1) :
    kindIn f.nodes i ∈ f.kinds := by
  have hlayout : f.layout 0 1 <+: f.nodes.drop 1 := List.prefix_refl _
  rw [← map_kind_members hlayout]
  exact List.mem_map_of_mem h

/-- The texts of a document with the nodes of what is kept of a forest: none is empty, no two are
neighbours among the members of a node, and none is a member of the root. -/
lemma texts_of_nodes_eq {f : Forest} {d : Document} (h : d.nodes.toList = f.outermost.nodes) :
    (∀ i chars, (d.node i).content = .text chars → chars ≠ "") ∧
      (∀ p, (d.children p).IsChain fun i j => ¬(d.kind i = .text ∧ d.kind j = .text)) ∧
      ∀ i ∈ d.children Document.root, d.kind i ≠ .text := by
  have hnode : ∀ i, d.node i = f.outermost.nodes.getD i default := by
    intro i
    rw [Document.node, nodeAt, Array.getD_eq_getD_getElem?, ← h, List.getD_eq_getElem?_getD,
      Array.getElem?_toList]
  have hkind : ∀ i, d.kind i = kindIn f.outermost.nodes i := fun i => congrArg Node.kind (hnode i)
  have htidy : ∀ i, Tidy f.outermost.nodes (d.node i) := by
    intro i
    rw [hnode, List.getD_eq_getElem?_getD]
    cases hi : f.outermost.nodes[i]? with
    | none => exact ⟨fun _ h => Content.noConfusion h, .nil⟩
    | some n => exact (IsSeparated.outermost f).tidy_nodes (List.mem_of_getElem? hi)
  refine ⟨fun i => (htidy i).nonempty, fun p => ?_, fun i hi htext => ?_⟩
  · simp only [hkind]
    exact (List.isChain_map _).1 (htidy p).apart
  · have hmem : i ∈ f.outermost.members 1 := by
      rwa [Document.children, hnode] at hi
    rw [hkind] at htext
    exact text_not_mem_kinds_outermost f (htext ▸ kindIn_of_mem_members hmem)

/-- **All spellings of a forest make the same document**: the layout of what is kept of the forest.
No text of it is empty, no two texts are neighbours among the members of a node, and no member of
the root is a text. Only if there are too many nodes, all spellings fail, and for this reason.

**Proof sketch.** Every spelling amounts to what is kept of the forest (`Spells.ofEvents`), and the
document of events is the layout of their forest. What is kept is separated, so the nodes of its
layout are tidy. -/
theorem exists_document (f : Forest) : (∃ es, f.Spells es) ∧
    (f.outermost.nodes.length < nodeLimit → ∃ d : Document,
      (∀ es, f.Spells es → Builder.build es = .ok d) ∧ d.nodes.toList = f.outermost.nodes ∧
      (∀ i chars, (d.node i).content = .text chars → chars ≠ "") ∧
      (∀ p, (d.children p).IsChain fun i j => ¬(d.kind i = .text ∧ d.kind j = .text)) ∧
      ∀ i ∈ d.children Document.root, d.kind i ≠ .text) ∧
    (nodeLimit ≤ f.outermost.nodes.length →
      ∀ es, f.Spells es → Builder.build es = .error .tooLarge) := by
  obtain ⟨es, hes⟩ := f.exists_spells
  refine ⟨⟨es, hes⟩, fun hlt => ?_, fun hle es hes => Builder.build_eq_tooLarge hes.ofEvents hle⟩
  obtain ⟨d, -, hnodes⟩ := Builder.build_eq_layout hes.ofEvents hlt
  refine ⟨d, fun es' hes' => ?_, hnodes, texts_of_nodes_eq hnodes⟩
  obtain ⟨d', hd', hnodes'⟩ := Builder.build_eq_layout hes'.ofEvents hlt
  have hsame : d.nodes = d'.nodes := Array.toList_inj.1 (hnodes.trans hnodes'.symm)
  rw [hd', Document.eq_of_nodes_eq hsame]

/-- An element with one text of three fragments, an empty one among them, between a declaration and
white space. -/
theorem exists_document_fragments : ∃ d : Document,
    Builder.build [.declaration, .opening ⟨none, "a", none⟩ [], .text "x", .characterData "",
      .reference "y", .closing, .text " "] = .ok d ∧
    d.nodes.toList = [⟨.root, none, [], [1], 3⟩, ⟨.element ⟨none, "a", none⟩, some 0, [], [2], 3⟩,
      ⟨.text "xy", some 1, [], [], 3⟩] ∧
    ∀ i ∈ d.children Document.root, d.kind i ≠ .text := by
  let f : Forest := .element ⟨none, "a", none⟩ [] (.text ("x" ++ ("" ++ ("y" ++ ""))) .nil)
    (.text (" " ++ "") .nil)
  have hcontent : Spells (.text ("x" ++ ("" ++ ("y" ++ ""))) .nil)
      [.text "x", .characterData "", .reference "y"] :=
    .fragment rfl (.fragment rfl (.fragment rfl (.textEnd .nil)))
  have hspells : f.Spells [.declaration, .opening ⟨none, "a", none⟩ [], .text "x",
      .characterData "", .reference "y", .closing, .text " "] :=
    .declaration (.element _ [] hcontent (.fragment rfl (.textEnd .nil)))
  obtain ⟨-, hfits, -⟩ := exists_document f
  obtain ⟨d, hd, hnodes, -, -, hroot⟩ := hfits (by decide)
  exact ⟨d, hd _ hspells, hnodes.trans (by decide), hroot⟩

end Forest

end XmlHarvest
