import Mathlib.Data.List.Basic
import XmlHarvest.Document.Builder.WellFormed
import XmlHarvest.Document.Layout
import XmlHarvest.Proofs.Except

/-!
# What the builder lays out

The builder reads events from the left and puts every node where it is. The forest of the same
events is read from the right, and its layout is a function of the forest alone. Both come to the
same nodes.

A builder in the midst of a document, and what the events still to come amount to, determine the
nodes in the end: the rest of each open element is laid out inside of it and the element is closed.
No event changes these nodes. Since nodes do not get fewer, an event at which they are too many is a
sign that they are too many in the end.

## Main definitions

* `Layout.place`: nodes with a forest inside one of them behind all others.
* `Layout.complete`, `Builder.final`: the nodes in the end.
* `Builder.LeadsTo`: the nodes in the end, from where a builder stands.
* `Builder.Overflows`: the only fault on the way there.

## Main results

* `Layout.place_element`: an element is placed by its tag, its content and its end.
* `Builder.LeadsTo.step`, `Builder.LeadsTo.run`: no event changes the nodes in the end.
* `Builder.build_eq_layout`: the document of a list of events is the layout of its forest.
* `Builder.build_eq_tooLarge`: there is none if the layout has too many nodes.
-/

namespace XmlHarvest

open Markup (Event)

namespace Layout

/-! ## Nodes behind others -/

/-- Changing a node of a list does not touch the nodes behind the list. -/
lemma modify_append {nodes : List Node} {i : Nat} (hi : i < nodes.length) (f : Node → Node)
    (more : List Node) : (nodes ++ more).modify i f = nodes.modify i f ++ more := by
  induction nodes generalizing i with
  | nil => exact absurd hi (Nat.not_lt_zero i)
  | cons n nodes ih =>
    cases i with
    | zero => rfl
    | succ i =>
      rw [List.cons_append, List.modify_succ_cons, ih (Nat.lt_of_succ_lt_succ hi),
        List.modify_succ_cons, List.cons_append]

/-- Changing the node directly behind a list does not touch the list. -/
lemma modify_next {nodes : List Node} {i : Nat} (hi : nodes.length = i) (n : Node) (f : Node → Node)
    (more : List Node) : (nodes ++ n :: more).modify i f = nodes ++ f n :: more := by
  induction nodes generalizing i with
  | nil =>
    subst hi
    rfl
  | cons m nodes ih =>
    subst hi
    rw [List.cons_append, List.length_cons, List.modify_succ_cons, ih rfl, List.cons_append]

/-- A node with further members behind those it has. -/
def adoptAll (n : Node) (is : List NodeId) : Node :=
  { n with children := n.children ++ is }

/-- A member is adopted before the members behind it. -/
lemma adoptAll_adopt {k : Kind} (hk : k ≠ .attribute) (n : Node) (i : NodeId) (is : List NodeId) :
    adoptAll (n.adopt k i) is = adoptAll n (i :: is) := by
  rw [Node.adopt, if_neg hk]
  show { n with children := n.children ++ [i] ++ is } = { n with children := n.children ++ i :: is }
  rw [List.append_assoc]
  rfl

/-- Nodes with one more node behind them, inside the node `p`. -/
def placeLeaf (nodes : List Node) (p : Nat) (c : Content) : List Node :=
  nodes.modify p (·.adopt c.kind nodes.length) ++ [.leaf c p nodes.length]

/-- Nodes with a forest behind them, inside the node `p`. -/
def place (nodes : List Node) (p : Nat) (f : Forest) : List Node :=
  nodes.modify p (adoptAll · (f.members nodes.length)) ++ f.layout p nodes.length

/-- Nodes of which the node `i` stops behind the last one. -/
def closeAt (nodes : List Node) (i : Nat) : List Node :=
  nodes.modify i (·.close nodes.length)

@[simp] lemma length_attributeNodes (p i : Nat) (as : List (QName × String)) :
    (attributeNodes p i as).length = as.length := by
  induction as generalizing i with
  | nil => rfl
  | cons a as ih => exact congrArg Nat.succ (ih (i + 1))

/-- A forest takes up as many numbers as it says. -/
@[simp] lemma length_layout (p i : Nat) (f : Forest) : (f.layout p i).length = f.size := by
  induction f generalizing p i with
  | nil => rfl
  | element name as content rest ihc ihr =>
    simp only [Forest.layout, Forest.size, List.length_cons, List.length_append,
      length_attributeNodes, ihc, ihr]
    omega
  | text chars rest ih | comment content rest ih | instruction target data rest ih =>
    simp only [Forest.layout, Forest.size, List.length_cons, ih]
    omega

@[simp] lemma length_placeLeaf (nodes : List Node) (p : Nat) (c : Content) :
    (placeLeaf nodes p c).length = nodes.length + 1 := by
  simp [placeLeaf]

@[simp] lemma length_place (nodes : List Node) (p : Nat) (f : Forest) :
    (place nodes p f).length = nodes.length + f.size := by
  simp [place]

/-- Nothing is placed by an empty forest. -/
@[simp] lemma place_nil (nodes : List Node) (p : Nat) : place nodes p .nil = nodes := by
  have hid : (adoptAll · ([] : List NodeId)) = id := funext fun n => by
    rw [adoptAll, List.append_nil]
    rfl
  rw [place, Forest.members, Forest.layout, hid, List.modify_id, List.append_nil]

/-- A forest whose first member is a leaf is placed by the leaf and the members behind it. -/
lemma place_leaf {nodes : List Node} {p : Nat} (hp : p < nodes.length) {c : Content}
    (hc : c.kind ≠ .attribute) {f rest : Forest}
    (hmembers : f.members nodes.length = nodes.length :: rest.members (nodes.length + 1))
    (hlayout : f.layout p nodes.length =
      .leaf c p nodes.length :: rest.layout p (nodes.length + 1)) :
    place nodes p f = place (placeLeaf nodes p c) p rest := by
  have hlen : p < (nodes.modify p (·.adopt c.kind nodes.length)).length := by
    rwa [List.length_modify]
  have hadopt : (fun n : Node => adoptAll (n.adopt c.kind nodes.length)
      (rest.members (nodes.length + 1))) = (adoptAll · (f.members nodes.length)) :=
    funext fun n => by rw [hmembers, adoptAll_adopt hc]
  rw [place, place, length_placeLeaf, placeLeaf, modify_append hlen, List.modify_modify_eq, hlayout,
    ← hadopt, List.append_assoc]
  rfl

/-! ## Elements -/

/-- An element whose attributes come directly behind it and whose content is still to come. -/
def tagNode (p i : Nat) (name : QName) (as : List (QName × String)) : Node :=
  { Node.leaf (.element name) p i with attributes := List.range' (i + 1) as.length }

/-- Nodes with the tag of an element behind them, inside the node `p`. -/
def placeTag (nodes : List Node) (p : Nat) (name : QName) (as : List (QName × String)) :
    List Node :=
  nodes.modify p (·.adopt .element nodes.length) ++
    tagNode p nodes.length name as :: attributeNodes nodes.length (nodes.length + 1) as

@[simp] lemma length_placeTag (nodes : List Node) (p : Nat) (name : QName)
    (as : List (QName × String)) :
    (placeTag nodes p name as).length = nodes.length + 1 + as.length := by
  simp only [placeTag, List.length_append, List.length_modify, List.length_cons,
    length_attributeNodes]
  omega

/-- Attributes that are placed one by one come behind the nodes there are, and the element lists
their numbers. -/
lemma foldl_placeLeaf_attribute {nodes : List Node} {i : Nat} (hi : nodes.length = i) (n : Node)
    (more : List Node) (as : List (QName × String)) :
    as.foldl (fun all a => placeLeaf all i (.attribute a.1 a.2)) (nodes ++ n :: more) =
      nodes ++ { n with attributes :=
          n.attributes ++ List.range' (i + 1 + more.length) as.length : Node } ::
        (more ++ attributeNodes i (i + 1 + more.length) as) := by
  induction as generalizing n more with
  | nil => simp [attributeNodes]
  | cons a as ih =>
    have hlen : (nodes ++ n :: more).length = i + 1 + more.length := by
      simp only [List.length_append, List.length_cons, hi]
      omega
    rw [List.foldl_cons, placeLeaf, hlen, modify_next hi, List.append_assoc, List.cons_append, ih]
    simp only [Content.kind, Node.adopt, if_true, List.length_append, List.length_cons,
      List.length_nil, List.append_assoc, attributeNodes, List.range'_succ, List.singleton_append,
      Nat.add_assoc, Nat.zero_add]

/-- **An element is placed by its tag, its content and its end**, and then the members behind it
are.

**Proof sketch.** The content and the end change the node of the tag only, which becomes the node
that the layout has for the element. The parent adopts the element and then the members behind
it. -/
lemma place_element {nodes : List Node} {p : Nat} (hp : p < nodes.length) (name : QName)
    (as : List (QName × String)) (content rest : Forest) :
    place nodes p (.element name as content rest) = place (closeAt
      (place (placeTag nodes p name as) nodes.length content) nodes.length) p rest := by
  let base := nodes.modify p (·.adopt .element nodes.length)
  let inner := nodes.length + 1 + as.length
  let stop := inner + content.size
  let attributes := attributeNodes nodes.length (nodes.length + 1) as
  let n := adoptAll (tagNode p nodes.length name as) (content.members inner)
  have hbase : base.length = nodes.length := List.length_modify ..
  have hcontent : place (placeTag nodes p name as) nodes.length content =
      base ++ n :: (attributes ++ content.layout nodes.length inner) := by
    rw [place, length_placeTag, placeTag, modify_next hbase, List.append_assoc]
    rfl
  have hclose : closeAt (place (placeTag nodes p name as) nodes.length content) nodes.length =
      base ++ n.close stop :: (attributes ++ content.layout nodes.length inner) := by
    rw [closeAt, length_place, length_placeTag, hcontent, modify_next hbase]
  have hadopt : base.modify p (adoptAll · (rest.members stop)) =
      nodes.modify p (adoptAll · (nodes.length :: rest.members stop)) := by
    rw [List.modify_modify_eq]
    exact congrArg (nodes.modify p) (funext fun n => adoptAll_adopt (by decide) n _ _)
  have hlen : (closeAt (place (placeTag nodes p name as) nodes.length content)
      nodes.length).length = stop := by
    rw [closeAt, List.length_modify, length_place, length_placeTag]
  rw [place, place, hlen, hclose, modify_append (hbase.symm ▸ hp), hadopt, List.append_assoc,
    List.cons_append, List.append_assoc]
  rfl

/-! ## The nodes in the end -/

/-- The nodes in the end when the elements `is` are open, the innermost first, the forest `f` is
still to come in the innermost one, and behind each end tag one more forest. -/
def complete (nodes : List Node) : List NodeId → Forest → List Forest → List Node
  | i :: is, f, g :: gs => complete (closeAt (place nodes i f) i) is g gs
  | is, f, _ => closeAt (place nodes (is.headD 0) f) 0

/-- If no element is open, what comes is placed in the root, which ends behind it. -/
lemma complete_nil (nodes : List Node) (f : Forest) (gs : List Forest) :
    complete nodes [] f gs = closeAt (place nodes 0 f) 0 := by
  cases gs <;> rfl

/-- What comes in the innermost open element may be placed in part. -/
lemma complete_congr {nodes nodes' : List Node} {is : List NodeId} {f f' : Forest}
    (h : place nodes (is.headD 0) f = place nodes' (is.headD 0) f') (gs : List Forest) :
    complete nodes is f gs = complete nodes' is f' gs := by
  cases is with
  | nil => exact congrArg (closeAt · 0) h
  | cons i is =>
    cases gs with
    | nil => exact congrArg (closeAt · 0) h
    | cons g gs => exact congrArg (fun all => complete (closeAt all i) is g gs) h

/-- The nodes in the end are those so far, those of what comes in the innermost open element, and
others. -/
lemma length_add_size_le (nodes : List Node) (is : List NodeId) (f : Forest) (gs : List Forest) :
    nodes.length + f.size ≤ (complete nodes is f gs).length := by
  induction is generalizing nodes f gs with
  | nil => simp [complete_nil, closeAt]
  | cons i is ih =>
    cases gs with
    | nil => simp [complete, closeAt]
    | cons g gs =>
      have hlen : (closeAt (place nodes i f) i).length = nodes.length + f.size := by
        rw [closeAt, List.length_modify, length_place]
      have hrest := ih (closeAt (place nodes i f) i) g gs
      rw [hlen] at hrest
      exact Nat.le_trans (Nat.le_add_right ..) hrest

end Layout

open Layout

/-! ## Texts -/

/-- No character data leave no trace. -/
lemma Forest.prependText_empty (f : Forest) : f.prependText "" = f := by
  cases f with
  | text chars rest => exact congrArg (Forest.text · rest) (String.empty_append ..)
  | nil | element | comment | instruction => rfl

/-- Character data in front of other character data meet them. -/
lemma Forest.prependText_append (s t : String) (f : Forest) :
    f.prependText (s ++ t) = (f.prependText t).prependText s := by
  by_cases ht : t = ""
  · rw [ht, String.append_empty, prependText_empty]
  · have hst : s ++ t ≠ "" := fun h => ht (String.append_eq_empty_iff.1 h).2
    cases f with
    | text chars rest => exact congrArg (Forest.text · rest) (String.append_assoc ..)
    | nil | element | comment | instruction =>
      simp only [prependText, if_neg ht, if_neg hst]

namespace Builder

variable {b b' : Builder}

/-- A forest with the character data that are held back in front of it. Outside of every element
they do not count. -/
def withText (b : Builder) (f : Forest) : Forest :=
  if b.opened = [] then f else f.prependText b.text

/-- The nodes in the end, if this is what the events still to come amount to. -/
def final (b : Builder) (p : Forest.Partial) : List Node :=
  complete b.nodes.toList b.opened (b.withText p.here) p.behind

/-- If no character data are held back, none come in front of a forest. -/
lemma withText_of_text_eq (h : b.text = "") (f : Forest) : b.withText f = f := by
  rw [withText, h, Forest.prependText_empty, ite_self]

/-! ## Changes of the nodes -/

lemma toList_add (hp : b.innermost < b.nodes.size) (c : Content) :
    (b.add c).nodes.toList = placeLeaf b.nodes.toList b.innermost c := by
  rw [add, Array.toList_modify, Array.toList_push, modify_append (by simpa using hp)]
  rfl

/-- A leaf is the first member of what comes. -/
lemma final_add (h : b.WellFormed) (htext : b.text = "") {c : Content} (hc : c.kind ≠ .attribute)
    {f rest : Forest} (hmembers : ∀ i, f.members i = i :: rest.members (i + 1))
    (hlayout : ∀ p i, f.layout p i = .leaf c p i :: rest.layout p (i + 1)) (gs : List Forest) :
    (b.add c).final ⟨rest, gs⟩ = b.final ⟨f, gs⟩ := by
  have hp := h.isOpen_lt (WellFormed.isOpen_innermost b)
  rw [final, final, withText_of_text_eq htext, withText_of_text_eq (b := b.add c) htext,
    toList_add hp]
  exact (complete_congr (place_leaf hp hc (hmembers _) (hlayout _ _)) gs).symm

/-- An end tag closes the innermost open element, in which nothing comes any more. -/
lemma final_leave (htext : b.text = "") (hopened : b.opened ≠ []) (rest : Forest)
    (gs : List Forest) : b.leave.final ⟨rest, gs⟩ = b.final ⟨.nil, rest :: gs⟩ := by
  obtain ⟨i, is, his⟩ := List.exists_cons_of_ne_nil hopened
  have htext' : b.leave.text = "" := by rw [leave_eq his, htext]
  rw [final, final, withText_of_text_eq htext, withText_of_text_eq htext', his, complete, place_nil,
    leave_eq his, Array.toList_modify]
  rfl

/-- Character data are held back behind those that are held back already. -/
lemma final_text (b : Builder) (chars : String) {f : Forest} {gs : List Forest}
    (hlen : gs.length = b.opened.length) : final { b with text := b.text ++ chars } ⟨f, gs⟩ =
      b.final (if gs.isEmpty then ⟨f, gs⟩ else ⟨f.prependText chars, gs⟩) := by
  cases gs with
  | nil =>
    have hopened : b.opened = [] := List.length_eq_zero_iff.1 hlen.symm
    simp only [final, withText, hopened, if_true, List.isEmpty_nil]
  | cons g gs =>
    have hopened : b.opened ≠ [] := by
      rintro hnil
      rw [hnil] at hlen
      cases hlen
    simp only [final, withText, if_neg hopened, List.isEmpty_cons, Bool.false_eq_true, if_false,
      Forest.prependText_append]

/-! ## Attributes -/

/-- Attributes change neither which elements are open nor what is held back. -/
lemma pushAttributes_eq {as : List (QName × String)} (hb : b.pushAttributes as = .ok b') :
    b'.opened = b.opened ∧ b'.text = b.text := by
  induction as generalizing b with
  | nil =>
    cases hb
    exact ⟨rfl, rfl⟩
  | cons a as ih =>
    obtain ⟨b₁, hb₁, hb⟩ := bind_eq_ok_iff.1 hb
    obtain ⟨-, rfl⟩ := counted_eq_ok_iff.1 hb₁
    have hrest := ih hb
    exact hrest

lemma toList_pushAttributes (hp : b.innermost < b.nodes.size) {as : List (QName × String)}
    (hb : b.pushAttributes as = .ok b') : b'.nodes.toList =
      as.foldl (fun all a => placeLeaf all b.innermost (.attribute a.1 a.2)) b.nodes.toList := by
  induction as generalizing b with
  | nil =>
    cases hb
    rfl
  | cons a as ih =>
    obtain ⟨b₁, hb₁, hb⟩ := bind_eq_ok_iff.1 hb
    obtain ⟨-, rfl⟩ := counted_eq_ok_iff.1 hb₁
    have hadd : b.innermost < (b.add (.attribute a.1 a.2)).nodes.size := by
      rw [WellFormed.size_add]
      exact Nat.lt_succ_of_lt hp
    rw [List.foldl_cons, ← toList_add hp]
    exact ih hadd hb

/-- The tag of an element is placed at once. -/
lemma toList_enter_pushAttributes (hp : b.innermost < b.nodes.size) {name : QName}
    {as : List (QName × String)} (hb : (b.enter name).pushAttributes as = .ok b') :
    b'.nodes.toList = placeTag b.nodes.toList b.innermost name as := by
  have hinner : (b.enter name).innermost < (b.enter name).nodes.size := by
    show b.nodes.size < (b.add (.element name)).nodes.size
    rw [WellFormed.size_add]
    exact Nat.lt_succ_self _
  rw [toList_pushAttributes hinner hb]
  show as.foldl (fun all a => placeLeaf all b.nodes.size _)
    (b.add (.element name)).nodes.toList = _
  rw [toList_add hp, placeLeaf, foldl_placeLeaf_attribute (by simp)]
  rfl

/-- A start tag opens an element, which is the first member of what comes. -/
lemma final_enter (h : b.WellFormed) (htext : b.text = "") {name : QName}
    {as : List (QName × String)} (hb : (b.enter name).pushAttributes as = .ok b')
    (content rest : Forest) (gs : List Forest) :
    b'.final ⟨content, rest :: gs⟩ = b.final ⟨.element name as content rest, gs⟩ := by
  have hp := h.isOpen_lt (WellFormed.isOpen_innermost b)
  obtain ⟨hopened, htext'⟩ := pushAttributes_eq hb
  rw [final, final, withText_of_text_eq htext, withText_of_text_eq (htext'.trans htext), hopened,
    toList_enter_pushAttributes hp hb]
  exact (complete_congr (place_element hp name as content rest) gs).symm

/-! ## The way to the end -/

/-- The builder leads to the nodes `all` in the end, if events that amount to `p` are still to
come. -/
structure LeadsTo (b : Builder) (p : Forest.Partial) (all : List Node) : Prop where
  wellFormed : b.WellFormed
  length_behind : p.behind.length = b.opened.length
  final_eq : b.final p = all

/-- The fault that there are too many nodes, which is due to the nodes in the end. -/
def Overflows (all : List Node) (fault : Markup.Error) : Prop :=
  fault = .tooLarge ∧ nodeLimit ≤ all.length

/-- If no more are counted than there are nodes in the end, it fails only if these are too many. -/
lemma counted_ensures {α : Type} {count : Nat} {a : α} {property : α → Prop} {all : List Node}
    (hcount : count ≤ all.length) (ha : property a) :
    Ensures (counted count a) property (Overflows all) := by
  rw [counted]
  split
  · exact .ok ha
  · exact .error ⟨rfl, by omega⟩

/-- Attributes fail only if there are too many nodes. -/
lemma pushAttributes_ensures {as : List (QName × String)} {all : List Node}
    (hsize : b.nodes.size + as.length ≤ all.length) :
    Ensures (b.pushAttributes as) (fun _ => True) (Overflows all) := by
  induction as generalizing b with
  | nil => exact .ok trivial
  | cons a as ih =>
    rw [List.length_cons] at hsize
    have hadd : (b.add (.attribute a.1 a.2)).nodes.size + as.length ≤ all.length := by
      rw [WellFormed.size_add]
      omega
    have hpush : Ensures (b.push (.attribute a.1 a.2)) (· = b.add (.attribute a.1 a.2))
        (Overflows all) := counted_ensures (by omega) rfl
    exact hpush.bind fun _ h₁ => h₁ ▸ ih hadd

namespace LeadsTo

variable {p : Forest.Partial} {f content rest : Forest} {gs : List Forest} {all : List Node}

/-- The nodes so far and what comes in the innermost open element are among the nodes in the end. -/
lemma size_add_le (h : b.LeadsTo ⟨f, gs⟩ all) :
    b.nodes.size + (b.withText f).size ≤ all.length := by
  have hle : b.nodes.toList.length + (b.withText f).size ≤ (b.final ⟨f, gs⟩).length :=
    length_add_size_le ..
  rwa [h.final_eq, Array.length_toList] at hle

lemma size_le (h : b.LeadsTo ⟨f, gs⟩ all) : b.nodes.size ≤ all.length :=
  Nat.le_trans (Nat.le_add_right ..) h.size_add_le

/-- Elements are open as long as end tags are to come. -/
lemma opened_ne_nil (h : b.LeadsTo ⟨f, rest :: gs⟩ all) : b.opened ≠ [] := by
  intro hnil
  have hlen := h.length_behind
  rw [hnil] at hlen
  cases hlen

/-- Character data that are held back are put in front of what comes, if that is no text. -/
lemma flushText (h : b.LeadsTo ⟨f, gs⟩ all)
    (hf : ∀ s, f.prependText s = if s = "" then f else .text s f) :
    Ensures b.flushText (fun b' => b'.LeadsTo ⟨f, gs⟩ all ∧ b'.text = "") (Overflows all) := by
  have hfinal := h.final_eq
  have hwithout := h.wellFormed.with_text ""
  rw [final, withText, hf] at hfinal
  rw [Builder.flushText]
  split
  · exact .ok ⟨h, ‹_›⟩
  · rename_i htext
    split
    · rename_i hopened
      rw [if_pos (List.isEmpty_iff.1 hopened)] at hfinal
      refine .ok ⟨⟨hwithout, h.length_behind, ?_⟩, rfl⟩
      rw [final, withText_of_text_eq rfl, hfinal]
    · rename_i hopened
      rw [if_neg (mt List.isEmpty_iff.2 hopened), if_neg htext] at hfinal
      have hkind : (Content.text b.text).kind ≠ .root ∧
          (Content.text b.text).kind ≠ .attribute := by
        simp [Content.kind]
      refine counted_ensures h.size_le ⟨⟨hwithout.add_content hkind, h.length_behind, ?_⟩, rfl⟩
      rw [final_add hwithout rfl hkind.2 (f := .text b.text f) (fun _ => rfl) fun _ _ => rfl, final,
        withText_of_text_eq rfl, hfinal]

/-- A leaf is the first member of what comes, behind the character data before it. -/
lemma leaf (h : b.LeadsTo ⟨f, gs⟩ all) {c : Content} (hc : c.kind ≠ .root ∧ c.kind ≠ .attribute)
    (hf : ∀ s, f.prependText s = if s = "" then f else .text s f)
    (hmembers : ∀ i, f.members i = i :: rest.members (i + 1))
    (hlayout : ∀ p i, f.layout p i = .leaf c p i :: rest.layout p (i + 1)) :
    Ensures (b.leaf c) (LeadsTo · ⟨rest, gs⟩ all) (Overflows all) := by
  refine (h.flushText hf).bind fun b₁ ⟨h₁, htext⟩ => ?_
  refine counted_ensures h₁.size_le ⟨h₁.wellFormed.add_content hc, h₁.length_behind, ?_⟩
  rw [final_add h₁.wellFormed htext hc.2 hmembers hlayout, h₁.final_eq]

/-- Character data are held back behind those that are held back already. -/
lemma text (chars : String)
    (h : b.LeadsTo (if gs.isEmpty then ⟨f, gs⟩ else ⟨f.prependText chars, gs⟩) all) :
    LeadsTo { b with text := b.text ++ chars } ⟨f, gs⟩ all := by
  have hlen : gs.length = b.opened.length := by
    rw [← h.length_behind]
    split <;> rfl
  exact ⟨h.wellFormed.with_text _, hlen, (final_text b chars hlen).trans h.final_eq⟩

/-- A start tag opens the element that is the first member of what comes, behind the character data
before it. -/
lemma openElement {name : QName} {as : List (QName × String)}
    (h : b.LeadsTo ⟨.element name as content rest, gs⟩ all) :
    Ensures (b.openElement name as) (LeadsTo · ⟨content, rest :: gs⟩ all) (Overflows all) := by
  refine (h.flushText fun _ => rfl).bind fun b₁ ⟨h₁, htext⟩ => ?_
  have henter : Ensures (counted b₁.nodes.size (b₁.enter name)) (· = b₁.enter name)
      (Overflows all) :=
    counted_ensures h₁.size_le rfl
  refine henter.bind fun _ h₂ => h₂ ▸ ⟨fun b' hb => ?_, ?_⟩
  · refine ⟨(h₁.wellFormed.enter name).pushAttributes (h₁.wellFormed.atTag_enter name) hb, ?_,
      (final_enter h₁.wellFormed htext hb content rest gs).trans h₁.final_eq⟩
    rw [(pushAttributes_eq hb).1]
    exact congrArg Nat.succ h₁.length_behind
  · have hsize := h₁.size_add_le
    rw [withText_of_text_eq htext, Forest.size] at hsize
    refine (pushAttributes_ensures ?_).2
    show (b₁.add (.element name)).nodes.size + as.length ≤ all.length
    rw [WellFormed.size_add]
    omega

/-- An end tag closes the innermost open element behind the character data before it. -/
lemma closeElement (h : b.LeadsTo ⟨.nil, rest :: gs⟩ all) :
    Ensures b.closeElement (LeadsTo · ⟨rest, gs⟩ all) (Overflows all) := by
  refine (h.flushText fun _ => rfl).bind fun b₁ ⟨h₁, htext⟩ => ?_
  have hopened := h₁.opened_ne_nil
  rw [if_neg (mt List.isEmpty_iff.1 hopened)]
  refine counted_ensures h₁.size_le ⟨h₁.wellFormed.leave, ?_, ?_⟩
  · obtain ⟨i, is, his⟩ := List.exists_cons_of_ne_nil hopened
    have hlen := h₁.length_behind
    rw [his] at hlen
    rw [leave_eq his]
    exact Nat.succ.inj hlen
  · rw [final_leave htext hopened, h₁.final_eq]

/-- **No event leads to other nodes in the end**, and none fails unless these are too many.

**Proof sketch.** Cases of the event. An element without content is a start tag with an end tag
behind it. -/
lemma step {e : Event} {q : Forest.Partial} (h : b.LeadsTo p all) (hq : q.prepend e = .ok p) :
    Ensures (b.step e) (LeadsTo · q all) (Overflows all) := by
  obtain ⟨f, gs⟩ := q
  cases e with
  | opening name as =>
    cases gs with
    | nil => cases hq
    | cons g gs =>
      cases hq
      exact h.openElement
  | closing =>
    cases hq
    exact h.closeElement
  | empty name as =>
    cases hq
    exact h.openElement.bind fun _ h₁ => h₁.closeElement
  | text chars | characterData chars | reference chars =>
    cases hq
    exact .ok (h.text chars)
  | comment content =>
    cases hq
    exact h.leaf (by simp [Content.kind]) (fun _ => rfl) (fun _ => rfl) fun _ _ => rfl
  | instruction target data =>
    cases hq
    exact h.leaf (by simp [Content.kind]) (fun _ => rfl) (fun _ => rfl) fun _ _ => rfl
  | declaration | doctype =>
    cases hq
    exact .ok h

/-- **Events lead to the end.**

**Proof sketch.** Induction on the events for all builders, with what holds of a single event. -/
lemma run {es : List Event} (h : b.LeadsTo p all) (hp : Forest.Partial.ofEvents es = .ok p) :
    Ensures (b.run es) (LeadsTo · ⟨.nil, []⟩ all) (Overflows all) := by
  induction es generalizing b p with
  | nil =>
    cases hp
    exact .ok h
  | cons e es ih =>
    obtain ⟨q, hes, hq⟩ := bind_eq_ok_iff.1 hp
    exact (h.step hq).bind fun _ h₁ => ih h₁ hes

/-- The layout of a forest is what comes behind the root alone. -/
lemma initial (f : Forest) : Builder.initial.LeadsTo ⟨f, []⟩ f.nodes := by
  refine ⟨WellFormed.initial, rfl, ?_⟩
  show closeAt (place [⟨.root, none, [], [], 1⟩] 0 f) 0 = _
  rw [closeAt, length_place]
  rfl

/-- A document is finished by the end of the root. -/
lemma finish (h : b.LeadsTo ⟨.nil, []⟩ all) (htext : b.text = "") (hb : b.WellFormed) :
    Ensures (b.finish hb) (fun d => d.nodes.toList = all) (Overflows all) := by
  have hopened : b.opened = [] := List.length_eq_zero_iff.1 h.length_behind.symm
  have hall := h.final_eq
  rw [final, withText_of_text_eq htext, hopened, complete_nil, place_nil] at hall
  unfold Builder.finish
  split
  · rename_i his
    rw [hopened] at his
    cases his
  · split
    · exact .ok (Array.toList_modify.trans hall)
    · have hsize := h.size_le
      exact .error ⟨rfl, by omega⟩

end LeadsTo

/-! ## Whole documents -/

/-- Concluding fails if reading does, or on what has been read. -/
lemma conclude_ensures {outcome : Except Markup.Error Builder} {kind : Markup.Error → Prop}
    {h : ∀ b, outcome = .ok b → b.WellFormed} {read : Builder → Prop} {property : Document → Prop}
    (houtcome : Ensures outcome read kind)
    (hfinish : ∀ b, read b → ∀ hb : b.WellFormed, Ensures (b.finish hb) property kind) :
    Ensures (conclude outcome h) property kind := by
  cases outcome with
  | ok b => exact hfinish b (houtcome.1 b rfl) (h b rfl)
  | error fault => exact .error (houtcome.2 fault rfl)

/-- **The document of events is the layout of their forest**: the nodes of the forest in document
order, with the numbers of their neighbours. There is none only if these nodes are too many. -/
lemma build_ensures {es : List Event} {f : Forest} (h : Forest.ofEvents es = .ok f) :
    Ensures (build es) (fun d => d.nodes.toList = f.nodes) (Overflows f.nodes) := by
  obtain ⟨p, hp, h⟩ := bind_eq_ok_iff.1 h
  split at h
  · rename_i hbehind
    obtain ⟨here, behind⟩ := p
    obtain rfl : behind = [] := List.isEmpty_iff.1 hbehind
    obtain rfl : here = f := pure_eq_ok_iff.1 h
    have hread : Ensures (read es) (fun b => b.LeadsTo ⟨.nil, []⟩ here.nodes ∧ b.text = "")
        (Overflows here.nodes) :=
      ((LeadsTo.initial here).run hp).bind fun _ h₁ => h₁.flushText fun _ => rfl
    exact conclude_ensures hread fun b ⟨hend, htext⟩ => hend.finish htext
  · cases h

/-- The events of a forest make a document if there are numbers for all of its nodes. -/
theorem build_eq_layout {es : List Event} {f : Forest} (h : Forest.ofEvents es = .ok f)
    (hlt : f.nodes.length < nodeLimit) :
    ∃ d : Document, build es = .ok d ∧ d.nodes.toList = f.nodes := by
  have hbuild := build_ensures h
  cases hd : build es with
  | ok d => exact ⟨d, rfl, hbuild.1 d hd⟩
  | error fault => exact absurd (hbuild.2 fault hd).2 (by omega)

/-- The events of a forest fail if there are too many nodes. -/
theorem build_eq_tooLarge {es : List Event} {f : Forest} (h : Forest.ofEvents es = .ok f)
    (hle : nodeLimit ≤ f.nodes.length) : build es = .error .tooLarge := by
  have hbuild := build_ensures h
  cases hd : build es with
  | ok d =>
    have hlt := d.size_lt
    rw [← Array.length_toList, hbuild.1 d hd] at hlt
    omega
  | error fault => rw [(hbuild.2 fault hd).1]

end Builder

end XmlHarvest
