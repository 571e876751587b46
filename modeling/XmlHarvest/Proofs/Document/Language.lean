import Mathlib.Data.Nat.Find
import Mathlib.Order.Basic
import XmlHarvest.Extraction.Reader
import XmlHarvest.Proofs.Document.Axes

/-!
# Languages along the tree

A node belongs to an element, and the search for its inherited language starts from there. Nodes of
different kinds reach that element in different ways, and nodes at the top of a document have none.
Yet the search is the same for all of them: only elements have attributes, so that it may as well
start from the node itself and go through all nodes around it. What is found is the language of the
nearest element that declares one, and one step up the tree is a recurrence.

## Main definitions

* `Document.Declares`: an element declares a language.
* `Document.Owns`: the element that a node belongs to.
* `Document.IsNearest`: the nearest element around a node that declares a language.
* `Document.LanguagesFollowTree`: own and inherited languages, by parent links and attributes.

## Main results

* `Document.inheritedLang?_eq_findSome?`: the search through the nodes around a node.
* `Document.languagesFollowTree`: the languages of every document follow its tree.
* `Extraction.Reader.localeOf_follows_tree`: the locales that a reader finds follow the tree.
-/

namespace XmlHarvest

namespace Document

/-! ## Declarations and owners -/

section Definitions

variable (d : Document)

/-- The name of the node `a` is that of `xml:lang`. -/
def IsLangName (a : Nat) : Prop :=
  d.localName a = "lang" ∧ d.space? a = some xmlSpace

/-- The node `e` declares the language `lang`: this is the value of its first attribute with the
name `xml:lang`. -/
def Declares (e : Nat) (lang : String) : Prop :=
  ∃ a, d.OnAxis e a .attribute ∧ d.IsLangName a ∧ d.value? a = some lang ∧
    ∀ b, d.OnAxis e b .attribute → d.IsLangName b → a ≤ b

/-- The node `n` belongs to the element `e`: it is the element itself, or another node with the
element as its parent. -/
def Owns (e n : Nat) : Prop :=
  d.kind e = .element ∧ (e = n ∨ d.kind n ≠ .element ∧ d.parent? n = some e)

/-- On the way from the node `n` to the root, `e` is the first element that declares a language, and
it declares `lang`: all others on the way that declare one are around it. -/
structure IsNearest (n e : Nat) (lang : String) : Prop where
  onWay : d.OnAxis n e .ancestorOrSelf
  element : d.kind e = .element
  declares : d.Declares e lang
  nearest : ∀ f l, d.OnAxis n f .ancestorOrSelf → d.Declares f l → d.OnAxis e f .ancestorOrSelf

end Definitions

variable {d : Document} {n e p a : Nat} {lang : String}

/-- An attribute has a value. -/
lemma exists_value (h : d.kind a = .attribute) : ∃ value, d.value? a = some value := by
  have hcontent : (d.node a).content.kind = .attribute := h
  cases hc : (d.node a).content with
  | «attribute» name value => exact ⟨value, congrArg Content.value? hc⟩
  | root | element _ | text _ | comment _ | instruction _ _ =>
    rw [hc] at hcontent
    cases hcontent

/-- In a sorted list, the first node with a value stands before all others that have one. -/
lemma findSome?_eq_some_iff_of_pairwise {β : Type} {r : Nat → Nat → Prop} {f : Nat → Option β}
    {is : List Nat} {value : β} (hasymm : ∀ i j, r i j → ¬r j i) (h : is.Pairwise r) :
    is.findSome? f = some value ↔
      ∃ i ∈ is, f i = some value ∧ ∀ j ∈ is, (f j).isSome → j = i ∨ r i j := by
  induction is with
  | nil => simp
  | cons i is ih =>
    obtain ⟨hi, his⟩ := List.pairwise_cons.1 h
    rw [List.findSome?_cons]
    cases hf : f i with
    | some head =>
      constructor
      · rintro ⟨⟩
        refine ⟨i, List.mem_cons_self, hf, fun j hj _ => ?_⟩
        exact (List.mem_cons.1 hj).imp_right (hi j)
      · rintro ⟨j, hj, hfj, hfirst⟩
        obtain rfl : i = j := (hfirst i List.mem_cons_self (by simp [hf])).resolve_right fun hji =>
          hasymm _ _ hji <| hi j <| (List.mem_cons.1 hj).resolve_left fun hij =>
            hasymm _ _ hji (hij ▸ hji)
        exact hf.symm.trans hfj
    | none =>
      simp only [ih his, List.mem_cons, exists_eq_or_imp, forall_eq_or_imp, hf, reduceCtorEq,
        Option.isSome_none, Bool.false_eq_true, false_and, false_or, IsEmpty.forall_iff, true_and]

/-- The language that is read from the attributes of a node is the one that it declares. -/
lemma declaredLang?_eq_some_iff : d.declaredLang? e = some lang ↔ d.Declares e lang := by
  have hfind (a : Nat) : ((d.attributes e).find? fun a =>
        d.localName a = "lang" && d.space? a = some xmlSpace) = some a ↔
      d.OnAxis e a .attribute ∧ d.IsLangName a ∧
        ∀ b, d.OnAxis e b .attribute → d.IsLangName b → a ≤ b := by
    rw [← List.findSome?_guard, findSome?_eq_some_iff_of_pairwise (fun _ _ => lt_asymm)
      (attributes_sorted e)]
    have hle (b : Nat) : b = a ∨ a < b ↔ a ≤ b := by omega
    simp [mem_attributes_iff, OnAxis, IsLangName, Option.guard_eq_some_iff, hle]
  rw [declaredLang?, attribute?, Option.bind_eq_some_iff, Declares]
  refine exists_congr fun a => ?_
  rw [hfind]
  tauto

/-- A node declares a language if one of its attributes has the name of `xml:lang`. -/
lemma exists_declares_iff :
    (∃ lang, d.Declares e lang) ↔ ∃ a, d.OnAxis e a .attribute ∧ d.IsLangName a := by
  constructor
  · rintro ⟨lang, a, ha, hname, -⟩
    exact ⟨a, ha, hname⟩
  · intro h
    classical
    -- of the attributes with this name, the first one counts
    obtain ⟨ha, hname⟩ := Nat.find_spec h
    obtain ⟨value, hvalue⟩ := exists_value ha.2
    exact ⟨value, Nat.find h, ha, hname, hvalue, fun b hb hbname => Nat.find_min' h ⟨hb, hbname⟩⟩

/-- Only elements declare a language. -/
lemma Declares.kind_eq (h : d.Declares e lang) : d.kind e = .element := by
  obtain ⟨a, ⟨hp, hk⟩, -⟩ := h
  exact d.numbered.kind_parent_attribute a e hp hk

/-- A node that is no element has no language of its own to read. -/
lemma declaredLang?_eq_none (h : d.kind e ≠ .element) : d.declaredLang? e = none := by
  cases hlang : d.declaredLang? e with
  | none => rfl
  | some lang => exact absurd (declaredLang?_eq_some_iff.1 hlang).kind_eq h

/-- The element that the search starts from is the one that the node belongs to. -/
lemma owner?_eq_some_iff : d.owner? n = some e ↔ d.Owns e n := by
  unfold owner? Owns
  split
  · rename_i hk
    simp only [Option.some.injEq, hk, ne_eq, not_true_eq_false, false_and, or_false]
    exact ⟨fun h => ⟨h ▸ hk, h.symm⟩, fun h => h.2.symm⟩
  · rename_i hk
    -- neither the root nor a number without a node has a parent
    have hp : d.parent? n = none := by
      cases hp : d.parent? n with
      | none => rfl
      | some p =>
        have h0 := (kind_eq_root_iff (parent_lt hp).2).1 hk
        rw [h0, parent?_zero] at hp
        cases hp
    simp only [hp, reduceCtorEq, and_false, or_false, false_iff]
    rintro ⟨he, rfl⟩
    rw [hk] at he
    cases he
  · rename_i hk _
    rw [Option.filter_eq_some_iff, decide_eq_true_iff]
    constructor
    · rintro ⟨hp, he⟩
      exact ⟨he, .inr ⟨hk, hp⟩⟩
    · rintro ⟨he, rfl | ⟨-, hp⟩⟩
      · exact absurd he hk
      · exact ⟨hp, he⟩

/-- A node belongs to no element if neither the node nor its parent is one. -/
lemma owner?_eq_none (hk : d.kind n ≠ .element)
    (hp : ∀ p, d.parent? n = some p → d.kind p ≠ .element) : d.owner? n = none := by
  rw [Option.eq_none_iff_forall_ne_some]
  intro e h
  obtain ⟨he, rfl | ⟨-, hparent⟩⟩ := owner?_eq_some_iff.1 h
  · exact hk he
  · exact hp e hparent he

/-- The own language of a node is the one that its element declares. -/
lemma lang?_eq_some_iff : d.lang? n = some lang ↔ ∃ e, d.Owns e n ∧ d.Declares e lang := by
  simp only [lang?, Option.bind_eq_some_iff, owner?_eq_some_iff, declaredLang?_eq_some_iff]

/-! ## The search -/

/-- The nodes around a node are its parent and the nodes around that one. -/
lemma ancestors_of_parent (h : d.parent? n = some p) : d.ancestors n = p :: d.ancestors p := by
  rw [ancestors, h]
  exact if_pos (parent_lt h).1

/-- **The search through the nodes around a node**, itself included, is the search for its inherited
language, whatever its kind.

**Proof sketch.** A node that is no element declares nothing, and neither does the root. So it does
no harm to ask them as well: an attribute or a text before its element, and a node at the top of the
document before the root. -/
lemma inheritedLang?_eq_findSome? (n : Nat) :
    d.inheritedLang? n = (d.axis .ancestorOrSelf n).findSome? d.declaredLang? := by
  show (d.owner? n).bind _ = (n :: d.ancestors n).findSome? d.declaredLang?
  by_cases hk : d.kind n = .element
  · rw [owner?_eq_some_iff.2 ⟨hk, .inl rfl⟩, Option.bind_some]
  rw [List.findSome?_cons, declaredLang?_eq_none hk]
  cases hp : d.parent? n with
  | none =>
    rw [owner?_eq_none hk (by simp [hp]), ancestors, hp]
    rfl
  | some p =>
    rw [ancestors_of_parent hp]
    rcases kind_parent hp with hroot | helement
    · have hpsize : p < d.size := (parent_lt hp).1.trans (parent_lt hp).2
      have howner : d.owner? n = none := owner?_eq_none hk (by simp [hp, hroot])
      obtain rfl : p = 0 := (kind_eq_root_iff hpsize).1 hroot
      rw [howner, List.findSome?_cons, declaredLang?_eq_none (by simp [hroot]), ancestors,
        parent?_zero]
      rfl
    · rw [owner?_eq_some_iff.2 ⟨helement, .inr ⟨hk, hp⟩⟩, Option.bind_some]

/-- The root has no language. -/
lemma inheritedLang?_root : d.inheritedLang? root = none := by
  have hk : d.kind 0 = .root := (kind_eq_root_iff size_pos).2 rfl
  rw [inheritedLang?, owner?, root, hk]
  rfl

/-- **One step up the tree**: the language that a node itself declares, or else the inherited
language of its parent. -/
lemma inheritedLang?_of_parent (h : d.parent? n = some p) :
    d.inheritedLang? n = (d.declaredLang? n).or (d.inheritedLang? p) := by
  rw [inheritedLang?_eq_findSome?, inheritedLang?_eq_findSome?]
  show (n :: d.ancestors n).findSome? d.declaredLang? = _
  rw [ancestors_of_parent h, List.findSome?_cons]
  cases d.declaredLang? n <;> rfl

/-- If its element declares a language, then a node inherits this one. -/
lemma Owns.inheritedLang?_eq (h : d.Owns e n) (hlang : d.Declares e lang) :
    d.inheritedLang? n = some lang := by
  rw [inheritedLang?, owner?_eq_some_iff.2 h, Option.bind_some, List.findSome?_cons,
    declaredLang?_eq_some_iff.2 hlang]

/-- Two nodes on the way from a node to the root: the one with the smaller number is around the
other. -/
lemma onAxis_of_le {f : Nat} (he : d.OnAxis n e .ancestorOrSelf) (hf : d.OnAxis n f .ancestorOrSelf)
    (hle : f ≤ e) : d.OnAxis e f .ancestorOrSelf := by
  rcases Nat.eq_or_lt_of_le hle with rfl | hlt
  · exact .inl rfl
  · have hen : e ≤ n := he.elim (fun h => h.le) fun h => h.lt_and_stop_le.1.le
    have hfn : d.Encloses f n := hf.resolve_left (by omega)
    have hstop := (encloses_iff.1 hfn).2
    exact .inr (encloses_iff.2 ⟨hlt, by omega⟩)

/-- The nodes on the way from a node to the root. -/
lemma mem_ancestorOrSelf_iff : a ∈ d.axis .ancestorOrSelf n ↔ d.OnAxis n a .ancestorOrSelf := by
  simp only [axis, OnAxis, List.mem_cons, mem_ancestors_iff]

/-- **The inherited language of a node** is that of the nearest element that declares one. -/
lemma inheritedLang?_eq_some_iff :
    d.inheritedLang? n = some lang ↔ ∃ e, d.IsNearest n e lang := by
  rw [inheritedLang?_eq_findSome?, findSome?_eq_some_iff_of_pairwise (fun _ _ => lt_asymm)
    (axis_sorted_of_isReverse (a := .ancestorOrSelf) rfl n)]
  simp only [mem_ancestorOrSelf_iff]
  refine exists_congr fun e => ?_
  constructor
  · rintro ⟨he, hlang, hfirst⟩
    rw [declaredLang?_eq_some_iff] at hlang
    refine ⟨he, hlang.kind_eq, hlang, fun f l hf hl => ?_⟩
    have hle := hfirst f hf (by rw [declaredLang?_eq_some_iff.2 hl]; rfl)
    exact onAxis_of_le he hf (hle.elim (fun h => h.le) fun h => h.le)
  · rintro ⟨he, -, hlang, hnear⟩
    refine ⟨he, declaredLang?_eq_some_iff.2 hlang, fun f hf hl => ?_⟩
    obtain ⟨l, hl⟩ := Option.isSome_iff_exists.1 hl
    exact (hnear f l hf (declaredLang?_eq_some_iff.1 hl)).imp_right fun h => h.lt_and_stop_le.1

/-! ## Languages and locales -/

/-- Own and inherited languages of a document, by parent links and attributes. -/
structure LanguagesFollowTree (d : Document) : Prop where
  /-- The own language is what the element of a node declares, and no other node is asked. -/
  own : ∀ n lang, d.lang? n = some lang ↔ ∃ e, d.Owns e n ∧ d.Declares e lang
  /-- An element declares a language if it has an attribute with the name `xml:lang`. -/
  declares : ∀ e, (∃ lang, d.Declares e lang) ↔ ∃ a, d.OnAxis e a .attribute ∧ d.IsLangName a
  root : d.inheritedLang? root = none
  /-- Where its element declares a language, a node inherits its own one. -/
  declared : ∀ n p, d.parent? n = some p → (∃ e lang, d.Owns e n ∧ d.Declares e lang) →
    d.inheritedLang? n = d.lang? n
  /-- Elsewhere it inherits what its parent inherits. -/
  inherited : ∀ n p, d.parent? n = some p → (¬∃ e lang, d.Owns e n ∧ d.Declares e lang) →
    d.inheritedLang? n = d.inheritedLang? p
  /-- What comes out is the language of the nearest element that declares one. -/
  nearest : ∀ n lang, d.inheritedLang? n = some lang ↔ ∃ e, d.IsNearest n e lang

/-- **Languages follow the tree** in every document. -/
lemma languagesFollowTree (d : Document) : d.LanguagesFollowTree where
  own _ _ := lang?_eq_some_iff
  declares _ := exists_declares_iff
  root := inheritedLang?_root
  declared n p _ h := by
    obtain ⟨e, lang, howns, hlang⟩ := h
    rw [howns.inheritedLang?_eq hlang, lang?_eq_some_iff.2 ⟨e, howns, hlang⟩]
  inherited n p hp h := by
    -- the node would be its own element if it declared a language
    have hnone : d.declaredLang? n = none := by
      rw [Option.eq_none_iff_forall_ne_some]
      intro lang hlang
      rw [declaredLang?_eq_some_iff] at hlang
      exact h ⟨n, lang, ⟨hlang.kind_eq, .inl rfl⟩, hlang⟩
    rw [inheritedLang?_of_parent hp, hnone, Option.none_or]
  nearest _ _ := inheritedLang?_eq_some_iff

/-- If no node on the way to the root declares a language, then there is none to inherit. -/
lemma LanguagesFollowTree.inheritedLang?_eq_none (h : d.LanguagesFollowTree)
    (hnone : ∀ e lang, ¬d.IsNearest n e lang) : d.inheritedLang? n = none := by
  rw [Option.eq_none_iff_forall_ne_some]
  intro lang hlang
  obtain ⟨e, he⟩ := (h.nearest n lang).1 hlang
  exact hnone e lang he

/-- If the element of a node declares no language, then the node has none of its own. -/
lemma LanguagesFollowTree.lang?_eq_none (h : d.LanguagesFollowTree)
    (hnone : ∀ e lang, d.Owns e n → ¬d.Declares e lang) : d.lang? n = none := by
  rw [Option.eq_none_iff_forall_ne_some]
  intro lang hlang
  obtain ⟨e, howns, hdeclares⟩ := (h.own n lang).1 hlang
  exact hnone e lang howns hdeclares

end Document

namespace Extraction.Reader

open Document

/-- **Locales follow the tree.** With inherited languages, the locale of a node is that of the tag
which the nearest element that declares a language has on the way from the node to the root, and the
root locale if no element on the way declares one. Without, only the element that the node belongs
to is asked.

**Proof sketch.** The search for the inherited language begins at the element of a node and asks the
nodes around it. To ask every node on the way to the root gives the same, since only elements
declare a language (`inheritedLang?_eq_findSome?`). So the search goes from a node to its parent
(`inheritedLang?_of_parent`), and the first node on the way that declares a language is the nearest
one (`inheritedLang?_eq_some_iff`). The locale is read from the tag that is found. -/
theorem localeOf_follows_tree (r : Reader) : r.view.document.LanguagesFollowTree ∧ ∀ n,
    (r.inheritLang = true →
      (∀ e lang, r.view.document.IsNearest n e lang → r.localeOf n = Locale.ofTag lang) ∧
      ((∀ e lang, r.view.document.OnAxis n e .ancestorOrSelf → ¬r.view.document.Declares e lang) →
        r.localeOf n = .root)) ∧
    (r.inheritLang = false →
      (∀ e lang, r.view.document.Owns e n → r.view.document.Declares e lang →
        r.localeOf n = Locale.ofTag lang) ∧
      ((∀ e lang, r.view.document.Owns e n → ¬r.view.document.Declares e lang) →
        r.localeOf n = .root)) := by
  have h := r.view.document.languagesFollowTree
  refine ⟨h, fun n => ⟨fun hinherit => ⟨fun e lang hnear => ?_, fun hnone => ?_⟩,
    fun hinherit => ⟨fun e lang howns hlang => ?_, fun hnone => ?_⟩⟩⟩
  · rw [localeOf, if_pos hinherit, (h.nearest n lang).2 ⟨e, hnear⟩]
    rfl
  · rw [localeOf, if_pos hinherit,
      h.inheritedLang?_eq_none fun e lang hnear => hnone e lang hnear.onWay hnear.declares]
    rfl
  · rw [localeOf, if_neg (by simp [hinherit]), (h.own n lang).2 ⟨e, howns, hlang⟩]
    rfl
  · rw [localeOf, if_neg (by simp [hinherit]), h.lang?_eq_none hnone]
    rfl

/-- An attribute two elements below the one that declares a language, and a comment at the top. -/
theorem localeOf_follows_tree_attribute : ∃ d : Document,
    Document.parse "<a xml:lang=\"de-DE\"><b x=\"1\">t</b></a><!--c-->" = .ok d ∧
      let inheriting : Reader := ⟨⟨0, d⟩, [], true⟩
      let plain : Reader := ⟨⟨0, d⟩, [], false⟩
      (∃ e, d.IsNearest 4 e "de-DE") ∧ inheriting.localeOf 4 = .tagged "de" none ∧
      (∀ e lang, d.OnAxis 6 e .ancestorOrSelf → ¬d.Declares e lang) ∧
        inheriting.localeOf 6 = .root ∧
      (d.Owns 1 1 ∧ d.Declares 1 "de-DE") ∧ plain.localeOf 1 = .tagged "de" none ∧
      (∀ e lang, d.Owns e 4 → ¬d.Declares e lang) ∧ plain.localeOf 4 = .root := by
  have h : ((Document.parse
      "<a xml:lang=\"de-DE\"><b x=\"1\">t</b></a><!--c-->").toOption.map fun d =>
      ((d.inheritedLang? 4, (d.axis .ancestorOrSelf 6).findSome? d.declaredLang?),
        (d.owner? 1, d.declaredLang? 1), d.lang? 4)) =
      some ((some "de-DE", none), (some 1, some "de-DE"), none) := by decide +kernel
  obtain ⟨d, hd, h⟩ := Option.map_eq_some_iff.1 h
  simp only [Prod.mk.injEq] at h
  obtain ⟨⟨hbelow, htop⟩, ⟨howner, hdeclared⟩, hlang⟩ := h
  refine ⟨d, toOption_eq_some_iff.1 hd, ?_⟩
  intro inheriting plain
  obtain ⟨hfollows, hinheriting⟩ := localeOf_follows_tree inheriting
  obtain ⟨-, hplain⟩ := localeOf_follows_tree plain
  obtain ⟨e, hnear⟩ := (hfollows.nearest 4 "de-DE").1 hbelow
  have htop : ∀ e lang, d.OnAxis 6 e .ancestorOrSelf → ¬d.Declares e lang := by
    intro e lang he hlang
    have hnone := List.findSome?_eq_none_iff.1 htop e (mem_ancestorOrSelf_iff.2 he)
    rw [declaredLang?_eq_some_iff.2 hlang] at hnone
    cases hnone
  have hown : d.Owns 1 1 := owner?_eq_some_iff.1 howner
  have hdeclares : d.Declares 1 "de-DE" := declaredLang?_eq_some_iff.1 hdeclared
  have hnone : ∀ e lang, d.Owns e 4 → ¬d.Declares e lang := by
    intro e lang he hdeclares
    rw [lang?_eq_some_iff.2 ⟨e, he, hdeclares⟩] at hlang
    cases hlang
  exact ⟨⟨e, hnear⟩, ((hinheriting 4).1 rfl).1 e "de-DE" hnear, htop,
    ((hinheriting 6).1 rfl).2 htop, ⟨hown, hdeclares⟩,
    ((hplain 1).2 rfl).1 1 "de-DE" hown hdeclares, hnone,
    ((hplain 4).2 rfl).2 hnone⟩

end Extraction.Reader

end XmlHarvest
