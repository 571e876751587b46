import Mathlib
import XmlHarvest.Extraction.Reader
import XmlHarvest.Proofs.Extraction.Growth
import XmlHarvest.Proofs.Query.Order

/-!
# The first match

The members of a list are tried in order until one of them selects a node. A member is tried by
evaluating everything that it expands to, and the key path at every node that is found; nothing is
evaluated twice and nothing behind the winner is evaluated or even compiled. Where an evaluation
fails, the work ends there.

The evaluations are listed apart from the run: what an expression selects is settled by the cache
that the run starts with. The run makes the evaluations of this list up to the first that fails.

A run on a document is computed with equations of list and string functions that are in no part of
Mathlib but the whole. So this module imports all of it, and so do those on top of it.

## Main definitions

* `Extraction.upTo`: the members of a list up to the first of a class.
* `Extraction.Evaluation`: an expression and the node that it is evaluated at.
* `Extraction.Reader.selects`: whether a member selects a node.
* `Extraction.Reader.evaluationsOf`, `Extraction.Reader.hitsOf`: the evaluations and the hits of
  one expression.
* `Extraction.Reader.Makes`: a computation that makes evaluations in order.

## Main results

* `Extraction.Reader.Makes.bind`, `Extraction.Reader.Makes.mapM`: evaluations one after the other.
* `Extraction.Reader.makes_select`: the evaluations of one member.
* `Extraction.Reader.firstMatch_spec`: the first match.
-/

namespace XmlHarvest.Extraction

variable {α β : Type}

/-! ## Lists up to a member -/

/-- The members of a list up to the first one of a class, which is the last to be kept. -/
def upTo (p : α → Bool) : List α → List α
  | [] => []
  | a :: as => if p a then [a] else a :: upTo p as

/-- A list without a member of the class is kept. -/
lemma upTo_of_none {p : α → Bool} {as : List α} (h : ∀ a ∈ as, p a = false) : upTo p as = as := by
  induction as with
  | nil => rfl
  | cons a as ih =>
    obtain ⟨ha, has⟩ := List.forall_mem_cons.1 h
    rw [upTo, ha, ih has]
    rfl

/-- Behind a list without a member of the class the search goes on. -/
lemma upTo_append_of_none {p : α → Bool} {as : List α} (h : ∀ a ∈ as, p a = false) (bs : List α) :
    upTo p (as ++ bs) = as ++ upTo p bs := by
  induction as with
  | nil => rfl
  | cons a as ih =>
    obtain ⟨ha, has⟩ := List.forall_mem_cons.1 h
    rw [List.cons_append, upTo, ha, ih has]
    rfl

/-- What stands behind a list with a member of the class is left out. -/
lemma upTo_append_of_mem {p : α → Bool} {as : List α} (h : ∃ a ∈ as, p a) (bs : List α) :
    upTo p (as ++ bs) = upTo p as := by
  induction as with
  | nil =>
    obtain ⟨a, ha, -⟩ := h
    cases ha
  | cons a as ih =>
    rw [List.cons_append, upTo, upTo]
    cases ha : p a with
    | true => rfl
    | false =>
      have has : ∃ b ∈ as, p b := by
        obtain ⟨b, hb, hp⟩ := h
        obtain rfl | hb := List.mem_cons.1 hb
        · rw [ha] at hp
          cases hp
        · exact ⟨b, hb, hp⟩
      rw [ih has]

/-! ## Evaluations -/

/-- An expression and the node that it is evaluated at. -/
structure Evaluation where
  expression : String
  node : NodeId
deriving DecidableEq, Repr

namespace Reader

section Definitions

variable (r : Reader) (c : Cache)

/-- The fault that an evaluation ends with, if it fails. It names the expression. -/
def fault? (v : Evaluation) : Option Error :=
  match r.view.answer c v.expression v.node with
  | .ok _ => none
  | .error cause => some (.resolution v.expression cause)

/-- The nodes that an expression selects from a node; there are none if it fails. -/
def found (e : String) (i : NodeId) : List NodeId :=
  (r.view.answer c e i).toOption.getD []

/-- Whether a member of a list selects a node: one of the expressions that it stands for does. -/
def selects (e : String) : Bool :=
  (r.expand [e]).any fun x => !(r.found c x Document.root).isEmpty

variable (keyPath : Option String)

/-- The evaluations of an expression: its own one at the root, and then that of the key path at each
node that it selects. -/
def evaluationsOf (x : String) : List Evaluation :=
  ⟨x, Document.root⟩ :: (r.found c x Document.root).flatMap fun i =>
    keyPath.toList.map fun path => ⟨path, i⟩

/-- The hits of an expression: the nodes that it selects, each with the first node that the key path
selects from it. -/
def hitsOf (x : String) : List Hit :=
  (r.found c x Document.root).map fun i =>
    ⟨keyPath.bind fun path => (r.found c path i).head?, i⟩

/-- The evaluations of the members of a list up to the first one that selects a node: those of all
expressions that a member stands for, before those of the next member. -/
def evaluationsUpToMatch (es : List String) : List Evaluation :=
  (upTo (r.selects c) es).flatMap fun e => (r.expand [e]).flatMap (r.evaluationsOf c keyPath)

/-- The hits of the first member that selects a node: those of all expressions that it stands for.
If no member selects a node, there are none. -/
def matchHits (es : List String) : List Hit :=
  (es.find? (r.selects c)).elim [] fun e => (r.expand [e]).flatMap (r.hitsOf c keyPath)

/-- A computation that makes evaluations in order. If all of them succeed, it returns `a`; the first
one that fails ends it, and the expressions behind that one are not compiled. -/
def Makes (vs : List Evaluation) (x : Run α) (a : α) : Prop :=
  Does c x ((vs.findSome? (r.fault? c)).elim (.ok a) .error)
    ((upTo (fun v => (r.fault? c v).isSome) vs).map Evaluation.expression)

end Definitions

variable {r : Reader} {c : Cache} {keyPath : Option String}

/-! ## Computations that make evaluations -/

/-- A result that was there before needs no evaluation. -/
lemma makes_pure (a : α) : r.Makes c [] (pure a) a :=
  does_pure a

/-- No evaluation fails if none has a fault. -/
lemma forall_isSome_eq_false {vs : List Evaluation} (h : vs.findSome? (r.fault? c) = none) :
    ∀ v ∈ vs, (r.fault? c v).isSome = false := by
  intro v hv
  rw [List.findSome?_eq_none_iff.1 h v hv]
  rfl

/-- **Evaluations one after the other.** The second computation runs on what the first one
returns. -/
lemma Makes.bind {vs ws : List Evaluation} {x : Run α} {f : α → Run β} {a : α} {b : β}
    (hx : r.Makes c vs x a) (hf : r.Makes c ws (f a) b) : r.Makes c (vs ++ ws) (x >>= f) b := by
  unfold Makes at *
  rw [List.findSome?_append]
  cases hfault : vs.findSome? (r.fault? c) with
  | none =>
    have hnone := forall_isSome_eq_false hfault
    rw [hfault, upTo_of_none hnone] at hx
    rw [upTo_append_of_none hnone, List.map_append]
    exact Does.bind hx hf
  | some fault =>
    obtain ⟨v, hv, hvfault⟩ := List.exists_of_findSome?_eq_some hfault
    rw [hfault] at hx
    rw [upTo_append_of_mem ⟨v, hv, by rw [hvfault]; rfl⟩]
    exact Does.bind_error hx

/-- A result is changed without evaluations. -/
lemma Makes.bind_pure {vs : List Evaluation} {x : Run α} {a : α} (g : α → β)
    (hx : r.Makes c vs x a) : r.Makes c vs (x >>= fun a => pure (g a)) (g a) := by
  have h : r.Makes c (vs ++ []) (x >>= fun a => pure (g a)) (g a) := hx.bind (makes_pure (g a))
  rwa [List.append_nil] at h

/-- **The evaluations for the members of a list**, member by member. -/
lemma Makes.mapM {f : α → Run β} {vs : α → List Evaluation} {g : α → β}
    (h : ∀ a, r.Makes c (vs a) (f a) (g a)) (as : List α) :
    r.Makes c (as.flatMap vs) (as.mapM f) (as.map g) := by
  induction as with
  | nil => exact makes_pure []
  | cons a as ih =>
    rw [List.mapM_cons, List.flatMap_cons, List.map_cons]
    exact (h a).bind (ih.bind_pure (g a :: ·))

/-- One evaluation. -/
lemma makes_nodes {context : Option Located} {i : NodeId}
    (hcontext : r.view.contextNode context = .ok i) (e : String) :
    r.Makes c [⟨e, i⟩] (resolving e (r.view.nodes e context)) (r.found c e i) := by
  have h : Does c (resolving e (r.view.nodes e context)) _ [e] :=
    (does_nodes r.view hcontext e).adapt (.resolution e)
  unfold Makes
  have hlist : upTo (fun v => (r.fault? c v).isSome) [⟨e, i⟩] = [⟨e, i⟩] := by
    rw [upTo, upTo, ite_self]
  have hresult : (r.view.answer c e i).mapError (.resolution e) =
      ([(⟨e, i⟩ : Evaluation)].findSome? (r.fault? c)).elim (.ok (r.found c e i)) .error := by
    simp only [List.findSome?_cons, List.findSome?_nil, fault?, found]
    cases r.view.answer c e i <;> rfl
  rw [hlist, ← hresult]
  exact h

/-- The evaluation of the key path at a node. -/
lemma makes_withKey (hkey : ∀ path, keyPath = some path → Query.isRelative path) (i : NodeId) :
    r.Makes c (keyPath.toList.map fun path => ⟨path, i⟩) (r.withKey keyPath i)
      ⟨keyPath.bind fun path => (r.found c path i).head?, i⟩ := by
  cases keyPath with
  | none => exact makes_pure _
  | some path =>
    have hrelative : r.view.relative (r.view.locate i) path =
        r.view.nodes path (some (r.view.locate i)) := by
      rw [View.relative, requireRelative, if_pos (hkey path rfl)]
      rfl
    show r.Makes c [⟨path, i⟩] (resolving path (r.view.relative _ path) >>= _) _
    rw [hrelative]
    exact (makes_nodes (contextNode_locate r.view i) path).bind_pure
      fun keys => (⟨keys.head?, i⟩ : Hit)

/-- The evaluations of one expression. -/
lemma makes_selectOne (hkey : ∀ path, keyPath = some path → Query.isRelative path) (x : String) :
    r.Makes c (r.evaluationsOf c keyPath x) (r.selectOne keyPath x) (r.hitsOf c keyPath x) :=
  Makes.bind (makes_nodes rfl x) (Makes.mapM (makes_withKey hkey) _)

/-- **The evaluations of a member** are those of all expressions that it stands for, whether the
first of them selects a node or not. -/
lemma makes_select (hkey : ∀ path, keyPath = some path → Query.isRelative path)
    (es : List String) : r.Makes c ((r.expand es).flatMap (r.evaluationsOf c keyPath))
      (r.select keyPath es) ((r.expand es).flatMap (r.hitsOf c keyPath)) := by
  have hmembers : r.Makes c _ ((r.expand es).mapM (r.selectOne keyPath)) _ :=
    Makes.mapM (makes_selectOne hkey) (r.expand es)
  have hcheck : r.select keyPath es =
      (r.expand es).mapM (r.selectOne keyPath) >>= fun hits => pure hits.flatten := by
    cases keyPath with
    | none => rfl
    | some path =>
      rw [select, requireRelative, if_pos (hkey path rfl)]
      rfl
  rw [hcheck]
  exact hmembers.bind_pure List.flatten

/-- A member has hits if it selects a node, whatever becomes of the keys. -/
lemma isEmpty_hits_eq (e : String) :
    ((r.expand [e]).flatMap (r.hitsOf c keyPath)).isEmpty = !r.selects c e := by
  rw [Bool.eq_iff_iff]
  simp [selects, hitsOf, List.isEmpty_iff]

/-- The evaluations up to the first match.

**Proof sketch.** Induction on the list. The evaluations of the first member are made in any case;
those of the other members follow if they give no hits. -/
lemma makes_firstMatch (es : List String)
    (hkey : ∀ path, keyPath = some path → es ≠ [] → Query.isRelative path) :
    r.Makes c (r.evaluationsUpToMatch c keyPath es) (r.firstMatch keyPath es)
      (r.matchHits c keyPath es) := by
  induction es with
  | nil => exact makes_pure []
  | cons e es ih =>
    have hrelative : ∀ path, keyPath = some path → Query.isRelative path :=
      fun path hpath => hkey path hpath (List.cons_ne_nil e es)
    have hfirst : r.Makes c _ (r.select keyPath [e]) _ := makes_select hrelative [e]
    have hmore := ih fun path hpath _ => hrelative path hpath
    have hempty : ((r.expand [e]).flatMap (r.hitsOf c keyPath)).isEmpty = _ := isEmpty_hits_eq e
    rw [firstMatch, evaluationsUpToMatch, matchHits, upTo, List.find?_cons]
    cases hselects : r.selects c e with
    | true =>
      rw [if_pos rfl, List.flatMap_cons]
      refine hfirst.bind ?_
      rw [hempty, hselects]
      exact makes_pure _
    | false =>
      rw [if_neg Bool.false_ne_true, List.flatMap_cons]
      refine hfirst.bind ?_
      rw [hempty, hselects]
      exact hmore

/-- The nodes that an expression selects are in document order. -/
lemma found_sorted (e : String) (i : NodeId) : (r.found c e i).Pairwise (· < ·) := by
  unfold found View.answer
  cases c.compiled e with
  | error cause => exact .nil
  | ok query =>
    show (((query.evaluateNodes r.view.document i).mapError _).toOption.getD []).Pairwise _
    cases h : query.evaluateNodes r.view.document i with
    | error cause => exact .nil
    | ok is =>
      obtain ⟨v, hv, his⟩ := bind_eq_ok_iff.1 h
      rw [Query.toNodes_eq_ok_iff.1 his] at hv
      exact Query.evaluate_sorted hv

/-- A key path that does not start from its context node is refused at once. -/
lemma firstMatch_refused {path : String} (hkey : Query.isRelative path = false) (e : String)
    (es : List String) :
    (r.firstMatch (some path) (e :: es)).outcome c =
        .error (.resolution path (.notRelative path)) ∧
      (r.firstMatch (some path) (e :: es)).after c = c := by
  have hcheck : (resolving path (requireRelative path : Except Error Unit)).outcome c =
      .error (.resolution path (.notRelative path)) := by
    rw [requireRelative, hkey]
    rfl
  have hselect : (r.select (some path) [e]).outcome c =
      .error (.resolution path (.notRelative path)) := outcome_bind_error _ hcheck
  rw [firstMatch, outcome_bind_error _ hselect, after_bind_error _ hselect]
  exact ⟨rfl, after_bind_error _ hcheck⟩

/-- **The first match.** A key path that does not start from its context node is refused before
anything is evaluated, unless there is nothing to evaluate. Otherwise the evaluations of the members
up to the first one that selects a node are made in order. If all of them succeed, the hits of that
member are returned, in the order of the expressions that it stands for and of the document; the
first one that fails is reported with its expression. To the cache nothing is added but the
expressions that were evaluated so far, as far as they can be compiled.

**Proof sketch.** A key path is refused before anything else is done (`firstMatch_refused`).
Otherwise, by induction on the list, the run makes the evaluations up to the first match and no
others (`makes_firstMatch`). Here computations that make evaluations are put together from single
ones (`makes_nodes`, `Makes.bind`, `Makes.mapM`): the first fault ends the work, and what the cache
has gained in between changes no result. Node-sets are in document order (`found_sorted`). -/
theorem firstMatch_spec (r : Reader) (c : Cache) (keyPath : Option String) (es : List String) :
    (∀ path, keyPath = some path → es ≠ [] → Query.isRelative path = false →
      (r.firstMatch keyPath es).outcome c = .error (.resolution path (.notRelative path)) ∧
        (r.firstMatch keyPath es).after c = c) ∧
    ((∀ path, keyPath = some path → es ≠ [] → Query.isRelative path = true) →
      (r.firstMatch keyPath es).outcome c =
          (match (r.evaluationsUpToMatch c keyPath es).findSome? (r.fault? c) with
            | none => .ok (r.matchHits c keyPath es)
            | some fault => .error fault) ∧
        c.Gains ((r.firstMatch keyPath es).after c)
          ((upTo (fun v => (r.fault? c v).isSome) (r.evaluationsUpToMatch c keyPath es)).map
            Evaluation.expression)) ∧
    ∀ e i, (r.found c e i).Pairwise (· < ·) := by
  refine ⟨fun path hpath hes hkey => ?_, fun hkey => ?_, found_sorted⟩
  · subst hpath
    obtain ⟨e, es, rfl⟩ := List.exists_cons_of_ne_nil hes
    exact firstMatch_refused hkey e es
  · have hmakes : r.Makes c _ _ _ := makes_firstMatch es hkey
    obtain ⟨houtcome, hgains⟩ := hmakes.here
    refine ⟨houtcome.trans ?_, hgains⟩
    cases (r.evaluationsUpToMatch c keyPath es).findSome? (r.fault? c) <;> rfl

/-- The second of three members selects two nodes, one of which has a key. The third one is no
expression, and the key path without its dot is refused. -/
theorem firstMatch_spec_second_member : ∃ d : Document,
    Document.parse "<r><b k=\"1\"/><b/></r>" = .ok d ∧
      let r : Reader := ⟨⟨0, d⟩, ["/r", "/q"], false⟩
      let c := Cache.new .initial
      (r.firstMatch (some "./@k") ["/x", "//b", "]"]).outcome c =
          .ok [⟨some 3, 2⟩, ⟨none, 4⟩] ∧
        c.Gains ((r.firstMatch (some "./@k") ["/x", "//b", "]"]).after c)
          ["/r/x", "/q/x", "/r//b", "./@k", "./@k", "/q//b"] ∧
        (r.firstMatch (some "@k") ["/x"]).outcome c =
          .error (.resolution "@k" (.notRelative "@k")) ∧
        (r.firstMatch (some "@k") ["/x"]).after c = c := by
  have h : ((Document.parse "<r><b k=\"1\"/><b/></r>").toOption.map fun d =>
      let r : Reader := ⟨⟨0, d⟩, ["/r", "/q"], false⟩
      let c := Cache.new .initial
      let vs := r.evaluationsUpToMatch c (some "./@k") ["/x", "//b", "]"]
      ((vs.findSome? (r.fault? c)).isNone,
        (upTo (fun v => (r.fault? c v).isSome) vs).map Evaluation.expression,
        r.matchHits c (some "./@k") ["/x", "//b", "]"])) =
      some (true, ["/r/x", "/q/x", "/r//b", "./@k", "./@k", "/q//b"],
        [⟨some 3, 2⟩, ⟨none, 4⟩]) := by cbv
  obtain ⟨d, hd, h⟩ := Option.map_eq_some_iff.1 h
  simp only [Prod.mk.injEq, Option.isNone_iff_eq_none] at h
  obtain ⟨hfault, hexpressions, hhits⟩ := h
  refine ⟨d, toOption_eq_some_iff.1 hd, ?_⟩
  intro r c
  have hdot : Query.isRelative "./@k" = true := by decide +kernel
  have hnodot : Query.isRelative "@k" = false := by decide +kernel
  obtain ⟨-, hmatch, -⟩ := firstMatch_spec r c (some "./@k") ["/x", "//b", "]"]
  obtain ⟨houtcome, hgains⟩ := hmatch (by rintro _ ⟨⟩ -; exact hdot)
  obtain ⟨hrefused, -, -⟩ := firstMatch_spec r c (some "@k") ["/x"]
  obtain ⟨hfailed, hafter⟩ := hrefused "@k" rfl (by simp) hnodot
  rw [hfault, hhits] at houtcome
  rw [hexpressions] at hgains
  exact ⟨houtcome, hgains, hfailed, hafter⟩

end Reader

end XmlHarvest.Extraction
