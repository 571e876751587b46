import XmlHarvest.Proofs.Extraction.FirstMatch
import XmlHarvest.Proofs.Query.Joining

/-!
# Root paths

A root path is put in front of an expression as a text. For a path in front of a slash and a
relative path this text is the path of both, so the expression is evaluated at each of the nodes
that the root path selects. Several root paths supply their nodes one after the other, each list in
document order by itself.

## Main results

* `Extraction.answer_join`: the nodes behind one root path.
* `Extraction.Reader.rootPaths_compose`: the nodes behind all root paths of a reader.
-/

namespace XmlHarvest.Extraction

variable {c : Cache}

/-- What an expression selects from the root. -/
lemma outcome_nodes_none (v : View) (e : String) :
    (v.nodes e none).outcome c = v.answer c e Document.root :=
  (does_nodes v rfl e).here.1

/-- What an expression selects from a node. -/
lemma outcome_nodes_locate (v : View) (e : String) (i : NodeId) :
    (v.nodes e (some (v.locate i))).outcome c = v.answer c e i :=
  (does_nodes v (contextNode_locate v i) e).here.1

/-- From a consistent cache an expression selects what it selects when it is compiled anew. -/
lemma Cache.Consistent.answer_eq_ok_iff (hc : c.Consistent) (v : View) {e : String} {i : NodeId}
    {is : List NodeId} : v.answer c e i = .ok is ↔
      ∃ q, Query.compile c.context e = .ok q ∧ q.evaluateNodes v.document i = .ok is := by
  rw [View.answer, hc.compiled_eq, bind_eq_ok_iff]
  simp only [mapError_eq_ok_iff]

/-- **The nodes behind a root path** are those of the relative path at each of the nodes of the root
path, united. -/
lemma answer_join (hc : c.Consistent) (v : View) {root further : String} {q : Query.Compiled}
    (hroot : Query.IsPath root) (hfurther : Query.IsRelativePath further)
    (hq : Query.compile c.context further = .ok q) {is : List NodeId}
    (his : v.answer c root Document.root = .ok is)
    (heach : ∀ i ∈ is, ∃ part, v.answer c further i = .ok part) :
    (∃ joined, Query.compile c.context (root ++ ("/" ++ further)) = .ok joined) ∧
      ∃ js, v.answer c (root ++ ("/" ++ further)) Document.root = .ok js ∧
        Query.IsUnionOf js is fun i => v.answer c further i := by
  obtain ⟨p, hp, hpis⟩ := (hc.answer_eq_ok_iff v).1 his
  obtain ⟨joined, hjoined, hnodes⟩ := Query.compile_join hroot hfurther hp hq
  have hanswer : ∀ i part, v.answer c further i = .ok part ↔
      q.evaluateNodes v.document i = .ok part := by
    intro i part
    rw [hc.answer_eq_ok_iff v]
    constructor
    · rintro ⟨q', hq', h⟩
      cases hq.symm.trans hq'
      exact h
    · intro h
      exact ⟨q, hq, h⟩
  obtain ⟨js, hjs⟩ := Query.exists_isUnionOf heach
  refine ⟨⟨joined, hjoined⟩, js, ?_, hjs⟩
  refine (hc.answer_eq_ok_iff v).2 ⟨joined, hjoined, ?_⟩
  exact (hnodes v.document Document.root js).2 ⟨is, hpis, hjs.of_eq_ok_iff hanswer⟩

namespace Reader

/-- The expressions of a list without a key path are evaluated once each, and what they select is
collected in their order. -/
lemma outcome_select {r : Reader} {es : List String}
    (h : ∀ x ∈ r.expand es, ∃ is, r.view.answer c x Document.root = .ok is) :
    (r.select none es).outcome c = .ok ((r.expand es).flatMap fun x =>
      (r.found c x Document.root).map fun i => ⟨none, i⟩) := by
  have hkey : ∀ path, (none : Option String) = some path → Query.isRelative path := nofun
  have hmakes : r.Makes c _ (r.select none es) _ := makes_select hkey es
  have hfault : ((r.expand es).flatMap (r.evaluationsOf c none)).findSome? (r.fault? c) = none := by
    simp only [List.findSome?_eq_none_iff, List.mem_flatMap]
    rintro v ⟨x, hx, hv⟩
    obtain rfl : v = ⟨x, Document.root⟩ := by simpa [evaluationsOf] using hv
    obtain ⟨is, his⟩ := h x hx
    rw [fault?, his]
  rw [hmakes.here.1, hfault]
  rfl

/-- **Root paths compose with relative paths.** A reader that puts its root paths in front of a
slash and a relative path evaluates texts that are paths again. If neither part fails, each of them
selects what the relative path selects from the nodes of its root path, united, and the reader
collects these nodes root path by root path.

**Proof sketch.** A path, a slash and a relative path are together the text of one path with the
steps of both (`Query.compile_join`), and paths distribute over context nodes. So the text of a root
path and the relative path selects what the relative path selects from the nodes of the root path
(`answer_join`). As none of these texts fails, the reader collects their nodes in order
(`outcome_select`). -/
theorem rootPaths_compose (r : Reader) (c : Cache) (further : String) (hcache : c.Consistent)
    (hroots : r.rootPaths ≠ []) (hpaths : ∀ root ∈ r.rootPaths, Query.IsPath root)
    (hfurther : Query.IsRelativePath further)
    (hcompile : ∃ q, Query.compile c.context further = .ok q)
    (hevaluate : ∀ root ∈ r.rootPaths, ∃ is, (r.view.nodes root none).outcome c = .ok is ∧
      ∀ i ∈ is, ∃ part, (r.view.nodes further (some (r.view.locate i))).outcome c = .ok part) :
    r.expand ["/" ++ further] = r.rootPaths.map (· ++ ("/" ++ further)) ∧
      ∃ nodesOf : String → List NodeId,
        (∀ root ∈ r.rootPaths,
          (∃ joined, Query.compile c.context (root ++ ("/" ++ further)) = .ok joined) ∧
            (r.view.nodes (root ++ ("/" ++ further)) none).outcome c = .ok (nodesOf root) ∧
            ∃ is, (r.view.nodes root none).outcome c = .ok is ∧
              Query.IsUnionOf (nodesOf root) is fun i =>
                (r.view.nodes further (some (r.view.locate i))).outcome c) ∧
        (r.select none ["/" ++ further]).outcome c =
          .ok (r.rootPaths.flatMap fun root => (nodesOf root).map fun i => ⟨none, i⟩) := by
  have houtcome := outcome_nodes_none (c := c) r.view
  have hlocated := outcome_nodes_locate (c := c) r.view
  have hexpand : r.expand ["/" ++ further] = r.rootPaths.map (· ++ ("/" ++ further)) := by
    simp [expand, hroots, List.map_eq_flatMap]
  obtain ⟨q, hq⟩ := hcompile
  simp only [houtcome, hlocated] at hevaluate ⊢
  have hjoin : ∀ root ∈ r.rootPaths,
      (∃ joined, Query.compile c.context (root ++ ("/" ++ further)) = .ok joined) ∧
        r.view.answer c (root ++ ("/" ++ further)) Document.root =
          .ok (r.found c (root ++ ("/" ++ further)) Document.root) ∧
        ∃ is, r.view.answer c root Document.root = .ok is ∧
          Query.IsUnionOf (r.found c (root ++ ("/" ++ further)) Document.root) is fun i =>
            r.view.answer c further i := by
    intro root hroot
    obtain ⟨is, his, heach⟩ := hevaluate root hroot
    obtain ⟨hjoined, js, hjs, hunion⟩ :=
      answer_join hcache r.view (hpaths root hroot) hfurther hq his heach
    have hfound : r.found c (root ++ ("/" ++ further)) Document.root = js := by
      rw [found, hjs]
      rfl
    exact ⟨hjoined, hfound ▸ hjs, is, his, hfound ▸ hunion⟩
  refine ⟨hexpand, fun root => r.found c (root ++ ("/" ++ further)) Document.root, hjoin, ?_⟩
  have hanswers : ∀ x ∈ r.expand ["/" ++ further],
      ∃ is, r.view.answer c x Document.root = .ok is := by
    rw [hexpand, List.forall_mem_map]
    exact fun root hroot => ⟨_, (hjoin root hroot).2.1⟩
  rw [outcome_select hanswers, hexpand, List.flatMap_map]

/-- Two root paths, the second one with a predicate that leaves out one of two elements. -/
theorem rootPaths_compose_predicate : ∃ d : Document,
    Document.parse "<r><a><x/></a><b><x/><x/></b><b/></r>" = .ok d ∧
      ((⟨⟨0, d⟩, ["/r/a", "//b[x]"], false⟩ : Reader).select none ["/" ++ "x"]).outcome
        (.new .initial) = .ok [⟨none, 3⟩, ⟨none, 5⟩, ⟨none, 6⟩] := by
  have h : ((Document.parse "<r><a><x/></a><b><x/><x/></b><b/></r>").toOption.map fun d =>
      let v : View := ⟨0, d⟩
      let c := Cache.new .initial
      (((v.answer c "/r/a" Document.root).toOption, (v.answer c "x" 2).toOption,
          (v.answer c ("/r/a" ++ ("/" ++ "x")) Document.root).toOption),
        (v.answer c "//b[x]" Document.root).toOption, (v.answer c "x" 4).toOption,
          (v.answer c ("//b[x]" ++ ("/" ++ "x")) Document.root).toOption)) =
      some ((some [2], some [3], some [3]), some [4], some [5, 6], some [5, 6]) := by cbv
  obtain ⟨d, hd, h⟩ := Option.map_eq_some_iff.1 h
  simp only [Prod.mk.injEq, toOption_eq_some_iff] at h
  obtain ⟨⟨ha, hax, hajoin⟩, hb, hbx, hbjoin⟩ := h
  refine ⟨d, toOption_eq_some_iff.1 hd, ?_⟩
  let r : Reader := ⟨⟨0, d⟩, ["/r/a", "//b[x]"], false⟩
  let c := Cache.new .initial
  have houtcome := outcome_nodes_none (c := c) r.view
  have hlocated := outcome_nodes_locate (c := c) r.view
  have hcompile : ∃ q, Query.compile c.context "x" = .ok q := by
    have hsome : (Query.compile .initial "x").toOption.isSome := by decide +kernel
    obtain ⟨q, hq⟩ := Option.isSome_iff_exists.1 hsome
    exact ⟨q, toOption_eq_some_iff.1 hq⟩
  have hpaths : ∀ root ∈ r.rootPaths, Query.IsPath root := by
    show ∀ root ∈ ["/r/a", "//b[x]"], Query.IsPath root
    decide +kernel
  have hevaluate : ∀ root ∈ r.rootPaths, ∃ is, (r.view.nodes root none).outcome c = .ok is ∧
      ∀ i ∈ is, ∃ part, (r.view.nodes "x" (some (r.view.locate i))).outcome c = .ok part := by
    simp only [houtcome, hlocated]
    show ∀ root ∈ ["/r/a", "//b[x]"], _
    simp only [List.forall_mem_cons, List.not_mem_nil, false_implies, implies_true, and_true]
    refine ⟨⟨[2], ha, ?_⟩, [4], hb, ?_⟩
    · rintro i hi
      obtain rfl := List.mem_singleton.1 hi
      exact ⟨_, hax⟩
    · rintro i hi
      obtain rfl := List.mem_singleton.1 hi
      exact ⟨_, hbx⟩
  obtain ⟨-, nodesOf, hnodes, hselect⟩ := rootPaths_compose r c "x" (Cache.consistent_new .initial)
    (List.cons_ne_nil _ _) hpaths (by decide +kernel) hcompile hevaluate
  obtain ⟨-, hfirst, -⟩ := hnodes "/r/a" (by simp [r])
  obtain ⟨-, hsecond, -⟩ := hnodes "//b[x]" (by simp [r])
  have hfirst : [3] = nodesOf "/r/a" := Except.ok.inj (hajoin.symm.trans (houtcome _ ▸ hfirst))
  have hsecond : [5, 6] = nodesOf "//b[x]" :=
    Except.ok.inj (hbjoin.symm.trans (houtcome _ ▸ hsecond))
  refine hselect.trans ?_
  simp [r, ← hfirst, ← hsecond]

end Reader

end XmlHarvest.Extraction
