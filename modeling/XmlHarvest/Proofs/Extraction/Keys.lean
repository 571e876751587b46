import Mathlib.Data.List.Basic
import XmlHarvest.Proofs.Extraction.Settling
import XmlHarvest.Proofs.OrderedMap

/-!
# Values by key

A list can be asked for its matches by key in three ways: the first node of each key, the text of
that node, or the texts of all matches with the key. Each of the three maps is built by itself, but
all of them are built from the same pairs: a match counts under the text of the first node that the
key path selects from it, and a match without such a node does not count at all.

So the three maps have the same keys in the same order, and what they hold at a key is one list of
nodes: the first of it, its text, and the texts of all. The three questions make the same
evaluations, so they fail together.

## Main definitions

* `Extraction.Reader.keyOf`: the key of a match.
* `Extraction.Reader.keysOf`, `Extraction.Reader.nodesUnder`: the keys of matches, and the nodes of
  the matches with a key.
* `Extraction.Reader.matchFault?`: the fault of a search with keys.

## Main results

* `Extraction.Reader.settles_keyed`: the pairs, or the fault.
* `Extraction.Reader.keyed_maps_agree`: the three answers.
-/

namespace XmlHarvest.Extraction.Reader

section Definitions

variable (r : Reader)

/-- The text of the first node that the key path selects from a match, if there is one. -/
def keyOf (h : Hit) : Option String :=
  h.key.map r.valueOf

/-- The keys of matches, in order of first appearance. -/
def keysOf (hits : List Hit) : List String :=
  (hits.filterMap r.keyOf).eraseDups

/-- The nodes of the matches with a key, in order. -/
def nodesUnder (hits : List Hit) (key : String) : List NodeId :=
  (hits.filter fun h => r.keyOf h = some key).map Hit.node

/-- The fault of a search with keys: the key path is refused, or an evaluation fails. A search among
no alternatives has none. -/
def matchFault? (c : Cache) (es : List String) (keyPath : String) : Option Error :=
  if es ≠ [] ∧ Query.isRelative keyPath = false then
    some (.resolution keyPath (.notRelative keyPath))
  else (r.evaluationsUpToMatch c (some keyPath) es).findSome? (r.fault? c)

/-- The matches that have a key, with their keys. -/
def keyedNodesOf (hits : List Hit) : List (String × NodeId) :=
  hits.filterMap fun h => (r.keyOf h).map fun key => (key, h.node)

end Definitions

variable {r : Reader} {c : Cache} {es : List String} {keyPath : String}

/-! ## The search -/

/-- The search with keys has a settled outcome. -/
lemma settles_firstMatch : c.Settles (r.firstMatch (some keyPath) es)
    ((r.matchFault? c es keyPath).elim (.ok (r.matchHits c (some keyPath) es)) .error) := by
  unfold matchFault?
  split
  · rename_i h
    obtain ⟨hes, hkey⟩ := h
    obtain ⟨e, es, rfl⟩ := List.exists_cons_of_ne_nil hes
    -- the refusal does not depend on the cache, nor does it change it
    exact ⟨[], does_of_const (fun _ => (firstMatch_refused hkey e es).1)
      fun _ => (firstMatch_refused hkey e es).2⟩
  · rename_i h
    refine (makes_firstMatch es fun path hpath hes => ?_).settles
    cases hpath
    simpa [hes] using h

/-- **The pairs of keys and nodes** are settled: those of the first alternative that selects a node,
or the fault of the search. -/
lemma settles_keyed : c.Settles (r.keyed es keyPath) ((r.matchFault? c es keyPath).elim
    (.ok (r.keyedNodesOf (r.matchHits c (some keyPath) es))) .error) := by
  have hmatch : c.Settles (r.firstMatch (some keyPath) es) _ := settles_firstMatch
  have hpairs (hits : List Hit) :
      hits.filterMap (fun h => h.key.map fun k => (r.valueOf k, h.node)) = r.keyedNodesOf hits := by
    refine List.filterMap_congr fun h _ => ?_
    rw [keyOf, Option.map_map]
    rfl
  cases hfault : r.matchFault? c es keyPath with
  | some fault =>
    rw [hfault] at hmatch
    exact hmatch.bind fun hits => .pure _
  | none =>
    rw [hfault] at hmatch
    rw [Option.elim_none, ← hpairs]
    exact hmatch.bind fun hits => .pure _

/-! ## The pairs -/

/-- The keys of the pairs. -/
lemma map_fst_keyedNodesOf (hits : List Hit) :
    (r.keyedNodesOf hits).map Prod.fst = hits.filterMap r.keyOf := by
  rw [keyedNodesOf, List.map_filterMap]
  refine List.filterMap_congr fun h _ => ?_
  cases r.keyOf h <;> rfl

/-- The nodes that are paired with a key. -/
lemma valuesAt_keyedNodesOf (hits : List Hit) (key : String) :
    OrderedMap.valuesAt (r.keyedNodesOf hits) key = r.nodesUnder hits key := by
  induction hits with
  | nil => rfl
  | cons h hits ih =>
    simp only [keyedNodesOf, nodesUnder, OrderedMap.valuesAt] at ih ⊢
    rw [List.filterMap_cons]
    cases hkey : r.keyOf h with
    | none => simpa [hkey] using ih
    | some own =>
      by_cases heq : own = key
      · subst heq
        simpa [hkey] using ih
      · simpa [hkey, heq] using ih

/-- There is a match with each of the keys. -/
lemma nodesUnder_ne_nil {hits : List Hit} {key : String} (h : key ∈ r.keysOf hits) :
    r.nodesUnder hits key ≠ [] := by
  rw [keysOf, List.mem_eraseDups] at h
  obtain ⟨hit, hmem, hkey⟩ := List.mem_filterMap.1 h
  refine List.ne_nil_of_mem (List.mem_map_of_mem (List.mem_filter.2 ⟨hmem, ?_⟩))
  rw [hkey]
  exact decide_eq_true rfl

/-- What is said of the nodes does not change the keys. -/
lemma map_fst_keyedNodesOf_map {ν : Type} (hits : List Hit) (f : NodeId → ν) :
    ((r.keyedNodesOf hits).map fun e => (e.1, f e.2)).map Prod.fst = hits.filterMap r.keyOf := by
  rw [List.map_map, ← map_fst_keyedNodesOf]
  rfl

/-! ## The three maps -/

/-- **The three ways of asking** for the values of a list by key fail with the fault of the search
for matches, or all of them succeed, in whatever order and however often they are asked. If they
succeed, they give three maps with the same keys in the same order: the texts of the first nodes
that the key path selects from the matches of the first alternative that selects a node, in order of
first appearance, matches without such a node being left out. At each key there are the first node
with this key, its text, and the texts of all nodes with this key in order, of which it is the
first.

**Proof sketch.** The three maps are built from the same pairs of keys and nodes, and these are
settled (`settles_keyed`). A map of the first values and a map of all values have the keys of the
pairs in order of first appearance. Under a key they have the first, or all, of what is paired with
it (`valuesAt_keyedNodesOf`), of which there is one at least (`nodesUnder_ne_nil`). -/
theorem keyed_maps_agree (r : Reader) (c : Cache) (es : List String) (keyPath : String) :
    (∃ fault, r.matchFault? c es keyPath = some fault ∧
      c.Settles (r.firstMatch (some keyPath) es) (.error fault) ∧
      c.Settles (r.keyedNodes es keyPath) (.error fault) ∧
      c.Settles (r.keyedValues es keyPath) (.error fault) ∧
      c.Settles (r.keyedLists es keyPath) (.error fault)) ∨
    ∃ (nodes : OrderedMap String NodeId) (values : OrderedMap String String)
      (lists : OrderedMap String (List String)),
      let hits := r.matchHits c (some keyPath) es
      r.matchFault? c es keyPath = none ∧
      c.Settles (r.firstMatch (some keyPath) es) (.ok hits) ∧
      c.Settles (r.keyedNodes es keyPath) (.ok nodes) ∧
      c.Settles (r.keyedValues es keyPath) (.ok values) ∧
      c.Settles (r.keyedLists es keyPath) (.ok lists) ∧
      nodes.keys = r.keysOf hits ∧ values.keys = r.keysOf hits ∧ lists.keys = r.keysOf hits ∧
      ∀ key ∈ r.keysOf hits, ∃ i more, r.nodesUnder hits key = i :: more ∧
        nodes.get? key = some i ∧ values.get? key = some (r.valueOf i) ∧
        lists.get? key = some (r.valueOf i :: more.map r.valueOf) := by
  have hmatch : c.Settles (r.firstMatch (some keyPath) es) _ := settles_firstMatch
  have hkeyed : c.Settles (r.keyed es keyPath) _ := settles_keyed
  have hnodes := hkeyed.bind_pure OrderedMap.firsts
  have hvalues := hkeyed.bind_pure fun pairs =>
    OrderedMap.firsts (pairs.map fun e => (e.1, r.valueOf e.2))
  have hlists := hkeyed.bind_pure fun pairs =>
    OrderedMap.group (pairs.map fun e => (e.1, r.valueOf e.2))
  cases hfault : r.matchFault? c es keyPath with
  | some fault =>
    rw [hfault] at hmatch hnodes hvalues hlists
    exact .inl ⟨fault, rfl, hmatch, hnodes, hvalues, hlists⟩
  | none =>
    rw [hfault] at hmatch hnodes hvalues hlists
    refine .inr ⟨_, _, _, rfl, hmatch, hnodes, hvalues, hlists, ?_, ?_, ?_, fun key hkey => ?_⟩
    · rw [OrderedMap.keys_firsts, map_fst_keyedNodesOf, keysOf]
    · rw [OrderedMap.keys_firsts, map_fst_keyedNodesOf_map, keysOf]
    · rw [OrderedMap.keys_group, map_fst_keyedNodesOf_map, keysOf]
    · obtain ⟨i, more, hmore⟩ := List.exists_cons_of_ne_nil (nodesUnder_ne_nil hkey)
      refine ⟨i, more, hmore, ?_, ?_, ?_⟩
      · rw [OrderedMap.get?_firsts, valuesAt_keyedNodesOf, hmore, List.head?_cons]
      · rw [OrderedMap.get?_firsts, OrderedMap.valuesAt_map, valuesAt_keyedNodesOf, hmore,
          List.map_cons, List.head?_cons]
      · rw [OrderedMap.get?_group, OrderedMap.valuesAt_map, valuesAt_keyedNodesOf, hmore,
          List.map_cons, if_neg (List.cons_ne_nil _ _)]

/-- Two of four matches have keys that differ in blanks only, and one has no key. -/
theorem keyed_maps_agree_blank_keys : ∃ d : Document,
    Document.parse "<r><b k=\" x\">1</b><b>2</b><b k=\"y\"/><b k=\"x\"> 3 </b></r>" = .ok d ∧
      let r : Reader := ⟨⟨0, d⟩, [], false⟩
      let c := Cache.new .initial
      ∃ (nodes : OrderedMap String NodeId) (values : OrderedMap String String)
        (lists : OrderedMap String (List String)),
        c.Settles (r.keyedNodes ["/r/z", "/r/b"] "./@k") (.ok nodes) ∧
        c.Settles (r.keyedValues ["/r/z", "/r/b"] "./@k") (.ok values) ∧
        c.Settles (r.keyedLists ["/r/z", "/r/b"] "./@k") (.ok lists) ∧
        nodes.keys = ["x", "y"] ∧ values.keys = ["x", "y"] ∧ lists.keys = ["x", "y"] ∧
        nodes.get? "x" = some 2 ∧ values.get? "x" = some "1" ∧
        lists.get? "x" = some ["1", "3"] := by
  have h : ((Document.parse
        "<r><b k=\" x\">1</b><b>2</b><b k=\"y\"/><b k=\"x\"> 3 </b></r>").toOption.map fun d =>
      let r : Reader := ⟨⟨0, d⟩, [], false⟩
      let c := Cache.new .initial
      let hits := r.matchHits c (some "./@k") ["/r/z", "/r/b"]
      ((r.matchFault? c ["/r/z", "/r/b"] "./@k").isNone, r.keysOf hits, r.nodesUnder hits "x",
        r.valueOf 2, r.valueOf 9)) =
      some (true, ["x", "y"], [2, 9], "1", "3") := by cbv
  obtain ⟨d, hd, h⟩ := Option.map_eq_some_iff.1 h
  simp only [Prod.mk.injEq, Option.isNone_iff_eq_none] at h
  obtain ⟨hnone, hkeys, hunder, hfirst, hsecond⟩ := h
  refine ⟨d, toOption_eq_some_iff.1 hd, ?_⟩
  intro r c
  obtain ⟨fault, hfault, -⟩ | ⟨nodes, values, lists, -, -, hnodes, hvalues, hlists, hkn, hkv,
    hkl, hall⟩ := keyed_maps_agree r c ["/r/z", "/r/b"] "./@k"
  · rw [hnone] at hfault
    cases hfault
  · rw [hkeys] at hkn hkv hkl hall
    obtain ⟨i, more, hmore, hi, hvalue, hlist⟩ := hall "x" (by simp)
    rw [hunder] at hmore
    cases hmore
    rw [List.map_singleton, hfirst, hsecond] at hlist
    rw [hfirst] at hvalue
    exact ⟨nodes, values, lists, hnodes, hvalues, hlists, hkn, hkv, hkl, hi, hvalue, hlist⟩

end XmlHarvest.Extraction.Reader
