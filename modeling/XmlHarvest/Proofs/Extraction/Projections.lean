import Mathlib.Data.List.Basic
import XmlHarvest.Proofs.Extraction.Rendering
import XmlHarvest.Proofs.Extraction.Settling
import XmlHarvest.Proofs.OrderedMap

/-!
# Projections of the values by locale

The values of a list can be asked for in four ways: all of them by locale, the first one of each
locale, all of them in one list, or one only. The four answers are projections of one map. It groups
the matches of the first alternative that selects a node by their locales, in order of first
appearance, and loses none of them.

The four questions make the same evaluations, so they fail together, and what one of them puts into
the cache changes no answer to another one.

## Main results

* `Extraction.Reader.entries_byLocale`: the map that groups hits by their locales.
* `Extraction.Reader.localized_projections`: the four answers.
-/

namespace XmlHarvest.Extraction

namespace Reader

variable {r : Reader} {c : Cache}

/-! ## The map -/

/-- The locales of hits, in order of first appearance. -/
def localesOf (r : Reader) (hits : List Hit) : List Locale :=
  (hits.map fun h => r.localeOf h.node).eraseDups

/-- The values of the hits of a locale, in order. -/
def valuesIn (r : Reader) (hits : List Hit) (locale : Locale) : List String :=
  (hits.filter fun h => r.localeOf h.node = locale).map fun h => r.valueOf h.node

/-- **Hits by locale**: the locales in order of first appearance, each with its values in order. -/
lemma entries_byLocale (hits : List Hit) : (r.byLocale hits).entries =
    (r.localesOf hits).map fun locale => (locale, r.valuesIn hits locale) := by
  rw [byLocale, OrderedMap.entries_group, localesOf, List.map_map]
  refine List.map_congr_left fun locale _ => ?_
  rw [OrderedMap.valuesAt, List.filter_map, List.map_map]
  rfl

/-- No value is lost in grouping hits by their locales. -/
lemma flatten_values_byLocale_perm (hits : List Hit) :
    (r.byLocale hits).values.flatten.Perm (hits.map fun h => r.valueOf h.node) := by
  have hperm := OrderedMap.flatten_values_group_perm
    (hits.map fun h => (r.localeOf h.node, r.valueOf h.node))
  rwa [List.map_map] at hperm

/-! ## The four answers -/

/-- The first value of each locale, in the order of the locales. -/
lemma entries_firstPerLocale (hits : List Hit) :
    ((r.byLocale hits).filterMap List.head?).entries.map (fun e => (e.1, some e.2)) =
      (r.byLocale hits).entries.map fun e => (e.1, e.2.head?) :=
  OrderedMap.entries_filterMap fun _ hvs =>
    List.isSome_head?.2 (OrderedMap.ne_nil_of_mem_values_group hvs)

/-- **The four ways of asking** for the values of a list fail with the same fault, that of the first
evaluation that fails, or all of them succeed, in whatever order and however often they are asked.
If they succeed, the values by locale have the locales of the matches of the first alternative that
selects a node in order of first appearance, each with the values of its matches in order, of which
there is one at least. The values in one list are these lists joined; none of the values of the
matches is lost or repeated. The first values have the same locales in the same order, and the
single value is the first of all.

**Proof sketch.** The four computations make the evaluations of the first match and change its
result in four ways, so their outcomes are settled together (`makes_localized`, `Makes.bind_pure`).
The result is the map that groups the matches by their locales (`entries_byLocale`), in which no
value is lost (`flatten_values_byLocale_perm`) and no list is empty; so every list has a first value
(`entries_firstPerLocale`). -/
theorem localized_projections (r : Reader) (c : Cache) (es : List String) :
    (∃ fault, (r.evaluationsUpToMatch c none es).findSome? (r.fault? c) = some fault ∧
      c.Settles (r.single es) (.error fault) ∧ c.Settles (r.multi es) (.error fault) ∧
      c.Settles (r.firstPerLocale es) (.error fault) ∧ c.Settles (r.localized es) (.error fault)) ∨
    ∃ (groups : ResolvedVariable) (firsts : OrderedMap Locale String) (all : List String),
      (r.evaluationsUpToMatch c none es).findSome? (r.fault? c) = none ∧
      c.Settles (r.single es) (.ok all.head?) ∧ c.Settles (r.multi es) (.ok all) ∧
      c.Settles (r.firstPerLocale es) (.ok firsts) ∧ c.Settles (r.localized es) (.ok groups) ∧
      groups.entries = (r.localesOf (r.matchHits c none es)).map
        (fun locale => (locale, r.valuesIn (r.matchHits c none es) locale)) ∧
      (∀ values ∈ groups.values, values ≠ []) ∧
      all = groups.values.flatten ∧
      all.Perm ((r.matchHits c none es).map fun h => r.valueOf h.node) ∧
      firsts.entries.map (fun e => (e.1, some e.2)) =
        groups.entries.map fun e => (e.1, e.2.head?) := by
  have hlocalized : r.Makes c _ (r.localized es) _ := makes_localized es
  have hmulti := (hlocalized.bind_pure fun m => m.values.flatten).settles
  have hsingle := (hlocalized.bind_pure fun m => m.values.flatten.head?).settles
  have hfirsts := (hlocalized.bind_pure fun m => m.filterMap List.head?).settles
  have hgroups := hlocalized.settles
  cases hfault : (r.evaluationsUpToMatch c none es).findSome? (r.fault? c) with
  | some fault =>
    rw [hfault] at hmulti hsingle hfirsts hgroups
    exact .inl ⟨fault, rfl, hsingle, hmulti, hfirsts, hgroups⟩
  | none =>
    rw [hfault] at hmulti hsingle hfirsts hgroups
    exact .inr ⟨_, _, _, rfl, hsingle, hmulti, hfirsts, hgroups, entries_byLocale _,
      fun _ => OrderedMap.ne_nil_of_mem_values_group, rfl, flatten_values_byLocale_perm _,
      entries_firstPerLocale _⟩

/-- Two root paths, the second of which leads back to a locale of the first one. -/
theorem localized_projections_two_locales : ∃ d : Document,
    Document.parse "<r><b xml:lang=\"de\">1</b><b>2</b><c xml:lang=\"de\"> 3 </c></r>" = .ok d ∧
      let r : Reader := ⟨⟨0, d⟩, ["/r/b", "/r/c"], false⟩
      let c := Cache.new .initial
      let de : Locale := .tagged "de" none
      c.Settles (r.single ["/x", "/text()/..", "]"]) (.ok (some "1")) ∧
      c.Settles (r.multi ["/x", "/text()/..", "]"]) (.ok ["1", "3", "2"]) ∧
      ∃ firsts groups, c.Settles (r.firstPerLocale ["/x", "/text()/..", "]"]) (.ok firsts) ∧
        firsts.entries = [(de, "1"), (.root, "2")] ∧
        c.Settles (r.localized ["/x", "/text()/..", "]"]) (.ok groups) ∧
        groups.entries = [(de, ["1", "3"]), (.root, ["2"])] := by
  have h : ((Document.parse
        "<r><b xml:lang=\"de\">1</b><b>2</b><c xml:lang=\"de\"> 3 </c></r>").toOption.map fun d =>
      let r : Reader := ⟨⟨0, d⟩, ["/r/b", "/r/c"], false⟩
      let c := Cache.new .initial
      let hits := r.matchHits c none ["/x", "/text()/..", "]"]
      (((r.evaluationsUpToMatch c none ["/x", "/text()/..", "]"]).findSome? (r.fault? c)).isNone,
        (r.localesOf hits).map fun locale => (locale, r.valuesIn hits locale))) =
      some (true, [(.tagged "de" none, ["1", "3"]), (.root, ["2"])]) := by cbv
  obtain ⟨d, hd, h⟩ := Option.map_eq_some_iff.1 h
  simp only [Prod.mk.injEq, Option.isNone_iff_eq_none] at h
  obtain ⟨hnone, hhits⟩ := h
  refine ⟨d, toOption_eq_some_iff.1 hd, ?_⟩
  intro r c de
  obtain ⟨fault, hfault, -⟩ | ⟨groups, firsts, all, -, hsingle, hmulti, hfirsts, hgroups, hentries,
    -, rfl, -, hfirst⟩ := localized_projections r c ["/x", "/text()/..", "]"]
  · rw [hnone] at hfault
    cases hfault
  · rw [hhits] at hentries
    have hvalues : groups.values = [["1", "3"], ["2"]] := by rw [OrderedMap.values, hentries]; rfl
    rw [hvalues] at hsingle hmulti
    refine ⟨hsingle, hmulti, firsts, groups, hfirsts, ?_, hgroups, hentries⟩
    rw [hentries] at hfirst
    have hinj : Function.Injective fun e : Locale × String => (e.1, some e.2) := by
      rintro ⟨k, v⟩ ⟨k', v'⟩ heq
      simpa using heq
    exact (List.map_injective_iff.2 hinj) hfirst

end Reader

end XmlHarvest.Extraction
