import Mathlib.Data.List.Basic
import XmlHarvest.Binding.Registry
import XmlHarvest.Proofs.Except
import XmlHarvest.Proofs.OrderedMap
import XmlHarvest.Proofs.Binding.Resolution
import XmlHarvest.Proofs.Extraction.Session
import XmlHarvest.Proofs.Extraction.Settling

/-!
# Registries of fields

A registry is built unless a field is registered twice, and then the first repetition is to blame.
The values of all fields are those of the fields one by one. That all of them are found with one
cache makes no difference: a cache settles the value of every field, whatever registries are asked
for before.

## Main definitions

* `Registry.Call`: what can be asked of registries.
* `Extraction.Cache.afterResolving`: the cache after registries were asked.

## Main results

* `Registry.register_eq_ok_iff`, `Registry.register_eq_error_iff`: registration.
* `Registry.settles_resolve`, `Registry.settles_resolveAll`: the values of one field, and of all.
* `Registry.build_and_resolveAll`: the fields of a registry and their values.
-/

namespace XmlHarvest

open Extraction (Cache Reader Request Run)

namespace Registry

/-! ## Registration -/

/-- A registry is determined by its bindings. -/
lemma eq_of_bindings_eq {registry registry' : Registry}
    (h : registry.bindings = registry'.bindings) : registry = registry' := by
  cases registry
  cases registry'
  cases h
  rfl

/-- **Registration succeeds** if it gives a registry, and that one has all bindings in order.

**Proof sketch.** Induction on the list for all registries. A field that is registered already keeps
the bindings together from being those of a registry. -/
lemma register_eq_ok_iff {registry registry' : Registry} {bs : List Binding} :
    registry.register bs = .ok registry' ↔ registry'.bindings = registry.bindings ++ bs := by
  induction bs generalizing registry with
  | nil =>
    rw [register, Except.ok.injEq, List.append_nil]
    exact ⟨fun h => h ▸ rfl, fun h => eq_of_bindings_eq h.symm⟩
  | cons b bs ih =>
    rw [register]
    split
    · rename_i h
      refine iff_of_false nofun fun hbindings => ?_
      have hnodup := registry'.nodup
      rw [hbindings, List.map_append] at hnodup
      exact List.disjoint_of_nodup_append hnodup h List.mem_cons_self
    · rw [ih, add, List.append_assoc, List.singleton_append]

/-- **Registration fails** with the first field that is registered already. -/
lemma register_eq_error_iff {registry : Registry} {bs : List Binding} {fault : Binding.Error} :
    registry.register bs = .error fault ↔ ∃ before b behind, bs = before ++ b :: behind ∧
      ((registry.bindings ++ before).map Binding.field).Nodup ∧
      b.field ∈ (registry.bindings ++ before).map Binding.field ∧
      fault = .duplicateField b.field := by
  induction bs generalizing registry with
  | nil =>
    refine iff_of_false nofun ?_
    rintro ⟨before, b, behind, h, -⟩
    simp at h
  | cons b bs ih =>
    rw [register]
    split
    · rename_i h
      rw [Except.error.injEq]
      constructor
      · rintro rfl
        refine ⟨[], b, bs, rfl, ?_, ?_, rfl⟩ <;> rw [List.append_nil]
        · exact registry.nodup
        · exact h
      · rintro ⟨before, b', behind, heq, hnodup, -, rfl⟩
        cases before with
        | nil =>
          cases heq
          rfl
        | cons _ before =>
          -- the repetition of `b` stands in front of the one that is to be the first
          cases heq
          rw [List.map_append] at hnodup
          exact absurd List.mem_cons_self (List.disjoint_of_nodup_append hnodup h)
    · rename_i h
      have hmore (before : List Binding) :
          (registry.add b h).bindings ++ before = registry.bindings ++ b :: before := by
        rw [add, List.append_assoc, List.singleton_append]
      rw [ih]
      constructor
      · rintro ⟨before, b', behind, rfl, hrest⟩
        rw [hmore] at hrest
        exact ⟨b :: before, b', behind, rfl, hrest⟩
      · rintro ⟨before, b', behind, heq, hrest⟩
        cases before with
        | nil =>
          cases heq
          rw [List.append_nil] at hrest
          exact absurd hrest.2.1 h
        | cons _ before =>
          cases heq
          rw [← hmore] at hrest
          exact ⟨before, b', behind, rfl, hrest⟩

/-! ## Values -/

section Values

variable {registry : Registry} {r : Reader} {c : Cache}

/-- The name of a field tells its binding. -/
lemma get?_field {b : Binding} (h : b ∈ registry.bindings) : registry.get? b.field = some b := by
  have hlookup : (registry.bindings.map fun b => (b.field, b)).lookup b.field = some b := by
    refine OrderedMap.lookup_eq_some_of_mem ?_ (List.mem_map_of_mem h)
    rw [List.map_map]
    exact registry.nodup
  rw [OrderedMap.lookup_map Binding.field fun b => b, Option.map_id'] at hlookup
  exact hlookup

/-- The value of a registered field is that of its binding. -/
lemma resolve_field {b : Binding} (h : b ∈ registry.bindings) :
    registry.resolve b.field r = b.resolve r := by
  rw [resolve, get?_field h]

/-- The value of a field is settled. -/
lemma settles_resolve (field : String) :
    c.Settles (registry.resolve field r) ((registry.resolve field r).outcome c) := by
  unfold resolve
  split
  · rename_i b _
    exact (b.makes_resolve r c).settles.outcome
  · exact .throw _

/-- **The values of all fields** are settled, and made of the values of the fields one by one. -/
lemma settles_resolveAll : c.Settles (registry.resolveAll r) (do
    let entries ← registry.fields.mapM fun field => do
      return (field, ← (registry.resolve field r).outcome c)
    return .ofList entries) := by
  rw [fields, List.mapM_map]
  refine Cache.Settles.bind_pure OrderedMap.ofList (.mapM fun b hb => ?_)
  rw [← resolve_field hb]
  exact (settles_resolve b.field).bind_pure (b.field, ·)

end Values

/-! ## Calls -/

/-- What can be asked of registries: one field, or all. -/
inductive Call where
  | field (registry : Registry) (name : String) (r : Reader)
  | record (registry : Registry) (r : Reader)

/-- A call as a request of a session. -/
def Call.request : Call → Request
  | field registry name r => .field registry name r
  | record registry r => .record registry r

/-- What a call returns is settled. -/
lemma Call.settles (call : Call) (c : Cache) : ∃ result, c.Settles call.request.run result := by
  cases call with
  | field registry name r => exact ⟨_, settles_resolve name⟩
  | record registry r => exact ⟨_, settles_resolveAll⟩

end Registry

/-- The cache after registries were asked. -/
def Extraction.Cache.afterResolving (c : Cache) (calls : List Registry.Call) : Cache :=
  c.session (calls.map fun call => .request call.request)

namespace Registry

/-- Calls let the cache grow. -/
lemma growsInto_afterResolving {c c' : Cache} (calls : List Call) (h : c.GrowsInto c') :
    c.GrowsInto (c'.afterResolving calls) := by
  induction calls generalizing c' with
  | nil => exact h
  | cons call calls ih =>
    obtain ⟨_, hcall⟩ := call.settles c
    exact ih (hcall.growsInto h)

/-- **A registry and its values.** A registry can be built of a list of bindings if and only if no
two of these are for the same field. It then has these bindings, and so their fields, in this order;
otherwise the first binding whose field occurred before is blamed. From every cache, whatever was
asked of registries before, a field has the value or the fault that it would have had at the
beginning; and all fields together have the values that they have one by one, in order, or else the
fault of the first one that fails.

**Proof sketch.** What registration gives and which field it blames are shown by induction on the
list (`register_eq_ok_iff`, `register_eq_error_iff`). The value of a field is settled by the cache
(`settles_resolve`), and calls only let the cache grow (`growsInto_afterResolving`), so what was
asked before does not show. The values of all fields are settled as well, and made of those of the
fields one by one (`settles_resolveAll`): in a list of computations the first fault counts. -/
theorem build_and_resolveAll :
    (∀ bs : List Binding,
      ((∃ registry, build bs = .ok registry) ↔ (bs.map Binding.field).Nodup) ∧
      (∀ registry, build bs = .ok registry ↔ registry.bindings = bs) ∧
      (∀ registry, build bs = .ok registry → registry.fields = bs.map Binding.field) ∧
      ∀ fault, build bs = .error fault ↔ ∃ before b behind, bs = before ++ b :: behind ∧
        (before.map Binding.field).Nodup ∧ b.field ∈ before.map Binding.field ∧
        fault = .duplicateField b.field) ∧
    ∀ (registry : Registry) (r : Reader) (c : Cache) (calls : List Call),
      (∀ field, (registry.resolve field r).outcome (c.afterResolving calls) =
        (registry.resolve field r).outcome c) ∧
      (∀ values, (registry.resolveAll r).outcome (c.afterResolving calls) = .ok values ↔
        values.entries.map (fun e => (e.1, .ok e.2)) =
          registry.fields.map fun field => (field, (registry.resolve field r).outcome c)) ∧
      ∀ fault, (registry.resolveAll r).outcome (c.afterResolving calls) = .error fault ↔
        ∃ before field behind, registry.fields = before ++ field :: behind ∧
          (∀ f ∈ before, ∃ value, (registry.resolve f r).outcome c = .ok value) ∧
          (registry.resolve field r).outcome c = .error fault := by
  have hbuild (bs : List Binding) (registry : Registry) :
      build bs = .ok registry ↔ registry.bindings = bs := register_eq_ok_iff
  refine ⟨fun bs => ⟨?_, hbuild bs, fun registry h => ?_, fun fault => register_eq_error_iff⟩,
    fun registry r c calls => ?_⟩
  · constructor
    · rintro ⟨registry, h⟩
      exact (hbuild bs registry).1 h ▸ registry.nodup
    · intro h
      exact ⟨⟨bs, h⟩, (hbuild bs _).2 rfl⟩
  · rw [fields, (hbuild bs registry).1 h]
  · have hgrows : c.GrowsInto (c.afterResolving calls) := growsInto_afterResolving calls (.refl c)
    refine ⟨fun field => (settles_resolve field).outcome_eq hgrows, fun values => ?_,
      fun fault => ?_⟩
    · rw [settles_resolveAll.outcome_eq hgrows, bind_eq_ok_iff]
      simp only [mapM_beside_eq_ok_iff, pure_eq_ok_iff]
      constructor
      · rintro ⟨entries, hentries, rfl⟩
        have hfields : entries.map Prod.fst = registry.fields := by
          simpa [Function.comp_def] using congrArg (List.map Prod.fst) hentries
        rw [OrderedMap.entries_ofList (hfields ▸ registry.nodup), hentries]
      · intro h
        exact ⟨values.entries, h, OrderedMap.ofList_entries values⟩
    · rw [settles_resolveAll.outcome_eq hgrows, bind_eq_error_iff, mapM_beside_eq_error_iff,
        mapM_eq_error_iff]
      exact or_iff_left fun ⟨_, _, h⟩ => nomatch h

/-- A registry of three fields, two of which have no expression that can be read. A call for the
last field does not keep the one before from being blamed. -/
theorem build_and_resolveAll_two_faults : ∃ (d : Document) (registry : Registry)
    (fault : Extraction.Error), Document.parse "<r><y>1</y></r>" = .ok d ∧
      let bs : List Binding := [⟨"year", .expressions ["//y"] .single⟩,
        ⟨"title", .expressions ["]"] .list⟩, ⟨"author", .expressions ["["] .list⟩]
      let r : Reader := ⟨⟨0, d⟩, [], false⟩
      let c := Cache.new .initial
      build bs = .ok registry ∧ registry.fields = ["year", "title", "author"] ∧
        build (bs ++ bs) = .error (.duplicateField "year") ∧
        (registry.resolve "title" r).outcome c = .error fault ∧
        (registry.resolveAll r).outcome (c.afterResolving [.field registry "author" r]) =
          .error fault := by
  have h : ((Document.parse "<r><y>1</y></r>").toOption.map fun d =>
      let r : Reader := ⟨⟨0, d⟩, [], false⟩
      let c := Cache.new .initial
      let fault? (b : Binding) := (b.evaluations r c).findSome? (r.fault? c)
      ((fault? ⟨"year", .expressions ["//y"] .single⟩).isNone,
        (fault? ⟨"title", .expressions ["]"] .list⟩).isSome)) = some (true, true) := by cbv
  obtain ⟨d, hd, h⟩ := Option.map_eq_some_iff.1 h
  simp only [Prod.mk.injEq, Option.isNone_iff_eq_none, Option.isSome_iff_exists] at h
  obtain ⟨hyear, fault, htitle⟩ := h
  obtain ⟨hbuild, hresolve⟩ := build_and_resolveAll
  let bs : List Binding := [⟨"year", .expressions ["//y"] .single⟩,
    ⟨"title", .expressions ["]"] .list⟩, ⟨"author", .expressions ["["] .list⟩]
  obtain ⟨registry, hregistry⟩ := (hbuild bs).1.2 (by decide)
  have hbindings : registry.bindings = bs := ((hbuild bs).2.1 registry).1 hregistry
  have hfields : registry.fields = ["year", "title", "author"] :=
    (hbuild bs).2.2.1 registry hregistry
  let r : Reader := ⟨⟨0, d⟩, [], false⟩
  have houtcome {b : Binding} (hb : b ∈ bs) : (registry.resolve b.field r).outcome (.new .initial) =
      ((b.evaluations r (.new .initial)).findSome? (r.fault? (.new .initial))).elim
        (.ok (b.found r (.new .initial))) .error := by
    rw [resolve_field (hbindings ▸ hb)]
    exact (b.makes_resolve r _).here.1
  have hfirst := houtcome (b := ⟨"year", .expressions ["//y"] .single⟩) (by simp [bs])
  have hsecond := houtcome (b := ⟨"title", .expressions ["]"] .list⟩) (by simp [bs])
  rw [hyear] at hfirst
  rw [htitle] at hsecond
  refine ⟨d, registry, fault, toOption_eq_some_iff.1 hd, hregistry, hfields, ?_, hsecond, ?_⟩
  · exact ((hbuild (bs ++ bs)).2.2.2 _).2 ⟨bs, ⟨"year", .expressions ["//y"] .single⟩, bs.tail, rfl,
      by decide, by decide, rfl⟩
  · refine ((hresolve registry r _ [.field registry "author" r]).2.2 fault).2
      ⟨["year"], "title", ["author"], hfields, fun f hf => ?_, hsecond⟩
    obtain rfl := List.mem_singleton.1 hf
    exact ⟨_, hfirst⟩

end Registry

end XmlHarvest
