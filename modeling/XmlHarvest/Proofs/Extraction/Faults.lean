import XmlHarvest.Binding.Basic
import XmlHarvest.Proofs.Extraction.Transparency

/-!
# Faults of extractions

What goes wrong while values are taken from a document is a fault of an expression or of a node, and
never one of a declaration or of a template, whatever the cache holds and also inside faults that
report an expression around their cause. A field of a declared shape has values of that shape.

## Main definitions

* `Extraction.Error.IsDeclared`: faults of declarations and templates.
* `Extraction.Yields`: a computation that returns values with a property and fails with no such
  fault.

## Main results

* `Extraction.Yields.bind`, `Extraction.Yields.mapM`: computations one after the other.
* `Extraction.Reader.localized_yields`, `Extraction.Reader.rendered_yields`: the values of a list
  and the texts of a template.
* `Binding.resolve_yields`: the value of a field.
-/

namespace XmlHarvest

namespace Extraction

/-- The cause inside is a fault of a declaration or of a template. -/
def Error.IsDeclared (e : Error) : Prop :=
  (∃ cause, e.rootCause = .binding cause) ∨ ∃ cause, e.rootCause = .template cause

/-- Faults that report an expression around their cause are of the kind of their cause. -/
lemma Error.isDeclared_resolution {expression : String} {e : Error} :
    (Error.resolution expression e).IsDeclared ↔ e.IsDeclared :=
  Iff.rfl

variable {α β : Type}

/-- Whatever the cache holds, a result of the computation has the property, and a fault is not one
of declarations or templates. -/
structure Yields (x : Run α) (property : α → Prop) : Prop where
  of_ok : ∀ {c a}, x.outcome c = .ok a → property a
  of_error : ∀ {c e}, x.outcome c = .error e → ¬e.IsDeclared

namespace Yields

variable {property : α → Prop} {result : β → Prop}

lemma pure {a : α} (h : property a) : Yields (Pure.pure a) property where
  of_ok hok := Except.ok.inj hok ▸ h
  of_error herror := by cases herror

lemma throw {e : Error} (h : ¬e.IsDeclared) :
    Yields (MonadExcept.throw e : Run α) property where
  of_ok hok := by cases hok
  of_error herror := Except.error.inj herror ▸ h

/-- A check that does not use the cache. -/
lemma lift {x : Except Error α} (h : ∀ e, x = .error e → ¬e.IsDeclared) :
    Yields (liftM x : Run α) fun _ => True where
  of_ok _ := trivial
  of_error {_ e} herror := h e herror

/-- Two computations one after the other. -/
lemma bind {x : Run α} {f : α → Run β} (hx : Yields x property)
    (hf : ∀ a, property a → Yields (f a) result) : Yields (x >>= f) result where
  of_ok {c b} hok := by
    cases h : x.outcome c with
    | error e =>
      rw [outcome_bind_error f h] at hok
      cases hok
    | ok a =>
      rw [outcome_bind_ok f h] at hok
      exact (hf a (hx.of_ok h)).of_ok hok
  of_error {c e} herror := by
    cases h : x.outcome c with
    | error e' =>
      rw [outcome_bind_error f h] at herror
      exact Except.error.inj herror ▸ hx.of_error h
    | ok a =>
      rw [outcome_bind_ok f h] at herror
      exact (hf a (hx.of_ok h)).of_error herror

/-- A result that is made of another one. -/
lemma bind_pure {x : Run α} {f : α → β} (hx : Yields x property)
    (hf : ∀ a, property a → result (f a)) : Yields (do return f (← x)) result :=
  hx.bind fun a ha => pure (hf a ha)

/-- A result that is made of another one has no fault of its own. -/
lemma returns {x : Run α} (f : α → β) (hx : Yields x property) :
    Yields (do return f (← x)) fun _ => True :=
  hx.bind_pure fun _ _ => trivial

/-- Computations for the members of a list, in order. -/
lemma mapM {f : α → Run β} (hf : ∀ a, Yields (f a) fun _ => True) (as : List α) :
    Yields (as.mapM f) fun _ => True := by
  induction as with
  | nil => exact pure trivial
  | cons a as ih =>
    rw [List.mapM_cons]
    exact (hf a).bind fun _ _ => ih.returns _

/-- An expression around the cause does not change the kind of a fault. -/
lemma resolving {x : Run α} (expression : String) (hx : Yields x property) :
    Yields (Extraction.resolving expression x) property where
  of_ok {c a} hok := by
    have hok : (x.outcome c).mapError (Error.resolution expression) = .ok a := hok
    cases h : x.outcome c with
    | error e =>
      rw [h] at hok
      cases hok
    | ok b =>
      rw [h] at hok
      exact Except.ok.inj hok ▸ hx.of_ok h
  of_error {c e} herror := by
    have herror : (x.outcome c).mapError (Error.resolution expression) = .error e := herror
    cases h : x.outcome c with
    | error cause =>
      rw [h] at herror
      rw [← Except.error.inj herror, Error.isDeclared_resolution]
      exact hx.of_error h
    | ok b =>
      rw [h] at herror
      cases herror

end Yields

/-! ## Views -/

/-- An expression that cannot be compiled is no fault of a declaration. -/
lemma compile_yields (expression : String) : Yields (compile expression) fun _ => True where
  of_ok _ := trivial
  of_error {c e} herror := by
    rw [Run.outcome, compile_run] at herror
    cases hget : c.entries.get? expression with
    | some entry =>
      rw [hget] at herror
      cases herror
    | none =>
      rw [hget] at herror
      cases hquery : Query.compile c.context expression with
      | ok query =>
        rw [hquery] at herror
        cases herror
      | error cause =>
        rw [hquery] at herror
        rw [← Except.error.inj herror]
        simp [Error.IsDeclared, Error.rootCause]

namespace View

variable (v : View) (expression : String)

/-- A node of another document is no fault of a declaration. -/
lemma contextNode_error {context : Option Located} {e : Error}
    (h : v.contextNode context = .error e) : ¬e.IsDeclared := by
  cases context with
  | none => cases h
  | some i =>
    rw [contextNode] at h
    split at h
    · cases h
    · rw [← Except.error.inj h]
      simp [Error.IsDeclared, Error.rootCause]

lemma evaluate_yields (context : Option Located) :
    Yields (v.evaluate expression context) fun _ => True := by
  refine (Yields.lift fun _ => v.contextNode_error).bind fun i _ => ?_
  refine (compile_yields expression).bind fun entry _ => ?_
  cases entry.query.evaluate v.document i with
  | ok value => exact .pure trivial
  | error cause => exact .throw (by simp [Error.IsDeclared, Error.rootCause])

lemma nodes_yields (context : Option Located) :
    Yields (v.nodes expression context) fun _ => True := by
  refine (v.evaluate_yields expression context).bind fun value _ => ?_
  cases value.toNodes with
  | ok is => exact .pure trivial
  | error cause => exact .throw (by simp [Error.IsDeclared, Error.rootCause])

/-- An expression that does not start from its context node is no fault of a declaration. -/
lemma requireRelative_error {e : Error} (h : requireRelative expression = .error e) :
    ¬e.IsDeclared := by
  rw [requireRelative] at h
  split at h
  · cases h
  · rw [← Except.error.inj h]
    simp [Error.IsDeclared, Error.rootCause]

lemma relative_yields (i : Located) : Yields (v.relative i expression) fun _ => True :=
  (Yields.lift fun _ => requireRelative_error expression).bind
    fun _ _ => v.nodes_yields expression _

end View

/-! ## Readers -/

namespace Reader

variable (r : Reader)

lemma withKey_yields (keyPath : Option String) (i : NodeId) :
    Yields (r.withKey keyPath i) fun _ => True := by
  cases keyPath with
  | none => exact .pure trivial
  | some path => exact ((r.view.relative_yields path _).resolving path).returns _

lemma selectOne_yields (keyPath : Option String) (expression : String) :
    Yields (r.selectOne keyPath expression) fun _ => True :=
  ((r.view.nodes_yields expression none).resolving expression).bind fun is _ =>
    .mapM (r.withKey_yields keyPath) is

lemma select_yields (keyPath : Option String) (expressions : List String) :
    Yields (r.select keyPath expressions) fun _ => True := by
  have hall : Yields (do
      let hits ← (r.expand expressions).mapM (r.selectOne keyPath)
      return hits.flatten) fun _ => True :=
    (Yields.mapM (r.selectOne_yields keyPath) _).returns _
  cases keyPath with
  | none => exact hall
  | some path =>
    exact ((Yields.lift fun _ => View.requireRelative_error path).resolving path).bind
      fun _ _ => hall

lemma firstMatch_yields (keyPath : Option String) (expressions : List String) :
    Yields (r.firstMatch keyPath expressions) fun _ => True := by
  induction expressions with
  | nil => exact .pure trivial
  | cons e es ih =>
    refine (r.select_yields keyPath [e]).bind fun hits _ => ?_
    split
    · exact ih
    · exact .pure trivial

/-- The values of a list by locale. -/
lemma localized_yields (expressions : List String) :
    Yields (r.localized expressions) fun _ => True :=
  (r.firstMatch_yields none expressions).returns _

/-- The texts of a template. -/
lemma rendered_yields (t : Template) (vs : List Variable) :
    Yields (r.rendered t vs) fun _ => True := by
  have hvalues : Yields (r.variableValues vs) fun _ => True := by
    refine (Yields.mapM (fun v => ?_) vs).returns _
    exact (r.localized_yields v.expressions).returns _
  exact hvalues.returns _

end Reader

end Extraction

/-! ## Bindings -/

open Extraction (Reader Yields)

/-- **The value of a field has the shape of its binding**, and there is no fault of a declaration or
of a template when it is taken from a document.

**Proof sketch.** Every operation is a list of expressions or a template, with a result that is made
of the values or texts. The shape of the binding chooses the constructor of the result. -/
lemma Binding.resolve_yields (b : Binding) (r : Reader) :
    Yields (b.resolve r) fun v => v.cardinality = b.cardinality := by
  obtain ⟨field, strategy⟩ := b
  cases strategy with
  | expressions list shape =>
    have hvalues : Yields (r.localized list) fun _ => True := r.localized_yields list
    cases shape with
    | single => exact (hvalues.returns _).bind_pure fun _ _ => rfl
    | list => exact (hvalues.returns _).bind_pure fun _ _ => rfl
    | localeMap => exact (hvalues.returns _).bind_pure fun _ _ => rfl
    | localeMapList => exact hvalues.bind_pure fun _ _ => rfl
  | template t vs shape =>
    have htexts : Yields (r.rendered t vs) fun _ => True := r.rendered_yields t vs
    cases shape with
    | single => exact (htexts.returns _).bind_pure fun _ _ => rfl
    | localeMap => exact htexts.bind_pure fun _ _ => rfl

end XmlHarvest
