import Mathlib.Tactic.Basic
import XmlHarvest.Extraction.Cache

/-!
# Computations that do not show a cache

A cache is consistent if each entry is what compilation in the static context of the cache gives
for the text of the entry. A computation is transparent if it keeps a cache consistent, leaves its
static context alone and returns from a consistent cache what it returns from an empty one.
Compilation is transparent except for the stamps, and transparent computations compose.

## Main definitions

* `Extraction.Run.outcome`, `Extraction.Run.after`: what a computation returns, and the cache it
  leaves behind.
* `Extraction.Cache.Consistent`: every entry is right.
* `Extraction.Transparent`: the entries of a consistent cache do not show.
* `Extraction.compileQuery`: the compiled expression without its stamp.

## Main results

* `Extraction.Cache.Consistent.setDefaultSpace`: another default namespace leaves no wrong entry.
* `Extraction.Transparent.bind`, `Extraction.Transparent.mapM`: computations one after the other.
* `Extraction.compileQuery_transparent`, `Extraction.compile_bind_transparent`: compilation.
-/

namespace XmlHarvest.Extraction

variable {α β : Type}

/-! ## Outcomes -/

/-- What a computation returns when it starts with a cache. -/
def Run.outcome (x : Run α) (c : Cache) : Except Error α :=
  (x.run.run c).1

/-- The cache that a computation leaves behind, also when it fails. -/
def Run.after (x : Run α) (c : Cache) : Cache :=
  (x.run.run c).2

/-- The second of two computations runs on the result of the first one, with the cache that the
first one leaves behind. A fault of the first one ends both. -/
lemma run_bind (x : Run α) (f : α → Run β) (c : Cache) : (x >>= f).run.run c =
    match x.outcome c with
    | .ok a => (f a).run.run (x.after c)
    | .error e => pure (.error e, x.after c) := by
  show (ExceptT.bindCont f (x.run.run c).1).run (x.run.run c).2 = _
  unfold Run.outcome Run.after
  cases (x.run.run c).1 <;> rfl

section Bind

variable {x : Run α} {c : Cache} (f : α → Run β)

/-- What two computations return if the first one succeeds. -/
lemma outcome_bind_ok {a : α} (h : x.outcome c = .ok a) :
    (x >>= f).outcome c = (f a).outcome (x.after c) := by
  show ((x >>= f).run.run c).1 = _
  rw [run_bind, h]
  rfl

/-- What two computations leave behind if the first one succeeds. -/
lemma after_bind_ok {a : α} (h : x.outcome c = .ok a) :
    (x >>= f).after c = (f a).after (x.after c) := by
  show ((x >>= f).run.run c).2 = _
  rw [run_bind, h]
  rfl

/-- What two computations return if the first one fails. -/
lemma outcome_bind_error {e : Error} (h : x.outcome c = .error e) :
    (x >>= f).outcome c = .error e := by
  show ((x >>= f).run.run c).1 = _
  rw [run_bind, h]
  rfl

/-- What two computations leave behind if the first one fails. -/
lemma after_bind_error {e : Error} (h : x.outcome c = .error e) :
    (x >>= f).after c = x.after c := by
  show ((x >>= f).run.run c).2 = _
  rw [run_bind, h]
  rfl

end Bind

/-- Changing the result of a computation changes no fault. -/
lemma outcome_map (x : Run α) (f : α → β) (c : Cache) :
    (f <$> x).outcome c = (x.outcome c).map f := by
  rw [map_eq_pure_bind]
  cases h : x.outcome c with
  | error e => rw [outcome_bind_error _ h]; rfl
  | ok a => rw [outcome_bind_ok _ h]; rfl

/-- Changing the result of a computation does not change the cache. -/
lemma after_map (x : Run α) (f : α → β) (c : Cache) : (f <$> x).after c = x.after c := by
  rw [map_eq_pure_bind]
  cases h : x.outcome c with
  | error e => rw [after_bind_error _ h]
  | ok a => rw [after_bind_ok _ h]; rfl

/-! ## Consistent caches -/

/-- Every entry is what compilation in the static context gives for its text. -/
def Cache.Consistent (c : Cache) : Prop :=
  ∀ expression entry, c.entries.get? expression = some entry →
    Query.compile c.context expression = .ok entry.query

/-- A cache without entries has no wrong entry. -/
lemma Cache.consistent_of_empty {context : Query.StaticContext} {made : Nat} :
    Cache.Consistent ⟨context, .empty, made⟩ := by
  intro _ _ h
  cases h

/-- An empty cache is consistent. -/
lemma Cache.consistent_new (context : Query.StaticContext) : (Cache.new context).Consistent :=
  consistent_of_empty

/-- The entries after an expression was added. -/
lemma Cache.get?_add (c : Cache) {e : String} (query : Query.Compiled)
    (hnew : c.entries.get? e = none) (f : String) :
    (c.add e query).2.entries.get? f =
      if f = e then some ⟨query, c.made⟩ else c.entries.get? f := by
  show (c.entries.insertNew e _).get? f = _
  rw [OrderedMap.insertNew, OrderedMap.get?_alter, hnew]
  rfl

/-- A compiled expression may be added. -/
lemma Cache.Consistent.add {c : Cache} (hc : c.Consistent) {expression : String}
    {query : Query.Compiled} (h : Query.compile c.context expression = .ok query)
    (hnew : c.entries.get? expression = none) : (c.add expression query).2.Consistent := by
  intro other entry hentry
  show Query.compile c.context other = .ok entry.query
  rw [get?_add c query hnew] at hentry
  split at hentry
  · rename_i hother
    cases hentry
    rw [hother, h]
  · exact hc other entry hentry

/-- The default namespace is part of the static context, whether entries stay or not. -/
lemma Cache.context_setDefaultSpace (c : Cache) (space : Option String) :
    (c.setDefaultSpace space).context = c.context.withDefault space := by
  unfold Cache.setDefaultSpace
  split
  · rename_i hsame
    rw [Query.StaticContext.withDefault, ← hsame]
  · rfl

/-- Entries that stay belong to the default namespace that is set. -/
lemma Cache.Consistent.setDefaultSpace {c : Cache} (hc : c.Consistent) (space : Option String) :
    (c.setDefaultSpace space).Consistent := by
  unfold Cache.setDefaultSpace
  split
  · exact hc
  · exact consistent_of_empty

/-! ## Transparent computations -/

/-- A computation that does not show which entries a consistent cache has. -/
structure Transparent (x : Run α) : Prop where
  outcome_eq : ∀ c : Cache, c.Consistent → x.outcome c = x.outcome (.new c.context)
  consistent : ∀ c : Cache, c.Consistent → (x.after c).Consistent
  context_eq : ∀ c : Cache, c.Consistent → (x.after c).context = c.context

namespace Transparent

/-- A computation that neither reads nor writes the cache is transparent. -/
lemma of_const {x : Run α} (result : Except Error α) (houtcome : ∀ c, x.outcome c = result)
    (hafter : ∀ c, x.after c = c) : Transparent x where
  outcome_eq c _ := (houtcome c).trans (houtcome (.new c.context)).symm
  consistent c hc := (hafter c).symm ▸ hc
  context_eq c _ := congrArg Cache.context (hafter c)

/-- A result is transparent. -/
lemma pure (a : α) : Transparent (Pure.pure a) :=
  of_const (.ok a) (fun _ => rfl) fun _ => rfl

/-- A fault is transparent. -/
lemma throw (e : Error) : Transparent (MonadExcept.throw e : Run α) :=
  of_const (.error e) (fun _ => rfl) fun _ => rfl

/-- A check that does not use the cache is transparent. -/
lemma lift (result : Except Error α) : Transparent (liftM result : Run α) :=
  of_const result (fun _ => rfl) fun _ => rfl

/-- Two transparent computations one after the other are transparent.

**Proof sketch.** The first one returns the same from the cache and from an empty one. It leaves
consistent caches with the same static context behind, so the second one returns from either of
them what it returns from an empty cache. -/
lemma bind {x : Run α} {f : α → Run β} (hx : Transparent x) (hf : ∀ a, Transparent (f a)) :
    Transparent (x >>= f) where
  outcome_eq c hc := by
    have hnew : (Cache.new c.context).Consistent := Cache.consistent_new c.context
    have hsame := hx.outcome_eq c hc
    cases h : x.outcome c with
    | error e => rw [outcome_bind_error f h, outcome_bind_error f (hsame ▸ h)]
    | ok a =>
      have hctx : (x.after (.new c.context)).context = c.context := hx.context_eq _ hnew
      rw [outcome_bind_ok f h, outcome_bind_ok f (hsame ▸ h),
        (hf a).outcome_eq _ (hx.consistent c hc), (hf a).outcome_eq _ (hx.consistent _ hnew),
        hx.context_eq c hc, hctx]
  consistent c hc := by
    cases h : x.outcome c with
    | error e =>
      rw [after_bind_error f h]
      exact hx.consistent c hc
    | ok a =>
      rw [after_bind_ok f h]
      exact (hf a).consistent _ (hx.consistent c hc)
  context_eq c hc := by
    cases h : x.outcome c with
    | error e =>
      rw [after_bind_error f h]
      exact hx.context_eq c hc
    | ok a =>
      rw [after_bind_ok f h, (hf a).context_eq _ (hx.consistent c hc)]
      exact hx.context_eq c hc

/-- Changing the faults of a transparent computation leaves it transparent. -/
lemma adapt {x : Run α} (f : Error → Error) (hx : Transparent x) :
    Transparent (ExceptT.adapt f x : Run α) where
  outcome_eq c hc := congrArg (Except.mapError f) (hx.outcome_eq c hc)
  consistent := hx.consistent
  context_eq := hx.context_eq

/-- Transparent computations for the members of a list, in order, are transparent. -/
lemma mapM {f : α → Run β} (hf : ∀ a, Transparent (f a)) (as : List α) :
    Transparent (as.mapM f) := by
  induction as with
  | nil => exact pure []
  | cons a as ih =>
    rw [List.mapM_cons]
    exact (hf a).bind fun b => ih.bind fun bs => pure (b :: bs)

end Transparent

/-! ## Compilation -/

/-- The compiled expression, from the cache if it has an entry. -/
def compileQuery (expression : String) : Run Query.Compiled :=
  Entry.query <$> compile expression

section Compile

variable (expression : String) (c : Cache)

/-- The cases of compilation: an entry answers for its text, a fault leaves the cache as it is, and
a new expression is added. -/
lemma compile_run : (compile expression).run.run c =
    match c.entries.get? expression with
    | some entry => pure (.ok entry, c)
    | none =>
      match Query.compile c.context expression with
      | .error cause => pure (.error (.invalidExpression expression cause), c)
      | .ok query => pure (.ok (c.add expression query).1, (c.add expression query).2) := by
  rw [compile, run_bind]
  show (match c.entries.get? expression with | _ => _ : Run Entry).run.run c = _
  cases c.entries.get? expression with
  | some entry => rfl
  | none => cases Query.compile c.context expression <;> rfl

variable {c}

/-- What compilation returns from a consistent cache does not depend on its entries. -/
lemma outcome_compileQuery (hc : c.Consistent) : (compileQuery expression).outcome c =
    (Query.compile c.context expression).mapError (.invalidExpression expression) := by
  rw [compileQuery, outcome_map, Run.outcome, compile_run]
  cases hget : c.entries.get? expression with
  | some entry =>
    rw [hc expression entry hget]
    rfl
  | none => cases Query.compile c.context expression <;> rfl

/-- Compilation leaves a consistent cache behind, with the static context that it had. -/
lemma after_compileQuery (hc : c.Consistent) : ((compileQuery expression).after c).Consistent ∧
    ((compileQuery expression).after c).context = c.context := by
  rw [compileQuery, after_map, Run.after, compile_run]
  cases hget : c.entries.get? expression with
  | some entry => exact ⟨hc, rfl⟩
  | none =>
    cases hquery : Query.compile c.context expression with
    | error cause => exact ⟨hc, rfl⟩
    | ok query => exact ⟨hc.add hquery hget, rfl⟩

/-- Compilation is transparent. -/
lemma compileQuery_transparent : Transparent (compileQuery expression) where
  outcome_eq c hc := by
    rw [outcome_compileQuery expression hc,
      outcome_compileQuery expression (Cache.consistent_new c.context)]
    rfl
  consistent _ hc := (after_compileQuery expression hc).1
  context_eq _ hc := (after_compileQuery expression hc).2

/-- A transparent computation may use the entry of an expression, as far as the stamp of the entry
does not matter to it. -/
lemma compile_bind_transparent {f : Entry → Run α} (hstamp : ∀ entry, f ⟨entry.query, 0⟩ = f entry)
    (hf : ∀ entry, Transparent (f entry)) : Transparent (compile expression >>= f) := by
  have hquery :
      compileQuery expression >>= (fun query => f ⟨query, 0⟩) = compile expression >>= f := by
    rw [compileQuery, bind_map_left]
    exact congrArg (compile expression >>= ·) (funext hstamp)
  rw [← hquery]
  exact (compileQuery_transparent expression).bind fun query => hf ⟨query, 0⟩

end Compile

end XmlHarvest.Extraction
