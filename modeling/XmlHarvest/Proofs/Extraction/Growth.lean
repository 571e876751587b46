import XmlHarvest.Extraction.View
import XmlHarvest.Proofs.Except
import XmlHarvest.Proofs.Extraction.Transparency

/-!
# The growth of a cache

Work with a cache adds entries to it and does nothing else to it. What a cache answers to a
request is settled before the work begins: an expression that has an entry by now had the same
one before, or it has the compiled form that it would have been given then. So a computation has
one outcome and compiles one list of expressions, from a cache and from all caches that this one
grows into, and for two computations one after the other these lists are joined.

## Main definitions

* `Extraction.Cache.Gains`: a cache with the entries of further expressions.
* `Extraction.Cache.compiled`: the compiled form of an expression.
* `Extraction.Does`: the outcome of a computation and the expressions that it compiles.
* `Extraction.View.answer`: the nodes that an expression selects.

## Main results

* `Extraction.Does.bind`, `Extraction.Does.bind_error`: computations one after the other.
* `Extraction.does_compileQuery`: compilation.
* `Extraction.does_nodes`: the evaluation of one expression.
-/

namespace XmlHarvest.Extraction

variable {α β : Type} {c c' : Cache}

/-! ## Caches that grow -/

/-- The cache `c` has grown into `c'`: every entry has stayed as it was, and the new entries are
those of the given expressions, as far as these can be compiled. -/
structure Cache.Gains (c c' : Cache) (expressions : List String) : Prop where
  context_eq : c'.context = c.context
  keep : ∀ e entry, c.entries.get? e = some entry → c'.entries.get? e = some entry
  gain : ∀ e, c.entries.get? e = none → (c'.entries.get? e).map Entry.query =
    if e ∈ expressions then (Query.compile c.context e).toOption else none

/-- The compiled form of an expression: that of its entry, if it has one. -/
def Cache.compiled (c : Cache) (e : String) : Except Error Query.Compiled :=
  match c.entries.get? e with
  | some entry => .ok entry.query
  | none => (Query.compile c.context e).mapError (.invalidExpression e)

/-- In a consistent cache an expression has the compiled form that its text has. -/
lemma Cache.Consistent.compiled_eq (hc : c.Consistent) (e : String) :
    c.compiled e = (Query.compile c.context e).mapError (.invalidExpression e) := by
  unfold Cache.compiled
  cases hget : c.entries.get? e with
  | some entry =>
    rw [hc e entry hget]
    rfl
  | none => rfl

namespace Cache.Gains

/-- Without work nothing changes. -/
lemma refl (c : Cache) : c.Gains c [] where
  context_eq := rfl
  keep _ _ h := h
  gain e h := by simp [h]

variable {es : List String}

/-- Growing changes the compiled form of no expression. -/
lemma compiled_eq (h : c.Gains c' es) (e : String) : c'.compiled e = c.compiled e := by
  unfold Cache.compiled
  cases hget : c.entries.get? e with
  | some entry => rw [h.keep e entry hget]
  | none =>
    have hgain := h.gain e hget
    cases hget' : c'.entries.get? e with
    | none => rw [h.context_eq]
    | some entry =>
      rw [hget'] at hgain
      split at hgain
      · rw [toOption_eq_some_iff.1 hgain.symm]
        rfl
      · cases hgain

/-- A further expression is compiled, or it cannot be compiled and nothing is added. -/
lemma of_failing (h : c.Gains c' es) {e : String} (hnew : c'.entries.get? e = none)
    {cause : Query.Error} (hcompile : Query.compile c.context e = .error cause) :
    c.Gains c' (es ++ [e]) where
  context_eq := h.context_eq
  keep := h.keep
  gain f hf := by
    rw [h.gain f hf]
    by_cases hfe : f = e
    · subst hfe
      rw [hcompile]
      simp [Except.toOption]
    · simp [hfe]

/-- An expression that has an entry may be compiled once more. -/
lemma of_known (h : c.Gains c' es) {e : String} {entry : Entry}
    (hknown : c'.entries.get? e = some entry) : c.Gains c' (es ++ [e]) where
  context_eq := h.context_eq
  keep := h.keep
  gain f hf := by
    have hgain := h.gain f hf
    by_cases hfe : f = e
    · subst hfe
      rw [hknown] at hgain ⊢
      split at hgain
      · rw [if_pos (by simp)]
        exact hgain
      · cases hgain
    · rw [hgain]
      simp [hfe]

/-- An expression that has no entry is added. -/
lemma add (h : c.Gains c' es) {e : String} (hnew : c'.entries.get? e = none)
    {query : Query.Compiled} (hcompile : Query.compile c.context e = .ok query) :
    c.Gains (c'.add e query).2 (es ++ [e]) where
  context_eq := h.context_eq
  keep f entry hf := by
    have hkeep := h.keep f entry hf
    have hfe : f ≠ e := by
      rintro rfl
      rw [hnew] at hkeep
      cases hkeep
    rw [get?_add c' query hnew, if_neg hfe, hkeep]
  gain f hf := by
    rw [get?_add c' query hnew]
    by_cases hfe : f = e
    · subst hfe
      rw [if_pos rfl, if_pos (by simp), hcompile]
      rfl
    · rw [if_neg hfe, h.gain f hf]
      simp [hfe]

end Cache.Gains

/-! ## What a computation does -/

/-- From the cache `c`, and from each cache that it grows into, the computation has the given
outcome and compiles the given expressions. -/
def Does (c : Cache) (x : Run α) (result : Except Error α) (es : List String) : Prop :=
  ∀ c' gained, c.Gains c' gained → x.outcome c' = result ∧ c.Gains (x.after c') (gained ++ es)

/-- What a computation does from the cache itself. -/
lemma Does.here {x : Run α} {result : Except Error α} {es : List String}
    (h : Does c x result es) : x.outcome c = result ∧ c.Gains (x.after c) es :=
  h c [] (.refl c)

/-- A computation that does not use the cache. -/
lemma does_of_const {x : Run α} {result : Except Error α} (houtcome : ∀ c, x.outcome c = result)
    (hafter : ∀ c, x.after c = c) : Does c x result [] := by
  intro c' gained hgained
  rw [hafter, List.append_nil]
  exact ⟨houtcome c', hgained⟩

/-- A result that was there before compiles nothing. -/
lemma does_pure (a : α) : Does c (pure a) (.ok a) [] :=
  does_of_const (fun _ => rfl) fun _ => rfl

/-- A computation without the cache compiles nothing. -/
lemma does_lift (result : Except Error α) : Does c (liftM result : Run α) result [] :=
  does_of_const (fun _ => rfl) fun _ => rfl

namespace Does

variable {x : Run α} {f : α → Run β} {es fs : List String}

/-- After a computation that succeeds the next one is performed. -/
lemma bind {a : α} {result : Except Error β} (hx : Does c x (.ok a) es)
    (hf : Does c (f a) result fs) : Does c (x >>= f) result (es ++ fs) := by
  intro c' gained hgained
  obtain ⟨houtcome, hafter⟩ := hx c' gained hgained
  rw [outcome_bind_ok f houtcome, after_bind_ok f houtcome, ← List.append_assoc]
  exact hf _ _ hafter

/-- After a computation that fails nothing is performed. -/
lemma bind_error {e : Error} (hx : Does c x (.error e) es) :
    Does c (x >>= f) (.error e) es := by
  intro c' gained hgained
  obtain ⟨houtcome, hafter⟩ := hx c' gained hgained
  rw [outcome_bind_error f houtcome, after_bind_error f houtcome]
  exact ⟨rfl, hafter⟩

/-- Other faults for the same work. -/
lemma adapt {result : Except Error α} (g : Error → Error) (hx : Does c x result es) :
    Does c (ExceptT.adapt g x : Run α) (result.mapError g) es := by
  intro c' gained hgained
  obtain ⟨houtcome, hafter⟩ := hx c' gained hgained
  exact ⟨congrArg (Except.mapError g) houtcome, hafter⟩

end Does

/-- **Compilation** gives an expression its compiled form and compiles nothing else. -/
lemma does_compileQuery (e : String) : Does c (compileQuery e) (c.compiled e) [e] := by
  intro c' gained hgained
  rw [← hgained.compiled_eq e, compileQuery, outcome_map, after_map, Run.outcome, Run.after,
    compile_run, Cache.compiled]
  cases hget : c'.entries.get? e with
  | some entry => exact ⟨rfl, hgained.of_known hget⟩
  | none =>
    simp only [hgained.context_eq]
    cases hquery : Query.compile c.context e with
    | error cause => exact ⟨rfl, hgained.of_failing hget hquery⟩
    | ok query => exact ⟨rfl, hgained.add hget hquery⟩

/-! ## The answer to a request -/

/-- The nodes that an expression selects from a node, with the compiled form that it has in a
cache. -/
def View.answer (v : View) (c : Cache) (e : String) (i : NodeId) : Except Error (List NodeId) := do
  let query ← c.compiled e
  (query.evaluateNodes v.document i).mapError (.evaluation e)

/-- A node is found in the document of its view. -/
lemma contextNode_locate (v : View) (i : NodeId) : v.contextNode (some (v.locate i)) = .ok i := by
  rw [View.contextNode, View.locate, if_pos rfl]

/-- A request for nodes compiles the expression and evaluates it. -/
lemma nodes_eq (v : View) {context : Option Located} {i : NodeId}
    (hcontext : v.contextNode context = .ok i) (e : String) :
    v.nodes e context = compileQuery e >>= fun query =>
      liftM ((query.evaluateNodes v.document i).mapError (Error.evaluation e)) := by
  rw [View.nodes, View.evaluate, hcontext, compileQuery, bind_map_left]
  show (compile e >>= _) >>= _ = _
  rw [bind_assoc]
  refine congrArg _ (funext fun entry => ?_)
  rw [Query.Compiled.evaluateNodes]
  cases entry.query.evaluate v.document i with
  | error cause => rfl
  | ok value =>
    refine (pure_bind value _).trans ?_
    change _ = liftM (value.toNodes.mapError (Error.evaluation e))
    cases value.toNodes <;> rfl

/-- **The evaluation of one expression** compiles this expression and nothing else. -/
lemma does_nodes (v : View) {context : Option Located} {i : NodeId}
    (hcontext : v.contextNode context = .ok i) (e : String) :
    Does c (v.nodes e context) (v.answer c e i) [e] := by
  rw [nodes_eq v hcontext, View.answer]
  have hcompile := does_compileQuery (c := c) e
  cases hquery : c.compiled e with
  | error cause =>
    rw [hquery] at hcompile
    exact hcompile.bind_error
  | ok query =>
    rw [hquery] at hcompile
    exact hcompile.bind (does_lift _)

end XmlHarvest.Extraction
