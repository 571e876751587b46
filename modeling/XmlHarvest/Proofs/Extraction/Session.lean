import XmlHarvest.Binding.Registry
import XmlHarvest.Proofs.Except
import XmlHarvest.Proofs.Extraction.Transparency

/-!
# Sessions with a cache

A session is a series of requests to compile an expression, to views, to readers and to registries,
over any documents, between which the default namespace may change. Every request of a session is
answered as it would be with an empty cache for the static context of the moment: nothing that was
asked before shows, whether it was answered or failed.

## Main definitions

* `Extraction.View.Question`, `Extraction.Reader.Question`, `Extraction.Request`: what can be asked.
* `Extraction.Action`: a request, or another default namespace.
* `Extraction.Cache.session`: the cache after a series of actions.
* `Extraction.Cache.replies`, `Extraction.freshReplies`: the answers of a series of actions, from
  one cache and from an empty cache each.

## Main results

* `Extraction.Request.transparent`: every request is transparent.
* `Extraction.Cache.Consistent.step`: what one action preserves.
* `Extraction.session_transparent`: what holds after every series of actions.
-/

namespace XmlHarvest.Extraction

/-! ## Views -/

namespace View

variable (v : View) (expression : String) (context : Option Located)

/-- The value of an expression uses the cache for the compiled expression only. -/
lemma evaluate_transparent : Transparent (v.evaluate expression context) := by
  refine (Transparent.lift _).bind fun i => ?_
  refine compile_bind_transparent expression (fun _ => rfl) fun entry => ?_
  cases entry.query.evaluate v.document i with
  | ok value => exact .pure value
  | error cause => exact .throw _

/-- The nodes of an expression are transparent. -/
lemma nodes_transparent : Transparent (v.nodes expression context) := by
  refine (v.evaluate_transparent expression context).bind fun value => ?_
  cases value.toNodes with
  | ok is => exact .pure is
  | error cause => exact .throw _

/-- The nodes of an expression that starts from a node are transparent. -/
lemma relative_transparent (i : Located) : Transparent (v.relative i expression) :=
  (Transparent.lift _).bind fun _ => v.nodes_transparent expression (some i)

/-- What can be asked of a view. -/
inductive Question where
  | value (expression : String) (context : Option Located)
  | nodes (expression : String) (context : Option Located)
  | nodeAt (expression : String) (index : Nat) (context : Option Located)
  | node (expression : String) (context : Option Located)
  | text (expression : String) (context : Option Located)
  | number (expression : String) (context : Option Located)
  | boolean (expression : String) (context : Option Located)
  | relative (i : Located) (expression : String)

/-- What a view answers to a question. -/
def Question.Answer : Question → Type
  | value .. => Query.Value
  | nodes .. | relative .. => List NodeId
  | nodeAt .. | node .. => Option NodeId
  | text .. => String
  | number .. => Float
  | boolean .. => Bool

/-- The computation that answers a question. -/
def ask : (q : Question) → Run q.Answer
  | .value e context => v.evaluate e context
  | .nodes e context => v.nodes e context
  | .nodeAt e index context => v.nodeAt e index context
  | .node e context => v.node e context
  | .text e context => v.text e context
  | .number e context => v.number e context
  | .boolean e context => v.boolean e context
  | .relative i e => v.relative i e

/-- The answers of a view are transparent. -/
lemma ask_transparent (q : Question) : Transparent (v.ask q) := by
  cases q with
  | value e context => exact v.evaluate_transparent e context
  | nodes e context => exact v.nodes_transparent e context
  | nodeAt e index context => exact (v.nodes_transparent e context).bind fun is => .pure is[index]?
  | node e context => exact (v.nodes_transparent e context).bind fun is => .pure is[0]?
  | text e context => exact (v.evaluate_transparent e context).bind fun _ => .pure _
  | number e context => exact (v.evaluate_transparent e context).bind fun _ => .pure _
  | boolean e context => exact (v.evaluate_transparent e context).bind fun _ => .pure _
  | relative i e => exact v.relative_transparent e i

end View

/-! ## Readers -/

namespace Reader

variable (r : Reader)

/-- Reporting faults as faults in resolving an expression does not use the cache. -/
lemma resolving_transparent {α : Type} {x : Run α} (expression : String) (hx : Transparent x) :
    Transparent (resolving expression x) :=
  hx.adapt (.resolution expression)

/-- The key of a node is transparent. -/
lemma withKey_transparent (keyPath : Option String) (i : NodeId) :
    Transparent (r.withKey keyPath i) := by
  cases keyPath with
  | none => exact .pure _
  | some path =>
    exact (resolving_transparent path (r.view.relative_transparent path _)).bind fun _ => .pure _

/-- The nodes of an expression are transparent, with their keys. -/
lemma selectOne_transparent (keyPath : Option String) (expression : String) :
    Transparent (r.selectOne keyPath expression) :=
  (resolving_transparent expression (r.view.nodes_transparent expression none)).bind fun is =>
    .mapM (r.withKey_transparent keyPath) is

/-- The nodes of all expressions of a list are transparent. -/
lemma select_transparent (keyPath : Option String) (expressions : List String) :
    Transparent (r.select keyPath expressions) := by
  have hall : Transparent (do
      let hits ← (r.expand expressions).mapM (r.selectOne keyPath)
      return hits.flatten) :=
    (Transparent.mapM (r.selectOne_transparent keyPath) _).bind fun _ => .pure _
  cases keyPath with
  | none => exact hall
  | some path => exact (resolving_transparent path (.lift _)).bind fun _ => hall

/-- The nodes of the first alternative that selects any are transparent. -/
lemma firstMatch_transparent (keyPath : Option String) (expressions : List String) :
    Transparent (r.firstMatch keyPath expressions) := by
  induction expressions with
  | nil => exact .pure []
  | cons e es ih =>
    refine (r.select_transparent keyPath [e]).bind fun hits => ?_
    split
    · exact ih
    · exact .pure hits

/-- The values of a list by locale are transparent. -/
lemma localized_transparent (expressions : List String) :
    Transparent (r.localized expressions) :=
  (r.firstMatch_transparent none expressions).bind fun _ => .pure _

/-- The nodes of a list that have a key are transparent. -/
lemma keyed_transparent (expressions : List String) (keyPath : String) :
    Transparent (r.keyed expressions keyPath) :=
  (r.firstMatch_transparent (some keyPath) expressions).bind fun _ => .pure _

/-- The values of variables are transparent. -/
lemma variableValues_transparent (vs : List Variable) : Transparent (r.variableValues vs) := by
  refine (Transparent.mapM (fun v => ?_) vs).bind fun _ => .pure _
  exact (r.localized_transparent v.expressions).bind fun _ => .pure _

/-- The texts of a template are transparent. -/
lemma rendered_transparent (t : Template) (vs : List Variable) : Transparent (r.rendered t vs) :=
  (r.variableValues_transparent vs).bind fun _ => .pure _

/-- What can be asked of a reader. -/
inductive Question where
  | hits (keyPath : Option String) (expressions : List String)
  | allLocalized (expressions : List String)
  | localized (expressions : List String)
  | multi (expressions : List String)
  | single (expressions : List String)
  | firstPerLocale (expressions : List String)
  | keyedNodes (expressions : List String) (keyPath : String)
  | keyedValues (expressions : List String) (keyPath : String)
  | keyedLists (expressions : List String) (keyPath : String)
  | variableValues (vs : List Variable)
  | rendered (t : Template) (vs : List Variable)
  | renderedFirst (t : Template) (vs : List Variable)

/-- What a reader answers to a question. -/
def Question.Answer : Question → Type
  | hits .. => List Hit
  | allLocalized .. | localized .. => ResolvedVariable
  | multi .. => List String
  | single .. | renderedFirst .. => Option String
  | firstPerLocale .. | rendered .. => OrderedMap Locale String
  | keyedNodes .. => OrderedMap String NodeId
  | keyedValues .. => OrderedMap String String
  | keyedLists .. => OrderedMap String (List String)
  | variableValues .. => Variables

/-- The computation that answers a question. -/
def ask : (q : Question) → Run q.Answer
  | .hits keyPath es => r.select keyPath es
  | .allLocalized es => r.allLocalized es
  | .localized es => r.localized es
  | .multi es => r.multi es
  | .single es => r.single es
  | .firstPerLocale es => r.firstPerLocale es
  | .keyedNodes es keyPath => r.keyedNodes es keyPath
  | .keyedValues es keyPath => r.keyedValues es keyPath
  | .keyedLists es keyPath => r.keyedLists es keyPath
  | .variableValues vs => r.variableValues vs
  | .rendered t vs => r.rendered t vs
  | .renderedFirst t vs => r.renderedFirst t vs

/-- The answers of a reader are transparent. -/
lemma ask_transparent (q : Question) : Transparent (r.ask q) := by
  cases q with
  | hits keyPath es => exact r.select_transparent keyPath es
  | allLocalized es => exact (r.select_transparent none es).bind fun _ => .pure _
  | localized es => exact r.localized_transparent es
  | multi es => exact (r.localized_transparent es).bind fun _ => .pure _
  | single es => exact (r.localized_transparent es).bind fun _ => .pure _
  | firstPerLocale es => exact (r.localized_transparent es).bind fun _ => .pure _
  | keyedNodes es keyPath => exact (r.keyed_transparent es keyPath).bind fun _ => .pure _
  | keyedValues es keyPath => exact (r.keyed_transparent es keyPath).bind fun _ => .pure _
  | keyedLists es keyPath => exact (r.keyed_transparent es keyPath).bind fun _ => .pure _
  | variableValues vs => exact r.variableValues_transparent vs
  | rendered t vs => exact r.rendered_transparent t vs
  | renderedFirst t vs => exact (r.rendered_transparent t vs).bind fun _ => .pure _

end Reader

end XmlHarvest.Extraction

namespace XmlHarvest

open Extraction (Reader Transparent)

/-! ## Registries -/

/-- The value of a field is transparent. -/
lemma Binding.resolve_transparent (b : Binding) (r : Reader) : Transparent (b.resolve r) := by
  unfold Binding.resolve
  split
  · exact (r.ask_transparent (.single _)).bind fun _ => .pure _
  · exact (r.ask_transparent (.multi _)).bind fun _ => .pure _
  · exact (r.ask_transparent (.firstPerLocale _)).bind fun _ => .pure _
  · exact (r.ask_transparent (.localized _)).bind fun _ => .pure _
  · exact (r.ask_transparent (.renderedFirst _ _)).bind fun _ => .pure _
  · exact (r.ask_transparent (.rendered _ _)).bind fun _ => .pure _

namespace Registry

variable (registry : Registry) (r : Reader)

/-- The value of a registered field is transparent, and so is the fault of another one. -/
lemma resolve_transparent (field : String) : Transparent (registry.resolve field r) := by
  unfold resolve
  split
  · rename_i b _
    exact b.resolve_transparent r
  · exact .throw _

/-- The values of all fields are transparent. -/
lemma resolveAll_transparent : Transparent (registry.resolveAll r) := by
  refine (Transparent.mapM (fun b => ?_) registry.bindings).bind fun _ => .pure _
  exact (b.resolve_transparent r).bind fun _ => .pure _

end Registry

end XmlHarvest

namespace XmlHarvest.Extraction

/-! ## Requests -/

/-- What can be asked while a cache is in use. -/
inductive Request where
  | compile (expression : String)
  | view (v : View) (q : View.Question)
  | reader (r : Reader) (q : Reader.Question)
  | field (registry : Registry) (field : String) (r : Reader)
  | record (registry : Registry) (r : Reader)

namespace Request

/-- What a request is answered with. A compiled expression comes without the stamp of its entry. -/
def Answer : Request → Type
  | compile _ => Query.Compiled
  | view _ q => q.Answer
  | reader _ q => q.Answer
  | field .. => FieldValue
  | record .. => OrderedMap String FieldValue

/-- The computation that answers a request. -/
def run : (q : Request) → Run q.Answer
  | compile expression => compileQuery expression
  | view v q => v.ask q
  | reader r q => r.ask q
  | field registry name r => registry.resolve name r
  | record registry r => registry.resolveAll r

/-- Every request is transparent. -/
lemma transparent (q : Request) : Transparent q.run := by
  cases q with
  | compile expression => exact compileQuery_transparent expression
  | view v q => exact v.ask_transparent q
  | reader r q => exact r.ask_transparent q
  | field registry name r => exact registry.resolve_transparent r name
  | record registry r => exact registry.resolveAll_transparent r

end Request

/-! ## Sessions -/

/-- One step of a session. -/
inductive Action where
  | setDefaultSpace (space : Option String)
  | request (q : Request)

/-- The static context after an action. -/
def Action.context (context : Query.StaticContext) : Action → Query.StaticContext
  | setDefaultSpace space => context.withDefault space
  | request _ => context

/-- A request and what was returned for it. -/
structure Reply where
  request : Request
  outcome : Except Error request.Answer

/-- The answers to the requests of a session, each from an empty cache for the static context of
the moment. -/
def freshReplies (context : Query.StaticContext) : List Action → List Reply
  | [] => []
  | .setDefaultSpace space :: actions => freshReplies (context.withDefault space) actions
  | .request q :: actions => ⟨q, q.run.outcome (.new context)⟩ :: freshReplies context actions

namespace Cache

/-- The cache after an action. -/
def step (c : Cache) : Action → Cache
  | .setDefaultSpace space => c.setDefaultSpace space
  | .request q => q.run.after c

/-- The cache after a series of actions. -/
def session (c : Cache) (actions : List Action) : Cache :=
  actions.foldl step c

/-- The answers to the requests of a session, one cache being used for all of them. -/
def replies (c : Cache) : List Action → List Reply
  | [] => []
  | .setDefaultSpace space :: actions => (c.setDefaultSpace space).replies actions
  | .request q :: actions => ⟨q, q.run.outcome c⟩ :: (q.run.after c).replies actions

/-- An action leaves a consistent cache consistent. -/
lemma Consistent.step {c : Cache} (hc : c.Consistent) (action : Action) :
    (c.step action).Consistent := by
  cases action with
  | setDefaultSpace space => exact hc.setDefaultSpace space
  | request q => exact q.transparent.consistent c hc

/-- The static context after an action depends on changes of the default namespace only. -/
lemma Consistent.context_step {c : Cache} (hc : c.Consistent) (action : Action) :
    (c.step action).context = action.context c.context := by
  cases action with
  | setDefaultSpace space => exact c.context_setDefaultSpace space
  | request q => exact q.transparent.context_eq c hc

/-- A session leaves a consistent cache consistent. -/
lemma Consistent.session {c : Cache} (hc : c.Consistent) (actions : List Action) :
    (c.session actions).Consistent := by
  induction actions generalizing c with
  | nil => exact hc
  | cons action actions ih => exact ih (hc.step action)

/-- The static context after a session depends on changes of the default namespace only. -/
lemma Consistent.context_session {c : Cache} (hc : c.Consistent) (actions : List Action) :
    (c.session actions).context = actions.foldl Action.context c.context := by
  induction actions generalizing c with
  | nil => rfl
  | cons action actions ih =>
    show ((c.step action).session actions).context = _
    rw [ih (hc.step action), hc.context_step action, List.foldl_cons]

/-- The answers over a session are those of empty caches.

**Proof sketch.** Induction on the actions for all consistent caches. A request is transparent, and
the cache it leaves behind is consistent and has the same static context. -/
lemma Consistent.replies_eq {c : Cache} (hc : c.Consistent) (actions : List Action) :
    c.replies actions = freshReplies c.context actions := by
  induction actions generalizing c with
  | nil => rfl
  | cons action actions ih =>
    cases action with
    | setDefaultSpace space =>
      rw [replies, freshReplies, ih (hc.setDefaultSpace space), c.context_setDefaultSpace]
    | request q =>
      rw [replies, freshReplies, q.transparent.outcome_eq c hc, ih (q.transparent.consistent c hc),
        q.transparent.context_eq c hc]

end Cache

/-- **The cache does not show.** After every session that starts with an empty cache, each entry is
what compilation gives for its text in the static context of the moment. So every request returns
what it returns from an empty cache for that static context, and so did all requests before.

**Proof sketch.** Every request is transparent (`Request.transparent`): it returns from a consistent
cache what it returns from an empty one, and leaves a consistent cache with the same static context.
Another default namespace leaves no entry. So by induction on the actions the cache stays consistent
(`Cache.Consistent.session`), and the replies are those of empty caches
(`Cache.Consistent.replies_eq`). -/
theorem session_transparent (context : Query.StaticContext) (actions : List Action) :
    let c := (Cache.new context).session actions
    c.context = actions.foldl Action.context context ∧
      (∀ expression entry, c.entries.get? expression = some entry →
        Query.compile c.context expression = .ok entry.query) ∧
      (∀ q : Request, q.run.outcome c = q.run.outcome (.new c.context)) ∧
      (Cache.new context).replies actions = freshReplies context actions := by
  intro c
  have hnew := Cache.consistent_new context
  have hc : c.Consistent := hnew.session actions
  refine ⟨hnew.context_session actions, hc, fun q => ?_, hnew.replies_eq actions⟩
  exact q.transparent.outcome_eq c hc

/-- A session in which the namespace changes between two requests for the same expression. -/
theorem session_transparent_other_space : ∃ first second : Query.Compiled,
    (Cache.new .initial).replies [.request (.compile "a"), .setDefaultSpace (some "urn:x"),
      .request (.compile "a")] = [⟨.compile "a", .ok first⟩, ⟨.compile "a", .ok second⟩] ∧
    first.context.defaultSpace = none ∧ second.context.defaultSpace = some "urn:x" := by
  have hfirst : (Query.compile .initial "a").toOption.map (·.context.defaultSpace) = some none := by
    decide +kernel
  have hsecond : (Query.compile (Query.StaticContext.initial.withDefault (some "urn:x"))
      "a").toOption.map (·.context.defaultSpace) = some (some "urn:x") := by decide +kernel
  obtain ⟨first, hfirst, hnone⟩ := Option.map_eq_some_iff.1 hfirst
  obtain ⟨second, hsecond, hsome⟩ := Option.map_eq_some_iff.1 hsecond
  have houtcome {context : Query.StaticContext} {q : Query.Compiled}
      (h : (Query.compile context "a").toOption = some q) :
      (Request.compile "a").run.outcome (.new context) = .ok q := by
    show (compileQuery "a").outcome (.new context) = _
    rw [outcome_compileQuery "a" (Cache.consistent_new context), Cache.new,
      toOption_eq_some_iff.1 h]
    rfl
  refine ⟨first, second, (session_transparent _ _).2.2.2.trans ?_, hnone, hsome⟩
  simp only [freshReplies, houtcome hfirst, houtcome hsecond]

end XmlHarvest.Extraction
