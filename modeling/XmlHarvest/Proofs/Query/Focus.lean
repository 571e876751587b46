import XmlHarvest.Proofs.Query.Resolution

/-!
# What evaluation reads of the focus

An expression is evaluated in a focus: a node, its position among other nodes, and their number. Its
operands and arguments, the expression below its predicates and the start of a path are evaluated in
the same focus, while predicates have foci of their own. What is read of the focus is therefore what
these expressions read at their tops: `position()` and `last()` read the position and the number,
and paths from the context node, `lang` and calls that fall back to the context node read the node.

## Main definitions

* `Query.Expr.ownParts`, `Query.Expr.Shares`: the expressions that have the focus of an expression.
* `Query.Expr.ReadsPosition`, `Query.Expr.ReadsNode`: what the top of an expression reads.
* `Query.Expr.SeesAlike`: the top of an expression reads nothing in which two foci differ.

## Main results

* `Query.call_of_not_readsNode`: a call that reads no node gives the same for all nodes.
* `Query.evaluate_congr`: evaluation does not tell apart foci that differ in nothing that is read.
* `Query.evaluate_independent`: evaluation depends on the focus through these uses only.
-/

namespace XmlHarvest.Query

/-! ## Expressions that share a focus -/

section Shares

variable {v : Vocabulary}

/-- The expressions directly inside an expression that are evaluated in its focus: operands,
arguments, the expression below predicates and the start of a path, but no predicates. -/
def Expr.ownParts : Expr v → List (Expr v)
  | .literal _ | .number _ | .reference _ => []
  | .call _ arguments => arguments
  | .binary _ left right | .union left right => [left, right]
  | .negate operand => [operand]
  | .filter primary _ => [primary]
  | .path start _ => start.parts

/-- An expression shares its focus with itself and with whatever its own parts share theirs with.
These are the expressions in it that do not stand inside predicates. -/
def Expr.Shares : Expr v → Expr v → Prop :=
  Relation.ReflTransGen fun e part => part ∈ e.ownParts

lemma Expr.mem_parts_of_mem_ownParts {e part : Expr v} (h : part ∈ e.ownParts) :
    part ∈ e.parts := by
  cases e with
  | literal | number | reference | call | binary | union | negate => exact h
  | filter primary predicates =>
    obtain rfl := List.mem_singleton.1 h
    exact List.mem_cons_self
  | path start steps => exact List.mem_append_left _ h

/-- What an expression shares its focus with is inside it. -/
lemma Expr.Shares.contains {e part : Expr v} (h : e.Shares part) : e.Contains part :=
  Relation.ReflTransGen.mono (fun _ _ => Expr.mem_parts_of_mem_ownParts) _ _ h

/-- A condition holds of all expressions with the focus of `e` if it holds of `e` and of those with
the foci of its own parts. -/
lemma Expr.forall_shares_iff {p : Expr v → Prop} {e : Expr v} :
    (∀ part, e.Shares part → p part) ↔
      p e ∧ ∀ own ∈ e.ownParts, ∀ part, own.Shares part → p part := by
  constructor
  · intro h
    exact ⟨h e .refl, fun own hown part hpart => h part (.head hown hpart)⟩
  · rintro ⟨he, hown⟩ part hpart
    obtain rfl | ⟨own, hmem, hrest⟩ := Relation.ReflTransGen.cases_head hpart
    · exact he
    · exact hown own hmem part hrest

/-- A condition that holds everywhere in an expression holds of all that is inside. -/
lemma Expr.Everywhere.of_contains {p : Expr v → Prop} {e part : Expr v} (he : e.Everywhere p)
    (hpart : e.Contains part) : p part := by
  induction hpart using Relation.ReflTransGen.head_induction_on with
  | refl => exact (Expr.everywhere_iff.1 he).1
  | head hmem _ ih => exact ih (Expr.inside_iff.1 (Expr.everywhere_iff.1 he).2 _ hmem)

end Shares

/-! ## What the top of an expression reads -/

/-- Whether a function looks at the context node when it has no argument. -/
def Function.DefaultsToNode : Function → Prop
  | .string | .number | .name | .localName | .namespaceUri | .stringLength | .normalizeSpace => True
  | _ => False

/-- The top of an expression reads the position of the context node or the number of nodes. -/
def Expr.ReadsPosition : Expr resolved → Prop
  | .call .position _ | .call .last _ => True
  | _ => False

/-- The top of an expression reads the context node. -/
def Expr.ReadsNode : Expr resolved → Prop
  | .path .context _ => True
  | .call .lang _ => True
  | .call f [] => f.DefaultsToNode
  | _ => False

/-- The top of an expression reads nothing in which two foci differ. -/
def Expr.SeesAlike (f g : Focus) (e : Expr resolved) : Prop :=
  (f.node = g.node ∨ e.CallFits ∧ ¬e.ReadsNode) ∧
    (f.position = g.position ∧ f.size = g.size ∨ ¬e.ReadsPosition)

variable {d : Document}

/-! ## Calls -/

/-- The text of an argument that is there is not that of the context node. -/
lemma argumentText_of_isSome {v? : Option Value} (h : v?.isSome) (f g : Focus) :
    argumentText d f v? = argumentText d g v? := by
  obtain ⟨v, rfl⟩ := Option.isSome_iff_exists.1 h
  rfl

/-- **A call that reads no node** gives the same for all nodes: whatever falls back to the context
node has an argument. -/
lemma call_of_not_readsNode {f : Function} {vs : List Value} (hfits : f.accepts vs.length)
    (hlang : f ≠ .lang) (hdefault : vs = [] → ¬f.DefaultsToNode) (i j : NodeId)
    (position size : Nat) : call d f vs ⟨i, position, size⟩ = call d f vs ⟨j, position, size⟩ := by
  have htext : ∀ k, k < f.minArity →
      argumentText d ⟨i, position, size⟩ vs[k]? = argumentText d ⟨j, position, size⟩ vs[k]? :=
    fun k hk => argumentText_of_isSome (isSome_of_accepts hfits hk) _ _
  cases f with
  | lang => exact absurd rfl hlang
  | string | number | name | localName | namespaceUri | stringLength | normalizeSpace =>
    cases vs with
    | nil => exact absurd trivial (hdefault rfl)
    | cons v vs => rfl
  | startsWith | endsWith | contains | substringBefore | substringAfter =>
    simp only [call, htext 0 (by decide), htext 1 (by decide)]
  | substring => simp only [call, htext 0 (by decide)]
  | translate => simp only [call, htext 0 (by decide), htext 1 (by decide), htext 2 (by decide)]
  | last | position | count | concat | boolean | not | true | false | sum | floor | ceiling
  | round => rfl

/-- A call of another function than `position` and `last` gives the same at all positions. -/
lemma call_of_not_readsPosition {f : Function} {vs : List Value} (hposition : f ≠ .position)
    (hlast : f ≠ .last) (i : NodeId) (p q m n : Nat) :
    call d f vs ⟨i, p, m⟩ = call d f vs ⟨i, q, n⟩ := by
  cases f with
  | position => exact absurd rfl hposition
  | last => exact absurd rfl hlast
  | _ => rfl

/-- A call does not tell apart foci that differ in nothing that it reads. -/
lemma call_congr {f g : Focus} {function : Function} {es : List (Expr resolved)} {vs : List Value}
    (hlength : vs.length = es.length) (h : (Expr.call function es).SeesAlike f g) :
    call d function vs f = call d function vs g := by
  obtain ⟨i, p, m⟩ := f
  obtain ⟨j, q, n⟩ := g
  have hnode : call d function vs ⟨i, p, m⟩ = call d function vs ⟨j, p, m⟩ := by
    rcases h.1 with rfl | ⟨hfits, hreads⟩
    · rfl
    · refine call_of_not_readsNode (hlength ▸ hfits) ?_ ?_ _ _ _ _
      · rintro rfl
        exact hreads trivial
      · rintro rfl hdefault
        obtain rfl := List.length_eq_zero_iff.1 hlength.symm
        refine hreads ?_
        cases function with
        | lang => trivial
        | _ => exact hdefault
  have hposition : call d function vs ⟨j, p, m⟩ = call d function vs ⟨j, q, n⟩ := by
    rcases h.2 with ⟨rfl, rfl⟩ | hreads
    · rfl
    · refine call_of_not_readsPosition ?_ ?_ _ _ _ _ _ <;> rintro rfl <;> exact hreads trivial
  rw [hnode, hposition]

/-! ## Expressions -/

/-- Arguments have the same values in two foci if each of them does. -/
lemma evaluateAll_congr {f g : Focus} {es : List (Expr resolved)}
    (h : ∀ e ∈ es, e.evaluate d f = e.evaluate d g) : evaluateAll d f es = evaluateAll d g es := by
  induction es with
  | nil => rw [evaluateAll, evaluateAll]
  | cons e es ih =>
    obtain ⟨he, hes⟩ := List.forall_mem_cons.1 h
    rw [evaluateAll, evaluateAll, he, ih hes]

/-- **Evaluation does not tell apart foci that differ in nothing that is read**, neither by its
value nor by its fault.

**Proof sketch.** Induction on the expression. Its own parts are evaluated in the two foci as well
and give the same by induction; predicates and steps are evaluated in foci that do not depend on
them. -/
lemma evaluate_congr {f g : Focus} : ∀ e : Expr resolved,
    (∀ part, e.Shares part → part.SeesAlike f g) → e.evaluate d f = e.evaluate d g := by
  refine Expr.induction fun e ih h => ?_
  have hself : e.SeesAlike f g := h e .refl
  have hparts : ∀ part ∈ e.ownParts, part.evaluate d f = part.evaluate d g := fun part hpart =>
    Expr.inside_iff.1 ih part (Expr.mem_parts_of_mem_ownParts hpart) fun inner hinner =>
      h inner (.head hpart hinner)
  cases e with
  | literal | number => rw [Expr.evaluate, Expr.evaluate]
  | reference name => cases name
  | call function es =>
    have harguments : evaluateAll d f es = evaluateAll d g es := evaluateAll_congr hparts
    rw [Expr.evaluate, Expr.evaluate, harguments]
    refine bind_congr_of_ok fun vs hvs => call_congr ?_ hself
    simpa using congrArg List.length (evaluateAll_kinds hvs)
  | binary op l r =>
    have hl := hparts l (by simp [Expr.ownParts])
    have hr := hparts r (by simp [Expr.ownParts])
    cases op <;> simp only [Expr.evaluate, hl, hr]
  | negate e => rw [Expr.evaluate, Expr.evaluate, hparts e (by simp [Expr.ownParts])]
  | union l r =>
    rw [Expr.evaluate, Expr.evaluate, hparts l (by simp [Expr.ownParts]),
      hparts r (by simp [Expr.ownParts])]
  | filter e ps => rw [Expr.evaluate, Expr.evaluate, hparts e (by simp [Expr.ownParts])]
  | path start ss =>
    have hstart : start.evaluate d f = start.evaluate d g := by
      cases start with
      | root => rw [Start.evaluate, Start.evaluate]
      | context =>
        have hnode : f.node = g.node := hself.1.resolve_right fun hreads => hreads.2 trivial
        rw [Start.evaluate, Start.evaluate, hnode]
      | expr e =>
        rw [Start.evaluate, Start.evaluate, hparts e (by simp [Expr.ownParts, Start.parts])]
    rw [Expr.evaluate, Expr.evaluate, hstart]

/-- **Evaluation depends on the focus through its free uses only.** Take an expression inside a
compiled one that calls `position()` and `last()` inside predicates only. Its value or fault is the
same in any two foci with the same node. If also no path from the context node, no `lang` and no
call that falls back to the context node stands outside predicates, it is the same in any two foci.

**Proof sketch.** Both parts are cases of one induction: evaluation does not tell apart foci that
differ in nothing that is read outside of predicates (`evaluate_congr`). A function does not fall
back to the context node if it has its arguments, and it has them, since all calls in a compiled
expression fit (`compile_callFits`). -/
theorem evaluate_independent {c : StaticContext} {source : String} {q : Compiled}
    (hq : compile c source = .ok q) {e : Expr resolved} (he : q.root.Contains e)
    (hposition : ∀ part, e.Shares part → ¬part.ReadsPosition) (d : Document) (f g : Focus) :
    (f.node = g.node → e.evaluate d f = e.evaluate d g) ∧
      ((∀ part, e.Shares part → ¬part.ReadsNode) → e.evaluate d f = e.evaluate d g) := by
  refine ⟨fun hnode => ?_, fun hreads => ?_⟩
  · exact evaluate_congr e fun part hpart => ⟨.inl hnode, .inr (hposition part hpart)⟩
  · refine evaluate_congr e fun part hpart =>
      ⟨.inr ⟨?_, hreads part hpart⟩, .inr (hposition part hpart)⟩
    exact (compile_callFits hq).of_contains (he.trans hpart.contains)

/-- An expression that reads the context node, in front of a path from the root with `last()` in a
predicate: the whole depends on the node only, and the path on nothing. -/
theorem evaluate_independent_nested_last : ∃ q : Compiled, ∃ path : Expr resolved,
    compile .initial "concat(name(),/r/a[last()])" = .ok q ∧ q.root.Contains path ∧
      path = .path .root [.mk .child (.named (ExpandedName.mk none "r")) [],
        .mk .child (.named (ExpandedName.mk none "a")) [.call Function.last []]] ∧
      ∀ (d : Document) (f g : Focus),
        (f.node = g.node → q.root.evaluate d f = q.root.evaluate d g) ∧
          path.evaluate d f = path.evaluate d g := by
  let path : Expr resolved := .path .root [.mk .child (.named (ExpandedName.mk none "r")) [],
    .mk .child (.named (ExpandedName.mk none "a")) [.call Function.last []]]
  have htokens : tokens? "concat(name(),/r/a[last()])".toList = some [.name ⟨none, "concat"⟩,
      .symbol .openParen, .name ⟨none, "name"⟩, .symbol .openParen, .symbol .closeParen,
      .symbol .comma, .symbol .slash, .name ⟨none, "r"⟩, .symbol .slash, .name ⟨none, "a"⟩,
      .symbol .openBracket, .name ⟨none, "last"⟩, .symbol .openParen, .symbol .closeParen,
      .symbol .closeBracket, .symbol .closeParen] := by
    decide +kernel
  have hq : compile .initial "concat(name(),/r/a[last()])" = .ok ⟨.call .concat
      [.call .name [], path], .initial, "concat(name(),/r/a[last()])"⟩ := by
    rw [compile, parse?, htokens]
    rfl
  have hpath : ∀ part, path.Shares part → ¬part.ReadsPosition ∧ ¬part.ReadsNode := by
    rw [Expr.forall_shares_iff]
    simp [path, Expr.ownParts, Start.parts, Expr.ReadsPosition, Expr.ReadsNode]
  have hname : ∀ part, (Expr.call Function.name []).Shares part → ¬part.ReadsPosition := by
    rw [Expr.forall_shares_iff]
    simp [Expr.ownParts, Expr.ReadsPosition]
  have hwhole : ∀ part, (Expr.call Function.concat [.call Function.name [], path]).Shares part →
      ¬part.ReadsPosition := by
    rw [Expr.forall_shares_iff]
    simp only [Expr.ownParts, List.forall_mem_cons]
    exact ⟨not_false, hname, fun part hpart => (hpath part hpart).1, by simp⟩
  refine ⟨_, path, hq, .single (by simp [Expr.parts]), rfl, fun d f g => ⟨?_, ?_⟩⟩
  · exact (evaluate_independent hq .refl hwhole d f g).1
  · exact (evaluate_independent hq (.single (by simp [Expr.parts]))
      (fun part hpart => (hpath part hpart).1) d f g).2 fun part hpart => (hpath part hpart).2

end XmlHarvest.Query
