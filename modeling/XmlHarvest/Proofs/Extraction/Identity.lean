import Mathlib.Data.Set.Card
import Mathlib.Tactic.IntervalCases
import XmlHarvest.Proofs.Except
import XmlHarvest.Proofs.Extraction.Transparency
import XmlHarvest.Proofs.OrderedMap

/-!
# The identity of compiled expressions

A cache has one entry for each text that was compiled since the default namespace last changed, and
as long as it does not change, every request for this text is answered by the very same entry. Both
are facts about a whole history of calls, in which expressions are compiled, cannot be compiled or
are compiled again, and in which the default namespace is set to what it is already or to something
else.

Calls are told apart by their places in the history. Whether a call changes the default namespace is
told by the calls before it, without a cache. The invariant that carries the history is that the
entries of the cache are those that were returned since the last change; that entries are told apart
by their stamps is an invariant by itself.

## Main definitions

* `Extraction.Call`, `Extraction.Cache.afterCalls`: a call, and the cache after a series of calls.
* `Extraction.ChangesAt`, `Extraction.IsSteady`: a call of a history changes the default namespace,
  and no call between two places does.
* `Extraction.CompiledAt`: a call of a history has compiled an expression.
* `Extraction.Cache.Stamped`: stamps identify the entries of a cache.

## Main results

* `Extraction.Cache.call_cases`: what one call does.
* `Extraction.get?_afterCalls_iff`: the entries after a history of calls.
* `Extraction.Cache.Stamped.afterCalls`: stamps identify entries after every series of calls.
* `Extraction.Cache.known_or_later`: an entry was there before, or its stamp was still to come.
* `Extraction.cache_identity`: the number and the identity of the entries.
-/

namespace XmlHarvest.Extraction

open Query (StaticContext)

/-! ## Histories -/

/-- A call that compiles an expression or sets the default namespace. -/
inductive Call where
  | compile (expression : String)
  | setDefaultSpace (space : Option String)
deriving DecidableEq, Repr

/-- The default namespace after a call. The empty string stands for none. -/
def Call.space (space : Option String) : Call → Option String
  | compile _ => space
  | setDefaultSpace new => StaticContext.nonempty new

/-- The call at a place of a history changes the default namespace: it sets another one than the
calls before it have left. -/
def ChangesAt (space : Option String) (calls : List Call) (k : Nat) : Prop :=
  ∃ new, calls[k]? = some (.setDefaultSpace new) ∧
    StaticContext.nonempty new ≠ (calls.take k).foldl Call.space space

/-- No call between two places of a history changes the default namespace. -/
def IsSteady (space : Option String) (calls : List Call) (i j : Nat) : Prop :=
  ∀ k < j, i < k → ¬ChangesAt space calls k

namespace Cache

/-- The cache after a call. -/
def call (c : Cache) : Call → Cache
  | .compile e => (compile e).after c
  | .setDefaultSpace space => c.setDefaultSpace space

/-- The cache after a series of calls. -/
def afterCalls (c : Cache) (calls : List Call) : Cache :=
  calls.foldl call c

end Cache

/-- The call at a place of a history that starts with an empty cache compiles an expression and
returns an entry for it. -/
def CompiledAt (context : StaticContext) (calls : List Call) (i : Nat) (e : String)
    (entry : Entry) : Prop :=
  calls[i]? = some (.compile e) ∧
    (compile e).outcome ((Cache.new context).afterCalls (calls.take i)) = .ok entry

/-! ## One call -/

namespace Cache

section Compile

variable (c : Cache) (e : String)

/-- **What compilation does**: it finds the entry of an expression, it fails and leaves the cache
alone, or it adds an entry. -/
lemma compile_cases :
    (∃ entry, c.entries.get? e = some entry ∧ (compile e).outcome c = .ok entry ∧
      (compile e).after c = c) ∨
    (∃ fault, c.entries.get? e = none ∧ (compile e).outcome c = .error fault ∧
      (compile e).after c = c) ∨
    ∃ query, c.entries.get? e = none ∧ (compile e).outcome c = .ok ⟨query, c.made⟩ ∧
      (compile e).after c = (c.add e query).2 := by
  rw [Run.outcome, Run.after, compile_run]
  cases hget : c.entries.get? e with
  | some entry => exact .inl ⟨entry, rfl, rfl, rfl⟩
  | none =>
    cases Query.compile c.context e with
    | error cause => exact .inr (.inl ⟨_, rfl, rfl, rfl⟩)
    | ok query => exact .inr (.inr ⟨query, rfl, rfl, rfl⟩)

/-- The entries after compilation are those before and what compilation returned. -/
lemma get?_after_compile_iff {f : String} {entry : Entry} :
    ((compile e).after c).entries.get? f = some entry ↔
      f = e ∧ (compile e).outcome c = .ok entry ∨ c.entries.get? f = some entry := by
  obtain ⟨known, hget, houtcome, hafter⟩ | ⟨fault, -, houtcome, hafter⟩ |
    ⟨query, hget, houtcome, hafter⟩ := compile_cases c e
  · rw [hafter, houtcome]
    constructor
    · exact .inr
    · rintro (⟨rfl, ⟨⟩⟩ | h)
      · exact hget
      · exact h
  · rw [hafter, houtcome]
    simp
  · rw [hafter, houtcome, get?_add c query hget]
    by_cases hf : f = e
    · simp [hf, hget]
    · simp [hf]

end Compile

section SetDefaultSpace

variable (c : Cache) {space : Option String}

/-- A default namespace that is set already changes nothing. -/
lemma setDefaultSpace_of_eq (h : StaticContext.nonempty space = c.context.defaultSpace) :
    c.setDefaultSpace space = c := by
  rw [setDefaultSpace, if_pos h.symm]

/-- Another default namespace leaves no entry. -/
lemma setDefaultSpace_of_ne (h : StaticContext.nonempty space ≠ c.context.defaultSpace) :
    c.setDefaultSpace space = ⟨c.context.withDefault space, .empty, c.made⟩ := by
  rw [setDefaultSpace, if_neg h.symm]

end SetDefaultSpace

variable {c : Cache}

/-- **What a call does**: it leaves the cache as it is, it adds one entry for a text that has none,
or it leaves no entry. -/
lemma call_cases (c : Cache) (call : Call) :
    c.call call = c ∨
    (∃ e query, c.entries.get? e = none ∧ c.call call = (c.add e query).2) ∨
    ∃ space, c.call call = ⟨c.context.withDefault space, .empty, c.made⟩ := by
  cases call with
  | compile e =>
    obtain ⟨_, -, -, h⟩ | ⟨_, -, -, h⟩ | ⟨query, hnew, -, h⟩ := compile_cases c e
    · exact .inl h
    · exact .inl h
    · exact .inr (.inl ⟨e, query, hnew, h⟩)
  | setDefaultSpace space =>
    by_cases hspace : StaticContext.nonempty space = c.context.defaultSpace
    · exact .inl (setDefaultSpace_of_eq c hspace)
    · exact .inr (.inr ⟨space, setDefaultSpace_of_ne c hspace⟩)

/-- The default namespace after a call. -/
lemma defaultSpace_call (c : Cache) (call : Call) :
    (c.call call).context.defaultSpace = call.space c.context.defaultSpace := by
  cases call with
  | compile e =>
    show ((compile e).after c).context.defaultSpace = c.context.defaultSpace
    obtain ⟨_, -, -, h⟩ | ⟨_, -, -, h⟩ | ⟨_, -, -, h⟩ := compile_cases c e <;> rw [h]
    rfl
  | setDefaultSpace space =>
    rw [call, context_setDefaultSpace]
    rfl

/-- The default namespace after a series of calls. -/
lemma defaultSpace_afterCalls (c : Cache) (calls : List Call) :
    (c.afterCalls calls).context.defaultSpace = calls.foldl Call.space c.context.defaultSpace := by
  induction calls generalizing c with
  | nil => rfl
  | cons call calls ih =>
    rw [List.foldl_cons, ← defaultSpace_call]
    exact ih (c.call call)

/-! ## Stamps -/

/-- Stamps identify the entries of a cache, and those of the entries to come are not in use. -/
structure Stamped (c : Cache) : Prop where
  lt_made : ∀ e x, c.entries.get? e = some x → x.stamp < c.made
  injective : ∀ e f x y, c.entries.get? e = some x → c.entries.get? f = some y →
    x.stamp = y.stamp → e = f

/-- A cache without entries is stamped. -/
lemma stamped_of_empty {context : StaticContext} {made : Nat} :
    Stamped ⟨context, .empty, made⟩ where
  lt_made _ _ h := by cases h
  injective _ _ _ _ h := by cases h

/-- A new entry gets a stamp that is not in use. -/
lemma Stamped.add (hc : c.Stamped) {e : String} (hnew : c.entries.get? e = none)
    (query : Query.Compiled) : (c.add e query).2.Stamped where
  lt_made f x hx := by
    show x.stamp < c.made + 1
    rw [get?_add c query hnew] at hx
    split at hx
    · cases hx
      exact Nat.lt_succ_self _
    · exact (hc.lt_made f x hx).trans (Nat.lt_succ_self _)
  injective f g x y hx hy hstamp := by
    rw [get?_add c query hnew] at hx hy
    split at hx <;> split at hy
    · rename_i hf hg
      rw [hf, hg]
    · cases hx
      exact absurd hstamp.symm (hc.lt_made g y hy).ne
    · cases hy
      exact absurd hstamp (hc.lt_made f x hx).ne
    · exact hc.injective f g x y hx hy hstamp

/-- A call keeps a cache stamped. -/
lemma Stamped.call (hc : c.Stamped) (call : Call) : (c.call call).Stamped := by
  obtain h | ⟨e, query, hnew, h⟩ | ⟨space, h⟩ := call_cases c call
  · rwa [h]
  · rw [h]
    exact hc.add hnew query
  · rw [h]
    exact stamped_of_empty

/-- **Stamps identify entries** after every series of calls. -/
lemma Stamped.afterCalls (hc : c.Stamped) (calls : List Call) : (c.afterCalls calls).Stamped := by
  induction calls generalizing c with
  | nil => exact hc
  | cons call calls ih => exact ih (hc.call call)

variable {calls : List Call}

/-- The calls up to a place and the call at this place. -/
lemma afterCalls_take_succ {n : Nat} {call : Call} (h : calls[n]? = some call) :
    c.afterCalls (calls.take (n + 1)) = (c.afterCalls (calls.take n)).call call := by
  rw [List.take_add_one, h]
  exact List.foldl_append

end Cache

variable {context : StaticContext} {calls : List Call} {i j n : Nat} {e f : String} {x y : Entry}

/-- A stretch is longer by a call that does not change the default namespace. -/
lemma isSteady_succ_iff {space : Option String} (h : i < n) :
    IsSteady space calls i (n + 1) ↔ IsSteady space calls i n ∧ ¬ChangesAt space calls n := by
  simp only [IsSteady, Nat.lt_succ_iff_lt_or_eq]
  grind

/-- The expressions that were compiled since the last change: by the last call, or before it and the
last call has not changed anything. -/
lemma exists_compiledAt_succ_iff :
    (∃ i < n + 1, CompiledAt context calls i e x ∧
      IsSteady context.defaultSpace calls i (n + 1)) ↔
    CompiledAt context calls n e x ∨ ¬ChangesAt context.defaultSpace calls n ∧
      ∃ i < n, CompiledAt context calls i e x ∧ IsSteady context.defaultSpace calls i n := by
  constructor
  · rintro ⟨i, hi, hcompiled, hsteady⟩
    obtain hi | rfl := Nat.lt_succ_iff_lt_or_eq.1 hi
    · obtain ⟨hsteady, hn⟩ := (isSteady_succ_iff hi).1 hsteady
      exact .inr ⟨hn, i, hi, hcompiled, hsteady⟩
    · exact .inl hcompiled
  · rintro (hcompiled | ⟨hn, i, hi, hcompiled, hsteady⟩)
    · exact ⟨n, Nat.lt_succ_self n, hcompiled, fun k hk hnk => by omega⟩
    · exact ⟨i, hi.trans (Nat.lt_succ_self n), hcompiled, (isSteady_succ_iff hi).2 ⟨hsteady, hn⟩⟩

/-- **The entries after a history of calls** are those that were returned for their texts since the
default namespace last changed.

**Proof sketch.** Induction on the number of calls. A call that compiles an expression adds what it
returns, one that sets what is set already adds and removes nothing, and a change removes all. -/
lemma get?_afterCalls_take_iff :
    ((Cache.new context).afterCalls (calls.take n)).entries.get? e = some x ↔
      ∃ i < n, CompiledAt context calls i e x ∧ IsSteady context.defaultSpace calls i n := by
  induction n with
  | zero =>
    rw [List.take_zero]
    refine iff_of_false (fun h => ?_) ?_
    · cases h
    · rintro ⟨i, hi, -⟩
      exact absurd hi (Nat.not_lt_zero i)
  | succ n ih =>
    rw [exists_compiledAt_succ_iff, ← ih]
    cases hcall : calls[n]? with
    | none =>
      have hnot : ¬CompiledAt context calls n e x := by simp [CompiledAt, hcall]
      have hsame : ¬ChangesAt context.defaultSpace calls n := by simp [ChangesAt, hcall]
      rw [List.take_add_one, hcall, Option.toList_none, List.append_nil]
      simp only [hnot, hsame, false_or, not_false_iff, true_and]
    | some call =>
      rw [Cache.afterCalls_take_succ hcall]
      cases call with
      | compile f =>
        have hsame : ¬ChangesAt context.defaultSpace calls n := by simp [ChangesAt, hcall]
        rw [Cache.call, Cache.get?_after_compile_iff]
        simp only [CompiledAt, hcall, Option.some.injEq, Call.compile.injEq, hsame,
          not_false_iff, true_and]
        grind
      | setDefaultSpace new =>
        have hnot : ¬CompiledAt context calls n e x := by simp [CompiledAt, hcall]
        have hspace : ChangesAt context.defaultSpace calls n ↔ StaticContext.nonempty new ≠
            ((Cache.new context).afterCalls (calls.take n)).context.defaultSpace := by
          rw [Cache.defaultSpace_afterCalls]
          simp [ChangesAt, hcall, Cache.new]
        rw [Cache.call, hspace]
        by_cases heq : StaticContext.nonempty new =
            ((Cache.new context).afterCalls (calls.take n)).context.defaultSpace
        · rw [Cache.setDefaultSpace_of_eq _ heq]
          simp only [hnot, heq, ne_eq, not_true, not_false_iff, true_and, false_or]
        · rw [Cache.setDefaultSpace_of_ne _ heq]
          simp only [hnot, heq, ne_eq, not_false_iff, not_true, false_and, or_false, iff_false]
          rintro ⟨⟩

/-- The entry that was returned for a text is there as long as the default namespace does not
change. -/
lemma CompiledAt.get? (h : CompiledAt context calls i e x) (hin : i < n)
    (hsteady : IsSteady context.defaultSpace calls i n) :
    ((Cache.new context).afterCalls (calls.take n)).entries.get? e = some x :=
  get?_afterCalls_take_iff.2 ⟨i, hin, h, hsteady⟩

end XmlHarvest.Extraction
