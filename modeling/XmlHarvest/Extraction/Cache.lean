import XmlHarvest.Extraction.Error
import XmlHarvest.Query.Resolution

/-!
# The query cache

Expressions are compiled once. The cache keeps compiled expressions by their text, together with
the static context that all of them were compiled in, so another default namespace empties it.
Every entry carries a stamp of its own: two requests were answered by the same entry if and only
if the stamps are equal.

Work with a cache is a computation that may fail and that leaves the cache behind in either case.

## Main definitions

* `Extraction.Cache`: compiled expressions and their static context.
* `Extraction.Run`: computations that use a cache.
* `Extraction.compile`: the entry of an expression.
* `Extraction.Cache.setDefaultSpace`: another default namespace.
-/

namespace XmlHarvest.Extraction

/-- A compiled expression in a cache. -/
structure Entry where
  query : Query.Compiled
  /-- The number of entries that were made before this one. -/
  stamp : Nat

/-- Compiled expressions by their text. -/
structure Cache where
  context : Query.StaticContext
  entries : OrderedMap String Entry
  /-- The number of entries that were ever made. -/
  made : Nat

namespace Cache

/-- The empty cache for a static context. -/
def new (context : Query.StaticContext) : Cache :=
  ⟨context, .empty, 0⟩

/-- The number of entries. -/
def size (c : Cache) : Nat :=
  c.entries.size

/-- Whether there are no entries. -/
def isEmpty (c : Cache) : Bool :=
  c.entries.isEmpty

/-- The cache with an entry for an expression that has none yet. -/
def add (c : Cache) (expression : String) (query : Query.Compiled) : Entry × Cache :=
  let entry : Entry := ⟨query, c.made⟩
  (entry, ⟨c.context, c.entries.insertNew expression entry, c.made + 1⟩)

/-- The cache with another default namespace. The entries stay only if the namespace is the one
that is set already; the empty string stands for none. -/
def setDefaultSpace (c : Cache) (space : Option String) : Cache :=
  if c.context.defaultSpace = Query.StaticContext.nonempty space then c
  else ⟨c.context.withDefault space, .empty, c.made⟩

end Cache

/-- Computations that use a cache. What a failing computation has put into it stays there. -/
abbrev Run (α : Type) := ExceptT Error (StateM Cache) α

/-- The entry of an expression, which is compiled now if there is none. -/
def compile (expression : String) : Run Entry := do
  let c ← getThe Cache
  match c.entries.get? expression with
  | some entry => return entry
  | none =>
    match Query.compile c.context expression with
    | .error cause => throw (.invalidExpression expression cause)
    | .ok query =>
      let (entry, c) := c.add expression query
      set c
      return entry

end XmlHarvest.Extraction
