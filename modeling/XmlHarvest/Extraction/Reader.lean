import XmlHarvest.Extraction.View
import XmlHarvest.Template.Basic

/-!
# Readers

A reader takes values from a document by lists of expressions. The expressions of a list are
alternatives: they are tried in order, and the first one that selects a node supplies the values.
With root paths every alternative stands for as many expressions as there are root paths, and all
of these supply values together.

## Main definitions

* `Extraction.Reader`: a view, root paths and the way in which languages are found.
* `Extraction.Reader.expand`: the expressions that a list stands for.
* `Extraction.Reader.select`: the nodes of all expressions of a list, with their keys.
* `Extraction.Reader.firstMatch`: the nodes of the first alternative that selects any.
* `Extraction.Reader.localized`: the values of a list by locale; `single`, `multi`,
  `firstPerLocale` are views of it.
* `Extraction.Reader.keyed`: the values of a list by key.
* `Extraction.Reader.rendered`: the texts of a template.
-/

namespace XmlHarvest.Extraction

/-- A variable of a template, and the expressions that locate it. -/
structure Variable where
  name : String
  expressions : List String
deriving DecidableEq, Repr

/-- A view, the paths that expressions are put behind, and whether the language of a node may come
from further out than its own element. -/
structure Reader where
  view : View
  rootPaths : List String
  inheritLang : Bool

/-- A node that was found, with the first node that its key path selects. -/
structure Hit where
  key : Option NodeId
  node : NodeId
deriving DecidableEq, Repr

/-- A computation whose faults are reported as faults in resolving an expression. -/
def resolving {α : Type} (expression : String) (x : Run α) : Run α :=
  x.adapt (.resolution expression)

namespace Reader

variable (r : Reader)

/-! ## Nodes -/

/-- The expressions that a list stands for: every root path in order with every expression behind
it, or without root paths the list itself. -/
def expand (expressions : List String) : List String :=
  if r.rootPaths.isEmpty then expressions
  else r.rootPaths.flatMap fun root => expressions.map fun e => root ++ e

/-- A node that was found, with the first node that a key path selects from it. -/
def withKey (keyPath : Option String) (i : NodeId) : Run Hit :=
  match keyPath with
  | none => return ⟨none, i⟩
  | some path => do
    let keys ← resolving path (r.view.relative (r.view.locate i) path)
    return ⟨keys.head?, i⟩

/-- The nodes of an expression, with their keys. -/
def selectOne (keyPath : Option String) (expression : String) : Run (List Hit) := do
  let is ← resolving expression (r.view.nodes expression none)
  is.mapM (r.withKey keyPath)

/-- The nodes of all expressions that a list stands for, with their keys. A key path that does not
start from its context node is refused before anything is evaluated. -/
def select (keyPath : Option String) (expressions : List String) : Run (List Hit) := do
  match keyPath with
  | some path => resolving path (requireRelative path : Except Error Unit)
  | none => pure ()
  let hits ← (r.expand expressions).mapM (r.selectOne keyPath)
  return hits.flatten

/-- The nodes of the first alternative that selects any. -/
def firstMatch (keyPath : Option String) : List String → Run (List Hit)
  | [] => return []
  | e :: es => do
    let hits ← r.select keyPath [e]
    if hits.isEmpty then firstMatch keyPath es else return hits

/-! ## Values -/

/-- The string-value of a node without the blanks around it. -/
def valueOf (i : NodeId) : String :=
  Text.trim (r.view.document.stringValue i)

/-- The locale of a node. -/
def localeOf (i : NodeId) : Locale :=
  Locale.ofTag?
    (if r.inheritLang then r.view.document.inheritedLang? i else r.view.document.lang? i)

/-- The values of nodes by locale. -/
def byLocale (hits : List Hit) : ResolvedVariable :=
  OrderedMap.group (hits.map fun h => (r.localeOf h.node, r.valueOf h.node))

/-- The values of all expressions of a list, by locale. -/
def allLocalized (expressions : List String) : Run ResolvedVariable := do
  let hits ← r.select none expressions
  return r.byLocale hits

/-- The values of a list by locale. -/
def localized (expressions : List String) : Run ResolvedVariable := do
  let hits ← r.firstMatch none expressions
  return r.byLocale hits

/-- Every value of a list, locale by locale. -/
def multi (expressions : List String) : Run (List String) := do
  let values ← r.localized expressions
  return values.values.flatten

/-- The first value of the first locale. -/
def single (expressions : List String) : Run (Option String) := do
  let values ← r.localized expressions
  return values.values.flatten.head?

/-- The first value in each locale. -/
def firstPerLocale (expressions : List String) : Run (OrderedMap Locale String) := do
  let values ← r.localized expressions
  return values.filterMap List.head?

/-! ## Keys -/

/-- The nodes of a list that have a key, with the text of their key. -/
def keyed (expressions : List String) (keyPath : String) : Run (List (String × NodeId)) := do
  let hits ← r.firstMatch (some keyPath) expressions
  return hits.filterMap fun h => h.key.map fun k => (r.valueOf k, h.node)

/-- The first node of each key. -/
def keyedNodes (expressions : List String) (keyPath : String) : Run (OrderedMap String NodeId) := do
  return .firsts (← r.keyed expressions keyPath)

/-- The first value of each key. -/
def keyedValues (expressions : List String) (keyPath : String) :
    Run (OrderedMap String String) := do
  let pairs ← r.keyed expressions keyPath
  return .firsts (pairs.map fun (k, i) => (k, r.valueOf i))

/-- All values of each key. -/
def keyedLists (expressions : List String) (keyPath : String) :
    Run (OrderedMap String (List String)) := do
  let pairs ← r.keyed expressions keyPath
  return .group (pairs.map fun (k, i) => (k, r.valueOf i))

/-! ## Templates -/

/-- The values of variables, each found by itself. -/
def variableValues (vs : List Variable) : Run Variables := do
  let entries ← vs.mapM fun v => do
    let values ← r.localized v.expressions
    return (v.name, values)
  return .ofList entries

/-- The texts of a template by locale. A variable that the template names and the list lacks has no
value. -/
def rendered (t : Template) (vs : List Variable) : Run (OrderedMap Locale String) := do
  return t.render (← r.variableValues vs)

/-- The text of a template for the first locale. -/
def renderedFirst (t : Template) (vs : List Variable) : Run (Option String) := do
  let texts ← r.rendered t vs
  return texts.values.head?

end Reader

end XmlHarvest.Extraction
