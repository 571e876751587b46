import XmlHarvest.Binding.Registry
import XmlHarvest.Json.Reading

/-!
# Configuration

What an extraction is set up with: namespaces, root paths, the way in which languages are found, and
the declarations of bindings. A configuration is read from JSON text.

## Main definitions

* `Config`: the settings.
* `Config.ofJson`: the configuration that a text spells.
* `Config.staticContext`, `Config.cache`: the context in which expressions are compiled.
* `Config.registry`: the bindings that are declared.
-/

namespace XmlHarvest

open Extraction (Variable)

/-- The settings of an extraction. -/
structure Config where
  /-- The namespace of element names without a qualifier in expressions. -/
  defaultNamespace : Option String
  /-- Namespaces bound to qualifiers, in order of the qualifiers' code points. -/
  namespaces : OrderedMap String String
  /-- Paths that expressions are put behind. -/
  rootPaths : List String
  /-- Whether the language of a node may come from an element further out than its own. -/
  inheritLang : Bool
  bindings : List Binding.Declaration

namespace Config

/-- The configuration in which nothing is set. -/
def initial : Config :=
  ⟨none, .empty, [], false, []⟩

instance : Inhabited Config := ⟨initial⟩

/-! ## Reading -/

/-- The names of shapes in configurations. -/
def cardinalities : List (String × Cardinality) :=
  [("single", .single), ("list", .list), ("locale_map", .localeMap),
    ("locale_map_list", .localeMapList)]

/-- The fields of a binding declaration. -/
def declarationFields : Json.Fields Binding.Declaration where
  expected := "struct BindingDecl"
  names := ["field", "expressions", "template", "variables", "cardinality"]
  read name d :=
    match name with
    | "field" => do return { d with field := ← Json.string }
    | "expressions" => do return { d with expressions := ← Json.optional (Json.list Json.string) }
    | "template" => do return { d with template := ← Json.optional Json.string }
    | "variables" => do
      let lists := OrderedMap.ofList (← Json.entries (Json.list Json.string))
      return { d with vars := lists.entries.map fun (n, es) => ⟨n, es⟩ }
    | _ => do return { d with cardinality := ← Json.variant cardinalities }

/-- A binding declaration. Its field must be named. -/
def readDeclaration : Json.Reading Binding.Declaration :=
  Json.record declarationFields (some "field") ⟨"", none, none, [], .single⟩

/-- The fields of a configuration. -/
def configFields : Json.Fields Config where
  expected := "struct EngineConfig"
  names := ["default_namespace", "namespaces", "root_paths", "inherit_lang", "bindings"]
  read name c :=
    match name with
    | "default_namespace" => do
      return { c with defaultNamespace := ← Json.optional Json.string }
    | "namespaces" => do
      let spaces := OrderedMap.ofList (← Json.entries Json.string)
      return { c with namespaces := spaces.sortKeys fun a b => a ≤ b }
    | "root_paths" => do return { c with rootPaths := ← Json.list Json.string }
    | "inherit_lang" => do return { c with inheritLang := ← Json.bool }
    | _ => do return { c with bindings := ← Json.list readDeclaration }

/-- The configuration that a text spells. Settings that are left out stay unset. -/
def ofJson (text : String) : Except Json.Fault Config :=
  Json.parse (Json.record configFields none initial) text

/-- The wording of a fault in the data of a configuration. -/
def faultMessage (reason : String) : String :=
  "invalid engine configuration: " ++ reason

/-! ## Use -/

/-- The static context that the namespaces of a configuration make up. -/
def staticContext (c : Config) : Query.StaticContext :=
  c.namespaces.entries.foldl (fun context (q, space) => context.withSpace q space)
    (Query.StaticContext.initial.withDefault c.defaultNamespace)

/-- An empty cache for the static context of a configuration. -/
def cache (c : Config) : Extraction.Cache :=
  .new c.staticContext

/-- A reader with the settings of a configuration. -/
def reader (c : Config) (view : Extraction.View) : Extraction.Reader :=
  ⟨view, c.rootPaths, c.inheritLang⟩

/-- The bindings that a configuration declares. They are checked in order before they are
registered. -/
def registry (c : Config) : Except Extraction.Error Registry := do
  let bs ← c.bindings.mapM Binding.Declaration.build
  (Registry.build bs).mapError .binding

end Config

end XmlHarvest
