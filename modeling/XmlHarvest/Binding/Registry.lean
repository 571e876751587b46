import XmlHarvest.Binding.Basic

/-!
# Registries

The bindings of a whole record, in order of registration. A field is registered once, so its name
tells its binding.

## Main definitions

* `Registry`: bindings of different fields.
* `Registry.build`: the registry of a list of bindings.
* `Registry.get?`: the binding of a field.
* `Registry.resolve`, `Registry.resolveAll`: the value of one field, and of all.
-/

namespace XmlHarvest

open Extraction (Reader Run)

/-- Bindings of different fields, in order of registration. -/
structure Registry where
  bindings : List Binding
  nodup : (bindings.map Binding.field).Nodup

namespace Registry

/-! ## Building -/

/-- The registry without a binding. -/
def empty : Registry :=
  ⟨[], List.nodup_nil⟩

instance : Inhabited Registry := ⟨empty⟩

/-- The names of the fields, in order of registration. -/
def fields (registry : Registry) : List String :=
  registry.bindings.map Binding.field

/-- The registry with the binding of one more field behind the others. -/
def add (registry : Registry) (b : Binding) (h : b.field ∉ registry.fields) : Registry :=
  ⟨registry.bindings ++ [b], by
    rw [List.map_append, List.nodup_append]
    refine ⟨registry.nodup, by simp, fun x hx y hy => ?_⟩
    simp only [List.map_cons, List.map_nil, List.mem_singleton] at hy
    exact fun hxy => h (hy ▸ hxy ▸ hx)⟩

/-- The registry with a list of bindings behind the others. The first field that is registered
already is refused. -/
def register (registry : Registry) : List Binding → Except Binding.Error Registry
  | [] => .ok registry
  | b :: bs =>
    if h : b.field ∈ registry.fields then .error (.duplicateField b.field)
    else (registry.add b h).register bs

/-- The registry of a list of bindings. -/
def build (bs : List Binding) : Except Binding.Error Registry :=
  empty.register bs

/-! ## Access -/

/-- The number of fields. -/
def size (registry : Registry) : Nat :=
  registry.bindings.length

/-- Whether there are no fields. -/
def isEmpty (registry : Registry) : Bool :=
  registry.bindings.isEmpty

/-- The binding of a field. -/
def get? (registry : Registry) (field : String) : Option Binding :=
  registry.bindings.find? fun b => b.field = field

/-! ## Resolution -/

/-- The value of a field. -/
def resolve (registry : Registry) (field : String) (r : Reader) : Run FieldValue :=
  match registry.get? field with
  | some b => b.resolve r
  | none => throw (.binding (.unknownField field))

/-- The values of all fields, in order of registration. -/
def resolveAll (registry : Registry) (r : Reader) : Run (OrderedMap String FieldValue) := do
  let entries ← registry.bindings.mapM fun b => do
    let value ← b.resolve r
    return (b.field, value)
  return .ofList entries

end Registry

/-- Values by field as JSON text. -/
def fieldsToJson (values : OrderedMap String FieldValue) : String :=
  Json.object (values.entries.map fun (field, v) => (field, v.toJson))

end XmlHarvest
