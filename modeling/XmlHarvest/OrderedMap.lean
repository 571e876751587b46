/-!
# Ordered maps

Maps that remember the order in which their keys first appeared. Writing to a key that is already
there changes its value in place, so the order of the keys tells the order of first appearance.

## Main definitions

* `OrderedMap κ ν`: a list of entries without a repeated key.
* `OrderedMap.get?`: the value at a key.
* `OrderedMap.alter`: set the value at a key from the value it had.
* `OrderedMap.insert`, `OrderedMap.insertNew`, `OrderedMap.push`: replace the value, keep an
  earlier value, or add to a list of values.
* `OrderedMap.filterMap`: change or drop the values, keeping the order of the keys.
* `OrderedMap.sortKeys`: give up the order of first appearance for an order of the keys.
-/

namespace XmlHarvest

/-- A map that lists its keys in order of first appearance. -/
structure OrderedMap (κ ν : Type) where
  entries : List (κ × ν)
  nodup : (entries.map Prod.fst).Nodup

namespace OrderedMap

variable {κ ν μ : Type}

/-! ## Views -/

/-- The keys, in order of first appearance. -/
def keys (m : OrderedMap κ ν) : List κ :=
  m.entries.map Prod.fst

/-- The values, in the order of their keys. -/
def values (m : OrderedMap κ ν) : List ν :=
  m.entries.map Prod.snd

/-- The number of keys. -/
def size (m : OrderedMap κ ν) : Nat :=
  m.entries.length

/-- Whether there is no key. -/
def isEmpty (m : OrderedMap κ ν) : Bool :=
  m.entries.isEmpty

/-- The map without a key. -/
def empty : OrderedMap κ ν :=
  ⟨[], List.nodup_nil⟩

instance : Inhabited (OrderedMap κ ν) := ⟨empty⟩

/-! ## Access by key -/

variable [DecidableEq κ]

/-- The value at a key. -/
def get? (m : OrderedMap κ ν) (k : κ) : Option ν :=
  m.entries.lookup k

/-- Whether a key is present. -/
def contains (m : OrderedMap κ ν) (k : κ) : Bool :=
  (m.get? k).isSome

/-- A list of entries in which the value at `k` is what `f` makes of the earlier one. A new key
comes last. -/
def alterEntries (k : κ) (f : Option ν → ν) : List (κ × ν) → List (κ × ν)
  | [] => [(k, f none)]
  | (a, v) :: r => if a = k then (a, f (some v)) :: r else (a, v) :: alterEntries k f r

theorem keys_alterEntries (k : κ) (f : Option ν → ν) (l : List (κ × ν)) :
    (alterEntries k f l).map Prod.fst =
      if k ∈ l.map Prod.fst then l.map Prod.fst else l.map Prod.fst ++ [k] := by
  induction l with
  | nil => rfl
  | cons e r ih =>
    obtain ⟨a, v⟩ := e
    by_cases h : a = k
    · simp [alterEntries, h]
    · have hk : k ≠ a := fun hka => h hka.symm
      by_cases hr : k ∈ r.map Prod.fst
      · rw [if_pos hr] at ih
        simp [alterEntries, h, ih, hr]
      · rw [if_neg hr] at ih
        simp only [List.mem_map, Prod.exists, exists_and_right, exists_eq_right] at hr
        simp [alterEntries, h, ih, hr, hk]

theorem nodup_alterEntries (k : κ) (f : Option ν → ν) (l : List (κ × ν))
    (h : (l.map Prod.fst).Nodup) : ((alterEntries k f l).map Prod.fst).Nodup := by
  rw [keys_alterEntries]
  split
  · exact h
  · rename_i hk
    rw [List.nodup_append]
    refine ⟨h, by simp, fun a ha b hb => ?_⟩
    simp only [List.mem_singleton] at hb
    subst hb
    exact fun hab => hk (hab ▸ ha)

/-- The map with the value at `k` set to what `f` makes of the earlier one. -/
def alter (m : OrderedMap κ ν) (k : κ) (f : Option ν → ν) : OrderedMap κ ν :=
  ⟨alterEntries k f m.entries, nodup_alterEntries k f m.entries m.nodup⟩

@[simp] theorem keys_alter (m : OrderedMap κ ν) (k : κ) (f : Option ν → ν) :
    (m.alter k f).keys = if k ∈ m.keys then m.keys else m.keys ++ [k] :=
  keys_alterEntries k f m.entries

theorem lookup_alterEntries (k a : κ) (f : Option ν → ν) (l : List (κ × ν)) :
    (alterEntries k f l).lookup a = if a = k then some (f (l.lookup k)) else l.lookup a := by
  induction l with
  | nil =>
    by_cases h : a = k
    · simp [alterEntries, h]
    · simp [alterEntries, List.lookup_cons, h, beq_false_of_ne h]
  | cons e r ih =>
    obtain ⟨b, v⟩ := e
    by_cases hb : b = k
    · subst hb
      by_cases h : a = b
      · simp [alterEntries, h]
      · simp [alterEntries, List.lookup_cons, h, beq_false_of_ne h]
    · have hk : k ≠ b := fun hkb => hb hkb.symm
      by_cases h : a = b
      · simp [alterEntries, hb, h]
      · simp [alterEntries, hb, List.lookup_cons, beq_false_of_ne h, beq_false_of_ne hk, ih]

/-- Writing to a key is seen at that key and nowhere else. -/
@[simp] theorem get?_alter (m : OrderedMap κ ν) (k a : κ) (f : Option ν → ν) :
    (m.alter k f).get? a = if a = k then some (f (m.get? k)) else m.get? a :=
  lookup_alterEntries k a f m.entries

/-- The map with the value `v` at `k`; an earlier value is replaced in its place. -/
def insert (m : OrderedMap κ ν) (k : κ) (v : ν) : OrderedMap κ ν :=
  m.alter k fun _ => v

/-- The map with the value `v` at `k`, unless there is a value already. -/
def insertNew (m : OrderedMap κ ν) (k : κ) (v : ν) : OrderedMap κ ν :=
  m.alter k fun old => old.getD v

/-- The map with `v` added behind the values listed at `k`. -/
def push (m : OrderedMap κ (List ν)) (k : κ) (v : ν) : OrderedMap κ (List ν) :=
  m.alter k fun old => old.getD [] ++ [v]

/-- The map that the entries of a list give one after the other, the last value at a key being
kept. -/
def ofList (l : List (κ × ν)) : OrderedMap κ ν :=
  l.foldl (fun m (k, v) => m.insert k v) empty

/-- The map that keeps of each key its first value. -/
def firsts (l : List (κ × ν)) : OrderedMap κ ν :=
  l.foldl (fun m (k, v) => m.insertNew k v) empty

/-- The map from each key to the list of all its values, in order. -/
def group (l : List (κ × ν)) : OrderedMap κ (List ν) :=
  l.foldl (fun m (k, v) => m.push k v) empty

omit [DecidableEq κ] in
theorem keys_filterMap_sublist (f : ν → Option μ) (l : List (κ × ν)) :
    ((l.filterMap fun (k, v) => (f v).map fun w => (k, w)).map Prod.fst).Sublist
      (l.map Prod.fst) := by
  induction l with
  | nil => exact .slnil
  | cons e r ih =>
    obtain ⟨k, v⟩ := e
    cases hf : f v with
    | none => simpa [List.filterMap_cons, hf] using ih.cons k
    | some w => simpa [List.filterMap_cons, hf] using ih.cons_cons k

omit [DecidableEq κ] in
/-- The map with `f` applied to its values; keys whose value `f` drops are left out. -/
def filterMap (m : OrderedMap κ ν) (f : ν → Option μ) : OrderedMap κ μ :=
  ⟨m.entries.filterMap fun (k, v) => (f v).map fun w => (k, w),
    (keys_filterMap_sublist f m.entries).nodup m.nodup⟩

omit [DecidableEq κ] in
/-- The map with its entries in the order of their keys. -/
def sortKeys (m : OrderedMap κ ν) (le : κ → κ → Bool) : OrderedMap κ ν :=
  ⟨m.entries.mergeSort fun a b => le a.1 b.1,
    ((List.mergeSort_perm m.entries _).map Prod.fst).nodup_iff.2 m.nodup⟩

end OrderedMap

end XmlHarvest
