import Mathlib.Data.List.Nodup
import XmlHarvest.OrderedMap

/-!
# Ordered maps that are built from lists

An ordered map lists its keys without repetition, so a value is in it exactly if it is the value at
a key. What a map that was built from a list holds at a key is told by the entries of the list with
that key: the first or the last of them, or all of them in order.

## Main results

* `OrderedMap.mem_values_iff`: the values of a map are the values at its keys.
* `OrderedMap.get?_ofList`, `OrderedMap.entries_ofList`: the last value of each key.
* `OrderedMap.get?_group`, `OrderedMap.entries_group`: all values of each key.
* `OrderedMap.get?_firsts`, `OrderedMap.keys_firsts`: the first value of each key.
* `OrderedMap.flatten_values_group_perm`: grouping loses nothing.
* `nodup_eraseDups`: leaving out repetitions leaves no repetition.
-/

namespace XmlHarvest

/-- Leaving out repetitions leaves no repetition.

**Proof sketch.** Recursion on the list behind the first member, from which that member is taken
out. -/
lemma nodup_eraseDups {α : Type} [DecidableEq α] : ∀ as : List α, as.eraseDups.Nodup
  | [] => by simp
  | a :: as => by
    rw [List.eraseDups_cons, List.nodup_cons]
    exact ⟨by simp [List.mem_eraseDups], nodup_eraseDups _⟩
termination_by as => as.length
decreasing_by
  have hle := List.length_filter_le (fun b => !b == a) as
  rw [List.length_cons]
  omega

/-- A list without repetition has none to leave out. -/
lemma eraseDups_eq_self {α : Type} [DecidableEq α] {as : List α} (h : as.Nodup) :
    as.eraseDups = as := by
  induction as with
  | nil => rfl
  | cons a as ih =>
    obtain ⟨ha, has⟩ := List.nodup_cons.1 h
    have hne : ∀ b ∈ as, (!b == a) = true := by
      intro b hb
      rw [beq_false_of_ne (ne_of_mem_of_not_mem hb ha)]
      rfl
    have hfilter : (as.filter fun b => !b == a) = as := List.filter_eq_self.2 hne
    rw [List.eraseDups_cons, hfilter, ih has]

namespace OrderedMap

variable {κ ν : Type} [DecidableEq κ]

/-! ## Values -/

/-- In a list that repeats no key, a value is found at the key that it is listed with. -/
lemma lookup_eq_some_of_mem {l : List (κ × ν)} (hl : (l.map Prod.fst).Nodup) {k : κ} {v : ν}
    (h : (k, v) ∈ l) : l.lookup k = some v := by
  induction l with
  | nil => cases h
  | cons e l ih =>
    obtain ⟨a, w⟩ := e
    obtain ⟨ha, hl⟩ := List.nodup_cons.1 hl
    rw [List.lookup_cons]
    rcases List.mem_cons.1 h with heq | hmem
    · cases heq
      rw [beq_self_eq_true]
    · have hka : k ≠ a := by
        rintro rfl
        exact ha (List.mem_map.2 ⟨_, hmem, rfl⟩)
      rw [beq_false_of_ne hka]
      exact ih hl hmem

/-- What is listed under a key of its own for each member is found at the first member with that
key. -/
lemma lookup_map {α : Type} (key : α → κ) (f : α → ν) (as : List α) (k : κ) :
    (as.map fun a => (key a, f a)).lookup k = (as.find? fun a => key a = k).map f := by
  induction as with
  | nil => rfl
  | cons a as ih =>
    rw [List.map_cons, List.lookup_cons, List.find?_cons]
    by_cases h : k = key a
    · simp [h]
    · rw [beq_false_of_ne h, decide_eq_false (Ne.symm h)]
      exact ih

/-- The entries of a map are its keys with their values. -/
lemma mem_entries_iff {m : OrderedMap κ ν} {k : κ} {v : ν} :
    (k, v) ∈ m.entries ↔ m.get? k = some v := by
  refine ⟨lookup_eq_some_of_mem m.nodup, fun h => ?_⟩
  obtain ⟨before, behind, hentries, -⟩ := List.lookup_eq_some_iff.1 h
  rw [hentries]
  exact List.mem_append_right before List.mem_cons_self

/-- **The values of a map** are the values at its keys. -/
lemma mem_values_iff {m : OrderedMap κ ν} {v : ν} : v ∈ m.values ↔ ∃ k, m.get? k = some v := by
  simp only [values, ← mem_entries_iff, List.mem_map, Prod.exists, exists_eq_right]

/-- A map without values has no keys. -/
lemma keys_eq_nil_iff {κ ν : Type} {m : OrderedMap κ ν} : m.keys = [] ↔ m.values = [] := by
  rw [keys, values, List.map_eq_nil_iff, List.map_eq_nil_iff]

/-! ## Keys -/

/-- Keys that are written to a map in a row, whatever the values become, follow those that it has,
each of them once.

**Proof sketch.** Induction on the list. A key that the map has changes no key, and it is a
repetition in the list; a new key is put behind the others. -/
lemma keys_foldl_alter {μ : Type} (f : κ × ν → Option μ → μ) (l : List (κ × ν))
    (m : OrderedMap κ μ) :
    (l.foldl (fun m e => m.alter e.1 (f e)) m).keys = (m.keys ++ l.map Prod.fst).eraseDups := by
  induction l generalizing m with
  | nil =>
    have hkeys : m.keys.eraseDups = m.keys := eraseDups_eq_self m.nodup
    rw [List.foldl_nil, List.map_nil, List.append_nil, hkeys]
  | cons e l ih =>
    rw [List.foldl_cons, ih, keys_alter, List.map_cons]
    split
    · rename_i hmem
      rw [List.eraseDups_append, List.eraseDups_append, List.cons_removeAll,
        List.contains_iff_mem.2 hmem]
      rfl
    · rw [List.append_assoc, List.singleton_append]

/-! ## The last value of each key -/

/-- A new key comes last. -/
lemma alterEntries_of_not_mem {k : κ} (f : Option ν → ν) {l : List (κ × ν)}
    (h : k ∉ l.map Prod.fst) : alterEntries k f l = l ++ [(k, f none)] := by
  induction l with
  | nil => rfl
  | cons e l ih =>
    obtain ⟨a, w⟩ := e
    obtain ⟨ha, hl⟩ := not_or.1 (mt List.mem_cons.2 h)
    rw [alterEntries, if_neg (Ne.symm ha), ih hl, List.cons_append]

/-- Entries that are written to a map in a row: the last one with the key counts. -/
lemma get?_foldl_insert (l : List (κ × ν)) (m : OrderedMap κ ν) (k : κ) :
    (l.foldl (fun m e => m.insert e.1 e.2) m).get? k = (l.reverse.lookup k).or (m.get? k) := by
  induction l generalizing m with
  | nil => rfl
  | cons e l ih =>
    obtain ⟨a, v⟩ := e
    rw [List.foldl_cons, ih, insert, get?_alter, List.reverse_cons, List.lookup_append,
      Option.or_assoc]
    by_cases h : k = a
    · simp [h]
    · simp [h, List.lookup_cons, beq_false_of_ne h]

/-- **The last value of a key** is the one that a map built from a list holds. -/
lemma get?_ofList (l : List (κ × ν)) (k : κ) : (ofList l).get? k = l.reverse.lookup k :=
  (get?_foldl_insert l empty k).trans Option.or_none

/-- Entries with new keys are added in order. -/
lemma entries_foldl_insert {l : List (κ × ν)} {m : OrderedMap κ ν}
    (h : ((m.entries ++ l).map Prod.fst).Nodup) :
    (l.foldl (fun m e => m.insert e.1 e.2) m).entries = m.entries ++ l := by
  induction l generalizing m with
  | nil => exact (List.append_nil _).symm
  | cons e l ih =>
    obtain ⟨a, v⟩ := e
    have hnew : a ∉ m.entries.map Prod.fst := by
      rw [List.map_append, List.map_cons] at h
      exact fun ha => (List.disjoint_of_nodup_append h) ha List.mem_cons_self
    have hentries : (m.insert a v).entries = m.entries ++ [(a, v)] :=
      alterEntries_of_not_mem _ hnew
    rw [List.foldl_cons, ih (by rwa [hentries, List.append_assoc]), hentries, List.append_assoc,
      List.singleton_append]

/-- A list that repeats no key gives the map with these entries. -/
lemma entries_ofList {l : List (κ × ν)} (h : (l.map Prod.fst).Nodup) : (ofList l).entries = l :=
  (entries_foldl_insert h).trans (List.nil_append l)

/-- A map is built from its own entries. -/
lemma ofList_entries (m : OrderedMap κ ν) : ofList m.entries = m := by
  obtain ⟨l, hl⟩ := m
  cases hm : ofList l with
  | mk l' hl' =>
    obtain rfl : l' = l := (congrArg entries hm).symm.trans (entries_ofList hl)
    rfl

/-! ## All values of each key -/

/-- The values that are listed with a key, in order. -/
def valuesAt (l : List (κ × ν)) (k : κ) : List ν :=
  (l.filter fun e => e.1 = k).map Prod.snd

/-- Changed values stand under the keys of the values that they are made of. -/
lemma valuesAt_map {μ : Type} (l : List (κ × ν)) (f : ν → μ) (k : κ) :
    valuesAt (l.map fun e => (e.1, f e.2)) k = (valuesAt l k).map f := by
  rw [valuesAt, valuesAt, List.filter_map, List.map_map, List.map_map]
  rfl

/-- Values that are added to a map in a row stand behind those that it has. -/
lemma get?_foldl_push (l : List (κ × ν)) (m : OrderedMap κ (List ν)) (k : κ) :
    (l.foldl (fun m e => m.push e.1 e.2) m).get? k =
      if valuesAt l k = [] then m.get? k else some ((m.get? k).getD [] ++ valuesAt l k) := by
  induction l generalizing m with
  | nil => rfl
  | cons e l ih =>
    obtain ⟨a, v⟩ := e
    rw [List.foldl_cons, ih, push, get?_alter]
    by_cases h : k = a
    · subst h
      have hvalues : valuesAt ((k, v) :: l) k = v :: valuesAt l k := by simp [valuesAt]
      rw [if_pos rfl, hvalues, if_neg (List.cons_ne_nil _ _)]
      split
      · rename_i hnil
        rw [hnil]
      · simp
    · have hvalues : valuesAt ((a, v) :: l) k = valuesAt l k := by simp [valuesAt, Ne.symm h]
      rw [if_neg h, hvalues]

/-- **All values of a key**, in order, are what a map that groups a list holds. -/
lemma get?_group (l : List (κ × ν)) (k : κ) :
    (group l).get? k = if valuesAt l k = [] then none else some (valuesAt l k) :=
  get?_foldl_push l empty k

/-- No group is empty. -/
lemma ne_nil_of_mem_values_group {l : List (κ × ν)} {vs : List ν} (h : vs ∈ (group l).values) :
    vs ≠ [] := by
  obtain ⟨k, hk⟩ := mem_values_iff.1 h
  rw [get?_group] at hk
  split at hk
  · cases hk
  · rename_i hne
    cases hk
    exact hne

/-- The keys of a map that groups a list are those of the list, in order of first appearance. -/
lemma keys_group (l : List (κ × ν)) : (group l).keys = (l.map Prod.fst).eraseDups :=
  keys_foldl_alter (fun e old => old.getD [] ++ [e.2]) l empty

/-- The entries of a map whose values are known from their keys. -/
lemma entries_eq_map_keys {m : OrderedMap κ ν} {f : κ → ν}
    (h : ∀ k v, m.get? k = some v → v = f k) : m.entries = m.keys.map fun k => (k, f k) := by
  rw [keys, List.map_map]
  refine (List.map_id' _).symm.trans (List.map_congr_left fun e he => ?_)
  obtain ⟨k, v⟩ := e
  exact congrArg (k, ·) (h k v (mem_entries_iff.1 he))

/-- **A map that groups a list** has the keys of the list in order of first appearance, each with
all its values in order. -/
lemma entries_group (l : List (κ × ν)) :
    (group l).entries = ((l.map Prod.fst).eraseDups).map fun k => (k, valuesAt l k) := by
  rw [← keys_group]
  refine entries_eq_map_keys fun k v hv => ?_
  rw [get?_group] at hv
  split at hv
  · cases hv
  · exact (Option.some.inj hv).symm

/-- A value that is added to a list of values is all that is gained. -/
lemma flatten_alterEntries_perm (k : κ) (v : ν) (l : List (κ × List ν)) :
    ((alterEntries k (fun old => old.getD [] ++ [v]) l).map Prod.snd).flatten.Perm
      ((l.map Prod.snd).flatten ++ [v]) := by
  induction l with
  | nil => exact .refl _
  | cons e l ih =>
    obtain ⟨a, vs⟩ := e
    rw [alterEntries, List.map_cons, List.flatten_cons, List.append_assoc]
    split
    · rw [List.map_cons, List.flatten_cons, Option.getD_some, List.append_assoc]
      exact List.perm_append_comm.append_left vs
    · rw [List.map_cons, List.flatten_cons]
      exact ih.append_left vs

/-- Values that are added to a map in a row are all that is gained. -/
lemma flatten_foldl_push_perm (l : List (κ × ν)) (m : OrderedMap κ (List ν)) :
    (l.foldl (fun m e => m.push e.1 e.2) m).values.flatten.Perm
      (m.values.flatten ++ l.map Prod.snd) := by
  induction l generalizing m with
  | nil => rw [List.foldl_nil, List.map_nil, List.append_nil]
  | cons e l ih =>
    have hpush : (m.push e.1 e.2).values.flatten.Perm (m.values.flatten ++ [e.2]) :=
      flatten_alterEntries_perm e.1 e.2 m.entries
    rw [List.foldl_cons, List.map_cons, List.append_cons]
    exact (ih _).trans (hpush.append_right _)

/-- **Grouping loses nothing**: the groups together have the values of the list. -/
lemma flatten_values_group_perm (l : List (κ × ν)) :
    (group l).values.flatten.Perm (l.map Prod.snd) :=
  flatten_foldl_push_perm l empty

/-- There are groups if there is anything to group. -/
lemma values_group_eq_nil_iff {l : List (κ × ν)} : (group l).values = [] ↔ l = [] := by
  constructor
  · intro h
    have hperm := flatten_values_group_perm l
    rw [h, List.flatten_nil] at hperm
    exact List.map_eq_nil_iff.1 hperm.nil_eq.symm
  · rintro rfl
    rfl

/-! ## The first value of each key -/

/-- The first value that is listed with a key. -/
lemma lookup_eq_head?_valuesAt (l : List (κ × ν)) (k : κ) : l.lookup k = (valuesAt l k).head? := by
  induction l with
  | nil => rfl
  | cons e l ih =>
    obtain ⟨a, v⟩ := e
    by_cases h : k = a
    · subst h
      simp [valuesAt]
    · have hvalues : valuesAt ((a, v) :: l) k = valuesAt l k := by simp [valuesAt, Ne.symm h]
      rw [hvalues, ← ih, List.lookup_cons, beq_false_of_ne h]

/-- Values that are written to a map in a row, unless there are values already: those that the map
has count, and then the first one with the key. -/
lemma get?_foldl_insertNew (l : List (κ × ν)) (m : OrderedMap κ ν) (k : κ) :
    (l.foldl (fun m e => m.insertNew e.1 e.2) m).get? k = (m.get? k).or (l.lookup k) := by
  induction l generalizing m with
  | nil => exact Option.or_none.symm
  | cons e l ih =>
    obtain ⟨a, v⟩ := e
    rw [List.foldl_cons, ih, insertNew, get?_alter, List.lookup_cons]
    by_cases h : k = a
    · subst h
      rw [if_pos rfl, beq_self_eq_true]
      cases m.get? k <;> rfl
    · rw [if_neg h, beq_false_of_ne h]

/-- **The first value of a key** is the one that a map of first values holds. -/
lemma get?_firsts (l : List (κ × ν)) (k : κ) : (firsts l).get? k = (valuesAt l k).head? :=
  (get?_foldl_insertNew l empty k).trans (lookup_eq_head?_valuesAt l k)

/-- The keys of a map of first values are those of the list, in order of first appearance. -/
lemma keys_firsts (l : List (κ × ν)) : (firsts l).keys = (l.map Prod.fst).eraseDups :=
  keys_foldl_alter (fun e old => old.getD e.2) l empty

/-! ## Changed values -/

omit [DecidableEq κ] in
/-- If no value is dropped, changing the values keeps the keys in their places. -/
lemma entries_filterMap {μ : Type} {m : OrderedMap κ ν} {f : ν → Option μ}
    (h : ∀ v ∈ m.values, (f v).isSome) :
    (m.filterMap f).entries.map (fun e => (e.1, some e.2)) =
      m.entries.map fun e => (e.1, f e.2) := by
  show (m.entries.filterMap _).map _ = _
  rw [List.map_filterMap, ← List.filterMap_eq_map]
  refine List.filterMap_congr fun e he => ?_
  obtain ⟨v, hv⟩ := Option.isSome_iff_exists.1 (h e.2 (List.mem_map_of_mem he))
  simp [hv]

end OrderedMap

end XmlHarvest
