/-!
# Searching a text

Where one text occurs in another. The first occurrence splits the text that is searched into
what stands before it and what stands after it; whether there is one, and both parts, come from
the same search.

## Main definitions

* `Text.stripStart`: what follows a text's beginning.
* `Text.split`: the parts around the first occurrence.
* `Text.splitAt`: the parts around the first character of a class.
* `Text.fields`: the parts between all characters of a class.
-/

namespace XmlHarvest.Text

/-- What remains of `s` behind `p`, if `s` begins with `p`. -/
def stripStart : (p s : List Char) → Option (List Char)
  | [], s => some s
  | _ :: _, [] => none
  | a :: p, c :: s => if a = c then stripStart p s else none

theorem eq_append_of_stripStart {p s rest : List Char} (h : stripStart p s = some rest) :
    s = p ++ rest := by
  induction p generalizing s with
  | nil => simpa [stripStart] using h
  | cons a p ih =>
    cases s with
    | nil => simp [stripStart] at h
    | cons c s =>
      by_cases hac : a = c
      · simp only [stripStart, hac, if_true] at h
        simp [hac, ih h]
      · simp [stripStart, hac] at h

/-- The parts of `s` before and behind the first occurrence of `p`. -/
def split (p : List Char) : (s : List Char) → Option (List Char × List Char)
  | [] => (stripStart p []).map fun rest => ([], rest)
  | c :: s =>
    match stripStart p (c :: s) with
    | some rest => some ([], rest)
    | none => (split p s).map fun (before, rest) => (c :: before, rest)

theorem eq_append_of_split {p s before rest : List Char} (h : split p s = some (before, rest)) :
    s = before ++ p ++ rest := by
  induction s generalizing before with
  | nil =>
    simp only [split, Option.map_eq_some_iff, Prod.mk.injEq] at h
    obtain ⟨r, hr, rfl, rfl⟩ := h
    simpa using eq_append_of_stripStart hr
  | cons c s ih =>
    simp only [split] at h
    split at h
    · rename_i r hr
      simp only [Option.some.injEq, Prod.mk.injEq] at h
      obtain ⟨rfl, rfl⟩ := h
      simpa using eq_append_of_stripStart hr
    · simp only [Option.map_eq_some_iff, Prod.mk.injEq] at h
      obtain ⟨⟨b, r⟩, hbr, rfl, rfl⟩ := h
      have := ih hbr
      simp [this]

/-- Whether `p` occurs in `s`. -/
def contains (p s : List Char) : Bool :=
  (split p s).isSome

/-- The longest beginning of `s` without a character of the class `p`, that character and what
follows it; `none` if there is no such character. -/
def splitAt (p : Char → Bool) : (s : List Char) → Option (List Char × Char × List Char)
  | [] => none
  | c :: s => if p c then some ([], c, s)
    else (splitAt p s).map fun (before, d, rest) => (c :: before, d, rest)

theorem eq_append_of_splitAt {p : Char → Bool} {s before rest : List Char} {c : Char}
    (h : splitAt p s = some (before, c, rest)) : s = before ++ c :: rest := by
  induction s generalizing before with
  | nil => simp [splitAt] at h
  | cons d s ih =>
    simp only [splitAt] at h
    split at h
    · simp only [Option.some.injEq, Prod.mk.injEq] at h
      obtain ⟨rfl, rfl, rfl⟩ := h
      rfl
    · simp only [Option.map_eq_some_iff, Prod.mk.injEq] at h
      obtain ⟨⟨b, e, r⟩, hr, rfl, rfl, rfl⟩ := h
      simp [ih hr]

/-- The parts of `s` between the characters of the class `p`; there is always at least one part. -/
def fields (p : Char → Bool) : (s : List Char) → List (List Char)
  | [] => [[]]
  | c :: s =>
    if p c then [] :: fields p s
    else
      match fields p s with
      | [] => [[c]]
      | f :: fs => (c :: f) :: fs

end XmlHarvest.Text
