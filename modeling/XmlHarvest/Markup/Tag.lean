import XmlHarvest.Text.Blank
import XmlHarvest.Text.Search

/-!
# Tags

What stands between the angle brackets of a start tag: a name and a list of attributes. Neither
names nor values are interpreted here.

## Main definitions

* `Markup.RawAttribute`: a name and a value as they are written.
* `Markup.Tag`: a start tag taken apart.
* `Markup.Tag.ofBody`: take a start tag apart.
-/

namespace XmlHarvest.Markup

open Text

/-- An attribute as it is written. -/
structure RawAttribute where
  name : List Char
  value : List Char
deriving DecidableEq, Repr

/-- The attribute at the start of a text and what follows it: a name, an equals sign and a quoted
value, with spacing before any of them. A name is at least one character long and runs to the
next equals sign or spacing. -/
def RawAttribute.first? (s : List Char) : Option (RawAttribute × List Char) :=
  match s.dropWhile isSpacing with
  | [] => none
  | c :: r =>
    match splitAt (fun d => d = '=' || isSpacing d) r with
    | none => none
    | some (name, stop, r) =>
      match (stop :: r).dropWhile isSpacing with
      | '=' :: r =>
        match r.dropWhile isSpacing with
        | [] => none
        | q :: r =>
          if q = '"' || q = '\'' then
            (splitAt (· = q) r).map fun (value, _, rest) => (⟨c :: name, value⟩, rest)
          else none
      | _ => none

theorem length_dropWhile_le {α : Type} (p : α → Bool) (s : List α) :
    (s.dropWhile p).length ≤ s.length :=
  (List.dropWhile_sublist p).length_le

/-- What follows an attribute is shorter than the text. -/
theorem RawAttribute.length_lt_of_first? {s rest : List Char} {a : RawAttribute}
    (h : RawAttribute.first? s = some (a, rest)) : rest.length < s.length := by
  unfold RawAttribute.first? at h
  split at h
  · simp at h
  · rename_i c r hs
    split at h
    · simp at h
    · rename_i name stop r' hr
      split at h
      · rename_i r'' heq
        split at h
        · simp at h
        · rename_i q r''' hq
          split at h
          · simp only [Option.map_eq_some_iff, Prod.mk.injEq] at h
            obtain ⟨⟨value, d, t⟩, hv, -, rfl⟩ := h
            have h1 := length_dropWhile_le isSpacing s
            have h2 := congrArg List.length (eq_append_of_splitAt hr)
            have h3 := length_dropWhile_le isSpacing (stop :: r')
            have h4 := length_dropWhile_le isSpacing r''
            have h5 := congrArg List.length (eq_append_of_splitAt hv)
            rw [hs] at h1
            rw [heq] at h3
            rw [hq] at h4
            simp only [List.length_cons, List.length_append] at *
            omega
          · simp at h
      · simp at h

/-- The attributes at the start of a text, up to the first place where there is none, and what is
left there. -/
def attributes (s : List Char) : List RawAttribute × List Char :=
  match _h : RawAttribute.first? s with
  | none => ([], s)
  | some (a, rest) =>
    let (as, left) := attributes rest
    (a :: as, left)
termination_by s.length
decreasing_by exact RawAttribute.length_lt_of_first? _h

/-- A start tag taken apart. -/
structure Tag where
  /-- The name, which is not checked and may be empty. -/
  name : List Char
  /-- The attributes that could be read. -/
  attributes : List RawAttribute
  /-- Whether nothing but spacing follows the attributes. -/
  complete : Bool
  /-- Whether the tag ends with a slash, and so ends the element as well. -/
  selfClosing : Bool
deriving DecidableEq, Repr

/-- Take apart the body of a start tag. -/
def Tag.ofBody (body : List Char) : Tag :=
  let selfClosing := body.getLast? == some '/'
  let inner := if selfClosing then body.dropLast else body
  let (as, left) := Markup.attributes (inner.dropWhile fun c => !isSpacing c)
  { name := inner.takeWhile fun c => !isSpacing c
    attributes := as
    complete := left.all isSpacing
    selfClosing := selfClosing }

/-- The name in the body of an end tag, which spacing may follow. -/
def closingName (body : List Char) : List Char :=
  match trimEndWhile isSpacing body with
  | [] => body
  | name => name

end XmlHarvest.Markup
