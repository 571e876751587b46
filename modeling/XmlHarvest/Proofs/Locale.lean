import Mathlib.Data.List.Nodup
import XmlHarvest.Locale
import XmlHarvest.Proofs.Text.Parts

/-!
# Canonical locales

Of all the tags that stand for a locale one is its own: the language in lower case, with the script
in title case behind it. It is the tag that the locale is written as, and it is read as this locale
again. So locales that come from tags differ in their texts.

Reading does not tell apart the two cases of a letter nor the two separators, for it asks of each
character only whether it is a blank, a separator or a letter, and brings letters to a case of its
own.

## Main definitions

* `Locale.Alike`: characters that a tag does not tell apart.
* `Locale.IsCanonical`: the parts of a locale are spelled as they are read.

## Main results

* `Locale.ofTag_congr`: tags of characters that are alike.
* `Locale.ofTag_around`: blanks around a tag.
* `Locale.isCanonical_ofTag`: locales that come from tags are canonical.
* `Locale.ofTag_toText`: canonical locales are read as they are written.
* `Locale.isCanonical_iff`, `Locale.nodup_map_toText`: these are the locales that come from tags,
  and their texts differ.
-/

namespace XmlHarvest.Locale

/-! ## Letters -/

section Letters

/-- What can be checked of each letter holds of every letter. -/
lemma of_isAlpha (property : Char → Prop)
    (h : ∀ n < 128, (Char.ofNat n).isAlpha = true → property (Char.ofNat n)) {c : Char}
    (hc : c.isAlpha = true) : property c := by
  have hle : c.val ≤ 'z'.val := by
    rcases Bool.or_eq_true_iff.1 hc with hupper | hlower
    · exact UInt32.le_trans (of_decide_eq_true hupper).2 (by decide)
    · exact of_decide_eq_true (Bool.and_eq_true_iff.1 hlower).2
  have hlt : c.toNat < 128 := (UInt32.le_iff_toNat_le.1 hle).trans_lt (by decide)
  have hproperty := h c.toNat hlt
  rw [Char.ofNat_toNat] at hproperty
  exact hproperty hc

variable {c : Char}

/-- Only letters have another case. -/
lemma toLower_eq_self (h : c.isAlpha = false) : c.toLower = c := by
  have hupper : ¬(c.val ≥ 'A'.val ∧ c.val ≤ 'Z'.val) :=
    of_decide_eq_false (Bool.or_eq_false_iff.1 h).1
  exact dif_neg hupper

/-- Letters are not blanks. -/
lemma isBlank_of_isAlpha : c.isAlpha = true → Text.isBlank c = false :=
  of_isAlpha (fun c => Text.isBlank c = false) (by decide +kernel)

/-- The lower case of a letter is a letter. -/
lemma isAlpha_toLower (c : Char) : c.toLower.isAlpha = c.isAlpha := by
  cases h : c.isAlpha with
  | true => exact of_isAlpha (fun c => c.toLower.isAlpha = true) (by decide +kernel) h
  | false => rw [toLower_eq_self h, h]

lemma toLower_toLower : c.isAlpha = true → c.toLower.toLower = c.toLower :=
  of_isAlpha (fun c => c.toLower.toLower = c.toLower) (by decide +kernel)

lemma toUpper_toLower : c.isAlpha = true → c.toLower.toUpper = c.toUpper :=
  of_isAlpha (fun c => c.toLower.toUpper = c.toUpper) (by decide +kernel)

lemma toUpper_toUpper : c.isAlpha = true → c.toUpper.toUpper = c.toUpper :=
  of_isAlpha (fun c => c.toUpper.toUpper = c.toUpper) (by decide +kernel)

lemma isAlpha_toUpper : c.isAlpha = true → c.toUpper.isAlpha = true :=
  of_isAlpha (fun c => c.toUpper.isAlpha = true) (by decide +kernel)

end Letters

/-! ## Characters that are alike -/

/-- The characters that divide a tag. -/
def isSeparator (c : Char) : Bool :=
  c = '-' || c = '_'

/-- Two characters that a tag does not tell apart: they differ at most in the case of a letter, or
both are separators. -/
def Alike (a b : Char) : Prop :=
  a.toLower = b.toLower ∨ isSeparator a = true ∧ isSeparator b = true

instance : DecidableRel Alike := fun a b =>
  inferInstanceAs (Decidable (a.toLower = b.toLower ∨ isSeparator a = true ∧ isSeparator b = true))

/-- One of the characters that are like a character. -/
def fold (c : Char) : Char :=
  if isSeparator c then '-' else c.toLower

/-- A tag is read by its parts. -/
lemma ofTag_eq (tag : String) :
    ofTag tag = ofSubtags (Text.fields isSeparator (Text.trimChars tag.toList)) :=
  rfl

section Fold

variable {a b c : Char}

/-- A separator is a hyphen or an underscore. -/
lemma isSeparator_iff : isSeparator c = true ↔ c = '-' ∨ c = '_' := by
  rw [isSeparator, Bool.or_eq_true, decide_eq_true_iff, decide_eq_true_iff]

/-- Letters do not divide a tag. -/
lemma isSeparator_of_isAlpha : c.isAlpha = true → isSeparator c = false :=
  of_isAlpha (fun c => isSeparator c = false) (by decide +kernel)

lemma fold_of_isAlpha (h : c.isAlpha = true) : fold c = c.toLower := by
  rw [fold, isSeparator_of_isAlpha h]
  rfl

/-- A character that is neither a letter nor a separator is like itself only. -/
lemma fold_eq_self (h : c.isAlpha = false) (hc : isSeparator c = false) : fold c = c := by
  rw [fold, hc, toLower_eq_self h]
  rfl

/-- A property that does not tell apart separators nor the cases of letters. -/
lemma fold_congr {property : Char → Bool}
    (hletter : ∀ c, c.isAlpha = true → property c.toLower = property c)
    (hseparator : property '_' = property '-') (c : Char) : property (fold c) = property c := by
  cases h : c.isAlpha with
  | true => rw [fold_of_isAlpha h, hletter c h]
  | false =>
    cases hc : isSeparator c with
    | false => rw [fold_eq_self h hc]
    | true =>
      rw [fold, hc, if_pos rfl]
      rcases isSeparator_iff.1 hc with rfl | rfl
      · rfl
      · exact hseparator.symm

lemma isAlpha_fold (c : Char) : (fold c).isAlpha = c.isAlpha :=
  fold_congr (fun c _ => isAlpha_toLower c) (by decide) c

lemma isSeparator_fold (c : Char) : isSeparator (fold c) = isSeparator c := by
  refine fold_congr (fun c h => ?_) (by decide) c
  rw [isSeparator_of_isAlpha h, isSeparator_of_isAlpha ((isAlpha_toLower c).trans h)]

lemma isBlank_fold (c : Char) : Text.isBlank (fold c) = Text.isBlank c := by
  refine fold_congr (fun c h => ?_) (by decide) c
  rw [isBlank_of_isAlpha h, isBlank_of_isAlpha ((isAlpha_toLower c).trans h)]

/-- Of characters that are alike the same one is chosen. -/
lemma Alike.fold_eq (h : Alike a b) : fold a = fold b := by
  rcases h with h | ⟨ha, hb⟩
  · -- No separator has another case, so one of the two is a separator if both are the same.
    have hseparator (c : Char) : isSeparator c.toLower = isSeparator c := by
      cases hc : c.isAlpha with
      | true =>
        rw [isSeparator_of_isAlpha hc, isSeparator_of_isAlpha ((isAlpha_toLower c).trans hc)]
      | false => rw [toLower_eq_self hc]
    have hsame : isSeparator a = isSeparator b := by rw [← hseparator a, ← hseparator b, h]
    rw [fold, fold, hsame, h]
  · rw [fold, fold, if_pos ha, if_pos hb]

end Fold

/-! ## Subtags -/

section Subtags

variable {part : List Char}

lemma isLanguage_iff : isLanguage part = true ↔
    (2 ≤ part.length ∧ part.length ≤ 8) ∧ ∀ c ∈ part, c.isAlpha = true := by
  rw [isLanguage, Bool.and_eq_true, Bool.and_eq_true, decide_eq_true_iff, decide_eq_true_iff,
    List.all_eq_true]

lemma isScript_iff : isScript part = true ↔
    part.length = 4 ∧ ∀ c ∈ part, c.isAlpha = true := by
  rw [isScript, Bool.and_eq_true, beq_iff_eq, List.all_eq_true]

lemma isLanguage_map_fold (part : List Char) : isLanguage (part.map fold) = isLanguage part := by
  have halpha : Char.isAlpha ∘ fold = Char.isAlpha := funext isAlpha_fold
  rw [isLanguage, isLanguage, List.length_map, List.all_map, halpha]

lemma isScript_map_fold (part : List Char) : isScript (part.map fold) = isScript part := by
  have halpha : Char.isAlpha ∘ fold = Char.isAlpha := funext isAlpha_fold
  rw [isScript, isScript, List.length_map, List.all_map, halpha]

lemma lowerCase_map_fold (h : ∀ c ∈ part, c.isAlpha = true) :
    lowerCase (part.map fold) = lowerCase part := by
  rw [lowerCase, lowerCase, List.map_map]
  refine congrArg String.ofList (List.map_congr_left fun c hc => ?_)
  rw [Function.comp_apply, fold_of_isAlpha (h c hc), toLower_toLower (h c hc)]

lemma titleCase_map_fold (h : ∀ c ∈ part, c.isAlpha = true) :
    titleCase (part.map fold) = titleCase part := by
  cases part with
  | nil => rfl
  | cons c part =>
    obtain ⟨hc, hpart⟩ := List.forall_mem_cons.1 h
    have hrest : ((part.map fold).map Char.toLower) = part.map Char.toLower := by
      rw [List.map_map]
      refine List.map_congr_left fun d hd => ?_
      rw [Function.comp_apply, fold_of_isAlpha (hpart d hd), toLower_toLower (hpart d hd)]
    rw [List.map_cons, titleCase, titleCase, hrest, fold_of_isAlpha hc, toUpper_toLower hc]

/-- Subtags of characters that are alike give the same locale. -/
lemma ofSubtags_map_fold (parts : List (List Char)) :
    ofSubtags (parts.map (List.map fold)) = ofSubtags parts := by
  cases parts with
  | nil => rfl
  | cons language rest =>
    have hscript : ((rest.map (List.map fold)).head?.filter isScript).map titleCase =
        (rest.head?.filter isScript).map titleCase := by
      cases rest with
      | nil => rfl
      | cons script rest =>
        rw [List.map_cons, List.head?_cons, List.head?_cons, Option.filter_some, Option.filter_some,
          isScript_map_fold]
        cases h : isScript script with
        | false => rfl
        | true => exact congrArg some (titleCase_map_fold (isScript_iff.1 h).2)
    rw [List.map_cons, ofSubtags, ofSubtags, isLanguage_map_fold, hscript]
    cases h : isLanguage language with
    | false => rfl
    | true => rw [lowerCase_map_fold (isLanguage_iff.1 h).2]

end Subtags

/-! ## Reading -/

/-- A tag is read as the tag of the characters that are chosen for its own. -/
lemma ofTag_map_fold (tag : String) : ofTag (String.ofList (tag.toList.map fold)) = ofTag tag := by
  rw [ofTag_eq, String.toList_ofList, Text.trimChars_map isBlank_fold,
    Text.fields_map isSeparator_fold, ofSubtags_map_fold, ofTag_eq]

/-- For texts of characters that are alike the same characters are chosen. -/
lemma map_fold_eq {s t : List Char} (h : List.Forall₂ Alike s t) : s.map fold = t.map fold := by
  induction h with
  | nil => rfl
  | cons hc _ ih => rw [List.map_cons, List.map_cons, hc.fold_eq, ih]

/-- **Tags of characters that are alike** stand for the same locale. -/
lemma ofTag_congr {s t : String} (h : List.Forall₂ Alike s.toList t.toList) :
    ofTag s = ofTag t := by
  rw [← ofTag_map_fold s, ← ofTag_map_fold t, map_fold_eq h]

/-- **Blanks around a tag** do not count. -/
lemma ofTag_around {before behind : String} (tag : String)
    (hbefore : ∀ c ∈ before.toList, Text.isBlank c = true)
    (hbehind : ∀ c ∈ behind.toList, Text.isBlank c = true) :
    ofTag (before ++ tag ++ behind) = ofTag tag := by
  rw [ofTag_eq, String.toList_append, String.toList_append, Text.trimChars_around hbefore hbehind,
    ofTag_eq]

/-! ## Canonical locales -/

/-- The language and the script are spelled as they are read, and the language is a language. -/
def IsCanonical : Locale → Prop
  | root => True
  | tagged language script =>
    isLanguage language.toList = true ∧ lowerCase language.toList = language ∧ language ≠ "und" ∧
      ∀ s, script = some s → isScript s.toList = true ∧ titleCase s.toList = s

/-- The lower case of a language is a language in lower case. -/
lemma isLanguage_lowerCase {part : List Char} (h : isLanguage part = true) :
    isLanguage (lowerCase part).toList = true ∧
      lowerCase (lowerCase part).toList = lowerCase part := by
  obtain ⟨hlength, halpha⟩ := isLanguage_iff.1 h
  rw [lowerCase, String.toList_ofList]
  constructor
  · rw [isLanguage_iff, List.length_map]
    refine ⟨hlength, fun d hd => ?_⟩
    obtain ⟨c, hc, rfl⟩ := List.mem_map.1 hd
    rw [isAlpha_toLower, halpha c hc]
  · rw [lowerCase, List.map_map]
    exact congrArg String.ofList (List.map_congr_left fun c hc => toLower_toLower (halpha c hc))

/-- The title case of a script is a script in title case. -/
lemma isScript_titleCase {part : List Char} (h : isScript part = true) :
    isScript (titleCase part).toList = true ∧
      titleCase (titleCase part).toList = titleCase part := by
  obtain ⟨hlength, halpha⟩ := isScript_iff.1 h
  cases part with
  | nil => cases hlength
  | cons c part =>
    obtain ⟨hc, hpart⟩ := List.forall_mem_cons.1 halpha
    rw [titleCase, String.toList_ofList]
    constructor
    · rw [isScript_iff, List.forall_mem_cons, List.length_cons, List.length_map]
      refine ⟨hlength, isAlpha_toUpper hc, fun d hd => ?_⟩
      obtain ⟨e, he, rfl⟩ := List.mem_map.1 hd
      rw [isAlpha_toLower, hpart e he]
    · rw [titleCase, toUpper_toUpper hc, List.map_map]
      refine congrArg (fun rest => String.ofList (c.toUpper :: rest)) ?_
      exact List.map_congr_left fun d hd => toLower_toLower (hpart d hd)

/-- **Locales that come from tags are canonical.** -/
lemma isCanonical_ofTag (tag : String) : (ofTag tag).IsCanonical := by
  rw [ofTag_eq]
  cases Text.fields isSeparator (Text.trimChars tag.toList) with
  | nil => exact trivial
  | cons language rest =>
    rw [ofSubtags]
    split
    · rename_i h
      rw [Bool.and_eq_true, decide_eq_true_iff] at h
      obtain ⟨hlanguage, hlower⟩ := isLanguage_lowerCase h.1
      refine ⟨hlanguage, hlower, h.2, fun s hs => ?_⟩
      obtain ⟨script, hscript, rfl⟩ := Option.map_eq_some_iff.1 hs
      exact isScript_titleCase (Option.filter_eq_some_iff.1 hscript).2
    · exact trivial

/-- A missing tag stands for the root, which is canonical. -/
lemma isCanonical_ofTag? (tag : Option String) : (ofTag? tag).IsCanonical := by
  cases tag with
  | none => exact trivial
  | some tag => exact isCanonical_ofTag tag

/-- **Canonical locales are read as they are written.** -/
lemma ofTag_toText {l : Locale} (h : l.IsCanonical) : ofTag l.toText = l := by
  cases l with
  | root => decide +kernel
  | tagged language script =>
    obtain ⟨hlanguage, hlower, hund, hscript⟩ := h
    have halpha := (isLanguage_iff.1 hlanguage).2
    have hseparator : ∀ c ∈ language.toList, isSeparator c = false :=
      fun c hc => isSeparator_of_isAlpha (halpha c hc)
    rw [ofTag_eq]
    cases script with
    | none =>
      have hblank : ∀ c ∈ language.toList, Text.isBlank c = false :=
        fun c hc => isBlank_of_isAlpha (halpha c hc)
      rw [toText, Text.trimChars_eq_self hblank, Text.fields_eq_singleton hseparator, ofSubtags,
        hlanguage, hlower, if_pos (by simpa using hund)]
      rfl
    | some s =>
      obtain ⟨hs, htitle⟩ := hscript s rfl
      have hletters := (isScript_iff.1 hs).2
      have htext : (language ++ "-" ++ s).toList = language.toList ++ '-' :: s.toList := by
        rw [String.toList_append, String.toList_append, List.append_assoc]
        rfl
      have hblank : ∀ c ∈ language.toList ++ '-' :: s.toList, Text.isBlank c = false := by
        intro c hc
        rcases List.mem_append.1 hc with hc | hc
        · exact isBlank_of_isAlpha (halpha c hc)
        · rcases List.mem_cons.1 hc with rfl | hc
          · rfl
          · exact isBlank_of_isAlpha (hletters c hc)
      rw [toText, htext, Text.trimChars_eq_self hblank,
        Text.fields_append_cons hseparator (by decide),
        Text.fields_eq_singleton fun c hc => isSeparator_of_isAlpha (hletters c hc), ofSubtags,
        hlanguage, hlower, if_pos (by simpa using hund), List.head?_cons, Option.filter_some, hs,
        if_pos rfl, Option.map_some, htitle]

/-- The canonical locales are those that come from tags. -/
lemma isCanonical_iff {l : Locale} : l.IsCanonical ↔ ∃ tag, ofTag tag = l := by
  constructor
  · intro h
    exact ⟨l.toText, ofTag_toText h⟩
  · rintro ⟨tag, rfl⟩
    exact isCanonical_ofTag tag

/-- Canonical locales with the same text are the same. -/
lemma IsCanonical.eq_of_toText_eq {l l' : Locale} (h : l.IsCanonical) (h' : l'.IsCanonical)
    (htext : l.toText = l'.toText) : l = l' := by
  rw [← ofTag_toText h, ← ofTag_toText h', htext]

/-- Different canonical locales have different texts. -/
lemma nodup_map_toText {ls : List Locale} (h : ∀ l ∈ ls, l.IsCanonical) (hls : ls.Nodup) :
    (ls.map toText).Nodup :=
  List.Nodup.map_on (fun l hl l' hl' => (h l hl).eq_of_toText_eq (h l' hl')) hls

end XmlHarvest.Locale
