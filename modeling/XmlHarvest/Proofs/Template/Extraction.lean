import Mathlib.Data.List.Basic
import Mathlib.Data.List.Chain
import XmlHarvest.Proofs.Template.Spelling
import XmlHarvest.Template.Context

/-!
# Contexts taken out of a text

The search for the context that closes first in a text, seen on the phrase that the text spells. It
finds the leftmost of the innermost contexts, and putting text in its place does the same to the
phrase, so that the search can go on with what the new phrase spells. Each round takes away one
context.

The phrases on the way need not be canonical, since what is put in may be empty or stand next to a
text. What counts is that their marks are those of a text.

## Main definitions

* `Template.Phrase.contexts`: the contexts of a phrase in the order in which they close.
* `Template.Phrase.settle`: a phrase with text in the place of its first context.
* `Template.Phrase.settleAll`: a phrase with text in the place of all contexts, from the inside out.
* `Template.Phrase.visits`: the contexts of a phrase, each as it is found when its turn comes.
* `Template.Phrase.First`: the marks around the first context of a phrase.
* `Template.contextBehind`: that context with its place.

## Main results

* `Template.extractContext_first`, `Template.extractContext_flat`: what the search finds.
* `Template.replace_first`: what is left when the first context is replaced.
* `Template.replaceUpTo_eq_visits`: the contexts that are found, and what is left in the end.
-/

namespace XmlHarvest

namespace Template

open Text

namespace Phrase

/-! ## The first context of a phrase -/

/-- The phrases inside the contexts of a phrase, in the order in which the contexts close. -/
def contexts : Phrase → List Phrase
  | .nil => []
  | .text _ rest => rest.contexts
  | .placeholder _ rest => rest.contexts
  | .context inner rest => inner.contexts ++ inner :: rest.contexts

/-- A phrase with text in the place of the context that closes first. -/
def settle (f : Phrase → List Char) : Phrase → Phrase
  | .nil => .nil
  | .text chars rest => .text chars (rest.settle f)
  | .placeholder name rest => .placeholder name (rest.settle f)
  | .context inner rest =>
    if inner.contexts.isEmpty then .text (f inner) rest else .context (inner.settle f) rest

/-- A phrase with text in the place of all its contexts, a context being looked at when those inside
it are gone. -/
def settleAll (f : Phrase → List Char) : Phrase → Phrase
  | .nil => .nil
  | .text chars rest => .text chars (rest.settleAll f)
  | .placeholder name rest => .placeholder name (rest.settleAll f)
  | .context inner rest => .text (f (inner.settleAll f)) (rest.settleAll f)

/-- The contexts of a phrase in the order in which they close, each as it is found when those before
it have been replaced: what is written in it by then, and its place. The phrase begins at a
position. -/
def visits (f : Phrase → List Char) : Phrase → Nat → List Context
  | .nil, _ => []
  | .text chars rest, position => rest.visits f (position + utf8Length (escape chars))
  | .placeholder name rest, position => rest.visits f (position + utf8Length (escape name) + 2)
  | .context inner rest, position =>
    let settled := (inner.settleAll f).marks.flatMap Mark.spell
    inner.visits f (position + 1) ++ ⟨settled, position, position + utf8Length settled + 2⟩ ::
      rest.visits f (position + utf8Length (escape (f (inner.settleAll f))))

lemma length_contexts_settle (f : Phrase → List Char) {p : Phrase} (h : p.contexts ≠ []) :
    (p.settle f).contexts.length + 1 = p.contexts.length := by
  induction p with
  | nil => exact absurd rfl h
  | text chars rest ih | placeholder name rest ih => exact ih h
  | context inner rest ihi _ =>
    rw [settle]
    split
    · rename_i hi
      simp [contexts, List.isEmpty_iff.1 hi]
    · rename_i hi
      have := ihi (by simpa using hi)
      simp only [contexts, List.length_append, List.length_cons]
      omega

lemma settleAll_of_flat (f : Phrase → List Char) {p : Phrase} (h : p.contexts = []) :
    p.settleAll f = p := by
  induction p with
  | nil => rfl
  | text chars rest ih | placeholder name rest ih => rw [settleAll, ih h]
  | context inner rest => simp [contexts] at h

lemma settleAll_settle (f : Phrase → List Char) (p : Phrase) :
    (p.settle f).settleAll f = p.settleAll f := by
  induction p with
  | nil => rfl
  | text chars rest ih | placeholder name rest ih => rw [settle, settleAll, settleAll, ih]
  | context inner rest ihi _ =>
    rw [settle]
    split
    · rename_i hi
      rw [settleAll, settleAll, settleAll_of_flat f (List.isEmpty_iff.1 hi)]
    · rw [settleAll, settleAll, ihi]

lemma contexts_settleAll (f : Phrase → List Char) (p : Phrase) : (p.settleAll f).contexts = [] := by
  induction p with
  | nil => rfl
  | text chars rest ih | placeholder name rest ih | context inner rest _ ih => exact ih

/-- Every context is found once. -/
lemma length_visits (f : Phrase → List Char) (p : Phrase) (position : Nat) :
    (p.visits f position).length = p.contexts.length := by
  induction p generalizing position with
  | nil => rfl
  | text chars rest ih | placeholder name rest ih => exact ih _
  | context inner rest ihi ihr =>
    simp only [visits, contexts, List.length_append, List.length_cons, ihi, ihr]

lemma visits_of_flat (f : Phrase → List Char) {p : Phrase} (h : p.contexts = []) (position : Nat) :
    p.visits f position = [] := by
  rw [← List.length_eq_zero_iff, length_visits, h, List.length_nil]

/-- The marks around the first context of a phrase: `before` and `behind` stand outside of its
delimiters and `inner` is the phrase between them. -/
structure First (p : Phrase) (before : List Mark) (inner : Phrase) (behind : List Mark) : Prop where
  flat : inner.contexts = []
  /-- The context is the one that closes first. -/
  head?_contexts : p.contexts.head? = some inner
  marks : p.marks = before ++ .opening :: (inner.marks ++ .closing :: behind)
  settle : ∀ f, (p.settle f).marks = before ++ ((f inner).map .char ++ behind)
  /-- The search finds the place of the context, if it has not found another one before. -/
  place : ∀ position openings found ms, firstClosed openings found (place position p.marks ++ ms) =
    firstClosed openings (found.or (some (position + utf8Length (before.flatMap Mark.spell),
      position + utf8Length (before.flatMap Mark.spell) +
        utf8Length (inner.marks.flatMap Mark.spell) + 2))) ms

end Phrase

/-! ## The search on marks -/

/-- Ordinary characters leave the search as it is. -/
lemma firstClosed_chars (chars : List Char) (position : Nat) (openings : List Nat)
    (found : Option (Nat × Nat)) (ms : List (Nat × Mark)) :
    firstClosed openings found (place position (chars.map .char) ++ ms) =
      firstClosed openings found ms := by
  induction chars generalizing position with
  | nil => rfl
  | cons c chars ih => exact ih _

/-- A phrase leaves the search as it is if the phrase has no context or the search is over. -/
lemma firstClosed_marks {p : Phrase} {found : Option (Nat × Nat)}
    (h : p.contexts = [] ∨ found.isSome) (position : Nat) (openings : List Nat)
    (ms : List (Nat × Mark)) : firstClosed openings found (place position p.marks ++ ms) =
      firstClosed openings found ms := by
  induction p generalizing position openings found ms with
  | nil => rfl
  | text chars rest ih =>
    rw [Phrase.marks, place_append, List.append_assoc, firstClosed_chars]
    exact ih h _ _ _
  | placeholder name rest ih =>
    have hmarks : (Phrase.placeholder name rest).marks =
        ('\x7b' :: (name ++ ['}'])).map Mark.char ++ rest.marks := by simp [Phrase.marks]
    rw [hmarks, place_append, List.append_assoc, firstClosed_chars]
    exact ih h _ _ _
  | context inner rest ihi ihr =>
    obtain ⟨place', rfl⟩ : ∃ place', found = some place' :=
      Option.isSome_iff_exists.1 (h.resolve_left (by simp [Phrase.contexts]))
    rw [Phrase.marks, place, place_append, List.cons_append, List.append_assoc, firstClosed,
      ihi (.inr rfl), place, List.cons_append, firstClosed, Option.some_or]
    exact ihr (.inr rfl) _ _ _

namespace Phrase

/-- A phrase with contexts has a first one, which is the first one to be found; those that are found
after it are found in what the phrase is when it has been replaced.

**Proof sketch.** Induction on the phrase. The first context of a context is the first one inside
it, or the context itself if there is none, and what is behind it is not looked at. -/
lemma exists_first_visits (f : Phrase → List Char) {p : Phrase} (h : p.contexts ≠ []) :
    ∃ before inner behind, p.First before inner behind ∧ ∀ position, p.visits f position =
      ⟨inner.marks.flatMap Mark.spell, position + utf8Length (before.flatMap Mark.spell),
        position + utf8Length (before.flatMap Mark.spell) +
          utf8Length (inner.marks.flatMap Mark.spell) + 2⟩ :: (p.settle f).visits f position := by
  induction p with
  | nil => exact absurd rfl h
  | text chars rest ih =>
    obtain ⟨before, inner, behind, ⟨hflat, hhead, hmarks, hsettle, hplace⟩, hvisits⟩ := ih h
    refine ⟨chars.map .char ++ before, inner, behind, ⟨hflat, hhead, ?_, fun f => ?_, ?_⟩,
      fun position => ?_⟩
    · rw [marks, hmarks, List.append_assoc]
    · rw [Phrase.settle, marks, hsettle, List.append_assoc]
    · intro position openings found ms
      rw [marks, place_append, List.append_assoc, firstClosed_chars, hplace, List.flatMap_append,
        utf8Length_append, ← Nat.add_assoc]
    · rw [visits, hvisits, List.flatMap_append, utf8Length_append, flatMap_spell_map_char,
        ← Nat.add_assoc]
      rfl
  | placeholder name rest ih =>
    have hmarks' : ∀ q, (Phrase.placeholder name q).marks =
        ('\x7b' :: (name ++ ['}'])).map Mark.char ++ q.marks := by simp [marks]
    have hlength : utf8Length (escape ('\x7b' :: (name ++ ['}']))) =
        utf8Length (escape name) + 2 := by
      rw [escape_cons, escape_append, utf8Length_append, utf8Length_append, Nat.add_comm,
        Nat.add_assoc]
      rfl
    obtain ⟨before, inner, behind, ⟨hflat, hhead, hmarks, hsettle, hplace⟩, hvisits⟩ := ih h
    refine ⟨('\x7b' :: (name ++ ['}'])).map Mark.char ++ before, inner, behind,
      ⟨hflat, hhead, ?_, fun f => ?_, ?_⟩, fun position => ?_⟩
    · rw [hmarks', hmarks, List.append_assoc]
    · rw [Phrase.settle, hmarks', hsettle, List.append_assoc]
    · intro position openings found ms
      rw [hmarks', place_append, List.append_assoc, firstClosed_chars, hplace, List.flatMap_append,
        utf8Length_append, ← Nat.add_assoc]
    · rw [visits, hvisits, List.flatMap_append, utf8Length_append, flatMap_spell_map_char, hlength]
      simp only [← Nat.add_assoc]
      rfl
  | context inner rest ihi _ =>
    by_cases hi : inner.contexts = []
    · refine ⟨[], inner, rest.marks, ⟨hi, by simp [contexts, hi], rfl, fun f => ?_, ?_⟩,
        fun position => ?_⟩
      · rw [Phrase.settle, if_pos (List.isEmpty_iff.2 hi)]
        rfl
      · intro position openings found ms
        rw [marks, Template.place, place_append, List.cons_append, List.append_assoc, firstClosed,
          firstClosed_marks (.inl hi), Template.place, List.cons_append, firstClosed,
          firstClosed_marks (.inr (by simp))]
        congr 2
        simp only [Option.some.injEq, Prod.mk.injEq, Mark.spell, List.flatMap_nil]
        simp only [utf8Length, true_and, Nat.add_zero, show '<'.utf8Size = 1 from rfl]
        omega
      · rw [visits, visits_of_flat f hi, settleAll_of_flat f hi, Phrase.settle,
          if_pos (List.isEmpty_iff.2 hi), visits]
        rfl
    · obtain ⟨before, first, behind, ⟨hflat, hhead, hmarks, hsettle, hplace⟩, hvisits⟩ := ihi hi
      refine ⟨.opening :: before, first, behind ++ .closing :: rest.marks, ⟨hflat,
        by simp [contexts, hhead], ?_, fun f => ?_, ?_⟩, fun position => ?_⟩
      · rw [marks, hmarks]
        simp
      · rw [Phrase.settle, if_neg (by simpa using hi), marks, hsettle]
        simp
      · intro position openings found ms
        rw [marks, Template.place, place_append, List.cons_append, List.append_assoc, firstClosed,
          hplace, Template.place, List.cons_append, firstClosed,
          firstClosed_marks (.inr (by simp)), List.flatMap_cons, utf8Length_append]
        cases found <;> simp only [Option.none_or, Option.some_or, Nat.add_assoc]
      · have hlength : utf8Length ((Mark.opening :: before).flatMap Mark.spell) =
            1 + utf8Length (before.flatMap Mark.spell) := by
          rw [List.flatMap_cons, utf8Length_append]
          rfl
        rw [visits, hvisits, Phrase.settle, if_neg (by simpa using hi), visits, settleAll_settle,
          hlength, ← Nat.add_assoc]
        rfl

end Phrase

/-! ## The search in a text -/

/-- The context that is found behind marks: the phrase in it as it is written, and its place. -/
def contextBehind (before : List Mark) (inner : Phrase) : Context where
  inner := inner.marks.flatMap Mark.spell
  start := utf8Length (before.flatMap Mark.spell)
  stop := utf8Length (before.flatMap Mark.spell) +
    utf8Length (inner.marks.flatMap Mark.spell) + 2

/-- No context is found in what a phrase without contexts spells. -/
lemma extractContext_flat {p : Phrase} (hflat : p.contexts = [])
    (hchain : p.marks.IsChain Mark.MayPrecede) :
    extractContext (p.marks.flatMap Mark.spell) = .ok none := by
  have hsearch : firstClosed [] none (place 0 p.marks ++ []) = firstClosed [] none [] :=
    firstClosed_marks (.inl hflat) 0 [] []
  rw [List.append_nil] at hsearch
  rw [extractContext, marks_flatMap_spell hchain, hsearch]
  rfl

section First

variable {p inner : Phrase} {before behind : List Mark}

/-- The context that closes first is found, with its inner text and its place. -/
lemma extractContext_first (h : p.First before inner behind)
    (hchain : p.marks.IsChain Mark.MayPrecede) :
    extractContext (p.marks.flatMap Mark.spell) = .ok (some (contextBehind before inner)) := by
  have hsearch := h.place 0 [] none []
  rw [List.append_nil, Option.none_or, Nat.zero_add] at hsearch
  rw [extractContext, marks_flatMap_spell hchain, hsearch]
  have hslice : slice (utf8Length (before.flatMap Mark.spell) + 1)
      (utf8Length (before.flatMap Mark.spell) + utf8Length (inner.marks.flatMap Mark.spell) + 2 - 1)
      (p.marks.flatMap Mark.spell) = inner.marks.flatMap Mark.spell := by
    have hstart : utf8Length (before.flatMap Mark.spell) + 1 =
        utf8Length (before.flatMap Mark.spell ++ ['<']) := by
      rw [utf8Length_append]
      rfl
    have hlength : utf8Length (before.flatMap Mark.spell) +
        utf8Length (inner.marks.flatMap Mark.spell) + 2 - 1 -
          (utf8Length (before.flatMap Mark.spell) + 1) =
            utf8Length (inner.marks.flatMap Mark.spell) := by
      omega
    have htext : p.marks.flatMap Mark.spell = (before.flatMap Mark.spell ++ ['<']) ++
        (inner.marks.flatMap Mark.spell ++ '>' :: behind.flatMap Mark.spell) := by
      rw [h.marks]
      simp [Mark.spell]
    rw [slice, hlength, hstart, htext, splitBytes_append, splitBytes_append]
  show Except.ok (some (Context.mk (slice _ _ _) _ _)) = _
  rw [hslice]
  rfl

/-- Replacing the context that closes first leaves what stands around it. -/
lemma replace_first (h : p.First before inner behind) (replacement : List Char) :
    (contextBehind before inner).replace replacement (p.marks.flatMap Mark.spell) =
      before.flatMap Mark.spell ++ replacement ++ behind.flatMap Mark.spell := by
  have hstop : utf8Length (before.flatMap Mark.spell) +
      utf8Length (inner.marks.flatMap Mark.spell) + 2 =
        utf8Length (before.flatMap Mark.spell ++ '<' ::
          (inner.marks.flatMap Mark.spell ++ ['>'])) := by
    simp only [utf8Length_append, utf8Length, show '<'.utf8Size = 1 from rfl,
      show '>'.utf8Size = 1 from rfl]
    omega
  have htext : p.marks.flatMap Mark.spell = before.flatMap Mark.spell ++
      '<' :: (inner.marks.flatMap Mark.spell ++ '>' :: behind.flatMap Mark.spell) := by
    rw [h.marks]
    simp [Mark.spell]
  have htext' : p.marks.flatMap Mark.spell =
      (before.flatMap Mark.spell ++ '<' :: (inner.marks.flatMap Mark.spell ++ ['>'])) ++
        behind.flatMap Mark.spell := by
    rw [htext]
    simp
  rw [Context.replace, contextBehind]
  conv_lhs =>
    congr
    · rw [htext, splitBytes_append]
    · rw [hstop, htext', splitBytes_append]

/-- The marks inside the first context do not end in an ordinary backslash. -/
lemma Phrase.First.getLast?_inner (h : p.First before inner behind)
    (hchain : p.marks.IsChain Mark.MayPrecede) : inner.marks.getLast? ≠ some (.char '\\') := by
  intro hlast
  rw [h.marks] at hchain
  have hinner := (List.isChain_cons.1 (List.isChain_append.1 hchain).2.1).2
  exact ((List.isChain_append.1 hinner).2.2 _ hlast _ rfl rfl).2 rfl

/-- **Text in the place of a context joins its neighbours** without creating or destroying an
escape: what is in front of the context does not end in an ordinary backslash, and the text must not
either. -/
lemma Phrase.First.isChain_settle (h : p.First before inner behind)
    (hchain : p.marks.IsChain Mark.MayPrecede) {f : Phrase → List Char}
    (hlast : (f inner).getLast? ≠ some '\\') :
    (p.settle f).marks.IsChain Mark.MayPrecede := by
  rw [h.marks] at hchain
  obtain ⟨hbefore, hrest, hseam⟩ := List.isChain_append.1 hchain
  have hbehind : behind.IsChain Mark.MayPrecede :=
    (List.isChain_cons.1 (List.isChain_append.1 (List.isChain_cons.1 hrest).2).2.1).2
  rw [h.settle, List.isChain_append]
  refine ⟨hbefore, Phrase.isChain_map_char_append.2 ⟨fun hc => absurd hc hlast, hbehind⟩, ?_⟩
  intro m hm n _ hbackslash
  exact absurd rfl (hseam m hm .opening rfl hbackslash).1

/-- Text in the place of a context is written in its place. -/
lemma Phrase.First.flatMap_spell_settle (h : p.First before inner behind) (f : Phrase → List Char) :
    (p.settle f).marks.flatMap Mark.spell =
      before.flatMap Mark.spell ++ escape (f inner) ++ behind.flatMap Mark.spell := by
  rw [h.settle, List.flatMap_append, List.flatMap_append, flatMap_spell_map_char, List.append_assoc]

end First

/-! ## All contexts -/

/-- **Replacing contexts until none is left** finds the contexts in the order in which they close,
and puts text in the place of all of them. The text that replaces a context is given by `f` on the
phrase inside it, and `Good` is what all phrases on the way have in common.

**Proof sketch.** Induction on the number of rounds. A round takes away the first context, and what
remains has the same final form (`settleAll_settle`). -/
lemma replaceUpTo_eq_visits (replacement : Context → List Char) (f : Phrase → List Char)
    (Good : Phrase → Prop)
    (hstep : ∀ {p inner before behind}, Good p → p.marks.IsChain Mark.MayPrecede →
      p.First before inner behind → Good (p.settle f) ∧ (f inner).getLast? ≠ some '\\' ∧
        replacement (contextBehind before inner) = escape (f inner))
    (rounds : Nat) {p : Phrase} (hp : Good p) (hchain : p.marks.IsChain Mark.MayPrecede)
    (hrounds : p.contexts.length ≤ rounds) :
    Good (p.settleAll f) ∧ (p.settleAll f).marks.IsChain Mark.MayPrecede ∧
      replaceUpTo replacement rounds (p.marks.flatMap Mark.spell) =
        .ok (p.visits f 0, (p.settleAll f).marks.flatMap Mark.spell) := by
  induction rounds generalizing p with
  | zero =>
    have hflat : p.contexts = [] := List.length_eq_zero_iff.1 (Nat.le_zero.1 hrounds)
    rw [Phrase.settleAll_of_flat f hflat, Phrase.visits_of_flat f hflat]
    exact ⟨hp, hchain, rfl⟩
  | succ rounds ih =>
    by_cases hflat : p.contexts = []
    · rw [Phrase.settleAll_of_flat f hflat, Phrase.visits_of_flat f hflat]
      refine ⟨hp, hchain, ?_⟩
      rw [replaceUpTo, extractContext_flat hflat hchain]
      rfl
    · obtain ⟨before, inner, behind, hfirst, hvisits⟩ := Phrase.exists_first_visits f hflat
      obtain ⟨hgood, hlast, hreplacement⟩ := hstep hp hchain hfirst
      have hcount := Phrase.length_contexts_settle f hflat
      have hplace : p.visits f 0 = contextBehind before inner :: (p.settle f).visits f 0 := by
        rw [hvisits, Nat.zero_add]
        rfl
      obtain ⟨hend, hendchain, hrun⟩ :=
        ih hgood (hfirst.isChain_settle hchain hlast) (by omega)
      rw [Phrase.settleAll_settle] at hend hendchain hrun
      refine ⟨hend, hendchain, ?_⟩
      rw [replaceUpTo, extractContext_first hfirst hchain, hplace]
      show (replaceUpTo replacement rounds (Context.replace _ _ _) >>= _) = _
      rw [hreplacement, replace_first hfirst, ← hfirst.flatMap_spell_settle f, hrun]
      rfl

/-- Replacing contexts until none is left takes as many rounds as there are contexts. -/
lemma replaceUpTo_eq_settleAll (replacement : Context → List Char) (f : Phrase → List Char)
    (Good : Phrase → Prop)
    (hstep : ∀ {p inner before behind}, Good p → p.marks.IsChain Mark.MayPrecede →
      p.First before inner behind → Good (p.settle f) ∧ (f inner).getLast? ≠ some '\\' ∧
        replacement (contextBehind before inner) = escape (f inner))
    (rounds : Nat) {p : Phrase} (hp : Good p) (hchain : p.marks.IsChain Mark.MayPrecede)
    (hrounds : p.contexts.length ≤ rounds) :
    Good (p.settleAll f) ∧ (p.settleAll f).marks.IsChain Mark.MayPrecede ∧
      ∃ found, found.length = p.contexts.length ∧
        replaceUpTo replacement rounds (p.marks.flatMap Mark.spell) =
          .ok (found, (p.settleAll f).marks.flatMap Mark.spell) := by
  obtain ⟨hend, hendchain, hrun⟩ :=
    replaceUpTo_eq_visits replacement f Good hstep rounds hp hchain hrounds
  exact ⟨hend, hendchain, _, p.length_visits f 0, hrun⟩

/-- A text is longer than the number of its contexts. -/
lemma length_contexts_le (p : Phrase) :
    p.contexts.length ≤ (p.marks.flatMap Mark.spell).length := by
  induction p with
  | nil => exact Nat.zero_le _
  | text chars rest ih =>
    rw [Phrase.marks, List.flatMap_append, List.length_append]
    exact ih.trans (Nat.le_add_left _ _)
  | placeholder name rest ih =>
    rw [Phrase.marks, List.flatMap_cons, List.flatMap_append, List.flatMap_cons]
    simp only [List.length_append, Phrase.contexts]
    omega
  | context inner rest ihi ihr =>
    rw [Phrase.marks, List.flatMap_cons, List.flatMap_append, List.flatMap_cons]
    simp only [List.length_append, List.length_cons, Phrase.contexts, Mark.spell]
    omega

end Template

end XmlHarvest
