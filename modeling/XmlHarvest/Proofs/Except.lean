import Mathlib.Data.List.Basic
import Mathlib.Data.List.Forall2
import XmlHarvest.Result

/-!
# Computations that may fail

What is known of the outcome of computations, one after the other or for the members of a list.

## Main definitions

* `Ensures`: what is known of the result of a computation, and of its fault.

## Main results

* `toOption_eq_some_iff`, `mapError_eq_ok_iff`: success without regard to the faults.
* `exists_error_iff`: failure as the lack of a result.
* `exists_mapM_eq_ok_iff`, `mem_flatten_of_mapM_eq_ok`: computations for the members of a list.
* `mapM_eq_ok_iff`, `mapM_eq_error_iff`: the results for the members of a list, or the first fault.
* `mapM_beside_eq_ok_iff`, `mapM_beside_eq_error_iff`: results that are put beside the members.
* `Ensures.bind`, `Ensures.mapM`: what is known of composed computations.
-/

namespace XmlHarvest

variable {ε α β : Type}

/-- What follows a computation matters for its result only. -/
lemma bind_congr_of_ok {x : Except ε α} {f g : α → Except ε β}
    (h : ∀ a, x = .ok a → f a = g a) : x >>= f = x >>= g := by
  cases x with
  | error e => rfl
  | ok a => exact h a rfl

/-- Forgetting the fault of a computation keeps its result. -/
lemma toOption_eq_some_iff {x : Except ε α} {a : α} : x.toOption = some a ↔ x = .ok a := by
  cases x with
  | error e => exact ⟨fun h => (nomatch h), fun h => (nomatch h)⟩
  | ok b =>
    show some b = some a ↔ _
    rw [Option.some.injEq, Except.ok.injEq]

/-- Computations with the same results, and that fail together, are the same up to their faults. -/
lemma toOption_eq_of_ok_iff {ε' : Type} {x : Except ε α} {y : Except ε' α}
    (h : ∀ a, x = .ok a ↔ y = .ok a) : x.toOption = y.toOption :=
  Option.ext fun a => by rw [toOption_eq_some_iff, toOption_eq_some_iff, h]

/-- Other faults change no result. -/
lemma mapError_eq_ok_iff {ε' : Type} {x : Except ε α} {f : ε → ε'} {a : α} :
    x.mapError f = .ok a ↔ x = .ok a := by
  cases x <;> simp [Except.mapError]

/-- A computation fails if it has no result. -/
lemma exists_error_iff {x : Except ε α} : (∃ fault, x = .error fault) ↔ ∀ a, x ≠ .ok a := by
  cases x <;> simp

/-! ## The members of a list -/

variable {f : α → Except ε β} {as : List α}

/-- Computations for the members of a list succeed if each of them does. -/
lemma exists_mapM_eq_ok_iff : (∃ bs, as.mapM f = .ok bs) ↔ ∀ a ∈ as, ∃ b, f a = .ok b := by
  induction as with
  | nil => exact ⟨fun _ => nofun, fun _ => ⟨[], rfl⟩⟩
  | cons a as ih =>
    rw [List.forall_mem_cons, ← ih, List.mapM_cons]
    constructor
    · rintro ⟨_, h⟩
      obtain ⟨b, hb, h⟩ := bind_eq_ok_iff.1 h
      obtain ⟨bs, hbs, -⟩ := bind_eq_ok_iff.1 h
      exact ⟨⟨b, hb⟩, bs, hbs⟩
    · rintro ⟨⟨b, hb⟩, bs, hbs⟩
      exact ⟨b :: bs, bind_eq_ok_iff.2 ⟨b, hb, bind_eq_ok_iff.2 ⟨bs, hbs, rfl⟩⟩⟩

/-- The results for the members of a list are those of the members. -/
lemma mem_iff_of_mapM_eq_ok {bs : List β} (h : as.mapM f = .ok bs) {b : β} :
    b ∈ bs ↔ ∃ a ∈ as, f a = .ok b := by
  induction as generalizing bs with
  | nil =>
    cases h
    simp
  | cons a as ih =>
    rw [List.mapM_cons] at h
    obtain ⟨c, hc, h⟩ := bind_eq_ok_iff.1 h
    obtain ⟨cs, hcs, h⟩ := bind_eq_ok_iff.1 h
    cases h
    rw [List.mem_cons, List.exists_mem_cons_iff, ih hcs, hc, Except.ok.injEq, eq_comm]

/-- The members of all lists that are computed for the members of a list. -/
lemma mem_flatten_of_mapM_eq_ok {f : α → Except ε (List β)} {bs : List (List β)}
    (h : as.mapM f = .ok bs) {b : β} :
    b ∈ bs.flatten ↔ ∃ a ∈ as, ∃ part, f a = .ok part ∧ b ∈ part := by
  rw [List.mem_flatten]
  constructor
  · rintro ⟨part, hpart, hb⟩
    obtain ⟨a, ha, hpart⟩ := (mem_iff_of_mapM_eq_ok h).1 hpart
    exact ⟨a, ha, part, hpart, hb⟩
  · rintro ⟨a, ha, part, hpart, hb⟩
    exact ⟨part, (mem_iff_of_mapM_eq_ok h).2 ⟨a, ha, hpart⟩, hb⟩

/-- Computations for the members of a list succeed with given results if each of them does. -/
lemma mapM_eq_ok_of_forall₂ {r : α → β → Prop} {bs : List β} (h : List.Forall₂ r as bs)
    (hf : ∀ a ∈ as, ∀ b, r a b → f a = .ok b) : as.mapM f = .ok bs := by
  induction h with
  | nil => rfl
  | cons hb _ ih =>
    obtain ⟨ha, has⟩ := List.forall_mem_cons.1 hf
    rw [List.mapM_cons]
    exact bind_eq_ok_iff.2 ⟨_, ha _ hb, bind_eq_ok_iff.2 ⟨_, ih has, rfl⟩⟩

/-- Computations for the members of a list succeed with their results, in order. -/
lemma mapM_eq_ok_iff {bs : List β} :
    as.mapM f = .ok bs ↔ List.Forall₂ (fun a b => f a = .ok b) as bs := by
  refine ⟨fun h => ?_, fun h => mapM_eq_ok_of_forall₂ h fun _ _ _ hb => hb⟩
  induction as generalizing bs with
  | nil =>
    cases h
    exact .nil
  | cons a as ih =>
    rw [List.mapM_cons] at h
    obtain ⟨b, hb, h⟩ := bind_eq_ok_iff.1 h
    obtain ⟨bs, hbs, h⟩ := bind_eq_ok_iff.1 h
    cases h
    exact .cons hb (ih hbs)

/-- **Computations for the members of a list fail** with the fault of the first member that
fails. -/
lemma mapM_eq_error_iff {e : ε} : as.mapM f = .error e ↔
    ∃ before a behind, as = before ++ a :: behind ∧ (∀ b ∈ before, ∃ v, f b = .ok v) ∧
      f a = .error e := by
  induction as with
  | nil =>
    constructor
    · intro h
      cases h
    · rintro ⟨before, a, behind, h, -⟩
      simp at h
  | cons a as ih =>
    rw [List.mapM_cons, bind_eq_error_iff]
    constructor
    · rintro (h | ⟨b, hb, h⟩)
      · exact ⟨[], a, as, rfl, by simp, h⟩
      · rcases bind_eq_error_iff.1 h with h | ⟨bs, -, h⟩
        · obtain ⟨before, a', behind, rfl, hbefore, ha'⟩ := ih.1 h
          exact ⟨a :: before, a', behind, rfl, List.forall_mem_cons.2 ⟨⟨b, hb⟩, hbefore⟩, ha'⟩
        · cases h
    · rintro ⟨before, a', behind, heq, hbefore, ha'⟩
      cases before with
      | nil =>
        cases heq
        exact .inl ha'
      | cons b before =>
        cases heq
        obtain ⟨⟨v, hv⟩, hbefore⟩ := List.forall_mem_cons.1 hbefore
        have hrest := ih.2 ⟨before, a', behind, rfl, hbefore, ha'⟩
        exact .inr ⟨v, hv, bind_eq_error_iff.2 (.inl hrest)⟩

/-- A result that is put beside what it belongs to is a result of the computation. -/
lemma beside_eq_ok_iff {x : Except ε β} {a : α} {e : α × β} :
    (do return (a, ← x)) = .ok e ↔ (a, x) = (e.1, .ok e.2) := by
  obtain ⟨a', b⟩ := e
  rw [bind_eq_ok_iff, Prod.mk.injEq]
  constructor
  · rintro ⟨_, hx, h⟩
    cases h
    exact ⟨rfl, hx⟩
  · rintro ⟨rfl, hx⟩
    exact ⟨b, hx, rfl⟩

/-- **Results beside the members of a list** are those of the members, in order. -/
lemma mapM_beside_eq_ok_iff {es : List (α × β)} :
    (as.mapM fun a => do return (a, ← f a)) = .ok es ↔
      es.map (fun e => (e.1, .ok e.2)) = as.map fun a => (a, f a) := by
  rw [mapM_eq_ok_iff, eq_comm, ← List.forall₂_eq_eq_eq, List.forall₂_map_left_iff,
    List.forall₂_map_right_iff]
  simp only [beside_eq_ok_iff]

/-- What is put beside the results makes no difference to the faults. -/
lemma mapM_beside_eq_error_iff {e : ε} :
    (as.mapM fun a => do return (a, ← f a)) = .error e ↔ as.mapM f = .error e := by
  have hok (a : α) : (∃ v, (do return (a, ← f a)) = (.ok v : Except ε (α × β))) ↔
      ∃ b, f a = .ok b := by
    cases f a <;> simp
  have herror (a : α) : (do return (a, ← f a)) = Except.error e ↔ f a = .error e := by
    rw [bind_eq_error_iff]
    exact or_iff_left fun ⟨b, _, h⟩ => nomatch h
  simp only [mapM_eq_error_iff, hok, herror]

/-! ## Results and faults -/

/-- A result of a computation has the property, and a fault is of the kind. -/
def Ensures (x : Except ε α) (property : α → Prop) (kind : ε → Prop) : Prop :=
  (∀ a, x = .ok a → property a) ∧ ∀ e, x = .error e → kind e

namespace Ensures

variable {property : α → Prop} {result : β → Prop} {kind kind' : ε → Prop}

lemma ok {a : α} (h : property a) : Ensures (.ok a) property kind :=
  ⟨fun _ ha => Except.ok.inj ha ▸ h, nofun⟩

lemma error {e : ε} (h : kind e) : Ensures (.error e) property kind :=
  ⟨nofun, fun _ he => Except.error.inj he ▸ h⟩

/-- A fault is of every wider kind. -/
lemma mono {x : Except ε α} (hx : Ensures x property kind) (h : ∀ e, kind e → kind' e) :
    Ensures x property kind' :=
  ⟨hx.1, fun e he => h e (hx.2 e he)⟩

/-- Two computations one after the other. -/
lemma bind {x : Except ε α} {f : α → Except ε β} (hx : Ensures x property kind)
    (hf : ∀ a, property a → Ensures (f a) result kind) : Ensures (x >>= f) result kind := by
  cases x with
  | error e => exact .error (hx.2 e rfl)
  | ok a => exact hf a (hx.1 a rfl)

/-- A result that is made of another one. -/
lemma bind_pure {x : Except ε α} {f : α → β} (hx : Ensures x property kind)
    (hf : ∀ a, property a → result (f a)) : Ensures (do return f (← x)) result kind :=
  hx.bind fun a ha => ok (hf a ha)

/-- Computations for the members of a list, in order. -/
lemma mapM {f : α → Except ε β} {property : α → β → Prop} {as : List α}
    (hf : ∀ a ∈ as, Ensures (f a) (property a) kind) :
    Ensures (as.mapM f) (List.Forall₂ property as) kind := by
  induction as with
  | nil => exact ok .nil
  | cons a as ih =>
    obtain ⟨ha, has⟩ := List.forall_mem_cons.1 hf
    rw [List.mapM_cons]
    exact ha.bind fun b hb => (ih has).bind_pure fun bs hbs => .cons hb hbs

end Ensures

end XmlHarvest
