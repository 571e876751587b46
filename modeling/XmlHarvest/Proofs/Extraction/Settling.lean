import XmlHarvest.Proofs.Extraction.FirstMatch

/-!
# Settled outcomes

A cache settles what a computation returns if this is the same from the cache and from every cache
that it grows into. It then does not matter what else is asked before, as long as the cache only
grows. The outcome of a computation that is made of others is made of their outcomes in the same
way, so it can be told without regard to the caches in between.

## Main definitions

* `Extraction.Cache.Settles`: what a computation returns is settled by a cache.
* `Extraction.Cache.GrowsInto`: a cache that is left behind by computations whose outcome is
  settled.

## Main results

* `Extraction.Cache.Settles.outcome_eq`, `Extraction.Cache.Settles.growsInto`: what is settled, and
  what is left behind.
* `Extraction.Cache.Settles.bind`, `Extraction.Cache.Settles.mapM`: computations one after the
  other.
* `Extraction.Reader.Makes.settles`: computations that make evaluations.
-/

namespace XmlHarvest.Extraction

variable {α β : Type}

/-- What a computation returns is settled by a cache: it is the same from this cache and from every
cache that this one grows into, and the computation only lets the cache grow further. -/
def Cache.Settles (c : Cache) (x : Run α) (result : Except Error α) : Prop :=
  ∃ expressions, Does c x result expressions

/-- The second cache has the entries of the first one, and of further expressions. -/
def Cache.GrowsInto (c c' : Cache) : Prop :=
  ∃ expressions, c.Gains c' expressions

namespace Cache

variable {c c' : Cache} {x : Run α} {result : Except Error α}

/-- A cache has grown into itself. -/
lemma GrowsInto.refl (c : Cache) : c.GrowsInto c :=
  ⟨[], .refl c⟩

namespace Settles

/-- What is settled is returned by every cache that has grown since. -/
lemma outcome_eq (h : c.Settles x result) (hc : c.GrowsInto c') : x.outcome c' = result := by
  obtain ⟨es, hes⟩ := h
  obtain ⟨gained, hgained⟩ := hc
  exact (hes c' gained hgained).1

/-- A cache that has grown goes on to grow. -/
lemma growsInto (h : c.Settles x result) (hc : c.GrowsInto c') : c.GrowsInto (x.after c') := by
  obtain ⟨es, hes⟩ := h
  obtain ⟨gained, hgained⟩ := hc
  exact ⟨gained ++ es, (hes c' gained hgained).2⟩

/-- A settled outcome is that of the cache itself. -/
lemma outcome (h : c.Settles x result) : c.Settles x (x.outcome c) :=
  h.outcome_eq (.refl c) ▸ h

lemma pure (a : α) : c.Settles (Pure.pure a) (.ok a) :=
  ⟨[], does_pure a⟩

lemma throw (e : Error) : c.Settles (MonadExcept.throw e : Run α) (.error e) :=
  ⟨[], does_of_const (fun _ => rfl) fun _ => rfl⟩

/-- **Two computations one after the other**: the outcomes are combined like the computations. -/
lemma bind {f : α → Run β} {g : α → Except Error β} (hx : c.Settles x result)
    (hf : ∀ a, c.Settles (f a) (g a)) : c.Settles (x >>= f) (result >>= g) := by
  obtain ⟨es, hes⟩ := hx
  cases result with
  | error e => exact ⟨es, hes.bind_error⟩
  | ok a =>
    obtain ⟨fs, hfs⟩ := hf a
    exact ⟨es ++ fs, hes.bind hfs⟩

/-- A result that is made of another one. -/
lemma bind_pure (f : α → β) (hx : c.Settles x result) :
    c.Settles (do return f (← x)) (do return f (← result)) :=
  hx.bind fun a => pure (f a)

/-- Computations for the members of a list, in order. -/
lemma mapM {f : α → Run β} {g : α → Except Error β} {as : List α}
    (hf : ∀ a ∈ as, c.Settles (f a) (g a)) : c.Settles (as.mapM f) (as.mapM g) := by
  induction as with
  | nil => exact pure []
  | cons a as ih =>
    obtain ⟨ha, has⟩ := List.forall_mem_cons.1 hf
    rw [List.mapM_cons, List.mapM_cons]
    exact ha.bind fun b => (ih has).bind_pure (b :: ·)

end Settles

end Cache

/-- **A computation that makes evaluations** has a settled outcome: the fault of the first one that
fails, or its result. -/
lemma Reader.Makes.settles {r : Reader} {c : Cache} {vs : List Evaluation} {x : Run α} {a : α}
    (h : r.Makes c vs x a) : c.Settles x ((vs.findSome? (r.fault? c)).elim (.ok a) .error) :=
  ⟨_, h⟩

end XmlHarvest.Extraction
