/-!
# Results and faults

How the outcome of two computations that may fail, one after the other, comes about.

## Main results

* `bind_eq_ok_iff`, `bind_eq_error_iff`: when two computations succeed or fail one after the other.
-/

namespace XmlHarvest

variable {ε α β : Type}

/-- Two computations succeed one after the other if the first does, and the second does on its
result. -/
theorem bind_eq_ok_iff {x : Except ε α} {f : α → Except ε β} {b : β} :
    (x >>= f) = .ok b ↔ ∃ a, x = .ok a ∧ f a = .ok b := by
  cases x with
  | error e =>
    constructor
    · intro h
      cases h
    · rintro ⟨_, h, _⟩
      cases h
  | ok a =>
    constructor
    · intro h
      exact ⟨a, rfl, h⟩
    · rintro ⟨_, ha, h⟩
      cases ha
      exact h

/-- Two computations fail one after the other if the first does, or the second does on its
result. -/
theorem bind_eq_error_iff {x : Except ε α} {f : α → Except ε β} {e : ε} :
    (x >>= f) = .error e ↔ x = .error e ∨ ∃ a, x = .ok a ∧ f a = .error e := by
  cases x with
  | error e' =>
    show (Except.error e' : Except ε β) = _ ↔ _
    simp
  | ok a =>
    show f a = _ ↔ _
    simp

/-- A result is what it is made of. -/
theorem pure_eq_ok_iff {a b : α} : (pure a : Except ε α) = .ok b ↔ a = b :=
  ⟨fun h => Except.ok.inj h, fun h => h ▸ rfl⟩

end XmlHarvest
