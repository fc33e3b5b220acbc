/-!
# Work that may be refused

Merging two indexes may be refused because they go by different scopes,
interning a text because every number is taken, and a command because it
mentions a name that stands for nothing. Work made of several such steps goes
on only as long as none of them is refused.
-/

namespace ScopedAnnotations

/-- **Two steps succeed together** exactly if the first one does and the second
one then does. -/
theorem bind_eq_ok_iff {ε α β : Type} {step : Except ε α} {next : α → Except ε β} {b : β} :
    (step >>= next) = .ok b ↔ ∃ a, step = .ok a ∧ next a = .ok b := by
  cases step with
  | error e =>
    constructor
    · intro h
      cases show Except.error e = Except.ok b from h
    · rintro ⟨a, h, -⟩
      cases h
  | ok a =>
    constructor
    · intro h
      exact ⟨a, rfl, h⟩
    · rintro ⟨a, ⟨⟩, h⟩
      exact h

section Unrefused

variable {ε α β γ : Type} {step : Except ε α}

/-- If only the first step can be refused, that step decides. -/
theorem exists_bind_eq_ok_iff {next : α → Except ε β} (hnext : ∀ a, ∃ b, next a = .ok b) :
    (∃ b, (step >>= next) = .ok b) ↔ ∃ a, step = .ok a := by
  constructor
  · rintro ⟨b, h⟩
    obtain ⟨a, ha, -⟩ := bind_eq_ok_iff.mp h
    exact ⟨a, ha⟩
  · rintro ⟨a, ha⟩
    obtain ⟨b, hb⟩ := hnext a
    exact ⟨b, bind_eq_ok_iff.mpr ⟨a, ha, hb⟩⟩

/-- If only the first two steps can be refused, and neither depends on the
other, the two decide. -/
theorem exists_bind_bind_eq_ok_iff {step' : Except ε β} {next : α → β → Except ε γ}
    (hnext : ∀ a b, ∃ c, next a b = .ok c) :
    (∃ c, (step >>= fun a => step' >>= next a) = .ok c)
      ↔ (∃ a, step = .ok a) ∧ ∃ b, step' = .ok b := by
  constructor
  · rintro ⟨c, h⟩
    obtain ⟨a, ha, h⟩ := bind_eq_ok_iff.mp h
    obtain ⟨b, hb, -⟩ := bind_eq_ok_iff.mp h
    exact ⟨⟨a, ha⟩, b, hb⟩
  · rintro ⟨⟨a, ha⟩, hb⟩
    obtain ⟨c, hc⟩ := (exists_bind_eq_ok_iff (hnext a)).mpr hb
    exact ⟨c, bind_eq_ok_iff.mpr ⟨a, ha, hc⟩⟩

end Unrefused

end ScopedAnnotations
