/-!
# Steps that can fail

When a chain of steps succeeds, what becomes of an error that is given another name, and results
that differ in their values only.

## Main definitions

- `SameFault` — both results are values, or both are the same error

## Main statements

- `bind_eq_ok_iff` — a chain succeeds if each of its steps does
- `mapError_eq_ok_iff`, `mapError_eq_error_iff` — other names for errors
- `SameFault.bind` — chains of steps that fail alike
-/

namespace KeyVault

variable {ε δ α β : Type} {x : Except ε α}

theorem bind_eq_ok_iff {f : α → Except ε β} {b : β} :
    x >>= f = .ok b ↔ ∃ a, x = .ok a ∧ f a = .ok b := by
  cases x <;> simp [bind, Except.bind]

theorem mapError_eq_ok_iff {f : ε → δ} {a : α} : x.mapError f = .ok a ↔ x = .ok a := by
  cases x with
  | error error => exact ⟨nofun, nofun⟩
  | ok b =>
    constructor
    · intro h
      rw [Except.ok.inj h]
    · rintro ⟨⟩
      rfl

/-- Names that tell errors apart keep each error recognizable. -/
theorem mapError_eq_error_iff {f : ε → δ} (hf : ∀ a b, f a = f b → a = b) {error : ε} :
    x.mapError f = .error (f error) ↔ x = .error error := by
  cases x with
  | ok a => exact ⟨nofun, nofun⟩
  | error fault =>
    constructor
    · intro h
      rw [hf _ _ (Except.error.inj h)]
    · rintro ⟨⟩
      rfl

/-- Both results are values, whatever they are, or both are the same error. -/
inductive SameFault : Except ε α → Except ε β → Prop
  | ok (a : α) (b : β) : SameFault (.ok a) (.ok b)
  | error (error : ε) : SameFault (.error error) (.error error)

theorem SameFault.bind {α' β' : Type} {y : Except ε β} {f : α → Except ε α'} {g : β → Except ε β'}
    (h : SameFault x y) (hstep : ∀ a b, SameFault (f a) (g b)) :
    SameFault (x >>= f) (y >>= g) := by
  cases h with
  | ok a b => exact hstep a b
  | error error => exact .error error

end KeyVault
