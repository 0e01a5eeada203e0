/-!
Computations that may fail.

A chain of steps returns a value just if every step does, which opens a `do` block from either end;
and where a loop returns, what every step preserves holds, and what a step takes of its element
holds of all.
-/

namespace LiveRuns

variable {ε α β : Type}

/-- A computation returns a value if its first part does and the rest does from there. -/
theorem bind_eq_ok {x : Except ε α} {f : α → Except ε β} {b : β} :
    x >>= f = .ok b ↔ ∃ a, x = .ok a ∧ f a = .ok b := by
  cases x with
  | error e => exact ⟨nofun, nofun⟩
  | ok a => exact ⟨fun h => ⟨a, rfl, h⟩, fun ⟨_, rfl, h⟩ => h⟩

theorem map_eq_ok {x : Except ε α} {f : α → β} {b : β} :
    f <$> x = .ok b ↔ ∃ a, x = .ok a ∧ f a = b := by
  cases x with
  | error e => exact ⟨nofun, nofun⟩
  | ok a => exact ⟨fun h => ⟨a, rfl, Except.ok.inj h⟩, fun ⟨_, rfl, h⟩ => h ▸ rfl⟩

theorem mapError_ok {ε' : Type} (f : ε → ε') (a : α) : (Except.ok a).mapError f = .ok a := rfl

theorem mapError_eq_ok {ε' : Type} {x : Except ε α} {f : ε → ε'} {a : α} :
    x.mapError f = .ok a ↔ x = .ok a := by
  cases x with
  | error e => exact ⟨nofun, nofun⟩
  | ok b =>
    rw [mapError_ok]
    exact ⟨fun h => congrArg Except.ok (Except.ok.inj h), fun h => congrArg Except.ok (Except.ok.inj h)⟩

/-- A computation behind a guard returns a value only if the guard lets it through. -/
theorem of_guard {c : Prop} [Decidable c] {e : ε} {f : PUnit → Except ε β} {b : β}
    (h : (if c then throw e >>= f else f ⟨⟩) = .ok b) : ¬ c ∧ f ⟨⟩ = .ok b := by
  by_cases hc : c
  · rw [if_pos hc] at h
    cases h
  · rw [if_neg hc] at h
    exact ⟨hc, h⟩

/-- What every step of a loop preserves holds where the loop returns. -/
theorem foldlM_preserves {f : β → α → Except ε β} {P : β → Prop} {xs : List α} {b b' : β}
    (step : ∀ b x b', P b → f b x = .ok b' → P b') (start : P b)
    (h : xs.foldlM f b = .ok b') : P b' := by
  induction xs generalizing b with
  | nil => cases h; exact start
  | cons x xs ih =>
    rw [List.foldlM_cons] at h
    obtain ⟨next, first, h⟩ := bind_eq_ok.1 h
    exact ih (step b x next start first) h

/-- A loop that returns has taken the step of every element. -/
theorem forall_mem_of_foldlM {f : β → α → Except ε β} {P : α → Prop} {xs : List α} {b b' : β}
    (step : ∀ b x b', f b x = .ok b' → P x) (h : xs.foldlM f b = .ok b') : ∀ x ∈ xs, P x := by
  induction xs generalizing b with
  | nil => exact nofun
  | cons x xs ih =>
    rw [List.foldlM_cons] at h
    obtain ⟨next, first, h⟩ := bind_eq_ok.1 h
    exact List.forall_mem_cons.2 ⟨step b x next first, ih h⟩

end LiveRuns
