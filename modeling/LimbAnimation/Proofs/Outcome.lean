/-!
# Outcomes that may fail
-/

namespace LimbAnimation

variable {ε α β : Type}

@[simp] theorem ok_bind (first : α) (next : α → Except ε β) :
    (Except.ok first >>= next) = next first := rfl

@[simp] theorem error_bind (failure : ε) (next : α → Except ε β) :
    (Except.error failure >>= next) = .error failure := rfl

theorem bind_eq_ok_iff {outcome : Except ε α} {next : α → Except ε β} {value : β} :
    outcome >>= next = .ok value ↔ ∃ first, outcome = .ok first ∧ next first = .ok value := by
  cases outcome with
  | error failure => simp [bind, Except.bind]
  | ok first => simp [bind, Except.bind]

theorem bind_eq_error_iff {outcome : Except ε α} {next : α → Except ε β} {failure : ε} :
    outcome >>= next = .error failure ↔
      outcome = .error failure ∨ ∃ first, outcome = .ok first ∧ next first = .error failure := by
  cases outcome with
  | error other => simp [bind, Except.bind]
  | ok first => simp [bind, Except.bind]

theorem map_eq_ok_iff {outcome : Except ε α} {change : α → β} {value : β} :
    outcome.map change = .ok value ↔ ∃ first, outcome = .ok first ∧ change first = value := by
  cases outcome with
  | error failure => simp [Except.map]
  | ok first => simp [Except.map]

theorem mapError_eq_ok_iff {δ : Type} {outcome : Except ε α} {change : ε → δ} {value : α} :
    outcome.mapError change = .ok value ↔ outcome = .ok value := by
  cases outcome with
  | error cause => constructor <;> rintro ⟨⟩
  | ok first =>
      constructor
      · rintro ⟨⟩
        rfl
      · rintro ⟨⟩
        rfl

theorem mapError_eq_error_iff {δ : Type} {outcome : Except ε α} {change : ε → δ} {failure : δ} :
    outcome.mapError change = .error failure ↔
      ∃ cause, outcome = .error cause ∧ change cause = failure := by
  cases outcome with
  | error cause =>
      constructor
      · rintro ⟨⟩
        exact ⟨cause, rfl, rfl⟩
      · rintro ⟨_, ⟨⟩, rfl⟩
        rfl
  | ok first =>
      constructor
      · exact fun same => nomatch same
      · rintro ⟨_, ⟨⟩, _⟩

theorem toOption_eq_some_iff {outcome : Except ε α} {value : α} :
    outcome.toOption = some value ↔ outcome = .ok value := by
  cases outcome <;> simp [Except.toOption]

/-- What every step keeps holds at the end of a run that succeeds. -/
theorem foldlM_induction {Holds : β → Prop} {step : β → α → Except ε β}
    (kept : ∀ before item after, Holds before → step before item = .ok after → Holds after)
    {first last : β} {items : List α} (begun : Holds first)
    (run : items.foldlM step first = .ok last) : Holds last := by
  induction items generalizing first with
  | nil =>
      cases run
      exact begun
  | cons item rest ih =>
      rw [List.foldlM_cons, bind_eq_ok_iff] at run
      obtain ⟨next, stepped, later⟩ := run
      exact ih (kept first item next begun stepped) later

/-- A run fails at the first item whose step fails. -/
theorem foldlM_eq_error_iff {step : β → α → Except ε β} {first : β} {items : List α}
    {failure : ε} :
    items.foldlM step first = .error failure ↔
      ∃ before item after reached, items = before ++ item :: after ∧
        before.foldlM step first = .ok reached ∧ step reached item = .error failure := by
  constructor
  · intro failed
    induction items generalizing first with
    | nil => cases failed
    | cons item rest ih =>
        rw [List.foldlM_cons, bind_eq_error_iff] at failed
        rcases failed with here | ⟨next, stepped, later⟩
        · exact ⟨[], item, rest, first, rfl, rfl, here⟩
        · obtain ⟨before, last, after, reached, rfl, run, fails⟩ := ih later
          exact ⟨item :: before, last, after, reached, rfl, by simp [stepped, run], fails⟩
  · rintro ⟨before, item, after, reached, rfl, run, fails⟩
    rw [List.foldlM_append, run, ok_bind, List.foldlM_cons, fails, error_bind]

end LimbAnimation
