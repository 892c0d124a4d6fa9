import LinePatch.Run

/-!
# Laws of runs

How a run that is known to end one way goes on, as rules for rewriting.
-/

namespace LinePatch.Run

variable {ε ε' α β : Type}

@[simp] theorem map_ok (f : α → β) (events : List Event) (value : α) :
    f <$> (⟨events, .ok value⟩ : Run ε α) = ⟨events, .ok (f value)⟩ := by
  change (⟨events ++ [], .ok (f value)⟩ : Run ε β) = _
  rw [List.append_nil]

@[simp] theorem map_error (f : α → β) (events : List Event) (error : ε) :
    f <$> (⟨events, .error error⟩ : Run ε α) = ⟨events, .error error⟩ := rfl

@[simp] theorem andReport_ok (onSuccess : α → List Event) (onError : ε → List Event)
    (events : List Event) (value : α) :
    (⟨events, .ok value⟩ : Run ε α).andReport onSuccess onError =
      ⟨events ++ onSuccess value, .ok value⟩ := rfl

@[simp] theorem andReport_error (onSuccess : α → List Event) (onError : ε → List Event)
    (events : List Event) (error : ε) :
    (⟨events, .error error⟩ : Run ε α).andReport onSuccess onError =
      ⟨events ++ onError error, .error error⟩ := rfl

@[simp] theorem mapError_ok (f : ε → ε') (events : List Event) (value : α) :
    (⟨events, .ok value⟩ : Run ε α).mapError f = ⟨events, .ok value⟩ := rfl

@[simp] theorem mapError_error (f : ε → ε') (events : List Event) (error : ε) :
    (⟨events, .error error⟩ : Run ε α).mapError f = ⟨events, .error (f error)⟩ := rfl

/-! ### How a run ends -/

theorem result_map (f : α → β) (run : Run ε α) : (f <$> run).result = run.result.map f := by
  rcases run with ⟨events, error | value⟩
  · rfl
  · rw [map_ok]
    rfl

theorem result_bind (run : Run ε α) (next : α → Run ε β) :
    (run >>= next).result = run.result.bind fun value => (next value).result := by
  rcases run with ⟨events, error | value⟩ <;> rfl

theorem result_andReport (onSuccess : α → List Event) (onError : ε → List Event)
    (run : Run ε α) : (run.andReport onSuccess onError).result = run.result := by
  rcases run with ⟨events, error | value⟩ <;> rfl

/-- A run that succeeds has passed both of its parts. -/
theorem result_bind_eq_ok_iff {run : Run ε α} {next : α → Run ε β} {value : β} :
    (run >>= next).result = .ok value ↔
      ∃ first, run.result = .ok first ∧ (next first).result = .ok value := by
  rcases run with ⟨events, error | first⟩ <;> simp

theorem result_mapError_eq_ok_iff {f : ε → ε'} {run : Run ε α} {value : α} :
    (run.mapError f).result = .ok value ↔ run.result = .ok value := by
  rcases run with ⟨events, error | first⟩ <;> simp

/-- How a run ends, as a question that can be decided. -/
theorem result_eq_ok_iff {run : Run ε α} {value : α} :
    run.result = .ok value ↔ run.result.toOption = some value := by
  cases run.result <;> simp [Except.toOption]

theorem exists_result_eq_error_iff {run : Run ε α} :
    (∃ error, run.result = .error error) ↔ run.result.toOption = none := by
  cases run.result <;> simp [Except.toOption]

end LinePatch.Run
