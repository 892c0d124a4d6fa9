import LinePatch.Event

/-!
# Runs

A computation that reports events on the way and ends with a result or an error. The events that
were reported before an error stay reported.

## Main definitions

* `Run`: the events and the end of a computation, as a monad.
* `Run.mapError`, `Run.emit`, `Run.andReport`: changing the error, and reporting.
-/

namespace LinePatch

/-- The events of a computation, and its end. -/
structure Run (ε α : Type) where
  events : List Event
  result : Except ε α

namespace Run

variable {ε ε' α β : Type}

/-- The run that does nothing but end so. -/
def ofExcept (result : Except ε α) : Run ε α := ⟨[], result⟩

/-- The run that reports events. -/
def emit (events : List Event) : Run ε Unit := ⟨events, .ok ()⟩

/-- One run, and after its success another that knows its result. -/
def bind (run : Run ε α) (next : α → Run ε β) : Run ε β :=
  match run.result with
  | .ok value => ⟨run.events ++ (next value).events, (next value).result⟩
  | .error error => ⟨run.events, .error error⟩

instance : Monad (Run ε) where
  pure value := ofExcept (.ok value)
  bind := bind

/-- The run with another error in place of its own. -/
def mapError (f : ε → ε') (run : Run ε α) : Run ε' α :=
  ⟨run.events, run.result.mapError f⟩

/-- The run with a last report on how it ended. -/
def andReport (onSuccess : α → List Event) (onError : ε → List Event) (run : Run ε α) :
    Run ε α :=
  match run.result with
  | .ok value => ⟨run.events ++ onSuccess value, .ok value⟩
  | .error error => ⟨run.events ++ onError error, .error error⟩

@[simp] theorem pure_def (value : α) : (pure value : Run ε α) = ⟨[], .ok value⟩ := rfl

@[simp] theorem bind_ok (events : List Event) (value : α) (next : α → Run ε β) :
    ((⟨events, .ok value⟩ : Run ε α) >>= next) =
      ⟨events ++ (next value).events, (next value).result⟩ := rfl

@[simp] theorem bind_error (events : List Event) (error : ε) (next : α → Run ε β) :
    ((⟨events, .error error⟩ : Run ε α) >>= next) = ⟨events, .error error⟩ := rfl

end Run

end LinePatch
